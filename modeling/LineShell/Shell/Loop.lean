import LineShell.Shell

/-!
# The loop of a shell

The shell runs one line after the other until a line leaves a request to end pending or there
are no more lines. A line that cannot be read as a pipeline is reported and changes nothing but
the history.
-/

namespace LineShell

/-- The outcome of asking for the next line. -/
inductive LineRead where
  | line (text : String)
  /-- The next line is not a text. -/
  | unreadable
  | endOfInput
  deriving DecidableEq, Repr

/-- How the loop of a shell ends. -/
inductive LoopEnd where
  /-- The shell was asked to end with this code, or the input ended. -/
  | exited (code : ExitCode)
  /-- A line was not a text. -/
  | unreadable
  /-- A stage waits for ever, and the shell with it. -/
  | blocked
  deriving DecidableEq, Repr

namespace Shell

variable {σ η : Type}

/-- Runs one line of the loop and reports what is wrong with it. Gives whether the shell can go
on at all. -/
def runLine (host : Host σ η) (factories : List (Factory σ η)) (text : String) (sh : Shell σ) :
    Bool × Shell σ :=
  match sh.executeLine host factories text with
  | (.ok _, sh) => (true, sh)
  | (.error .blocked, sh) => (false, sh)
  | (.error e, sh) => (true, sh.report host e.message)

/-- Runs lines as they come, at most the given number of them. -/
def loop (host : Host σ η) (factories : List (Factory σ η)) (nextLine : σ → LineRead × σ) :
    Nat → Shell σ → LoopEnd × Shell σ
  | 0, sh => (.exited 0, sh)
  | lines + 1, sh =>
    match nextLine sh.system with
    | (.endOfInput, s) => (.exited 0, ⟨sh.env, s⟩)
    | (.unreadable, s) => (.unreadable, ⟨sh.env, s⟩)
    | (.line text, s) =>
      match runLine host factories text ⟨sh.env, s⟩ with
      | (false, sh) => (.blocked, sh)
      | (true, sh) =>
        match sh.env.exitRequest with
        | some code => (.exited code, sh)
        | none => loop host factories nextLine lines sh

end Shell

end LineShell
