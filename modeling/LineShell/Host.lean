import LineShell.ExitCode
import LineShell.Path
import LineShell.SystemError
import LineShell.Token

/-!
# What a shell needs from the system it runs on

The rules of pipelines and builtins do not depend on a particular system. They are written over
the operations collected here: streams are opaque handles, and every operation that can change
something takes the state of the system and gives it back.
-/

namespace LineShell

/-- The three standard streams of a command. -/
structure Streams (η : Type) where
  stdin : η
  stdout : η
  stderr : η
  deriving Repr

/-- Why a text was not written as a whole. -/
inductive WriteError where
  /-- The system refused to write. -/
  | failed (cause : SystemError)
  /-- The stream is full and nothing that could empty it is running, so the writer waits for
  ever. -/
  | blocked
  deriving DecidableEq, Repr

/-- A program to be run, with everything that it inherits. -/
structure Launch where
  /-- The name under which the program is called. -/
  name : String
  program : Path
  args : List String
  bindings : List (String × String)
  directory : Path
  deriving DecidableEq, Repr

/-- A child process, known by what waiting for it gives. -/
abbrev Child (σ : Type) := σ → Except SystemError WaitStatus × σ

/-- The operations of a system with states of type `σ` and streams of type `η`. -/
structure Host (σ η : Type) where
  /-- The streams of the terminal. -/
  terminal : Streams η
  /-- Makes a pipe and gives its reading and its writing end. It is assumed that pipes can be made:
  the operation has no failure, so no pipeline ends for want of a pipe. -/
  pipe : σ → (η × η) × σ
  /-- Opens a file for the output of a command. -/
  openOutput : RedirectMode → Path → σ → Except SystemError η × σ
  /-- Writes bytes; some of them may be written even if not all can be. -/
  write : η → ByteArray → σ → Except WriteError Unit × σ
  /-- Closes a stream. Others who have it open are not concerned. -/
  close : η → σ → σ
  /-- Whether a path leads to a regular file. -/
  isFile : σ → Path → Bool
  /-- Whether a path leads to a directory. -/
  isDirectory : σ → Path → Bool
  /-- The absolute path without links that leads to the same file. -/
  canonicalPath : σ → Path → Except SystemError Path
  /-- Moves the process of the shell to a directory. -/
  changeDirectory : Path → σ → Except SystemError Unit × σ
  /-- Starts a child process. -/
  spawn : Launch → Streams η → σ → Except SystemError (Child σ) × σ

namespace Host

variable {σ η : Type}

/-- Writes a line and its line feed. -/
def writeLine (host : Host σ η) (stream : η) (line : String) (s : σ) :
    Except WriteError Unit × σ :=
  host.write stream (line.push '\n').toUTF8 s

/-- Closes streams. -/
def closeAll (host : Host σ η) (streams : List η) (s : σ) : σ :=
  streams.foldl (fun s stream => host.close stream s) s

/-- Writes lines until one cannot be written. -/
def writeLines (host : Host σ η) (stream : η) : List String → σ → Except WriteError Unit × σ
  | [], s => (.ok (), s)
  | line :: rest, s =>
    match host.writeLine stream line s with
    | (.ok (), s) => host.writeLines stream rest s
    | (.error e, s) => (.error e, s)

end Host

end LineShell
