import LineShell.Host
import LineShell.Resolution
import LineShell.Text.Numeral

/-!
# Calls of builtins

A call is a builtin with the operands that it takes. What a call prescribes, that is the lines it
writes, its code and the environment after it, is worked out before anything is written.
-/

namespace LineShell

/-- A builtin with its operands. -/
inductive BuiltinCall where
  | exit (code : Option String)
  | echo (words : List String)
  | type (name : Option String)
  | pwd
  | cd (target : Option String)
  | history (limit : Option String)
  deriving DecidableEq, Repr

/-- Why a builtin refuses its operands. -/
inductive BuiltinError where
  /-- The operand has to be a number. -/
  | numberRequired (operand : String)
  /-- The operand does not lead to a directory. -/
  | noSuchDirectory (target : Path)
  /-- An operand is missing. -/
  | missingOperand
  deriving DecidableEq, Repr

namespace BuiltinError

/-- The text shown for a refused operand. -/
def message : BuiltinError → String
  | numberRequired operand => operand ++ ": numeric argument required"
  | noSuchDirectory target => target.text ++ ": No such file or directory"
  | missingOperand => "missing argument"

end BuiltinError

/-- What a call prescribes. -/
structure BuiltinReport where
  /-- The lines for standard output. -/
  output : List String
  /-- The lines for standard error. -/
  complaints : List String
  code : ExitCode
  environment : Environment

namespace BuiltinCall

/-- The operand of a builtin that takes one at most, or the first word too many. -/
def singleOperand (call : Option String → BuiltinCall) : List String → Except String BuiltinCall
  | [] => .ok (call none)
  | [word] => .ok (call (some word))
  | _ :: surplus :: _ => .error surplus

/-- The call of a builtin with the given words, or the first word that it does not take. -/
def ofWords (b : Builtin) (words : List String) : Except String BuiltinCall :=
  match b with
  | .exit => singleOperand exit words
  | .echo => .ok (echo words)
  | .type => singleOperand type words
  | .pwd =>
    match words with
    | [] => .ok pwd
    | surplus :: _ => .error surplus
  | .cd => singleOperand cd words
  | .history => singleOperand history words

/-- The builtin that is called. -/
def builtin : BuiltinCall → Builtin
  | exit _ => .exit
  | echo _ => .echo
  | type _ => .type
  | pwd => .pwd
  | cd _ => .cd
  | history _ => .history

/-- The code that an exit asks for. -/
def exitCode? : Option String → Except BuiltinError ExitCode
  | none => .ok 0
  | some word =>
    match Text.signed32? word with
    | some code => .ok code
    | none => .error (.numberRequired word)

/-- The number of entries that a history call asks for. -/
def limit? : Option String → Except BuiltinError (Option Nat)
  | none => .ok none
  | some word =>
    match Text.count? word with
    | some n => .ok (some n)
    | none => .error (.numberRequired word)

/-- The directory that a change of directory names: the home directory without an operand, for an
empty one and for a tilde. -/
def cdTarget (env : Environment) : Option String → Path
  | none | some "" | some "~" => env.homeDirectory
  | some word => ⟨word⟩

variable {σ η : Type}

/-- Moves the shell and its process to the directory that a path leads to. -/
def enterDirectory (host : Host σ η) (env : Environment) (target : Path) (s : σ) :
    Except BuiltinError Path × σ :=
  match host.canonicalPath s (env.currentDirectory.join target) with
  | .error _ => (.error (.noSuchDirectory target), s)
  | .ok directory =>
    if host.isDirectory s directory then
      match host.changeDirectory directory s with
      | (.ok (), s) => (.ok directory, s)
      | (.error _, s) => (.error (.noSuchDirectory target), s)
    else (.error (.noSuchDirectory target), s)

/-- What the lookup of a name shows. -/
def describe (name : String) (env : Environment) : Resolution → BuiltinReport
  | .builtin _ => ⟨[name ++ " is a shell builtin"], [], 0, env⟩
  | .external program => ⟨[name ++ " is " ++ program.text], [], 0, env⟩
  | .unresolved => ⟨[], [name ++ ": not found"], 1, env⟩

/-- The line that lists an entry of the history. -/
def historyLine (entry : Nat × String) : String := toString entry.1 ++ " " ++ entry.2

/-- What a call prescribes, or why it refuses its operands. Only a change of directory changes the
system. -/
def perform (host : Host σ η) (call : BuiltinCall) (env : Environment) (s : σ) :
    Except BuiltinError BuiltinReport × σ :=
  match call with
  | exit code =>
    (match exitCode? code with
      | .ok code => .ok ⟨[], [], code, env.requestExit code⟩
      | .error e => .error e, s)
  | echo words => (.ok ⟨[String.join words], [], 0, env⟩, s)
  | type none => (.error .missingOperand, s)
  | type (some name) => (.ok (describe name env (resolve (host.isFile s) env name)), s)
  | pwd => (.ok ⟨[env.currentDirectory.text], [], 0, env⟩, s)
  | cd target =>
    match enterDirectory host env (cdTarget env target) s with
    | (.ok directory, s) => (.ok ⟨[], [], 0, { env with currentDirectory := directory }⟩, s)
    | (.error e, s) => (.error e, s)
  | history limit =>
    (match limit? limit with
      | .ok limit => .ok ⟨(env.history.tail limit).map historyLine, [], 0, env⟩
      | .error e => .error e, s)

end BuiltinCall

end LineShell
