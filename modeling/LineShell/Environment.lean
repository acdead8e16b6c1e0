import LineShell.ExitCode
import LineShell.History
import LineShell.Path

/-!
# The environment of a shell

Everything that commands may see and change apart from files: the variables, the current
directory, the history, and the request to leave the shell.
-/

namespace LineShell

/-- What a shell knows between two commands. -/
structure Environment where
  /-- The variables that programs inherit; no name occurs twice. -/
  bindings : List (String × String)
  currentDirectory : Path
  history : History
  /-- The code with which the shell was asked to end, once it was. -/
  exitRequest : Option ExitCode
  deriving DecidableEq, Repr

namespace Environment

/-- The environment at the start of a session. -/
def initial (bindings : List (String × String)) (currentDirectory : Path) : Environment :=
  ⟨bindings, currentDirectory, .empty, none⟩

/-- The value of a variable. -/
def get? (env : Environment) (name : String) : Option String := env.bindings.lookup name

/-- Gives a variable in a list a value, in its place when it is there and at the end when not. -/
def assign (name value : String) : List (String × String) → List (String × String)
  | [] => [(name, value)]
  | (other, old) :: rest =>
    if other = name then (name, value) :: rest else (other, old) :: assign name value rest

/-- The name and the value in an entry for a variable: they stand on both sides of the first equals
sign behind the first character. An entry without one means nothing. -/
def splitEntry? (entry : String) : Option (String × String) :=
  match entry.toList with
  | [] => none
  | c :: rest =>
    let name := rest.takeWhile fun c => c != '='
    match rest.drop name.length with
    | [] => none
    | _ :: value => some (String.ofList (c :: name), String.ofList value)

/-- The bindings that entries stand for. Of several for one variable the last counts. -/
def bindingsOf (entries : List String) : List (String × String) :=
  entries.foldl (fun bindings entry =>
    match splitEntry? entry with
    | some (name, value) => assign name value bindings
    | none => bindings) []

/-- The environment in which a variable has a value. -/
def set (env : Environment) (name value : String) : Environment :=
  { env with bindings := assign name value env.bindings }

/-- The directories in which commands are searched: the pieces of the variable PATH between its
colons, empty ones included, and none when the variable is not set. -/
def searchPath (env : Environment) : List Path :=
  match env.get? "PATH" with
  | none => []
  | some text => (Text.pieces ':' text.toList).map fun piece => ⟨String.ofList piece⟩

/-- The home directory: the variable HOME, or the directory of the user below the directory of
all homes. -/
def homeDirectory (env : Environment) : Path :=
  match env.get? "HOME" with
  | some home => ⟨home⟩
  | none => Path.join ⟨"/home"⟩ ⟨(env.get? "USER").getD ""⟩

/-- The environment after the shell was asked to end with a code. -/
def requestExit (env : Environment) (code : ExitCode) : Environment :=
  { env with exitRequest := some code }

/-- Whether the shell was asked to end. -/
def shouldExit (env : Environment) : Bool := env.exitRequest.isSome

end Environment

end LineShell
