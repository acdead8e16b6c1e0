/-!
# The names of the builtins

The commands that the shell runs itself. A name in this list always means the builtin, whatever
files have the same name.
-/

namespace LineShell

/-- The commands that the shell runs itself. -/
inductive Builtin where
  | exit
  | echo
  | type
  | pwd
  | cd
  | history
  deriving DecidableEq, Repr

namespace Builtin

/-- The builtins in the order in which they claim a name. -/
def all : List Builtin := [exit, echo, type, pwd, cd, history]

/-- The word that calls a builtin. -/
def name : Builtin → String
  | exit => "exit"
  | echo => "echo"
  | type => "type"
  | pwd => "pwd"
  | cd => "cd"
  | history => "history"

/-- The builtin that a word calls. -/
def ofName? (word : String) : Option Builtin := all.find? fun b => b.name == word

end Builtin

end LineShell
