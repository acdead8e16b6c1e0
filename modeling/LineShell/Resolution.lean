import LineShell.Builtin.Name
import LineShell.Environment

/-!
# What a command name refers to

A name is a builtin, a file, or nothing. Which paths are files is given by a predicate, so that
the rules of the search stand apart from any particular file system.
-/

namespace LineShell

/-- The file among the given ones. -/
def fileAt? (isFile : Path → Bool) (p : Path) : Option Path := if isFile p then some p else none

/-- The program that a name stands for. An absolute path stands for itself and any other path with
a slash is seen from the current directory; only a bare name is searched in the directories of
the search path, of which empty ones are skipped. -/
def findProgram (isFile : Path → Bool) (searchPath : List Path) (currentDirectory name : Path) :
    Option Path :=
  if name.isAbsolute then fileAt? isFile name
  else if name.text.isEmpty then none
  else if name.hasSlash then fileAt? isFile (currentDirectory.join name)
  else (searchPath.filter fun dir => !dir.text.isEmpty).findSome? fun dir =>
    fileAt? isFile (dir.join name)

/-- What a command name refers to. -/
inductive Resolution where
  | builtin (b : Builtin)
  | external (program : Path)
  | unresolved
  deriving DecidableEq, Repr

/-- Classifies a command name: builtins first, then programs. -/
def resolve (isFile : Path → Bool) (env : Environment) (name : String) : Resolution :=
  match Builtin.ofName? name with
  | some b => .builtin b
  | none =>
    match findProgram isFile env.searchPath env.currentDirectory ⟨name⟩ with
    | some program => .external program
    | none => .unresolved

end LineShell
