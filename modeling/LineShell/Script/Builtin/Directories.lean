import LineShell.Script.Operands

/-!
# Commands on the directory of a script

A script knows by which path it has come to its directory, and moves from there: two dots take
back the last name of that path, even when the name is that of a link.
-/

namespace LineShell

namespace ScriptM

/-- The names of a path, the last one first, after a further name. -/
def stepTo (names : List String) (name : String) : List String :=
  match name with
  | "" | "." => names
  | ".." => names.tail
  | name => name :: names

/-- The names between the slashes of a row of bytes. -/
def namesBetween (octets : String) : List String :=
  (Text.pieces '/' octets.toList).map String.ofList

/-- The path to which another one leads as seen from a directory, without dots. Two slashes in
front stay two. -/
def pathFrom (directory target : String) : String :=
  let isAbsolute := target.toList.head? == some '/'
  let start := if isAbsolute then target else directory
  let slashes := (start.toList.takeWhile fun c => c == '/').length
  let base := if isAbsolute then [] else namesBetween directory
  let names := (base ++ namesBetween target).foldl stepTo []
  (if slashes = 2 then "//" else "/") ++ "/".intercalate names.reverse

/-- The path of the directory where the process is; empty when there is none, which is said. -/
def realDirectory : ScriptM String := do
  match ← ask .whereabouts with
  | .ok p => return Text.octetsOfText p.text
  | .error e =>
    complain ("getcwd() failed: " ++ e.description)
    return ""

/-- Takes note of the directory of the process, which is a new one. -/
def settleIn (directory : String) : ScriptM Unit := do
  modify fun st => { st with directory := directory }
  assignExported "PWD" directory

/-- Moves to a directory, by the path of the script unless links are to be seen through. -/
def moveTo (throughLinks : Bool) (target : String) : ScriptM Bool := do
  let before := (← get).directory
  let path := if throughLinks || before.isEmpty then target else pathFrom before target
  match pathOf? path with
  | none => return false
  | some p =>
    match ← ask (.move p) with
    | .error _ => return false
    | .ok () =>
      modify fun st => { st with tracked := TrackedProgram.distrust st.tracked }
      assignExported "OLDPWD" before
      settleIn (← if throughLinks || before.isEmpty then realDirectory else pure path)
      return true

/-- Whether a path leads to a directory. -/
def isDirectory (path : String) : ScriptM Bool := do
  match pathOf? path with
  | none => return false
  | some p =>
    match ← ask (.look p true) with
    | .ok (_, node) => return node.isDirectory
    | .error _ => return false

/-- A path below the directory with the given name, which may be empty. -/
def pathBelow (directory path : String) : String :=
  if directory.isEmpty then path else directory ++ "/" ++ path

/-- Whether a path tells itself where it begins. -/
def isRooted (path : String) : Bool :=
  match path.toList with
  | [] => false
  | '/' :: _ => true
  | cs =>
    let first := cs.takeWhile fun c => c != '/'
    first == ['.'] || first == ['.', '.']

/-- The first directory in a search path that a path leads to, and whether it is worth saying. -/
def searchDirectory (target : String) : List String → ScriptM (Option (String × Bool))
  | [] => return none
  | directory :: rest => do
    let path := pathBelow directory target
    if ← isDirectory path then return some (path, !directory.isEmpty)
    else searchDirectory target rest

/-- The directories of a variable that holds a search path. -/
def searchPathOf (name : String) : ScriptM (List String) := do
  match ← value? name with
  | none => return []
  | some text => return (Text.pieces ':' text.toList).map String.ofList

/-- Whether options ask to see through links. -/
def seesThroughLinks (options : List (Char × String)) : Bool :=
  options.getLast?.any fun o => o.1 == 'P'

/-- Moves to another directory. -/
def cdCommand (words : List String) : ScriptM Nat := do
  let (options, words) ← takeOptions "LP" words
  let target ←
    match words with
    | [] => pure ((← value? "HOME").getD "")
    | "-" :: _ => pure ((← value? "OLDPWD").getD "")
    | word :: _ => pure word
  let (path, isTold) ←
    if isRooted target then pure (target, false)
    else
      match ← searchDirectory (if target.isEmpty then "." else target)
          (← searchPathOf "CDPATH") with
      | some found => pure found
      | none => pure (if target.isEmpty then "." else target, false)
  if ← moveTo (seesThroughLinks options) path then
    if isTold || words.head? == some "-" then say ((← get).directory ++ "\n")
    return 0
  else fail ("can\x27t cd to " ++ (if target.isEmpty then "." else target))

/-- Writes the path of the directory. -/
def pwdCommand (words : List String) : ScriptM Nat := do
  let (options, _) ← takeOptions "LP" words
  let directory ←
    if seesThroughLinks options then realDirectory else pure (← get).directory
  say (directory ++ "\n")
  return 0

end ScriptM

end LineShell
