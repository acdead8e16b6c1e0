import LineShell.Script.Builtin.Aliases
import LineShell.Script.Builtin.Directories
import LineShell.Script.Redirection

/-!
# What the name of a command stands for

A name stands for a function of the script, for a command that the language brings along, or for
a program, which is searched in the directories of a variable. A name with a slash is the path of
a program.
-/

namespace LineShell

/-- What the name of a command stands for. -/
inductive ScriptCommand where
  | builtin
  | function (body : Script)
  /-- A program at the first of some paths where it can be run. -/
  | program (paths : List String)
  /-- Nothing that can be run. -/
  | missing (cause : SystemError)

namespace ScriptM

/-- The commands that the language brings along and that end a script when they fail. -/
def specialBuiltins : List String := "local" :: ScriptReader.specialCommands

/-- The other commands that the language brings along. -/
def ordinaryBuiltins : List String :=
  ["[", "alias", "bg", "cd", "chdir", "command", "echo", "false", "fg", "getopts", "hash", "jobs",
    "kill", "printf", "pwd", "read", "test", "true", "type", "ulimit", "umask", "unalias", "wait"]

/-- Whether a name stands for a command that the language brings along. -/
def isBuiltin (name : String) : Bool :=
  specialBuiltins.contains name || ordinaryBuiltins.contains name

/-- The directories in which programs are searched when no others are asked for. -/
def standardPath : String := "/usr/local/sbin:/usr/local/bin:/usr/sbin:/usr/bin:/sbin:/bin"

/-- The directories in which programs are searched. -/
def programDirectories (usesStandard : Bool) : ScriptM (List String) := do
  let text ← if usesStandard then pure standardPath else do pure ((← value? "PATH").getD "")
  return (Text.pieces ':' text.toList).map String.ofList

/-- The place of the first path with a program; otherwise why there is none. A program that has been
found before is not looked for again at rooted paths up to its place. -/
def searchProgram (known : Option Nat) (cause : SystemError) :
    Nat → List String → ScriptM (Except SystemError Nat)
  | _, [] => return .error cause
  | place, path :: rest => do
    let isKnown (holds : Nat → Bool) : Bool := path.toList.head? == some '/' && known.any holds
    if isKnown fun old => place == old then return .ok place
    if isKnown fun old => place < old then searchProgram known cause (place + 1) rest
    else
      match pathOf? path with
      | none => searchProgram known cause (place + 1) rest
      | some p =>
        match ← ask (.look p true) with
        | .error .notFound | .error .notADirectory => searchProgram known cause (place + 1) rest
        | .error e => searchProgram known e (place + 1) rest
        | .ok (_, .file _ true) | .ok (_, .program _) => return .ok place
        | .ok _ => searchProgram known .permissionDenied (place + 1) rest

/-- Whether a name is a path. -/
def isPath (name : String) : Bool := name.toList.contains '/'

/-- The program that a name stands for. Where it is found is remembered, unless it is searched in
other directories than usual. -/
def findProgram (tracks usesStandardPath : Bool) (name : String) : ScriptM ScriptCommand := do
  let paths := (← programDirectories usesStandardPath).map fun directory =>
    pathBelow directory name
  let st ← get
  match TrackedProgram.find? name (if tracks then st.tracked else []) with
  | some ⟨_, place, false⟩ => return .program (paths.drop place)
  | known =>
    match ← searchProgram (known.map TrackedProgram.place) .notFound 0 paths with
    | .ok place =>
      if tracks then
        modify fun st => { st with tracked := TrackedProgram.put name place st.tracked }
      return .program (paths.drop place)
    | .error e =>
      if tracks then
        modify fun st => { st with tracked := TrackedProgram.remove name st.tracked }
      return .missing e

/-- What the name of a command stands for. Functions can be left out. -/
def findCommand (skipsFunctions usesStandardPath : Bool) (name : String) :
    ScriptM ScriptCommand := do
  if isPath name then return .program [name]
  match (← get).functions.lookup name with
  | some body =>
    if !skipsFunctions then return .function body
    else if isBuiltin name then return .builtin
    else findProgram false usesStandardPath name
  | none =>
    if isBuiltin name then return .builtin
    else findProgram (!usesStandardPath) usesStandardPath name

/-- What is wrong with a command that cannot be run. -/
def commandFault : SystemError → String := openingFault "not found"

/-- Writes what a name stands for, in words or in short. -/
def describe (usesStandardPath inWords : Bool) (name : String) : ScriptM Nat := do
  let found (text words : String) : ScriptM Nat := do
    say ((if inWords then name ++ words else text) ++ "\n")
    return 0
  let missing : ScriptM Nat := do
    if inWords then say (name ++ ": not found\n")
    return 127
  let st ← get
  let isTracked := !usesStandardPath && (TrackedProgram.find? name st.tracked).isSome
  if ScriptToken.keywords.contains name then found name " is a shell keyword"
  else if let some text := Alias.text? name st.aliases then
    found ("alias " ++ aliasText ⟨name, text⟩) (" is an alias for " ++ text)
  else
    match ← if isTracked then trackedProgram name else findCommand false usesStandardPath name with
    | .builtin =>
      let kind := if specialBuiltins.contains name then "special " else ""
      found name (" is a " ++ kind ++ "shell builtin")
    | .function _ => found name " is a shell function"
    | .missing _ => missing
    | .program [] => missing
    | .program (path :: _) =>
      let isThere ←
        if isPath name then
          match pathOf? name with
          | none => pure false
          | some p => do pure (← ask (.look p true)).isOk
        else pure true
      let is := if isTracked then " is a tracked alias for " else " is "
      if isThere then found path (is ++ path) else missing
where
  /-- The program that a name was found to stand for. -/
  trackedProgram (name : String) : ScriptM ScriptCommand := do
    let paths := (← programDirectories false).map fun directory => pathBelow directory name
    let place := ((TrackedProgram.find? name (← get).tracked).map TrackedProgram.place).getD 0
    return .program (paths.drop place)

/-- Writes what names stand for. -/
def typeCommand (status : Nat) : List String → ScriptM Nat
  | [] => return status
  | name :: rest => do
    let found ← describe false true name
    typeCommand (status ||| found) rest

/-- Lists the programs that have been found. Those that have to be looked for again are marked. -/
def listTracked : ScriptM Unit := do
  let directories ← programDirectories false
  let line (p : TrackedProgram) : String :=
    pathBelow (directories[p.place]?.getD "") p.name ++ (if p.isStale then "*" else "") ++ "\n"
  let programs := TrackedProgram.table.sorted TrackedProgram.name (← get).tracked
  say (String.join (programs.map line))

/-- Looks for programs so that they are found faster later, forgets them, or lists them. -/
def hashCommand (words : List String) : ScriptM Nat := do
  let (options, names) ← takeOptions "r" words
  if !options.isEmpty then
    modify fun st => { st with tracked := [] }
    return 0
  if names.isEmpty then listTracked
  let mut status := 0
  for name in names do
    modify fun st => { st with tracked := TrackedProgram.remove name st.tracked }
    match ← findCommand false false name with
    | .missing e =>
      complain (name ++ ": " ++ commandFault e)
      status := 1
    | _ => pure ()
  return status

end ScriptM

end LineShell
