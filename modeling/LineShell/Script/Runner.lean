import LineShell.Script.Evaluation

/-!
# The runner of scripts

The program of the system that runs scripts: from the words and the variables that it is called
with to its end.
-/

namespace LineShell

namespace ScriptRunner

open ScriptM

/-- The settings that the first words ask for, whether commands are to be read from a word, and the
words behind. -/
def takeCallSettings : Nat → Bool → List String → ScriptM (Bool × List String)
  | 0, takesWord, words => return (takesWord, words)
  | _, takesWord, [] => return (takesWord, [])
  | steps + 1, takesWord, word :: rest =>
    match word.toList with
    | ['-'] | ['-', '-'] => return (takesWord, rest)
    | sign :: letters =>
      if sign == '-' || sign == '+' then do
        let others := letters.filter fun c => c != 'c' && c != 'l'
        takeCallSettings steps (takesWord || letters.contains 'c')
          (← setLetters (sign == '-') others rest)
      else return (takesWord, word :: rest)
    | [] => return (takesWord, word :: rest)

/-- Runs the commands of a file whose path is given. -/
def runPath (path : String) (arguments : List String) : ScriptM Unit := do
  match ← openTarget .read path with
  | .error e => fail ("cannot open " ++ path ++ ": " ++ openingFault "No such file" e)
  | .ok d =>
    let file ←
      match ← ask (.setAside d) with
      | .ok file => do
        ask (.close d)
        pure file
      | .error _ => pure d
    modify fun st => { st with name := path, arguments := arguments }
    discard (runFile runCommand file)

/-- Runs the commands that the words of the call lead to: in a word, in a file, or in the standard
input. -/
def runCall (words : List String) : ScriptM Unit := do
  let (takesWord, words) ← takeCallSettings (words.length + 1) false words
  let readsInput ← hasOption 's'
  match words with
  | [] =>
    if takesWord then fail "-c requires an argument"
    changeSetting true 's'
    discard (runFile runCommand 0)
  | first :: rest =>
    if takesWord then
      if let name :: arguments := rest then
        modify fun st => { st with name := name, arguments := arguments }
      discard (runText runCommand ⟨false, !readsInput⟩ first)
      if readsInput then discard (runFile runCommand 0)
    else if readsInput then
      modify fun st => { st with arguments := words }
      discard (runFile runCommand 0)
    else runPath first rest

/-- The variables that entries stand for. Of several for one variable the last counts. -/
def inherited (entries : List String) : List ScriptVariable :=
  entries.foldl (fun found entry =>
    match ScriptReader.splitAtName? entry.toList with
    | some (name, value) => putVariable ⟨name, some (String.ofList value), true, false⟩ found
    | none => found) []

/-- Gives a variable a value, and keeps it exported when it is. -/
def setValue (name value : String) (bindings : List ScriptVariable) : List ScriptVariable :=
  let isExported := bindings.any fun v => v.name == name && v.isExported
  putVariable ⟨name, some value, isExported, false⟩ bindings

/-- Gives a variable a value when it is missing. -/
def setMissing (name value : String) (bindings : List ScriptVariable) : List ScriptVariable :=
  if bindings.any fun v => v.name == name then bindings else setValue name value bindings

/-- The variables of a new script: the inherited ones and those that every script has. -/
def variablesFor (parent : ProcessId) (entries : List String) : List ScriptVariable :=
  (inherited entries)
    |> setValue "IFS" " \t\n" |> setValue "OPTIND" "1" |> setValue "PPID" (toString parent)
    |> setMissing "PATH" standardPath |> setMissing "PS1" "$ " |> setMissing "PS2" "> "
    |> setMissing "PS4" "+ "

/-- A script before its first command. -/
def start (id parent : ProcessId) (name : String) (entries : List String) : ScriptState where
  spent := 0
  bindings := variablesFor parent entries
  frames := []
  loops := 0
  name := name
  arguments := []
  status := 0
  outputStatus := 0
  id := id
  parent := parent
  lastBackground := none
  jobs := []
  functions := []
  aliases := []
  tracked := []
  options := []
  traps := []
  caught := []
  directory := ""
  line := 0
  reached := 0
  command := none
  hasLostOutput := false
  optionPosition := firstOption
  interrupted := none

/-- Finds out by which path the script has come to its directory: the inherited one if it leads
there. -/
def findDirectory : ScriptM Unit := do
  let path := (← value? "PWD").getD ""
  let isRight ←
    if path.toList.head? == some '/' then do
      match ← nodeAt? path true, ← nodeAt? "." true with
      | some (a, _), some (b, _) => pure (a == b)
      | _, _ => pure false
    else pure false
  settleIn (← if isRight then pure path else realDirectory)

/-- The name under which the runner speaks before it knows its own. -/
def ownName : String := "sh"

/-- The routine of a process that runs a script. -/
def routine (id parent : ProcessId) (words entries : List String) : Routine Unit :=
  let step : ScriptM Unit := do
    try
      findDirectory
      modify fun st => { st with name := words.headD "" }
      runCall words.tail
    catch _ => pure ()
    runEndAction runCommand
    finish
  do discard (StateT.run (ExceptT.run step) (start id parent ownName entries))

end ScriptRunner

end LineShell
