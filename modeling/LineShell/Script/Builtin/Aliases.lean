import LineShell.Script.Builtin.Variables

/-!
# Commands on names for texts

The commands of the script language that let names stand for texts, and list them.
-/

namespace LineShell

namespace ScriptM

/-- A name with its text, as it can be read again. -/
def aliasText (a : Alias) : String := a.name ++ "=" ++ inQuotes a.text

/-- Splits a word at an equals sign behind its first character. -/
def nameAndText? (word : String) : Option (String × String) :=
  match word.toList with
  | [] => none
  | c :: cs =>
    let name := cs.takeWhile fun c => c != '='
    match cs.drop name.length with
    | [] => none
    | _ :: text => some (String.ofList (c :: name), String.ofList text)

/-- Complains that a name stands for no text. -/
def complainOfName (command name : String) : ScriptM Unit :=
  discard (put 2 (command ++ ": " ++ name ++ " not found\n"))

/-- Lets names stand for texts, or lists those that do. -/
def aliasCommand (words : List String) : ScriptM Nat := do
  if words.isEmpty then
    let aliases := Alias.table.sorted Alias.name (← get).aliases
    say (String.join (aliases.map fun a => aliasText a ++ "\n"))
  let mut status := 0
  for word in words do
    match nameAndText? word with
    | some (name, text) => modify fun st => { st with aliases := Alias.put name text st.aliases }
    | none =>
      match Alias.text? word (← get).aliases with
      | some text => say (aliasText ⟨word, text⟩ ++ "\n")
      | none =>
        complainOfName "alias" word
        status := 1
  return status

/-- Lets names stand for themselves again. -/
def unaliasCommand (words : List String) : ScriptM Nat := do
  let (options, names) ← takeOptions "a" words
  if !options.isEmpty then
    modify fun st => { st with aliases := [] }
    return 0
  let mut status := 0
  for name in names do
    if (Alias.text? name (← get).aliases).isNone then
      complainOfName "unalias" name
      status := 1
    modify fun st => { st with aliases := Alias.remove name st.aliases }
  return status

end ScriptM

end LineShell
