import LineShell.Script.NameTable

/-!
# Names for texts

A name can stand for a text where a script has a command.
-/

namespace LineShell

/-- A name and the text that it stands for where a command begins. -/
structure Alias where
  name : String
  text : String
  deriving DecidableEq, Repr

namespace Alias

/-- The table of the names with texts. -/
def table : NameTable := ⟨39⟩

/-- The text that a name stands for. -/
def text? (name : String) (aliases : List Alias) : Option String :=
  (aliases.find? fun a => a.name == name).map Alias.text

/-- The names with one more, or with another text for one of them. -/
def put (name text : String) : List Alias → List Alias
  | [] => [⟨name, text⟩]
  | a :: rest => if a.name == name then ⟨name, text⟩ :: rest else a :: put name text rest

/-- The names without one of them. -/
def remove (name : String) (aliases : List Alias) : List Alias :=
  aliases.filter fun a => a.name != name

/-- Whether the word behind the text of a name can be such a name as well: the text ends in a
blank. -/
def endsInBlank (text : String) : Bool :=
  text.toList.getLast?.any fun c => c == ' ' || c == '\t'

end Alias

end LineShell
