import LineShell.Script.Alias
import LineShell.Script.Basic

/-!
# The text of a script while it is read

A script is read from left to right, and only as far as the next commands to be run. Where its
text ends before they do, more of it is needed, which is a fault of its own.
-/

namespace LineShell

/-- Why commands cannot be read. -/
inductive ScriptFault where
  /-- The text at hand ends too early. -/
  | unfinished
  /-- Something on the given line is wrong. -/
  | wrong (line : Nat) (message : String)
  deriving DecidableEq, Repr

/-- A text that stands below the line of the redirection that it is meant for. -/
structure HereText where
  /-- The line that ends the text. -/
  ending : String
  /-- Whether parameters in the text are expanded. -/
  expands : Bool
  /-- Whether tabs in front of the lines are dropped. -/
  dropsTabs : Bool
  deriving DecidableEq, Repr

/-- A lexical unit of a script. -/
inductive ScriptToken where
  | word (pieces : ScriptWord)
  /-- An operator of a redirection, for the stream with the given number if there is one. -/
  | redirect (descriptor : Option Nat) (symbol : String)
  | operator (symbol : String)
  | newline
  | endOfText

/-- A text that has been put in the place of a name. -/
structure Substitution where
  name : String
  /-- The number of characters behind the text. -/
  behind : Nat
  /-- Whether the word behind the text may be replaced as well. -/
  invites : Bool
  deriving DecidableEq, Repr

/-- How far a script has been read. -/
structure ScriptText where
  /-- What is still to be read. -/
  rest : List Char
  line : Nat
  /-- Whether no more text follows. -/
  isComplete : Bool
  /-- The unit that has been read ahead. -/
  ahead : Option ScriptToken
  /-- The texts that are to be found below the line, the last one first. -/
  awaited : List HereText
  /-- The texts that have been found below their lines, the last one first. -/
  found : List ScriptWord
  /-- The texts below the lines that an earlier reading has found, for the redirections that are
  still to be read. -/
  known : List ScriptWord
  /-- The names that stand for texts. -/
  aliases : List Alias
  /-- The texts in the places of names that are being read. -/
  substitutions : List Substitution

namespace ScriptText

/-- A text of which nothing has been read. -/
def start (rest : List Char) (line : Nat) (isComplete : Bool) : ScriptText :=
  ⟨rest, line, isComplete, none, [], [], [], [], []⟩

/-- A text inside another one, with the names of that one. A name whose text is being read stands
for itself. -/
def inside (outer : ScriptText) (rest : List Char) (line : Nat) : ScriptText :=
  { start rest line true with
    aliases := outer.aliases
    substitutions := (outer.substitutions.filter fun s => s.behind ≤ outer.rest.length).map fun s =>
      ⟨s.name, 0, false⟩ }

/-- The text with more behind it. -/
def extended (s : ScriptText) (more : List Char) : ScriptText :=
  { s with
    rest := s.rest ++ more
    substitutions := s.substitutions.map fun t => { t with behind := t.behind + more.length } }

/-- The number of characters that are still to be read and do not stand in the place of a name. -/
def ownLength (s : ScriptText) : Nat :=
  s.substitutions.foldl (fun n t => min n t.behind) s.rest.length

end ScriptText

/-- A reader of a part of a script. -/
abbrev ScriptReader := StateT ScriptText (Except ScriptFault)

namespace ScriptReader

/-- Finds a fault in the line that is being read. -/
def refuse {α : Type} (message : String) : ScriptReader α := do
  throw (.wrong (← get).line message)

/-- Finds that the text ends too early, and what is wrong with that if no more text follows. -/
def endsEarly {α : Type} (message : String) : ScriptReader α := do
  if (← get).isComplete then refuse message else throw .unfinished

/-- The characters that are still to be read. -/
def rest : ScriptReader (List Char) := do return (← get).rest

/-- Goes on behind some characters. -/
def skipTo (rest : List Char) : ScriptReader Unit :=
  modify fun s => { s with rest := rest }

/-- Goes on behind a line end. -/
def skipLineEnd (rest : List Char) : ScriptReader Unit :=
  modify fun s => { s with rest := rest, line := s.line + 1 }

/-- Goes on behind a character and the given rest. -/
def skip (c : Char) (rest : List Char) : ScriptReader Unit :=
  if c == '\n' then skipLineEnd rest else skipTo rest

/-- Letters, underscores and, behind the first character, digits make up names. -/
def isNameChar (c : Char) : Bool := c.isAlphanum || c == '_'

/-- Whether a character can begin a name. -/
def isNameStart (c : Char) : Bool := c.isAlpha || c == '_'

/-- Whether a text is a name. -/
def isName (text : String) : Bool :=
  match text.toList with
  | [] => false
  | c :: rest => isNameStart c && rest.all isNameChar

/-- Splits a text at the equals sign behind the name of a variable. -/
def splitAtName? (cs : List Char) : Option (String × List Char) :=
  match cs.takeWhile isNameChar, cs.dropWhile isNameChar with
  | c :: name, '=' :: value =>
    if c.isDigit then none else some (String.ofList (c :: name), value)
  | _, _ => none

/-- What is still to be read: a character at least, unless nothing follows at all. -/
def ahead : ScriptReader (List Char) := do
  let s ← get
  if s.rest.isEmpty && !s.isComplete then throw .unfinished else return s.rest

/-- Drops line ends that a backslash hides, and counts them. -/
def dropJoins : List Char → Nat → List Char × Nat
  | '\\' :: '\n' :: rest, joined => dropJoins rest (joined + 1)
  | cs, joined => (cs, joined)

/-- What is still to be read behind line ends that a backslash hides. -/
def aheadJoined : ScriptReader (List Char) := do
  let cs ← ahead
  match dropJoins cs 0 with
  | (_, 0) => return cs
  | (rest, joined) =>
    modify fun s => { s with rest := rest, line := s.line + joined }
    ahead

/-- Reads the characters that have a property, as long as they come. -/
def takeWhile (property : Char → Bool) : ScriptReader String := do
  let cs ← rest
  let found := cs.takeWhile property
  skipTo (cs.drop found.length)
  discard ahead
  return String.ofList found

end ScriptReader

end LineShell
