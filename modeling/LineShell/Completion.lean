import LineShell.Builtin.Name
import LineShell.Path
import LineShell.Text.Blank

/-!
# Completion of command names

The word before the cursor is completed to the command names that start with it: builtins and the
files in the directories of the search path. A single match is completed with a space after it,
several are first completed as far as they agree, and then all of them are offered.
-/

namespace LineShell

/-- An entry of a directory, with the bytes of its name. -/
structure DirectoryEntry where
  name : ByteArray
  /-- Whether the entry is known to be a directory itself. Links are not followed. -/
  isDirectory : Bool

namespace Completion

/-- Puts a name into its place in a strictly increasing list, once. -/
def insertName (name : String) : List String → List String
  | [] => [name]
  | other :: rest =>
    if name < other then name :: other :: rest
    else if name = other then other :: rest
    else other :: insertName name rest

/-- The names of a list in strictly increasing order of their code points. -/
def sortedNames (names : List String) : List String :=
  names.foldl (fun sorted name => insertName name sorted) []

/-- Whether a name starts with a word. -/
def startsWith (word name : String) : Bool := word.toList.isPrefixOf name.toList

/-- The command name that an entry offers. Directories offer none, and neither do entries whose
names are not text. -/
def offered? (entry : DirectoryEntry) : Option String :=
  if entry.isDirectory then none else String.fromUTF8? entry.name

/-- The command names that the directories of a search path offer. Directories that cannot be
listed offer none. -/
def fileNames (listDirectory : Path → Option (List DirectoryEntry)) (searchPath : List Path) :
    List String :=
  searchPath.flatMap fun dir => ((listDirectory dir).getD []).filterMap offered?

/-- The command names that start with a word, in strictly increasing order. -/
def commandsStartingWith (listDirectory : Path → Option (List DirectoryEntry))
    (searchPath : List Path) (word : String) : List String :=
  sortedNames ((Builtin.all.map Builtin.name ++ fileNames listDirectory searchPath).filter
    (startsWith word))

/-- The characters in which two texts agree before they differ. -/
def commonStart : List Char → List Char → List Char
  | a :: as, b :: bs => if a = b then a :: commonStart as bs else []
  | _, _ => []

/-- The longest text with which all the names start; empty when there are no names. -/
def longestCommonStart : List String → String
  | [] => ""
  | first :: rest =>
    String.ofList (rest.foldl (fun start name => commonStart start name.toList) first.toList)

/-- The characters of a line that take up the given number of bytes at most. -/
def takeBytes : Nat → List Char → List Char
  | _, [] => []
  | n, c :: rest => if c.utf8Size ≤ n then c :: takeBytes (n - c.utf8Size) rest else []

/-- The number of bytes that characters take up. -/
def byteCount : List Char → Nat
  | [] => 0
  | c :: rest => c.utf8Size + byteCount rest

/-- Whether a character can stand in the word that is completed. -/
def inWord (c : Char) : Bool := !(Text.isBlank c || c == '|')

/-- The characters of the word that ends a text. -/
def lastWord (cs : List Char) : List Char := (cs.reverse.takeWhile inWord).reverse

/-- The characters before the word that ends a text. -/
def beforeLastWord (cs : List Char) : List Char := (cs.reverse.dropWhile inWord).reverse

end Completion

/-- One way to complete a word: how it is shown, and what replaces the word. -/
structure Candidate where
  display : String
  replacement : String
  deriving DecidableEq, Repr

/-- The ways to complete a word that starts at the given byte of the line. -/
structure Completion where
  start : Nat
  candidates : List Candidate
  deriving DecidableEq, Repr

namespace Completion

/-- A whole name, followed by a space. -/
def wholeName (name : String) : Candidate := ⟨name, name.push ' '⟩

/-- The candidates for a word among the names that start with it. -/
def candidatesFor (word : String) (names : List String) : List Candidate :=
  match names with
  | [] => []
  | [name] => [wholeName name]
  | names =>
    let start := longestCommonStart names
    if word.utf8ByteSize < start.utf8ByteSize then [⟨start, start⟩] else names.map wholeName

/-- Completes the word that ends at the cursor, which stands at the given byte of the line. -/
def complete (listDirectory : Path → Option (List DirectoryEntry)) (searchPath : List Path)
    (line : String) (cursor : Nat) : Completion :=
  let before := takeBytes cursor line.toList
  let word := String.ofList (lastWord before)
  ⟨byteCount (beforeLastWord before),
    candidatesFor word (commandsStartingWith listDirectory searchPath word)⟩

end Completion

end LineShell
