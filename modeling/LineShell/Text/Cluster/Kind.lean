import LineShell.Text.Cluster.Ranges

/-!
# The part that a character plays in a cluster

Every character has one kind. The rules that join characters into clusters see nothing else of
them.
-/

namespace LineShell.Text

/-- What the rules for clusters see of a character. -/
inductive ClusterKind where
  | carriageReturn
  | lineFeed
  | control
  /-- A mark on the character before it. -/
  | mark
  /-- A mark that links two consonants. -/
  | linker
  /-- A mark that keeps two characters from being joined. -/
  | nonJoiner
  /-- A mark that joins two pictographs. -/
  | joiner
  /-- A mark that takes up space. -/
  | spacing
  /-- A sign that belongs to the character after it. -/
  | prepend
  | consonant
  /-- A letter that opens a syllable written in parts. -/
  | leading
  | vowel
  /-- A letter that closes a syllable written in parts. -/
  | trailing
  /-- A syllable in one character that a further letter can close. -/
  | openSyllable
  /-- A syllable in one character that a letter closes already. -/
  | closedSyllable
  /-- One half of a flag. -/
  | halfFlag
  | pictograph
  | other
  deriving DecidableEq, Repr

namespace ClusterKind

/-- The ranges of the kinds that hold many characters, and of some that hold one or a few. -/
def ranges : List (ClusterKind × List (Nat × Nat)) :=
  [(control, controlRanges), (mark, extendRanges), (carriageReturn, [(0x0D, 0x0D)]),
    (lineFeed, [(0x0A, 0x0A)]), (spacing, spacingRanges), (prepend, prependRanges),
    (consonant, consonantRanges), (linker, linkerRanges), (nonJoiner, [(0x200C, 0x200C)]),
    (joiner, [(0x200D, 0x200D)]), (leading, leadingRanges), (vowel, vowelRanges),
    (trailing, trailingRanges), (halfFlag, [(0x1F1E6, 0x1F1FF)]), (pictograph, pictographRanges)]

/-- The first of the syllables in one character, which are ordered by their parts. -/
def firstSyllable : Nat := 0xAC00

/-- The last of the syllables in one character. -/
def lastSyllable : Nat := 0xD7A3

/-- The number of syllables that differ in the closing letter alone; the first of them has none. -/
def closings : Nat := 28

/-- The kind of a character. -/
def ofChar (c : Char) : ClusterKind :=
  let n := c.toNat
  if firstSyllable ≤ n ∧ n ≤ lastSyllable then
    if (n - firstSyllable) % closings = 0 then openSyllable else closedSyllable
  else
    match ranges.find? fun entry => within n entry.2 with
    | some (kind, _) => kind
    | none => other

/-- Whether a character never joins another one, a line feed after a carriage return apart. -/
def standsAlone : ClusterKind → Bool
  | carriageReturn | lineFeed | control => true
  | _ => false

/-- Whether a character joins any character before it that does not stand alone. -/
def follows : ClusterKind → Bool
  | mark | linker | nonJoiner | joiner | spacing => true
  | _ => false

/-- Whether two characters are neighbouring parts of one syllable. -/
def sharesSyllable : ClusterKind → ClusterKind → Bool
  | leading, leading | leading, vowel | leading, openSyllable | leading, closedSyllable => true
  | openSyllable, vowel | vowel, vowel => true
  | openSyllable, trailing | vowel, trailing => true
  | closedSyllable, trailing | trailing, trailing => true
  | _, _ => false

end ClusterKind

end LineShell.Text
