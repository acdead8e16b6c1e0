/-!
# Patterns

A pattern is matched against a whole text. A question mark stands for any character, an asterisk
for any number of them, and brackets for one of the characters they list.
-/

namespace LineShell

/-- A member of a bracket: a range of characters, or a class of them by its name. -/
inductive BracketMember where
  | range (first last : Char)
  | named (name : String)
  deriving DecidableEq, Repr

/-- A part of a pattern. -/
inductive PatternItem where
  | char (c : Char)
  | any
  | many
  | bracket (isNegated : Bool) (members : List BracketMember)
  deriving DecidableEq, Repr

/-- A pattern. -/
abbrev Pattern := List PatternItem

namespace BracketMember

/-- The names of the classes of characters. -/
def classNames : List String :=
  ["alpha", "digit", "alnum", "upper", "lower", "space", "blank", "punct", "graph", "print",
    "cntrl", "xdigit"]

/-- Whether a character belongs to a class. No character belongs to an unknown class. -/
def inClass (name : String) (c : Char) : Bool :=
  let isPunctuation := 0x21 ≤ c.toNat && c.toNat ≤ 0x7E && !c.isAlphanum
  match name with
  | "alpha" => c.isAlpha
  | "digit" => c.isDigit
  | "alnum" => c.isAlphanum
  | "upper" => c.isUpper
  | "lower" => c.isLower
  | "space" => c == ' ' || (0x09 ≤ c.toNat && c.toNat ≤ 0x0D)
  | "blank" => c == ' ' || c == '\t'
  | "punct" => isPunctuation
  | "graph" => isPunctuation || c.isAlphanum
  | "print" => isPunctuation || c.isAlphanum || c == ' '
  | "cntrl" => c.toNat < 0x20 || c.toNat == 0x7F
  | "xdigit" => c.isDigit || ('a' ≤ c && c ≤ 'f') || ('A' ≤ c && c ≤ 'F')
  | _ => false

/-- The place of a byte in the order of ranges, in which the bytes outside ASCII come first. -/
def rank (c : Char) : Nat := (c.toNat + 128) % 256

/-- Whether a character is meant by a member. -/
def holds (c : Char) : BracketMember → Bool
  | range first last => rank first ≤ rank c && rank c ≤ rank last
  | named name => inClass name c

end BracketMember

namespace Pattern

/-- Takes the name of a known class off the text behind an opening bracket. -/
def className? (cs : List (Char × Bool)) : Option (String × List (Char × Bool)) :=
  match cs with
  | (':', false) :: rest =>
    let name := (rest.map Prod.fst).takeWhile Char.isAlpha
    match rest.drop name.length with
    | (':', false) :: (']', false) :: rest =>
      if BracketMember.classNames.contains (String.ofList name) then some (String.ofList name, rest)
      else none
    | _ => none
  | _ => none

/-- The member that begins with a character, and what follows it. -/
def memberFrom (c : Char) (cs : List (Char × Bool)) : BracketMember × List (Char × Bool) :=
  match cs with
  | ('-', false) :: (']', false) :: _ => (.range c c, cs)
  | ('-', false) :: ('\\', false) :: (last, _) :: rest => (.range c last, rest)
  | ('-', false) :: (last, _) :: rest => (.range c last, rest)
  | cs => (.range c c, cs)

/-- Reads the members of a bracket up to its end. Nothing is found when it has no end. The first
member may be a closing bracket, and so may any character behind a backslash. -/
def members? (isFirst : Bool) (found : List BracketMember) :
    Nat → List (Char × Bool) → Option (List BracketMember × List (Char × Bool))
  | 0, _ => none
  | steps + 1, cs =>
    match cs with
    | [] => none
    | (c, isQuoted) :: rest =>
      if c == ']' && !isQuoted && !isFirst then some (found.reverse, rest)
      else
        let (member, rest) :=
          match if c == '[' && !isQuoted then className? rest else none, rest with
          | some (name, rest), _ => (.named name, rest)
          | none, (hidden, _) :: after =>
            if c == '\\' && !isQuoted then memberFrom hidden after else memberFrom c rest
          | none, [] => memberFrom c []
        members? false (member :: found) steps rest

/-- The bracket behind its opening, and what follows it. -/
def bracket? (cs : List (Char × Bool)) : Option (PatternItem × List (Char × Bool)) :=
  match cs with
  | ('!', false) :: rest =>
    (members? true [] (rest.length + 1) rest).map fun (members, rest) =>
      (.bracket true members, rest)
  | cs =>
    (members? true [] (cs.length + 1) cs).map fun (members, rest) =>
      (.bracket false members, rest)

/-- The parts of a pattern. The characters that are flagged stand for themselves, and so does any
character behind a backslash. -/
def itemsOf : Nat → List (Char × Bool) → Pattern
  | 0, _ => []
  | steps + 1, cs =>
    match cs with
    | [] => []
    | ('?', false) :: rest => .any :: itemsOf steps rest
    | ('*', false) :: rest => .many :: itemsOf steps rest
    | ('[', false) :: rest =>
      match bracket? rest with
      | some (item, rest) => item :: itemsOf steps rest
      | none => .char '[' :: itemsOf steps rest
    | ('\\', false) :: (c, _) :: rest => .char c :: itemsOf steps rest
    | (c, _) :: rest => .char c :: itemsOf steps rest

/-- The pattern that characters make up, of which the flagged ones stand for themselves. -/
def ofChars (cs : List (Char × Bool)) : Pattern := itemsOf (cs.length + 1) cs

/-- A text and what is left of it when characters are taken off its start one by one. -/
def endings : List Char → List (List Char)
  | [] => [[]]
  | c :: cs => (c :: cs) :: endings cs

/-- Whether a pattern covers a whole text. -/
def covers : Pattern → List Char → Bool
  | [], cs => cs.isEmpty
  | .many :: rest, cs => (endings cs).any fun cs => covers rest cs
  | .any :: rest, cs =>
    match cs with
    | [] => false
    | _ :: cs => covers rest cs
  | .char c :: rest, cs =>
    match cs with
    | [] => false
    | other :: cs => other == c && covers rest cs
  | .bracket isNegated members :: rest, cs =>
    match cs with
    | [] => false
    | c :: cs => (members.any (BracketMember.holds c)) != isNegated && covers rest cs

/-- The numbers up to a greatest one, the smallest or the greatest first. -/
def lengths (greatest : Nat) (longest : Bool) : List Nat :=
  let all := List.range (greatest + 1)
  if longest then all.reverse else all

/-- A text without the shortest or longest start that a pattern covers. -/
def dropStart (p : Pattern) (longest : Bool) (text : String) : String :=
  let cs := text.toList
  match (lengths cs.length longest).find? fun n => covers p (cs.take n) with
  | some n => String.ofList (cs.drop n)
  | none => text

/-- A text without the shortest or longest end that a pattern covers. -/
def dropEnd (p : Pattern) (longest : Bool) (text : String) : String :=
  let cs := text.toList
  match (lengths cs.length longest).find? fun n => covers p (cs.drop (cs.length - n)) with
  | some n => String.ofList (cs.take (cs.length - n))
  | none => text

/-- The text that a pattern stands for when nothing in it stands for anything else. -/
def plain? : Pattern → Option (List Char)
  | [] => some []
  | .char c :: rest => (plain? rest).map fun cs => c :: cs
  | _ => none

end Pattern

end LineShell
