import LineShell.Script.Arithmetic

/-!
# Conditions of scripts

A condition is a row of words: questions about files, texts and integers, joined by operators.
Whether a word is an operator depends on the words behind it. All questions are asked, from left
to right, even when the answer is already known.
-/

namespace LineShell

/-- How a word of a condition is taken. -/
inductive ConditionWord where
  /-- There is no word. -/
  | missing
  | operand
  /-- A question about the next word. -/
  | about (symbol : String)
  /-- A question about the words on both sides. -/
  | between (symbol : String)
  | negation
  | both
  | either
  | opening
  | closing
  deriving DecidableEq, Repr

namespace ConditionWord

/-- The questions about one word. -/
def singleQuestions : List String :=
  ["-r", "-w", "-x", "-e", "-f", "-d", "-c", "-b", "-p", "-u", "-g", "-k", "-s", "-t", "-z", "-n",
    "-h", "-L", "-S", "-O", "-G"]

/-- The questions about two words. -/
def pairQuestions : List String :=
  ["=", "!=", "<", ">", "-eq", "-ne", "-ge", "-gt", "-le", "-lt", "-nt", "-ot", "-ef"]

/-- Whether a word asks about the words on both its sides. -/
def isBetween (word : String) : Bool := pairQuestions.contains word

/-- How the first of some words is taken. A question about the next word is an operand itself when
there is no such word, or when the next word asks about the words on both its sides. -/
def ofWords : List String → ConditionWord
  | [] => missing
  | word :: rest =>
    match word with
    | "!" => negation
    | "-a" => both
    | "-o" => either
    | "(" => if rest.isEmpty then operand else opening
    | ")" => closing
    | word =>
      if isBetween word then between word
      else if singleQuestions.contains word then
        match rest with
        | [] => operand
        | next :: _ :: _ => if isBetween next then operand else about word
        | [_] => about word
      else operand

end ConditionWord

/-- What is to be found true or false. -/
inductive ConditionGoal where
  /-- Conditions of which one must be true. -/
  | either
  /-- Conditions of which all must be true. -/
  | both
  | negated
  | question
  deriving DecidableEq, Repr

namespace ScriptM

/-- The integer that a word of a condition is. -/
def conditionNumber (word : String) : ScriptM Int :=
  match Arithmetic.ofText? false false word with
  | some n => return n
  | none => fail ("Illegal number: " ++ word)

/-- What a path leads to, or names when links are not followed. -/
def nodeAt? (path : String) (followsLink : Bool) : ScriptM (Option (NodeId × Node)) := do
  match pathOf? path with
  | none => return none
  | some p => return (← ask (.look p followsLink)).toOption

/-- Whether a file can be run, or a directory be entered. -/
def isUsable : Node → Bool
  | .file _ executable => executable
  | .directory _ | .program _ => true
  | .link _ | .device _ => false

/-- Whether a file has any size. -/
def hasSize : Node → Bool
  | .file contents _ => !contents.isEmpty
  | .directory _ | .program _ => true
  | .link _ | .device _ => false

/-- The answer to a question about a word. -/
def askAbout (symbol word : String) : ScriptM Bool := do
  let answer (followsLink : Bool) (property : Node → Bool) : ScriptM Bool := do
    return (← nodeAt? word followsLink).any fun found => property found.2
  match symbol with
  | "-z" => return word.isEmpty
  | "-n" => return !word.isEmpty
  | "-t" =>
    discard (conditionNumber word)
    return false
  | "-e" | "-r" | "-w" | "-O" | "-G" => answer true fun _ => true
  | "-x" => answer true isUsable
  | "-f" => answer true Node.isRegular
  | "-d" => answer true Node.isDirectory
  | "-s" => answer true hasSize
  | "-c" => answer true fun
    | .device _ => true
    | _ => false
  | "-h" | "-L" => answer false fun
    | .link _ => true
    | _ => false
  | _ => answer true fun _ => false

/-- The answer to a question about two words. All files count as equally old. -/
def askBetween (left symbol right : String) : ScriptM Bool := do
  let compare (property : Int → Int → Bool) : ScriptM Bool := do
    let a ← conditionNumber left
    let b ← conditionNumber right
    return property a b
  match symbol with
  | "=" => return left == right
  | "!=" => return left != right
  | "<" => return left < right
  | ">" => return right < left
  | "-eq" => compare fun a b => a == b
  | "-ne" => compare fun a b => a != b
  | "-ge" => compare fun a b => b ≤ a
  | "-gt" => compare fun a b => b < a
  | "-le" => compare fun a b => a ≤ b
  | "-lt" => compare fun a b => a < b
  | "-ef" => do
    match ← nodeAt? left true, ← nodeAt? right true with
    | some (a, _), some (b, _) => return a == b
    | _, _ => return false
  | _ => return false

/-- Finds out a condition that begins with the first of some words, which is taken in the given
way. Gives the words from the last one of the condition on. -/
def findOut : Nat → ConditionGoal → ConditionWord → List String → ScriptM (Bool × List String)
  | 0, _, _, words => return (false, words)
  | depth + 1, goal, kind, words =>
    match goal with
    | .either => do
      let (first, words) ← findOut depth .both kind words
      if ConditionWord.ofWords words.tail == .either then
        let rest := words.drop 2
        let (second, words) ← findOut depth .either (.ofWords rest) rest
        return (first || second, words)
      else return (first, words)
    | .both => do
      let (first, words) ← findOut depth .negated kind words
      if ConditionWord.ofWords words.tail == .both then
        let rest := words.drop 2
        let (second, words) ← findOut depth .both (.ofWords rest) rest
        return (first && second, words)
      else return (first, words)
    | .negated =>
      if kind == .negation then
        if words.tail.isEmpty then return (true, words)
        else do
          let (truth, words) ← findOut depth .negated (.ofWords words.tail) words.tail
          return (!truth, words)
      else findOut depth .question kind words
    | .question =>
      match kind with
      | .missing => return (false, words)
      | .opening =>
        let rest := words.tail
        if ConditionWord.ofWords rest == .closing then return (false, rest)
        else do
          let (truth, words) ← findOut depth .either (.ofWords rest) rest
          if ConditionWord.ofWords words.tail != .closing then fail "closing paren expected"
          return (truth, words.tail)
      | .about symbol =>
        match words.tail with
        | [] => fail (symbol ++ ": argument expected")
        | word :: rest => return (← askAbout symbol word, word :: rest)
      | _ =>
        let left := words.headD ""
        match ConditionWord.ofWords words.tail, words.drop 2 with
        | .between symbol, [] => fail (symbol ++ ": argument expected")
        | .between symbol, right :: rest =>
          return (← askBetween left symbol right, right :: rest)
        | _, _ => return (!left.isEmpty, words)

/-- Finds out the condition that words make up when its first word is taken in the given way. No
words may follow it. -/
def findOutAll (kind : ConditionWord) (words : List String) : ScriptM Bool := do
  let (truth, rest) ← findOut (4 * words.length + 4) .either kind words
  match rest with
  | word :: _ :: _ =>
    fail (if word.isEmpty then "unexpected operator" else word ++ ": unexpected operator")
  | _ => return truth

/-- Whether the condition that words make up is true, or false when it is negated. Three words
with an operator in the middle are always a question about the outer ones; otherwise three or four
words may be negated or in parentheses. A negation of four words takes in one of three. -/
def holds (isNegated : Bool) : List String → ScriptM Bool
  | [] => return isNegated
  | first :: rest => do
    let isShort := rest.length == 2 || rest.length == 3
    if rest.length == 2 && ConditionWord.isBetween (rest.headD "") then
      return (← findOutAll .operand (first :: rest)) != isNegated
    else if isShort && first == "(" && rest.getLast? == some ")" then
      return (← findOutAll (.ofWords rest.dropLast) rest.dropLast) != isNegated
    else if isShort && first == "!" then holds true rest
    else return (← findOutAll (.ofWords (first :: rest)) (first :: rest)) != isNegated

end ScriptM

end LineShell
