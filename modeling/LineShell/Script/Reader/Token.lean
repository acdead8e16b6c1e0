import LineShell.Script.Reader.Word

/-!
# Reading the units of a script

Words, operators and line ends are read one after the other, at most one of them ahead. Behind a
line end stand the texts that the redirections of the line have asked for.
-/

namespace LineShell

namespace ScriptToken

/-- The words that have a meaning of their own where a command begins. -/
def keywords : List String :=
  ["!", "\x7b", "\x7d", "case", "do", "done", "elif", "else", "esac", "fi", "for", "if", "in",
    "then", "until", "while"]

/-- The keyword that a unit is. -/
def keyword? : ScriptToken → Option String
  | .word w =>
    match ScriptReader.plainText? w with
    | some t => if keywords.contains t then some t else none
    | none => none
  | _ => none

/-- Whether a unit is a given operator. -/
def isOperator (symbol : String) : ScriptToken → Bool
  | .operator other => other == symbol
  | _ => false

/-- What a unit is called in messages. Keywords count as words where no command can begin. -/
def description (mayBeKeyword : Bool) (token : ScriptToken) : String :=
  match token with
  | .word _ =>
    match if mayBeKeyword then token.keyword? else none with
    | some t => "\"" ++ t ++ "\""
    | none => "word"
  | .redirect _ _ => "redirection"
  | .operator symbol => "\"" ++ symbol ++ "\""
  | .newline => "newline"
  | .endOfText => "end of file"

/-- Whether a unit ends a list of commands. -/
def endsList (token : ScriptToken) : Bool :=
  match token with
  | .endOfText | .operator ")" | .operator ";;" => true
  | token =>
    match token.keyword? with
    | some t => ["do", "done", "elif", "else", "esac", "fi", "then", "\x7d"].contains t
    | none => false

end ScriptToken

namespace ScriptReader

/-- The redirection operator behind its first character. -/
def redirectSymbol (first : Char) : ScriptReader String := do
  match first, ← aheadJoined with
  | '>', '>' :: rest => skipTo rest; return ">>"
  | '>', '&' :: rest => skipTo rest; return ">&"
  | '>', '|' :: rest => skipTo rest; return ">|"
  | '<', '&' :: rest => skipTo rest; return "<&"
  | '<', '>' :: rest => skipTo rest; return "<>"
  | '<', '<' :: rest =>
    skipTo rest
    match ← aheadJoined with
    | '-' :: rest => skipTo rest; return "<<-"
    | _ => return "<<"
  | first, _ => return first.toString

/-- An operator that may be doubled, behind its first character. -/
def doubled (first : Char) : ScriptReader ScriptToken := do
  match ← aheadJoined with
  | c :: rest =>
    if c == first then
      skipTo rest
      return .operator (first.toString ++ first.toString)
    else return .operator first.toString
  | [] => return .operator first.toString

/-- Reads the next word, or a redirection when it is a digit before an operator of one. -/
def readWord (commands : CommandReaders) (steps : Nat) (context : PieceContext) :
    ScriptReader ScriptToken := do
  let pieces ← readPieces commands steps context []
  match pieces, ← rest with
  | [.text t], c :: rest =>
    match t.toList with
    | [digit] =>
      if digit.isDigit && (c == '<' || c == '>') then
        skipTo rest
        return .redirect (some (digit.toNat - '0'.toNat)) (← redirectSymbol c)
      else return .word pieces
    | _ => return .word pieces
  | _, _ => return .word pieces

/-- Reads the next unit. -/
def readToken (commands : CommandReaders) : Nat → PieceContext → ScriptReader ScriptToken
  | 0, _ => refuse "line too long"
  | steps + 1, context => do
    match ← aheadJoined with
    | [] => return .endOfText
    | c :: rest =>
      match c with
      | ' ' | '\t' =>
        skipTo rest
        readToken commands steps context
      | '#' =>
        skipTo (rest.dropWhile fun c => c != '\n')
        readToken commands steps context
      | '\n' =>
        skipLineEnd rest
        return .newline
      | '&' | '|' | ';' =>
        skipTo rest
        doubled c
      | '(' | ')' =>
        skipTo rest
        return .operator c.toString
      | '<' | '>' =>
        skipTo rest
        return .redirect none (← redirectSymbol c)
      | _ => readWord commands steps context

/-- The name that a unit is when it may stand for a text. -/
def aliasName? (token : ScriptToken) : Option String :=
  match token, token.keyword? with
  | .word w, none => plainText? w
  | _, _ => none

/-- Puts the text of a name into its place, and tells whether the unit that has been read ahead is
such a name. A name whose text is being read stands for itself. -/
def substitute (token : ScriptToken) : ScriptReader Bool := do
  let s ← get
  if s.aliases.isEmpty then return false
  let length := s.rest.length
  let current := s.substitutions.filter fun t => t.behind ≤ length
  match aliasName? token with
  | none => return false
  | some name =>
    if current.any fun t => t.name == name then return false
    match Alias.text? name s.aliases with
    | none => return false
    | some text =>
      let substitutions :=
        if text.isEmpty then current else ⟨name, length, Alias.endsInBlank text⟩ :: current
      set { s with
        rest := text.toList ++ s.rest
        ahead := none
        substitutions := substitutions }
      return true

/-- The next unit, read ahead, and whether it stands behind a text that invites to replace it. -/
def readAhead (commands : CommandReaders) (steps : Nat) : ScriptReader (ScriptToken × Bool) := do
  let s ← get
  match s.ahead with
  | some token => return (token, false)
  | none =>
    let token ← readToken commands steps .plain
    modify fun s => { s with ahead := some token }
    if s.substitutions.isEmpty then return (token, false)
    let before := s.rest.length
    let after := (← get).rest.length
    return (token, s.substitutions.any fun t => t.invites && t.behind < before && after ≤ t.behind)

/-- The next unit, which is still to be read. Names are replaced by their texts where that is asked
for, and behind texts that invite to it. The last number bounds how often. -/
def peekReplacing (commands : CommandReaders) (steps : Nat) (replaces : Bool) :
    Nat → ScriptReader ScriptToken
  | 0 => refuse "too many names"
  | rounds + 1 => do
    let (token, isInvited) ← readAhead commands steps
    if (replaces || isInvited) && (← substitute token) then
      peekReplacing commands steps true rounds
    else return token

/-- The next unit, which is still to be read. -/
def peek (commands : CommandReaders) (steps : Nat) : ScriptReader ScriptToken :=
  peekReplacing commands steps false steps

/-- The next unit where a command can begin, which is still to be read. -/
def peekCommand (commands : CommandReaders) (steps : Nat) : ScriptReader ScriptToken :=
  peekReplacing commands steps true steps

/-- Goes on behind the unit that has been read ahead. -/
def advance : ScriptReader Unit := modify fun s => { s with ahead := none }

/-- Reads lines up to one that is the ending, without that one; tabs in front of lines may be
dropped. The second number is that of the lines. -/
def takeLines (here : HereText) : Nat → List Char → List Char → ScriptReader (List Char)
  | 0, found, _ => return found
  | steps + 1, found, cs => do
    if cs.isEmpty then
      if (← get).isComplete then
        skipTo []
        return found
      else throw .unfinished
    let cs := if here.dropsTabs then cs.dropWhile fun c => c == '\t' else cs
    let line := cs.takeWhile fun c => c != '\n'
    match cs.drop line.length with
    | [] =>
      if !(← get).isComplete then throw .unfinished
      skipTo []
      return if String.ofList line == here.ending then found else line.reverse ++ found
    | _ :: rest =>
      modify fun s => { s with line := s.line + 1 }
      if String.ofList line == here.ending then
        skipTo rest
        return found
      else takeLines here steps ('\n' :: (line.reverse ++ found)) rest

/-- Reads a text that stands below its line. -/
def readHere (commands : CommandReaders) (steps : Nat) (here : HereText) :
    ScriptReader ScriptWord := do
  let first := (← get).line
  let text := (← takeLines here steps [] (← rest)).reverse
  if here.expands then
    let inner := (← get).inside text first
    match (readPieces commands steps .here []).run inner with
    | .ok (pieces, _) => return pieces
    | .error e => throw e
  else return [.quoted (String.ofList text)]

/-- Reads the texts below a line that is ended, in the order in which they were asked for. -/
def readAwaited (commands : CommandReaders) (steps : Nat) :
    List HereText → ScriptReader Unit
  | [] => return
  | here :: rest => do
    let pieces ← readHere commands steps here
    modify fun s => { s with found := pieces :: s.found }
    readAwaited commands steps rest

/-- Goes on behind a line end that has been read ahead, and the texts below it. -/
def passLineEnd (commands : CommandReaders) (steps : Nat) : ScriptReader Unit := do
  let awaited := (← get).awaited.reverse
  modify fun s => { s with ahead := none, awaited := [] }
  readAwaited commands steps awaited

/-- The next unit that is no line end, which is still to be read. It may be where a command can
begin. -/
def peekBeyondLines (commands : CommandReaders) (steps : Nat) (isCommand : Bool) :
    Nat → ScriptReader ScriptToken
  | 0 => refuse "too many lines"
  | lines + 1 => do
    match ← peekReplacing commands steps isCommand steps with
    | .newline =>
      passLineEnd commands steps
      peekBeyondLines commands steps isCommand lines
    | token => return token

/-- Finds a unit where another one belongs, or any other. -/
def unexpected {α : Type} (token : ScriptToken) (mayBeKeyword : Bool)
    (expected : Option String) : ScriptReader α :=
  let found := token.description mayBeKeyword ++ " unexpected"
  match expected with
  | some text => refuse (found ++ " (expecting " ++ text ++ ")")
  | none => refuse found

end ScriptReader

end LineShell
