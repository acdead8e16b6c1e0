import LineShell.Script.Reader.Basic

/-!
# Reading the words of a script

A word ends at a blank or an operator outside quotes. Quotes, parameters, expressions and
commands inside it become its pieces.
-/

namespace LineShell

/-- How the commands inside a word are read. -/
structure CommandReaders where
  /-- Reads commands up to a closing parenthesis, and that as well. -/
  enclosed : ScriptReader Script
  /-- Reads all the commands of a text. -/
  ofText : List Char → ScriptReader Script

/-- Where a piece of a word stands. -/
inductive PieceContext where
  /-- Outside everything else. -/
  | plain
  /-- In the word that ends a text below the line, where only quotes mean something. -/
  | ending
  | inQuotes
  /-- In the operand of a parameter, between braces. -/
  | braced (inQuotes : Bool)
  /-- In quotes inside such an operand, which is in quotes itself. -/
  | requoted
  /-- In an expression, inside so many parentheses of its own. -/
  | expression (depth : Nat)
  /-- In a text below the line. -/
  | here
  deriving DecidableEq, Repr

namespace PieceContext

/-- Whether text counts as quoted there. -/
def quotes : PieceContext → Bool
  | plain | ending | braced false => false
  | inQuotes | braced true | requoted | expression _ | here => true

/-- Whether a backslash takes the special meaning from a character. -/
def escapes (context : PieceContext) (c : Char) : Bool :=
  if context.quotes then
    c == '\\' || c == '\x60' || c == '$' ||
      match context with
      | here => false
      | braced _ | requoted => c == '\x22' || c == '\x7d'
      | _ => c == '\x22'
  else true

end PieceContext

namespace ScriptReader

/-- The characters that end a word outside quotes. -/
def endsWord (c : Char) : Bool :=
  c == ' ' || c == '\t' || c == '\n' || c == ';' || c == '&' || c == '|' || c == '<' ||
    c == '>' || c == '(' || c == ')'

/-- The names of parameters that are no names of variables and no numbers. -/
def isSpecialParameter (c : Char) : Bool :=
  c == '@' || c == '*' || c == '#' || c == '?' || c == '-' || c == '$' || c == '!'

/-- Adds a character to pieces in reverse order. -/
def addChar (isQuoted : Bool) (c : Char) (found : List Piece) : List Piece :=
  if isQuoted then
    match found with
    | .quoted t :: rest => .quoted (t.push c) :: rest
    | found => .quoted c.toString :: found
  else
    match found with
    | .text t :: rest => .text (t.push c) :: rest
    | found => .text c.toString :: found

/-- The pieces of a quotation. All arguments alone in it make up fields of their own; anything
else makes a field even when it is empty. -/
def quotation : ScriptWord → ScriptWord
  | [.parameter "@" .value _ _] => [.arguments]
  | inner => .mark :: inner

/-- What is wrong with quotes that are never closed. -/
def unterminated : String := "Unterminated quoted string"

/-- Reads up to the next single quote, and that as well. -/
def readVerbatim : ScriptReader String := do
  let cs ← rest
  let text := cs.takeWhile fun c => c != '\x27'
  match cs.drop text.length with
  | [] =>
    modify fun s => { s with line := s.line + text.count '\n' }
    endsEarly unterminated
  | _ :: rest =>
    modify fun s => { s with rest := rest, line := s.line + text.count '\n' }
    return String.ofList text

/-- Reads the text of commands up to a backquote, and that as well. Backslashes that take the
meaning from a character are dropped. -/
def readBackquoted (inQuotes : Bool) : Nat → List Char → ScriptReader (List Char)
  | 0, _ => endsEarly "EOF in backquote substitution"
  | steps + 1, found => do
    match ← aheadJoined with
    | '\x60' :: rest =>
      skipTo rest
      return found.reverse
    | '\\' :: c :: rest =>
      skip c rest
      let isDropped := c == '\\' || c == '\x60' || c == '$' || (inQuotes && c == '\x22')
      readBackquoted inQuotes steps (if isDropped then c :: found else c :: '\\' :: found)
    | ['\\'] => endsEarly "EOF in backquote substitution"
    | c :: rest =>
      skip c rest
      readBackquoted inQuotes steps (c :: found)
    | [] => endsEarly "EOF in backquote substitution"

/-- Reads the name of a parameter between braces, and tells whether its length is meant. There is
no name when what stands there is none. -/
def readBracedName : ScriptReader (Bool × Option String) := do
  let name (c : Char) (isLength : Bool) : ScriptReader (Bool × Option String) := do
    if isNameStart c then return (isLength, some (← takeWhile isNameChar))
    else return (isLength, some (← takeWhile Char.isDigit))
  match ← aheadJoined with
  | [] => return (false, none)
  | c :: rest =>
    if isNameChar c then name c false
    else if c == '#' then
      skipTo rest
      match ← aheadJoined with
      | [] => return (false, some "#")
      | c :: rest =>
        if isNameChar c then name c true
        else
          match rest with
          | [] => if (← get).isComplete then return (false, some "#") else throw .unfinished
          | next :: _ =>
            if c == '\x7d' || next != '\x7d' then return (false, some "#")
            else
              skipTo rest
              return (true, if isSpecialParameter c then some c.toString else none)
    else if isSpecialParameter c then
      skipTo rest
      return (false, some c.toString)
    else return (false, none)

/-- Reads what a parameter between braces is used for. -/
def readUse (isLength : Bool) : ScriptReader ParameterUse := do
  match ← aheadJoined with
  | [] => return .unknown
  | c :: rest =>
    if isLength then
      if c == '\x7d' then
        skipTo rest
        return .length
      else return .unknown
    else
      match c with
      | '\x7d' =>
        skipTo rest
        return .value
      | '-' => skipTo rest; return .fallback false
      | '=' => skipTo rest; return .assign false
      | '?' => skipTo rest; return .demand false
      | '+' => skipTo rest; return .alternative false
      | ':' =>
        skipTo rest
        match ← aheadJoined with
        | '-' :: rest => skipTo rest; return .fallback true
        | '=' :: rest => skipTo rest; return .assign true
        | '?' :: rest => skipTo rest; return .demand true
        | '+' :: rest => skipTo rest; return .alternative true
        | rest => skipTo rest.tail; return .unknown
      | '#' =>
        skipTo rest
        match ← aheadJoined with
        | '#' :: rest => skipTo rest; return .dropStart true
        | _ => return .dropStart false
      | '%' =>
        skipTo rest
        match ← aheadJoined with
        | '%' :: rest => skipTo rest; return .dropEnd true
        | _ => return .dropEnd false
      | _ => skipTo rest; return .unknown

/-- Reads a parameter behind its opening brace. -/
def readBraced (operand : PieceContext → ScriptReader ScriptWord) (inQuotes : Bool) :
    ScriptReader Piece := do
  let (isLength, name?) ← readBracedName
  let use ←
    match name? with
    | some _ => readUse isLength
    | none => pure .unknown
  let name := name?.getD ""
  match use with
  | .value | .length => return .parameter name use [] inQuotes
  | .dropStart _ | .dropEnd _ => return .parameter name use (← operand (.braced false)) inQuotes
  | _ => return .parameter name use (← operand (.braced inQuotes)) inQuotes

/-- Reads what a dollar sign begins. -/
def readDollar (commands : CommandReaders) (operand : PieceContext → ScriptReader ScriptWord)
    (inQuotes : Bool) : ScriptReader Piece := do
  let itself : Piece := if inQuotes then .quoted "$" else .text "$"
  match ← aheadJoined with
  | '(' :: rest =>
    skipTo rest
    match ← aheadJoined with
    | '(' :: rest =>
      skipTo rest
      return .arithmetic (← operand (.expression 0)) inQuotes
    | _ => return .output (← commands.enclosed) inQuotes
  | '\x7b' :: rest =>
    skipTo rest
    readBraced operand inQuotes
  | c :: rest =>
    if isNameStart c then return .parameter (← takeWhile isNameChar) .value [] inQuotes
    else if c.isDigit || isSpecialParameter c then
      skipTo rest
      return .parameter c.toString .value [] inQuotes
    else return itself
  | [] => return itself

/-- What is wrong with a word that ends inside something. -/
def endOfPieces (context : PieceContext) (found : List Piece) : ScriptReader ScriptWord :=
  match context with
  | .here => return found.reverse
  | .plain | .ending => do
    discard ahead
    return found.reverse
  | .inQuotes | .braced true | .requoted => endsEarly unterminated
  | .braced false => endsEarly "Missing \x27\x7d\x27"
  | .expression _ => endsEarly "Missing \x27))\x27"

/-- Reads the pieces of a word up to its end. What closes quotes, braces and expressions is read
as well, and what ends a word outside them is left. -/
def readPieces (commands : CommandReaders) :
    Nat → PieceContext → List Piece → ScriptReader ScriptWord
  | 0, _, _ => refuse "word too long"
  | steps + 1, context, found => do
    let inside (context : PieceContext) := readPieces commands steps context []
    let goOn := readPieces commands steps context
    match ← rest with
    | [] => endOfPieces context found
    | c :: rest =>
      let isOuter := context == .plain || context == .ending
      if isOuter && endsWord c then return found.reverse
      else if c == '\x22' && context == .inQuotes then
        skipTo rest
        return found.reverse
      else if c == '\x7d' && (context == .braced true || context == .braced false) then
        skipTo rest
        return found.reverse
      else if c == '\\' then
        skipTo rest
        match ← ahead with
        | [] => goOn (addChar true '\\' found)
        | '\n' :: rest =>
          skipLineEnd rest
          goOn found
        | c :: rest =>
          skipTo rest
          let found := if context.escapes c then found else addChar true '\\' found
          goOn (addChar true c found)
      else if c == '\x27' && !context.quotes then
        skipTo rest
        let text ← readVerbatim
        goOn (if text.isEmpty then .mark :: found else .quoted text :: found)
      else if c == '\x22' && !context.quotes then
        skipTo rest
        let inner ← inside .inQuotes
        goOn ((quotation inner).reverse ++ found)
      else if c == '\x22' && context == .braced true then
        skipTo rest
        readPieces commands steps .requoted found
      else if c == '\x22' && context == .requoted then
        skipTo rest
        readPieces commands steps (.braced true) found
      else if c == '$' && context != .ending then
        skipTo rest
        goOn ((← readDollar commands inside context.quotes) :: found)
      else if c == '\x60' && context != .ending then
        skipTo rest
        let text ← readBackquoted context.quotes steps []
        goOn (.output (← commands.ofText text) context.quotes :: found)
      else
        match context, c with
        | .expression depth, '(' =>
          skipTo rest
          readPieces commands steps (.expression (depth + 1)) (addChar true c found)
        | .expression (depth + 1), ')' =>
          skipTo rest
          readPieces commands steps (.expression depth) (addChar true c found)
        | .expression 0, ')' =>
          skipTo rest
          match ← ahead with
          | ')' :: rest =>
            skipTo rest
            return found.reverse
          | _ => goOn (addChar true c found)
        | _, _ =>
          skip c rest
          goOn (addChar context.quotes c found)

/-- The text of a word without quotes or parameters. -/
def plainText? : ScriptWord → Option String
  | [.text t] => some t
  | _ => none

/-- The text that a word is without its quotes, and whether it has any. -/
def unquotedText : ScriptWord → String × Bool
  | [] => ("", false)
  | .text t :: rest => (t ++ (unquotedText rest).1, (unquotedText rest).2)
  | .quoted t :: rest => (t ++ (unquotedText rest).1, true)
  | _ :: rest => ((unquotedText rest).1, true)

/-- Splits an assignment into its name and its value. -/
def assignment? (word : ScriptWord) : Option (String × ScriptWord) :=
  match word with
  | .text t :: rest =>
    match splitAtName? t.toList with
    | some (name, []) => some (name, rest)
    | some (name, value) => some (name, .text (String.ofList value) :: rest)
    | none => none
  | _ => none

end ScriptReader

end LineShell
