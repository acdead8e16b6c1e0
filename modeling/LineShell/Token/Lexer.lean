import LineShell.Token

/-!
# From characters to tokens

The lexer is an automaton that reads one character at a time and never goes back. What it may
still have to decide is kept in its state: a digit may turn out to name a redirected stream, and
one greater-than sign may be followed by another.
-/

namespace LineShell

/-- Why a line has no tokens. -/
inductive LexError where
  /-- The quotation opened by this character is still open at the end of the line. -/
  | unterminatedQuote (quote : Char)
  deriving DecidableEq, Repr

namespace LexError

/-- The text shown for a lexing error. -/
def message : LexError → String
  | unterminatedQuote quote => "unexpected end of input: unmatched ".push quote

end LexError

/-- The two characters that open and close a quotation. -/
inductive Quote where
  | single
  | double
  deriving DecidableEq, Repr

namespace Quote

/-- The character that opens and closes the quotation. -/
def char : Quote → Char
  | single => '\x27'
  | double => '\x22'

end Quote

/-- What the lexer remembers of the characters that are not yet part of an emitted token. -/
inductive LexState where
  /-- At a token boundary. -/
  | normal
  /-- After spaces whose token is already emitted; further spaces belong to it. -/
  | spaces
  /-- After a backslash at a token boundary. -/
  | escape
  /-- After a digit at a token boundary that may name the stream of a redirection. -/
  | digit (name : Char)
  /-- After such a digit and one space. -/
  | spacedDigit (name : Char)
  /-- After one greater-than sign of a redirection with this tag. -/
  | redirect (tag : String)
  /-- Inside a bare word. -/
  | word (text : String)
  /-- After a backslash inside a bare word. -/
  | wordEscape (text : String)
  /-- Inside single quotes. -/
  | singleQuote (text : String)
  /-- Inside double quotes. -/
  | doubleQuote (text : String)
  /-- After a backslash inside double quotes. -/
  | doubleEscape (text : String)
  deriving DecidableEq, Repr

namespace LexState

/-- The tag of the stream that a digit names. -/
def tagOfDigit (name : Char) : String :=
  if name = '2' then Token.stderrTag else Token.stdoutTag

/-- Reads a character at a token boundary. -/
def stepNormal (c : Char) : LexState :=
  match c with
  | '\x27' => singleQuote ""
  | '\x22' => doubleQuote ""
  | ' ' => spaces
  | '\\' => escape
  | '1' => digit '1'
  | '2' => digit '2'
  | '>' => redirect Token.stdoutTag
  | '|' => normal
  | c => word (String.singleton c)

/-- The tokens that are complete as soon as a character is read at a token boundary. -/
def emitNormal (c : Char) : List Token :=
  match c with
  | ' ' => [.space]
  | '|' => [.pipe]
  | _ => []

/-- Reads a character at a token boundary, after the given tokens. -/
def enterNormal (emitted : List Token) (c : Char) : List Token × LexState :=
  (emitted ++ emitNormal c, stepNormal c)

/-- The characters that end a bare word. -/
def endsWord (c : Char) : Bool :=
  c == ' ' || c == '\x27' || c == '\x22' || c == '|' || c == '>'

/-- Reads a character inside a bare word. -/
def stepWord (text : String) (c : Char) : List Token × LexState :=
  if endsWord c then enterNormal [.literal text] c
  else if c = '\\' then ([], wordEscape text)
  else ([], word (text.push c))

/-- The characters that a backslash escapes inside double quotes. -/
def escapedInDouble (c : Char) : Bool :=
  c == '$' || c == '\\' || c == '\x22' || c == '\n'

/-- Reads one character: the tokens it completes and the state after it. -/
def step (state : LexState) (c : Char) : List Token × LexState :=
  match state with
  | normal => enterNormal [] c
  | spaces => if c = ' ' then ([], spaces) else enterNormal [] c
  | escape => ([.literal (String.singleton c)], normal)
  | digit name =>
    if c = '>' then ([], redirect (tagOfDigit name))
    else if c = ' ' then ([], spacedDigit name)
    else stepWord (String.singleton name) c
  | spacedDigit name =>
    if c = '>' then ([], redirect (tagOfDigit name))
    else if c = ' ' then ([.literal (String.singleton name), .space], spaces)
    else enterNormal [.literal (String.singleton name), .space] c
  | redirect tag =>
    if c = '>' then ([.redirect .append tag], normal)
    else enterNormal [.redirect .truncate tag] c
  | word text => stepWord text c
  | wordEscape text => ([], word (text.push c))
  | singleQuote text =>
    if c = '\x27' then ([.literal text], normal) else ([], singleQuote (text.push c))
  | doubleQuote text =>
    if c = '\x22' then ([.literal text], normal)
    else if c = '\\' then ([], doubleEscape text)
    else ([], doubleQuote (text.push c))
  | doubleEscape text =>
    if escapedInDouble c then ([], doubleQuote (text.push c))
    else ([], doubleQuote ((text.push '\\').push c))

/-- The tokens that the end of the line completes, or the quotation that it leaves open. A lone
backslash at the end is dropped at a token boundary and kept inside a word. -/
def finish : LexState → Except LexError (List Token)
  | normal | spaces | escape => .ok []
  | digit name => .ok [.literal (String.singleton name)]
  | spacedDigit name => .ok [.literal (String.singleton name), .space]
  | redirect tag => .ok [.redirect .truncate tag]
  | word text => .ok [.literal text]
  | wordEscape text => .ok [.literal (text.push '\\')]
  | singleQuote _ => .error (.unterminatedQuote Quote.single.char)
  | doubleQuote _ | doubleEscape _ => .error (.unterminatedQuote Quote.double.char)

end LexState

/-- The lexer between two characters: the tokens emitted so far and its state. -/
structure Lexer where
  emitted : Array Token
  state : LexState

namespace Lexer

/-- The lexer before the first character. -/
def start : Lexer := ⟨#[], .normal⟩

/-- The lexer after one more character. -/
def feed : Lexer → Char → Lexer
  | ⟨emitted, state⟩, c =>
    match state.step c with
    | (tokens, next) => ⟨emitted ++ tokens, next⟩

/-- The tokens of the whole line, when the line may end here. -/
def finish (lexer : Lexer) : Except LexError (List Token) :=
  lexer.state.finish.map fun tokens => lexer.emitted.toList ++ tokens

end Lexer

/-- The tokens of a line given by its characters. -/
def tokenizeChars (cs : List Char) : Except LexError (List Token) :=
  (cs.foldl Lexer.feed Lexer.start).finish

/-- The tokens of a line. No token is returned when a quotation is left open. -/
def tokenize (line : String) : Except LexError (List Token) := tokenizeChars line.toList

end LineShell
