import LineShell.Script.Reader.Token

/-!
# Reading the commands of a script

Commands are read by recursive descent. The readers of lists, pipelines and compound commands are
given the reader of the commands inside them, so that only one of them is recursive.
-/

namespace LineShell

namespace ScriptReader

/-- Which commands make up a list. -/
inductive ListKind where
  /-- Those up to the end of the line. -/
  | line
  /-- Those up to a word or operator that closes the list, at least one. -/
  | required
  /-- The same, but there may be none. -/
  | optional
  deriving DecidableEq, Repr

/-- What the readers of this file share: how commands inside words are read, and a number that is
greater than that of the characters of the script. -/
structure Tools where
  commands : CommandReaders
  steps : Nat

namespace Tools

/-- The next unit, which is still to be read. -/
def peek (tools : Tools) : ScriptReader ScriptToken := ScriptReader.peek tools.commands tools.steps

/-- The next unit where a command can begin, which is still to be read. -/
def peekCommand (tools : Tools) : ScriptReader ScriptToken :=
  ScriptReader.peekCommand tools.commands tools.steps

/-- The next unit that is no line end, which is still to be read. -/
def peekBeyondLines (tools : Tools) : ScriptReader ScriptToken :=
  ScriptReader.peekBeyondLines tools.commands tools.steps false tools.steps

/-- The next unit that is no line end where a command can begin, which is still to be read. -/
def peekCommandBeyondLines (tools : Tools) : ScriptReader ScriptToken :=
  ScriptReader.peekBeyondLines tools.commands tools.steps true tools.steps

end Tools

/-- Reads a keyword that has to come. -/
def expect (tools : Tools) (keyword : String) : ScriptReader Unit := do
  let token ← tools.peek
  if token.keyword? == some keyword then advance
  else unexpected token true (some ("\"" ++ keyword ++ "\""))

/-- The operation that the operator of a redirection stands for, and its usual stream. -/
def redirectMode (symbol : String) : ScriptRedirectMode × Nat :=
  match symbol with
  | ">" => (.truncate, 1)
  | ">>" => (.append, 1)
  | ">|" => (.overwrite, 1)
  | ">&" => (.duplicate, 1)
  | "<&" => (.duplicate, 0)
  | "<>" => (.update, 0)
  | "<" => (.read, 0)
  | _ => (.here, 0)

/-- Reads the word behind the operator of a redirection. -/
def readTarget (tools : Tools) (descriptor : Option Nat) (symbol : String) :
    ScriptReader ScriptRedirection := do
  let (mode, usual) := redirectMode symbol
  let descriptor := descriptor.getD usual
  match mode with
  | .here =>
    match ← readToken tools.commands tools.steps .ending with
    | .word w =>
      let (ending, isQuoted) := unquotedText w
      let here : HereText := ⟨ending, !isQuoted, symbol == "<<-"⟩
      let contents := (← get).known.headD []
      modify fun s => { s with known := s.known.tail, awaited := here :: s.awaited }
      return .mk descriptor .here contents
    | token => unexpected token false none
  | mode =>
    match ← tools.peek with
    | .word w =>
      advance
      return .mk descriptor mode w
    | token => unexpected token false none

/-- Reads the redirections behind a compound command. -/
def readRedirections (tools : Tools) (found : List ScriptRedirection) :
    Nat → ScriptReader (List ScriptRedirection)
  | 0 => return found.reverse
  | steps + 1 => do
    match ← if found.isEmpty then tools.peekCommand else tools.peek with
    | .redirect descriptor symbol =>
      advance
      let redirection ← readTarget tools descriptor symbol
      readRedirections tools (redirection :: found) steps
    | _ => return found.reverse

/-- The parts of a simple command, each in reverse order. -/
structure SimpleParts where
  assignments : List (String × ScriptWord)
  words : List ScriptWord
  redirections : List ScriptRedirection

/-- The commands that cannot be named anew. -/
def specialCommands : List String :=
  [".", ":", "break", "continue", "eval", "exec", "exit", "export", "readonly", "return", "set",
    "shift", "times", "trap", "unset"]

/-- Reads a simple command: assignments, words and redirections in any order. A single word before
parentheses is a name for the command that follows. -/
def readSimple (tools : Tools) (command : ScriptReader Script) (line : Nat) (parts : SimpleParts) :
    Nat → ScriptReader Script
  | 0 => refuse "command too long"
  | steps + 1 => do
    match ← if parts.words.isEmpty then tools.peekCommand else tools.peek with
    | .word w =>
      advance
      match if parts.words.isEmpty then assignment? w else none with
      | some a =>
        readSimple tools command line { parts with assignments := a :: parts.assignments } steps
      | none => readSimple tools command line { parts with words := w :: parts.words } steps
    | .redirect descriptor symbol =>
      advance
      let redirection ← readTarget tools descriptor symbol
      readSimple tools command line
        { parts with redirections := redirection :: parts.redirections } steps
    | token =>
      match token, parts with
      | .operator "(", ⟨[], [name], []⟩ =>
        advance
        let token ← tools.peek
        if !token.isOperator ")" then unexpected token false (some "\")\"")
        advance
        match plainText? name with
        | some name =>
          if !isName name || specialCommands.contains name then refuse "Bad function name"
          discard tools.peekCommandBeyondLines
          return .define name (← command)
        | none => refuse "Bad function name"
      | _, ⟨assignments, words, redirections⟩ =>
        return .simple line assignments.reverse words.reverse redirections.reverse

/-- Reads words as long as they come. -/
def readWords (tools : Tools) (found : List ScriptWord) : Nat → ScriptReader (List ScriptWord)
  | 0 => return found.reverse
  | steps + 1 => do
    match ← tools.peek with
    | .word w =>
      advance
      readWords tools (w :: found) steps
    | _ => return found.reverse

/-- Reads the next unit as a pattern of a choice, whatever it is. -/
def readPattern (tools : Tools) : ScriptReader ScriptWord := do
  match ← tools.peek with
  | .word w =>
    advance
    return w
  | _ =>
    advance
    return []

/-- Reads the patterns of one case of a choice, and the parenthesis behind them. -/
def readPatterns (tools : Tools) (found : List ScriptWord) : Nat → ScriptReader (List ScriptWord)
  | 0 => refuse "too many patterns"
  | steps + 1 => do
    let pattern ← readPattern tools
    let token ← tools.peek
    if token.isOperator "|" then
      advance
      readPatterns tools (pattern :: found) steps
    else if token.isOperator ")" then
      advance
      return (pattern :: found).reverse
    else unexpected token false (some "\")\"")

/-- Reads the cases of a choice up to the word that closes it. -/
def readCases (tools : Tools) (body : ScriptReader Script)
    (found : List (List ScriptWord × Script)) :
    Nat → ScriptReader (List (List ScriptWord × Script))
  | 0 => refuse "too many cases"
  | steps + 1 => do
    let token ← tools.peekBeyondLines
    if token.keyword? == some "esac" then
      advance
      return found.reverse
    if token.isOperator "(" then advance
    let patterns ← readPatterns tools [] steps
    let commands ← body
    let found := (patterns, commands) :: found
    let token ← tools.peekBeyondLines
    if token.keyword? == some "esac" then
      advance
      return found.reverse
    else if token.isOperator ";;" then
      advance
      readCases tools body found steps
    else unexpected token true (some "\";;\"")

/-- Reads the rest of a condition behind its first word. -/
def readBranch (tools : Tools) (list : ScriptReader Script) : Nat → ScriptReader Script
  | 0 => refuse "too many conditions"
  | steps + 1 => do
    let condition ← list
    expect tools "then"
    let yes ← list
    let token ← tools.peek
    match token.keyword? with
    | some "elif" =>
      advance
      return .branch condition yes (some (← readBranch tools list steps))
    | some "else" =>
      advance
      let no ← list
      expect tools "fi"
      return .branch condition yes (some no)
    | _ =>
      expect tools "fi"
      return .branch condition yes none

/-- Reads a loop over words behind its first word. -/
def readEach (tools : Tools) (list : ScriptReader Script) (line : Nat) :
    ScriptReader Script := do
  let name ←
    match ← tools.peek with
    | .word w =>
      match plainText? w with
      | some name => if isName name then pure name else refuse "Bad for loop variable"
      | none => refuse "Bad for loop variable"
    | _ => refuse "Bad for loop variable"
  advance
  let token ← tools.peekCommandBeyondLines
  let words ←
    if token.keyword? == some "in" then
      advance
      let words ← readWords tools [] tools.steps
      let token ← tools.peek
      match token with
      | .newline => passLineEnd tools.commands tools.steps
      | .operator ";" => advance
      | _ => unexpected token false none
      pure words
    else
      if token.isOperator ";" then advance
      pure [[Piece.arguments]]
  discard tools.peekCommandBeyondLines
  expect tools "do"
  let body ← list
  expect tools "done"
  return .each line name words body

/-- Reads a loop with a condition behind its first word. -/
def readLoop (tools : Tools) (list : ScriptReader Script) (untilSuccess : Bool) :
    ScriptReader Script := do
  let condition ← list
  expect tools "do"
  let body ← list
  expect tools "done"
  return .loop untilSuccess condition body

/-- Reads a choice behind its first word. -/
def readChoice (tools : Tools) (list : ScriptReader Script) (line : Nat) :
    ScriptReader Script := do
  match ← tools.peek with
  | .word w =>
    advance
    discard tools.peekCommandBeyondLines
    expect tools "in"
    return .choice line w (← readCases tools list [] tools.steps)
  | token => unexpected token false (some "word")

/-- Reads the redirections of a compound command and attaches them. -/
def readAttached (tools : Tools) (line : Nat) (body : Script) : ScriptReader Script := do
  match ← readRedirections tools [] tools.steps, body with
  | [], body => return body
  | redirections, .apart line background body _ =>
    return .apart line background body redirections
  | redirections, body => return .redirected line body redirections

/-- Reads a command, given the readers of the lists and of the commands inside it. -/
def readCommandOf (tools : Tools) (list : ListKind → ScriptReader Script)
    (command : ScriptReader Script) : ScriptReader Script := do
  let token ← tools.peekCommand
  let line := (← get).line
  match token with
  | .operator "(" =>
    advance
    let body ← list .required
    let token ← tools.peek
    if !token.isOperator ")" then unexpected token true (some "\")\"")
    advance
    readAttached tools line (.apart line false body [])
  | .redirect _ _ => readSimple tools command line ⟨[], [], []⟩ tools.steps
  | .word _ =>
    match token.keyword? with
    | none => readSimple tools command line ⟨[], [], []⟩ tools.steps
    | some "if" =>
      advance
      readAttached tools line (← readBranch tools (list .required) tools.steps)
    | some "while" =>
      advance
      readAttached tools line (← readLoop tools (list .required) false)
    | some "until" =>
      advance
      readAttached tools line (← readLoop tools (list .required) true)
    | some "for" =>
      advance
      readAttached tools line (← readEach tools (list .required) line)
    | some "case" =>
      advance
      readAttached tools line (← readChoice tools (list .optional) line)
    | some "\x7b" =>
      advance
      let body ← list .required
      expect tools "\x7d"
      readAttached tools line body
    | some _ => unexpected token true none
  | token => unexpected token true none

/-- Reads the commands of a pipeline behind the first. -/
def readStages (tools : Tools) (command : ScriptReader Script) (found : List Script) :
    Nat → ScriptReader Script
  | 0 => refuse "pipeline too long"
  | steps + 1 => do
    let token ← tools.peek
    if token.isOperator "|" then
      advance
      discard tools.peekCommandBeyondLines
      let stage ← command
      readStages tools command (stage :: found) steps
    else
      match found with
      | [stage] => return stage
      | found => return .pipeline false found.reverse

/-- Reads a pipeline, possibly negated. -/
def readPipeline (tools : Tools) (command : ScriptReader Script) : ScriptReader Script := do
  let token ← tools.peekCommand
  if token.keyword? == some "!" then
    advance
    let first ← command
    return .negated (← readStages tools command [first] tools.steps)
  else
    let first ← command
    readStages tools command [first] tools.steps

/-- Reads what follows a pipeline in a row of them that depend on each other. -/
def readAndOr (tools : Tools) (command : ScriptReader Script) (left : Script) :
    Nat → ScriptReader Script
  | 0 => refuse "list too long"
  | steps + 1 => do
    let token ← tools.peek
    if token.isOperator "&&" then
      advance
      discard tools.peekCommandBeyondLines
      let right ← readPipeline tools command
      readAndOr tools command (.both left right) steps
    else if token.isOperator "||" then
      advance
      discard tools.peekCommandBeyondLines
      let right ← readPipeline tools command
      readAndOr tools command (.either left right) steps
    else return left

/-- The command that runs another one in the background. -/
def inBackground : Script → Script
  | .pipeline _ stages => .pipeline true stages
  | .redirected line body redirections => .apart line true body redirections
  | body => .apart 0 true body []

/-- The commands found so far, followed by one more. -/
def followedBy (found : Option Script) (command : Script) : Option Script :=
  match found with
  | none => some command
  | some first => some (.sequence first command)

/-- Reads a list of commands. A list on the last line of the script may not be there at all. -/
def readList (tools : Tools) (command : ScriptReader Script) (kind : ListKind) (mayEnd : Bool)
    (found : Option Script) : Nat → ScriptReader (Option Script)
  | 0 => refuse "list too long"
  | steps + 1 => do
    let token ← if kind == .line then tools.peekCommand else tools.peekCommandBeyondLines
    match token with
    | .newline =>
      passLineEnd tools.commands tools.steps
      return some (found.getD .nothing)
    | .endOfText => return found
    | token =>
      if kind != .line && mayEnd && token.endsList then return found
      let first ← readPipeline tools command
      let commands ← readAndOr tools command first tools.steps
      let token ← tools.peek
      match token with
      | .operator "&" =>
        advance
        readList tools command kind true (followedBy found (inBackground commands)) steps
      | .operator ";" =>
        advance
        readList tools command kind true (followedBy found commands) steps
      | .newline => readList tools command kind true (followedBy found commands) steps
      | .endOfText => return followedBy found commands
      | token =>
        if kind == .line then unexpected token true none
        else return followedBy found commands

/-- Reads commands that are enclosed in parentheses, behind the first of these. Texts below lines
inside them are their own. -/
def readEnclosed (list : ScriptReader Script) (peek : ScriptReader ScriptToken) :
    ScriptReader Script := do
  let outer ← get
  set { outer with ahead := none, awaited := [] }
  let body ← list
  let token ← peek
  if !token.isOperator ")" then unexpected token true (some "\")\"")
  modify fun s => { s with ahead := none, awaited := outer.awaited }
  return body

/-- Reads all the commands of a text inside a word. -/
def readInner (list : ScriptReader Script) (peek : ScriptReader ScriptToken) (text : List Char) :
    ScriptReader Script := do
  let outer ← get
  match (do
      let body ← list
      match ← peek with
      | .endOfText => return body
      | token => unexpected token true (some "end of file") : ScriptReader Script).run
      { outer.inside text outer.line with found := outer.found, known := outer.known } with
  | .ok (body, inner) =>
    set { outer with found := inner.found, known := inner.known }
    return body
  | .error e => throw e

/-- What is to be read. -/
inductive ReadingGoal where
  | command
  /-- Commands in parentheses, behind the first of these. -/
  | enclosed
  /-- All the commands of a text inside a word. -/
  | inner (text : List Char)

/-- Reads commands. The second number bounds how deep they stand inside each other. -/
def read (steps : Nat) :
    Nat → ReadingGoal → ScriptText → Except ScriptFault (Script × ScriptText)
  | 0, _, s => .error (.wrong s.line "commands too deep")
  | depth + 1, goal, s =>
    let readDeeper (goal : ReadingGoal) : ScriptReader Script := fun s => read steps depth goal s
    let tools : Tools := ⟨⟨readDeeper .enclosed, fun text => readDeeper (.inner text)⟩, steps⟩
    let list (kind : ListKind) : ScriptReader Script := do
      return (← readList tools (readDeeper .command) kind (kind == .optional) none steps).getD
        .nothing
    match goal with
    | .command => readCommandOf tools list (readDeeper .command) s
    | .enclosed => readEnclosed (list .optional) tools.peek s
    | .inner text => readInner (list .optional) tools.peek text s

/-- The number of units that commands may have when names in them stand for texts. -/
def maxUnits : Nat := 1000000000

/-- Reads the commands on the next line of a script, and the further lines that belong to them.
There are none at the end of the script. -/
def readLine (s : ScriptText) : Except ScriptFault (Option Script × ScriptText) :=
  let steps := if s.aliases.isEmpty then s.rest.length + 2 else maxUnits
  let readDeeper (goal : ReadingGoal) : ScriptReader Script := fun s => read steps steps goal s
  let tools : Tools := ⟨⟨readDeeper .enclosed, fun text => readDeeper (.inner text)⟩, steps⟩
  (readList tools (readDeeper .command) .line false none steps).run s

end ScriptReader

namespace ScriptText

/-- The word that a text is when everything in it is quoted but parameters, expressions and
commands; none when it cannot be read. -/
def wordOf? (text : String) : Option ScriptWord :=
  let steps := text.length + 2
  let readDeeper (goal : ScriptReader.ReadingGoal) : ScriptReader Script := fun s =>
    ScriptReader.read steps steps goal s
  let commands : CommandReaders :=
    ⟨readDeeper .enclosed, fun text => readDeeper (.inner text)⟩
  match (ScriptReader.readPieces commands steps .here []).run (.start text.toList 1 true) with
  | .ok (word, _) => some word
  | .error _ => none

/-- The commands on the next line of a script, and the script behind them. Texts below the line
are found by a first reading and put in their places by a second one. -/
def nextLine (s : ScriptText) : Except ScriptFault (Option Script × ScriptText) :=
  let start : ScriptText :=
    { s with
      ahead := none
      awaited := []
      found := []
      known := []
      substitutions := s.substitutions.filter fun t => t.behind ≤ s.rest.length }
  match ScriptReader.readLine start with
  | .error e => .error e
  | .ok (commands, s) =>
    match s.found with
    | [] => .ok (commands, s)
    | found => ScriptReader.readLine { start with known := found.reverse }

end ScriptText

end LineShell
