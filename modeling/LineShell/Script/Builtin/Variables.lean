import LineShell.Script.Operands

/-!
# Commands on variables

The commands of the script language that list and change variables, arguments and settings. Each
is given the words behind its name, and gives its status.
-/

namespace LineShell

namespace ScriptM

/-- A text in single quotes; the single quotes in it are put into double ones. -/
def inQuotes (text : String) : String := pieces (text.length + 1) text.toList
where
  /-- The text up to the next single quotes, these, and so on. -/
  pieces : Nat → List Char → String
    | 0, _ => ""
    | steps + 1, cs =>
      let plain := cs.takeWhile fun c => c != '\x27'
      let rest := cs.drop plain.length
      let quotes := rest.takeWhile fun c => c == '\x27'
      let after := rest.drop quotes.length
      let text := "\x27" ++ String.ofList plain ++ "\x27"
      if quotes.isEmpty then text
      else
        let text := text ++ "\x22" ++ String.ofList quotes ++ "\x22"
        if after.isEmpty then text else text ++ pieces steps after

/-- Lists variables with a property in the order of their names. -/
def listVariables (command : String) (property : ScriptVariable → Bool) : ScriptM Unit := do
  let chosen := (← get).bindings.filter property
  let line (v : ScriptVariable) : String :=
    let start := if command.isEmpty then v.name else command ++ " " ++ v.name
    match v.value with
    | some value => start ++ "=" ++ inQuotes value ++ "\n"
    | none => start ++ "\n"
  say (String.join ((chosen.mergeSort fun a b => a.name ≤ b.name).map line))

/-- A word as a name and, behind an equals sign, a value. -/
def nameAndValue (word : String) : String × Option String :=
  let name := word.toList.takeWhile fun c => c != '='
  match word.toList.drop name.length with
  | [] => (String.ofList name, none)
  | _ :: value => (String.ofList name, some (String.ofList value))

/-- Refuses what is no name. -/
def checkName (name : String) : ScriptM Unit :=
  if ScriptReader.isName name then return else fail (name ++ ": bad variable name")

/-- Marks variables, which may get values before. A variable that is there is marked even when it
must keep its value. -/
def markVariables (mark : ScriptVariable → ScriptVariable) : List String → ScriptM Unit
  | [] => return
  | word :: rest => do
    let (name, value) := nameAndValue word
    let old ← binding? name
    match value, old with
    | none, some v => modify fun st => { st with bindings := putVariable (mark v) st.bindings }
    | value, _ =>
      checkName name
      if let some text := value then assign name text
      changeVariableMark name
    markVariables mark rest
where
  /-- Marks a variable that can be changed, or is made now. -/
  changeVariableMark (name : String) : ScriptM Unit := do
    let v := (← binding? name).getD ⟨name, none, false, false⟩
    modify fun st => { st with bindings := putVariable (mark v) st.bindings }

/-- Marks variables as exported, or as fixed, or lists the ones that are. -/
def markCommand (command : String) (property : ScriptVariable → Bool)
    (mark : ScriptVariable → ScriptVariable) (words : List String) : ScriptM Nat := do
  let (options, names) ← takeOptions "p" words
  if options.isEmpty && !names.isEmpty then markVariables mark names
  else listVariables command property
  return 0

/-- Makes variables that are restored when the function that runs is done. -/
def localCommand (words : List String) : ScriptM Nat := do
  if (← get).frames.isEmpty then fail "not in a function"
  for word in words do
    let (name, value) := nameAndValue word
    if name != "-" then
      checkName name
      keepOld name
      match value with
      | some text => assign name text
      | none =>
        if (← binding? name).isNone then
          modify fun st =>
            { st with bindings := putVariable ⟨name, none, false, false⟩ st.bindings }
  return 0

/-- Forgets variables, or functions. -/
def unsetCommand (words : List String) : ScriptM Nat := do
  let (options, names) ← takeOptions "vf" words
  for name in names do
    if options.getLast?.map Prod.fst == some 'f' then
      modify fun st => { st with functions := st.functions.filter fun f => f.1 != name }
    else
      checkName name
      unassign name
  return 0

/-- Makes settings and sets the arguments, or lists the variables. -/
def setCommand (words : List String) : ScriptM Nat := do
  if words.isEmpty then listVariables "" fun v => v.value.isSome
  else
    match ← takeSettings (words.length + 1) words with
    | some arguments =>
      modify fun st => { st with arguments := arguments, optionPosition := firstOption }
    | none => return 0
  return 0

/-- Drops arguments. -/
def shiftCommand (words : List String) : ScriptM Nat := do
  let count ←
    match words with
    | [] => pure 1
    | word :: _ => numberOf word
  if (← get).arguments.length < count then fail "can\x27t shift that many"
  modify fun st =>
    { st with arguments := st.arguments.drop count, optionPosition := firstOption }
  return 0

/-! ## Options of the script itself -/

/-- What a look at the next option finds. -/
structure OptionFound where
  /-- The option, or a mark for what is wrong. -/
  letter : Char
  /-- The text of the option, if it has one. -/
  text : Option String
  /-- What is to be said about it. -/
  complaint : Option String
  /-- The number of the next word, and the letters of the one before that have been looked at. -/
  position : Nat × Nat
  /-- Whether there are no more options. -/
  isOver : Bool

/-- Looks at the next option among words. Of the word before the given position, so many letters
have been looked at. -/
def nextOption (known : List Char) (words : List String) (position letters : Nat) :
    OptionFound :=
  let isQuiet := known.head? == some ':'
  let before := if position ≤ 1 || letters = 0 then [] else
    ((words[position - 2]?.getD "").toList).drop letters
  let word := (words[position - 1]?.getD "").toList
  let ended (position : Nat) : OptionFound := ⟨'?', none, none, (position, 0), true⟩
  let look (c : Char) (more : List Char) (position letters : Nat) : OptionFound :=
    let stay := (position, if more.isEmpty then 0 else letters + 1)
    match optionKind? c known with
    | none =>
      if isQuiet then ⟨'?', some c.toString, none, stay, false⟩
      else ⟨'?', none, some ("Illegal option -" ++ c.toString), stay, false⟩
    | some false => ⟨c, some "", none, stay, false⟩
    | some true =>
      if !more.isEmpty then ⟨c, some (String.ofList more), none, (position, 0), false⟩
      else
        match words[position - 1]? with
        | some text => ⟨c, some text, none, (position + 1, 0), false⟩
        | none =>
          if isQuiet then ⟨':', some c.toString, none, (position, 0), false⟩
          else ⟨'?', none, some ("No arg for -" ++ c.toString ++ " option"), (position, 0), false⟩
  match before, word with
  | c :: more, _ => look c more position letters
  | [], ['-', '-'] => ended (position + 1)
  | [], '-' :: c :: more => look c more (position + 1) 1
  | [], _ => ended position

/-- Looks at the next option of the script, or of the given words. -/
def getoptsCommand (words : List String) : ScriptM Nat := do
  let (_, words) ← takeOptions "" words
  match words with
  | known :: name :: given =>
    let st ← get
    let words := if given.isEmpty then st.arguments else given
    let (position, letters) :=
      if words.length + 1 < st.optionPosition.1 then firstOption else st.optionPosition
    let found := nextOption known.toList words position letters
    if let some complaint := found.complaint then discard (put 2 (complaint ++ "\n"))
    match found.text with
    | some text => assign "OPTARG" text
    | none => unless found.isOver do unassign "OPTARG"
    assign "OPTIND" (toString found.position.1)
    modify fun st => { st with optionPosition := found.position }
    checkName name
    assign name found.letter.toString
    return if found.isOver then 1 else 0
  | _ => fail "Usage: getopts optstring var [arg...]"

/-! ## Reading into variables -/

/-- The characters of a line: those behind a backslash are flagged. -/
abbrev MarkedLine := List (Char × Bool)

/-- A line that is being shared out. -/
structure SharedLine where
  /-- The fields that are complete, the last one first. -/
  complete : List String
  /-- The field that is being read, the last character first. -/
  current : List Char
  /-- The field that is being read, as it was before the separators at its end. -/
  trimmed : Option (List Char)
  /-- The number of fields that may still be separated. -/
  left : Nat
  /-- Whether a loose separator stands before, which further ones belong to. -/
  isBetween : Bool

namespace SharedLine

/-- Adds a character to the field that is being read. -/
def push (s : SharedLine) (c : Char) : SharedLine := { s with current := c :: s.current }

/-- The line with a further character. A character that was behind a backslash never separates.
The last field takes the separators in it as well, all but those at its end. -/
def add (separators : List Char) (s : SharedLine) (marked : Char × Bool) : SharedLine :=
  let (c, isMarked) := marked
  if isMarked then { s.push c with isBetween := false }
  else
    let separates := separators.contains c
    let isLoose := separates && (c == ' ' || c == '\t' || c == '\n')
    if s.left = 0 then
      if isLoose then { s.push c with trimmed := some (s.trimmed.getD s.current) }
      else
        let trimmed := if separates && s.isBetween then s.trimmed else none
        { s.push c with trimmed := trimmed, isBetween := false }
    else if s.isBetween then
      if separates then { s with current := [], isBetween := isLoose }
      else { s with current := [c], isBetween := false }
    else if separates then
      if isLoose && s.current.isEmpty then s
      else if s.left = 1 then
        { s.push c with trimmed := some s.current, left := 0, isBetween := isLoose }
      else
        { s with
          complete := String.ofList s.current.reverse :: s.complete
          current := []
          left := s.left - 1
          isBetween := isLoose }
    else s.push c

/-- The fields of the line. -/
def fields (s : SharedLine) : List String :=
  let last := s.trimmed.getD s.current
  ((if last.isEmpty then [] else [String.ofList last.reverse]) ++ s.complete).reverse

end SharedLine

/-- The fields of a line, at most the given number. -/
def shareLine (separators : List Char) (count : Nat) (line : MarkedLine) : List String :=
  (line.foldl (SharedLine.add separators) ⟨[], [], none, count, false⟩).fields

/-- A line that is being read, the last character first, and whether a backslash stands before
the next character. -/
structure LineSoFar where
  found : MarkedLine
  isEscaped : Bool
  /-- Whether the end of the line has been read. -/
  isComplete : Bool

namespace LineSoFar

/-- The line with a further character. -/
def add (keepsBackslashes : Bool) (line : LineSoFar) (c : Char) : LineSoFar :=
  if line.isComplete || c == '\x00' then line
  else if line.isEscaped then
    ⟨if c == '\n' then line.found else (c, true) :: line.found, false, false⟩
  else if c == '\\' && !keepsBackslashes then { line with isEscaped := true }
  else if c == '\n' then { line with isComplete := true }
  else { line with found := (c, false) :: line.found }

end LineSoFar

/-- The number of times that input is asked for until a line is complete. -/
def maxLineParts : Nat := 1000000000

/-- Reads up to the end of a line. -/
def takeLine (keepsBackslashes : Bool) : Nat → LineSoFar → ScriptM LineSoFar
  | 0, line => return line
  | steps + 1, line => do
    if line.isComplete then return line
    match ← ask (.readLine 0) with
    | .error _ => return line
    | .ok bytes =>
      if bytes.isEmpty then return line
      takeLine keepsBackslashes steps
        ((Text.ofOctets bytes).foldl (LineSoFar.add keepsBackslashes) line)

/-- Gives variables the fields of a line, and no text when there are not enough of them. -/
def assignFields : List String → List String → ScriptM Unit
  | [], _ => return
  | name :: rest, fields => do
    checkName name
    assign name (fields.headD "")
    assignFields rest fields.tail

/-- Reads a line into variables. It succeeds when the line is complete. -/
def readCommand (words : List String) : ScriptM Nat := do
  let (options, names) ← takeOptions "p:r" words
  if names.isEmpty then fail "arg count"
  let line ← takeLine (options.any fun o => o.1 == 'r') maxLineParts ⟨[], false, false⟩
  let fields := shareLine (← separators) names.length line.found.reverse
  assignFields names fields
  return if line.isComplete then 0 else 1

end ScriptM

end LineShell
