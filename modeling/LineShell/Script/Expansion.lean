import LineShell.Script.Arithmetic
import LineShell.Script.Fields
import LineShell.Script.Reader.Command

/-!
# Expanding words

The words of a script become fields: parameters, expressions and commands in them are replaced
by their values, values that are not quoted are split, and patterns are replaced by the paths that
they cover.
-/

namespace LineShell

/-- How a word is expanded. -/
structure ExpansionMode where
  /-- Whether the word is split into fields. -/
  splits : Bool
  /-- Whether home directories are meant behind colons, too. -/
  isAssignment : Bool
  /-- Whether text without quotes counts as a value. -/
  isOperand : Bool
  deriving DecidableEq, Repr

namespace ExpansionMode

/-- A word that becomes fields. -/
def fields : ExpansionMode := ⟨true, false, false⟩

/-- A word that stays one. -/
def single : ExpansionMode := ⟨false, false, false⟩

/-- The value of an assignment. -/
def assignment : ExpansionMode := ⟨false, true, false⟩

end ExpansionMode

namespace ScriptM

/-! ## Parameters -/

/-- Texts with another one between them. -/
def joined (between : String) (texts : List String) : String := between.intercalate texts

/-- What stands between arguments that are joined: the first separator of fields. -/
def argumentSeparator : ScriptM String := do
  return match ← separators with
  | [] => ""
  | c :: _ => c.toString

/-- The letters of the options that are set, in a fixed order. -/
def optionText (options : List Char) : String :=
  String.ofList ("ubaCEVvxsnmiIfe".toList.filter options.contains)

/-- The value of a parameter that is one text. -/
def parameter? (name : String) : ScriptM (Option String) := do
  let st ← get
  match name with
  | "#" => return some (toString st.arguments.length)
  | "?" => return some (toString st.status)
  | "$" => return some (toString st.id)
  | "!" => return st.lastBackground.map toString
  | "-" => return some (optionText st.options)
  | "0" => return some st.name
  | name =>
    if name.front.isDigit then
      return match (Text.digits? name.toList).getD 0 with
      | 0 => some st.name
      | n + 1 => st.arguments[n]?
    else value? name

/-- The value of a parameter, joined when it is several texts. -/
def joinedParameter? (name : String) : ScriptM (Option String) := do
  if name == "@" || name == "*" then
    return some (joined (← argumentSeparator) (← get).arguments)
  else parameter? name

/-- The parts that arguments make up in quotes, where each is a field of its own. -/
def argumentParts : List String → List Expanded
  | [] => []
  | [text] => [.mark, .quoted text]
  | text :: rest => .mark :: .quoted text :: .border :: argumentParts rest

/-- A text as a part that is quoted or may be split. -/
def part (inQuotes : Bool) (text : String) : Expanded :=
  if inQuotes then .quoted text else .value text

/-- The parts that the value of a parameter makes up; none when it is not set. -/
def parameterParts? (mode : ExpansionMode) (name : String) (inQuotes : Bool) :
    ScriptM (Option (List Expanded)) := do
  if name == "@" || name == "*" then
    let arguments := (← get).arguments
    if mode.splits && !inQuotes then return some [.value (joined "\x00" arguments)]
    else if mode.splits && name == "@" then
      return some (argumentParts arguments)
    else return some [part inQuotes (joined (← argumentSeparator) arguments)]
  else return (← parameter? name).map fun text => [part inQuotes text]

/-- Whether parts hold no text at all. -/
def isBare (parts : List Expanded) : Bool :=
  parts.all fun
    | .quoted text | .written text | .value text => text.isEmpty
    | .mark => true
    | .border => false

/-! ## Home directories -/

/-- The home directory that a text with a tilde in front stands for. -/
def home? (tilde : List Char) : ScriptM (Option String) :=
  if tilde == ['~'] then value? "HOME" else return none

/-- The parts of a text that may begin with a tilde. The tilde reaches to the first slash, or in an
assignment to the first colon, and when it reaches to the end of the text nothing else may
follow. -/
def tildeParts (mode : ExpansionMode) (isLast : Bool) (text : List Char) :
    ScriptM (List Expanded) := do
  let ends (c : Char) : Bool := c == '/' || (mode.isAssignment && c == ':')
  let tilde := text.takeWhile fun c => !ends c
  let rest := text.drop tilde.length
  let written (cs : List Char) : List Expanded :=
    if cs.isEmpty then []
    else if mode.isOperand then [.value (String.ofList cs)]
    else [.written (String.ofList cs)]
  if text.head? == some '~' && (isLast || !rest.isEmpty) then
    match ← home? tilde with
    | some home => return .quoted home :: written rest
    | none => return written text
  else return written text

/-- The parts of the pieces between colons. -/
def colonParts (mode : ExpansionMode) (isLast : Bool) :
    List (List Char) → ScriptM (List Expanded)
  | [] => return []
  | [piece] => tildeParts mode isLast piece
  | piece :: rest => do
    let first ← tildeParts mode true piece
    return first ++ .written ":" :: (← colonParts mode isLast rest)

/-- The parts of text outside quotes. Home directories are looked for at the start of a word, and
in an assignment behind colons. -/
def textParts (mode : ExpansionMode) (isFirst isLast : Bool) (text : String) :
    ScriptM (List Expanded) := do
  let cs := text.toList
  if !cs.contains '~' then
    return [if mode.isOperand then .value text else .written text]
  else if mode.isAssignment then
    match Text.pieces ':' cs with
    | first :: rest =>
      let start ←
        if isFirst then tildeParts mode (isLast || !rest.isEmpty) first
        else pure [.written (String.ofList first)]
      if rest.isEmpty then return start
      else return start ++ .written ":" :: (← colonParts mode isLast rest)
    | [] => return []
  else if isFirst then tildeParts mode isLast cs
  else return [if mode.isOperand then .value text else .written text]

/-! ## Words -/

/-- What is said about a parameter that has to be set. -/
def demandMessage (name : String) (orEmpty : Bool) (operand : String) (hasOperand : Bool) :
    String :=
  name ++ ": " ++
    if hasOperand then operand
    else if orEmpty then "parameter not set or null" else "parameter not set"

/-- The parts that a word is expanded to, given how the output of commands is found. -/
def expandPieces (outputOf : Script → ScriptM String) (mode : ExpansionMode) :
    Nat → Bool → List Piece → ScriptM (List Expanded)
  | 0, _, _ => fail "word too long"
  | _, _, [] => return []
  | depth + 1, isFirst, piece :: rest => do
    let parts ←
      match piece with
      | .text text => textParts mode isFirst rest.isEmpty text
      | .quoted text => pure [.quoted text]
      | .mark => pure [.mark]
      | .arguments =>
        if mode.splits then pure (argumentParts (← get).arguments)
        else pure [.quoted (joined (← argumentSeparator) (← get).arguments)]
      | .arithmetic expression inQuotes => do
        let text := unsplitText
          (← expandPieces outputOf .single depth false expression)
        spend 3
        let n ← Arithmetic.evaluateText text
        pure [part inQuotes (toString n)]
      | .output commands inQuotes => do
        let text ← outputOf commands
        pure [part inQuotes text]
      | .parameter name use operand inQuotes => do
        let expandOperand : ScriptM (List Expanded) :=
          expandPieces outputOf { mode with isOperand := true } depth true operand
        let operandText : ScriptM String := do
          return unsplitText (← expandPieces outputOf .single depth true operand)
        let present (orEmpty : Bool) : ScriptM (Option (List Expanded)) := do
          match ← parameterParts? mode name inQuotes with
          | some parts => return if orEmpty && isBare parts then none else some parts
          | none => return none
        let demanded : ScriptM Unit := do
          if (← hasOption 'u') && (← joinedParameter? name).isNone then
            fail (demandMessage name false "" false)
        match use with
        | .value => do
          demanded
          pure ((← present false).getD [])
        | .length => do
          demanded
          let text := (← joinedParameter? name).getD ""
          pure [part inQuotes (toString text.length)]
        | .fallback orEmpty =>
          match ← present orEmpty with
          | some parts => pure parts
          | none => expandOperand
        | .alternative orEmpty =>
          match ← present orEmpty with
          | some _ => expandOperand
          | none => pure []
        | .assign orEmpty =>
          match ← present orEmpty with
          | some parts => pure parts
          | none => do
            let text ← operandText
            if ScriptReader.isName name then assign name text
            else fail (name ++ ": bad variable name")
            pure [part inQuotes text]
        | .demand orEmpty =>
          match ← present orEmpty with
          | some parts => pure parts
          | none => do
            let text ← operandText
            fail (demandMessage name orEmpty text (!operand.isEmpty))
        | .dropStart longest => do
          demanded
          let pattern := Pattern.ofChars
            (LineShell.unsplit (← expandPieces outputOf .single depth true operand))
          let text := (← joinedParameter? name).getD ""
          pure [part inQuotes (Pattern.dropStart pattern longest text)]
        | .dropEnd longest => do
          demanded
          let pattern := Pattern.ofChars
            (LineShell.unsplit (← expandPieces outputOf .single depth true operand))
          let text := (← joinedParameter? name).getD ""
          pure [part inQuotes (Pattern.dropEnd pattern longest text)]
        | .unknown => fail "Bad substitution"
    return parts ++ (← expandPieces outputOf mode depth false rest)

/-- How long a word may be, in pieces. -/
def maxPieces : Nat := 1000000

/-- The parts that a word is expanded to. -/
def expand (outputOf : Script → ScriptM String) (mode : ExpansionMode) (word : ScriptWord) :
    ScriptM (List Expanded) :=
  match word with
  | [.text text] =>
    if text.any fun c => c == '~' then textParts mode true true text else return [.written text]
  | word => expandPieces outputOf mode maxPieces true word

/-- The text that a word stands for when it is not split. -/
def expandText (outputOf : Script → ScriptM String) (mode : ExpansionMode) (word : ScriptWord) :
    ScriptM String := do
  return unsplitText (← expand outputOf mode word)

/-- The pattern that a word stands for. -/
def expandPattern (outputOf : Script → ScriptM String) (word : ScriptWord) : ScriptM Pattern := do
  return .ofChars (LineShell.unsplit (← expand outputOf .single word))

/-! ## Paths -/

/-- The names in a path, each with the slashes before it. -/
def pathParts : Nat → Field → List (String × Field)
  | 0, _ => []
  | steps + 1, field =>
    let slashes := field.takeWhile fun c => c.1 == '/'
    let rest := field.drop slashes.length
    let name := rest.takeWhile fun c => c.1 != '/'
    if slashes.isEmpty && name.isEmpty then []
    else (Field.text slashes, name) :: pathParts steps (rest.drop name.length)

/-- A field in which the characters behind backslashes count as quoted, and the backslashes not at
all. -/
def escaped : Field → Field
  | ('\\', false) :: (c, _) :: rest => (c, true) :: escaped rest
  | marked :: rest => marked :: escaped rest
  | [] => []

/-- The given path when something is there, even a link that leads nowhere. -/
def pathsAt (octets : String) : ScriptM (List String) := do
  match pathOf? octets with
  | none => return []
  | some p =>
    match ← ask (.look p false) with
    | .ok _ => return [octets]
    | .error _ => return []

/-- The names in the directory at a path, those that stand for itself and for its parent first.
There are none when it cannot be listed. -/
def namesIn (octets : String) : ScriptM (List String) := do
  match pathOf? (if octets.isEmpty then "." else octets) with
  | none => return []
  | some p =>
    match ← ask (.list p) with
    | none => return []
    | some names => return ("." :: ".." :: names).map Text.octetsOfText

/-- The paths that a pattern covers behind a path that has been found. A name that begins with a
dot is covered only by a pattern that does as well. -/
def coveredPaths (found : String) : List (String × Field) → ScriptM (List String)
  | [] => return [found]
  | (slashes, name) :: rest => do
    let directory := found ++ slashes
    let pattern := Pattern.ofChars name
    match Pattern.plain? pattern with
    | some text =>
      let path := directory ++ String.ofList text
      if rest.isEmpty then pathsAt path else coveredPaths path rest
    | none =>
      let isHidden (entry : String) : Bool :=
        entry.toList.head? == some '.' && name.head?.map Prod.fst != some '.'
      let mut paths : List String := []
      for entry in ← namesIn directory do
        if !isHidden entry && Pattern.covers pattern entry.toList then
          paths := paths ++ (← coveredPaths (directory ++ entry) rest)
      return paths

/-- The text of the one field that parts make up when nothing in it is split or a pattern. That is
how most words are. -/
def wholeText? (separators : List Char) : List Expanded → Option String
  | [.mark, .quoted text] => some text
  | [.written text] => if text.isEmpty || text.any Field.mayCover then none else some text
  | [.value text] =>
    if text.isEmpty || text.any fun c => Field.mayCover c || isSeparator separators c then none
    else some text
  | _ => none

/-- The fields that a field with a pattern stands for: the paths that it covers in their order, or
itself when there are none. -/
def coveredFields (field : Field) : ScriptM (List String) := do
  if field.mayBePattern && !(← hasOption 'f') then
    let parts := pathParts (field.length + 1) (escaped field)
    if parts.all fun part => (Pattern.plain? (.ofChars part.2)).isSome then return [field.text]
    match ← coveredPaths "" parts with
    | [] => return [field.text]
    | paths => return paths.mergeSort fun a b => a ≤ b
  else return [field.text]

/-- The fields that a word stands for. -/
def expandFields (outputOf : Script → ScriptM String) (word : ScriptWord) :
    ScriptM (List String) := do
  let parts ← expand outputOf .fields word
  let separators ← separators
  match wholeText? separators parts with
  | some text => return [text]
  | none =>
    let mut fields : List String := []
    for field in fieldsOf separators parts do
      fields := fields ++ (← coveredFields field)
    return fields

/-- The fields that words stand for. -/
def expandAll (outputOf : Script → ScriptM String) : List ScriptWord → ScriptM (List String)
  | [] => return []
  | word :: rest => do
    spend 1
    let fields ← expandFields outputOf word
    return fields ++ (← expandAll outputOf rest)

end ScriptM

end LineShell
