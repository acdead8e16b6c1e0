import LineShell.Script.Pattern

/-!
# Fields

What a word of a script has become when the parameters in it are replaced is still marked: which
text was quoted, and which came from a parameter. Only the latter is split, at the separators of
fields, and only text that was not quoted can be a pattern.
-/

namespace LineShell

/-- A part of the expansion of a word. -/
inductive Expanded where
  /-- Text that was quoted. -/
  | quoted (text : String)
  /-- Text that was written without quotes. -/
  | written (text : String)
  /-- Text in the place of a parameter that was not quoted. -/
  | value (text : String)
  /-- A quotation mark. -/
  | mark
  /-- The border between two arguments. -/
  | border
  deriving DecidableEq, Repr

/-- A field: its characters, of which the flagged ones were quoted. -/
abbrev Field := List (Char × Bool)

namespace Field

/-- The characters of a text as a field. -/
def ofText (isQuoted : Bool) (text : String) : Field := text.toList.map fun c => (c, isQuoted)

/-- The text of a field. -/
def text (field : Field) : String := String.ofList (field.map Prod.fst)

/-- Whether a character may stand for others where it is not quoted. -/
def mayCover (c : Char) : Bool := c == '*' || c == '?' || c == '['

/-- Whether some character of a field may stand for others. -/
def mayBePattern (field : Field) : Bool :=
  field.any fun (c, isQuoted) => !isQuoted && mayCover c

end Field

/-- Fields under construction: those that are complete, the last one first, and the open one in
reverse order. -/
structure FieldsSoFar where
  complete : List Field
  current : Field
  /-- Whether the open field is one, even without characters. -/
  isOpen : Bool

namespace FieldsSoFar

/-- No fields at all. -/
def none : FieldsSoFar := ⟨[], [], false⟩

/-- The fields with the open one ended. -/
def close (fields : FieldsSoFar) : FieldsSoFar :=
  ⟨fields.current.reverse :: fields.complete, [], false⟩

/-- The fields with a character more in the open one. -/
def push (fields : FieldsSoFar) (c : Char) (isQuoted : Bool) : FieldsSoFar :=
  ⟨fields.complete, (c, isQuoted) :: fields.current, true⟩

/-- The fields with a text more in the open one. -/
def pushAll (fields : FieldsSoFar) (isQuoted : Bool) (text : String) : FieldsSoFar :=
  text.foldl (fun fields c => fields.push c isQuoted) fields

end FieldsSoFar

/-- Whether a character separates fields only by the way, so that several count as one. -/
def isLooseSeparator (c : Char) : Bool :=
  c == ' ' || c == '\t' || c == '\n' || c == '\x00'

/-- Whether a character separates fields. The one between unquoted arguments always does. -/
def isSeparator (separators : List Char) (c : Char) : Bool :=
  c == '\x00' || separators.contains c

/-- Drops the rest of a separation: loose separators, and one firm one when there was none. -/
def skipSeparators (separators : List Char) (mayBeFirm : Bool) : List Char → List Char
  | [] => []
  | c :: rest =>
    if !isSeparator separators c then c :: rest
    else if isLooseSeparator c then skipSeparators separators mayBeFirm rest
    else if mayBeFirm then skipSeparators separators false rest
    else c :: rest

theorem skipSeparators_length_le (separators : List Char) (mayBeFirm : Bool) (cs : List Char) :
    (skipSeparators separators mayBeFirm cs).length ≤ cs.length := by
  induction cs generalizing mayBeFirm with
  | nil => simp [skipSeparators]
  | cons c rest ih =>
    simp only [skipSeparators]
    split
    · exact Nat.le_refl _
    · split
      · exact Nat.le_succ_of_le (ih _)
      · split
        · exact Nat.le_succ_of_le (ih _)
        · exact Nat.le_refl _

/-- Splits text at separators. -/
def splitValue (separators : List Char) (fields : FieldsSoFar) : List Char → FieldsSoFar
  | [] => fields
  | c :: rest =>
    if !isSeparator separators c then splitValue separators (fields.push c false) rest
    else if isLooseSeparator c && !fields.isOpen then splitValue separators fields rest
    else
      have := skipSeparators_length_le separators (isLooseSeparator c) rest
      splitValue separators fields.close
        (skipSeparators separators (isLooseSeparator c) rest)
termination_by cs => cs.length

/-- The fields with a part of a word added. -/
def addPart (separators : List Char) (fields : FieldsSoFar) : Expanded → FieldsSoFar
  | .quoted text => { fields.pushAll true text with isOpen := fields.isOpen || !text.isEmpty }
  | .written text => fields.pushAll false text
  | .value text => splitValue separators fields text.toList
  | .mark => { fields with isOpen := true }
  | .border => { fields.close with isOpen := true }

/-- The fields that the parts of a word make up. -/
def fieldsOf (separators : List Char) (parts : List Expanded) : List Field :=
  let fields := parts.foldl (addPart separators) .none
  (if fields.isOpen then fields.close else fields).complete.reverse

/-- The characters of the parts of a word that is not split. -/
def unsplit : List Expanded → Field
  | [] => []
  | .quoted text :: rest => Field.ofText true text ++ unsplit rest
  | .written text :: rest | .value text :: rest => Field.ofText false text ++ unsplit rest
  | .mark :: rest => unsplit rest
  | .border :: rest => (' ', true) :: unsplit rest

/-- The text of the parts of a word that is not split. -/
def unsplitText (parts : List Expanded) : String :=
  String.join (parts.map fun
    | .quoted text | .written text | .value text => text
    | .mark => ""
    | .border => " ")

end LineShell
