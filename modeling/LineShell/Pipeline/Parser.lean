import LineShell.Pipeline

/-!
# From tokens to pipelines

The parser reads a row of tokens from left to right and hands on what it has not read. Each
reader consumes at least the token that it was called for, so the rest gets shorter.
-/

namespace LineShell

/-- Why a row of tokens is no pipeline. -/
inductive ParseError where
  /-- A stage has no command name. -/
  | noCommand
  /-- No file name follows a redirection operator. -/
  | missingRedirectTarget
  /-- The named stage redirects its output and is not the last one. -/
  | redirectionNotLast (name : String)
  deriving DecidableEq, Repr

namespace ParseError

/-- The text shown for a parsing error. -/
def message : ParseError → String
  | noCommand => "syntax error: no command"
  | missingRedirectTarget => "syntax error: expected a file name after redirection"
  | redirectionNotLast name =>
    "syntax error: `" ++ name ++
      "` redirects its output but is not the last command of the pipeline"

end ParseError

/-- Continues a word with the literals that follow directly. -/
def glue (word : String) : List Token → String × List Token
  | .literal text :: rest => glue (word ++ text) rest
  | rest => (word, rest)

/-- The word at the front, when there is one: a run of literals, glued together. -/
def word? : List Token → Option (String × List Token)
  | .literal text :: rest => some (glue text rest)
  | _ => none

/-- The tokens after the spaces at the front. -/
def skipSpaces : List Token → List Token
  | .space :: rest => skipSpaces rest
  | rest => rest

/-- Gluing hands on no more tokens than it was given. -/
theorem glue_rest_le (word : String) (tokens : List Token) :
    (glue word tokens).2.length ≤ tokens.length := by
  fun_induction glue word tokens with
  | case1 word text rest ih => exact Nat.le_succ_of_le ih
  | case2 => exact Nat.le_refl _

/-- Reading a word makes the rest shorter. -/
theorem word?_rest_lt {tokens rest : List Token} {word : String}
    (h : word? tokens = some (word, rest)) : rest.length < tokens.length := by
  unfold word? at h
  split at h
  next text more =>
    have hle := glue_rest_le text more
    simp only [Option.some.injEq] at h
    rw [h] at hle
    exact Nat.lt_succ_of_le hle
  next => simp at h

/-- Skipping spaces hands on no more tokens than it was given. -/
theorem skipSpaces_length_le (tokens : List Token) :
    (skipSpaces tokens).length ≤ tokens.length := by
  fun_induction skipSpaces tokens with
  | case1 rest ih => exact Nat.le_succ_of_le ih
  | case2 => exact Nat.le_refl _

/-- What has been read of a stage after its name. -/
structure SegmentDraft where
  args : Array String
  redirections : Array Redirection
  /-- Whether spaces have been read since the last word. -/
  separated : Bool

namespace SegmentDraft

/-- A stage of which only the name has been read. -/
def empty : SegmentDraft := ⟨#[], #[], false⟩

/-- Notes that spaces have been read. -/
def addSpace (draft : SegmentDraft) : SegmentDraft := { draft with separated := true }

/-- Adds a word, after a single space when spacing is kept and the word is not the first. -/
def addWord (keepSpacing : Bool) (word : String) (draft : SegmentDraft) : SegmentDraft :=
  let args :=
    if keepSpacing && draft.separated && !draft.args.isEmpty then draft.args.push " "
    else draft.args
  { draft with args := args.push word, separated := false }

/-- Adds a redirection. -/
def addRedirection (redirection : Redirection) (draft : SegmentDraft) : SegmentDraft :=
  { draft with redirections := draft.redirections.push redirection }

end SegmentDraft

/-- The command whose arguments keep the spacing between its words. -/
def keepsSpacing (name : String) : Bool := name == "echo"

/-- Reads the file name of a redirection and the tokens after it. -/
def redirectTarget? (tokens : List Token) : Option (String × List Token) :=
  match word? (skipSpaces tokens) with
  | some (path, rest) => if path.isEmpty then none else some (path, rest)
  | none => none

/-- Reading the target of a redirection makes the rest shorter. -/
theorem redirectTarget?_rest_lt {tokens rest : List Token} {path : String}
    (h : redirectTarget? tokens = some (path, rest)) : rest.length < tokens.length := by
  unfold redirectTarget? at h
  split at h
  next word more hword =>
    have hlt := word?_rest_lt hword
    have hle := skipSpaces_length_le tokens
    split at h
    · simp at h
    · simp only [Option.some.injEq, Prod.mk.injEq] at h
      obtain ⟨-, rfl⟩ := h
      omega
  next => simp at h

/-- Reads the words and redirections of a stage up to a pipe or the end of the tokens. -/
def parseOperands (keepSpacing : Bool) (draft : SegmentDraft) (tokens : List Token) :
    Except ParseError (SegmentDraft × List Token) :=
  match tokens with
  | [] => .ok (draft, [])
  | .pipe :: rest => .ok (draft, .pipe :: rest)
  | .space :: rest => parseOperands keepSpacing draft.addSpace rest
  | .literal text :: rest =>
    parseOperands keepSpacing (draft.addWord keepSpacing (glue text rest).1) (glue text rest).2
  | .redirect mode tag :: rest =>
    match _h : redirectTarget? rest with
    | none => .error .missingRedirectTarget
    | some (path, more) =>
      parseOperands keepSpacing (draft.addRedirection ⟨mode, .ofTag tag, ⟨path⟩⟩) more
termination_by tokens.length
decreasing_by
  · simp
  · exact Nat.lt_succ_of_le (glue_rest_le text rest)
  · exact Nat.lt_succ_of_lt (redirectTarget?_rest_lt _h)

/-- Reads one stage: its name, then its words and redirections. -/
def parseSegment (tokens : List Token) : Except ParseError (Segment × List Token) :=
  match word? (skipSpaces tokens) with
  | none => .error .noCommand
  | some (name, rest) =>
    if name.isEmpty then .error .noCommand
    else
      match parseOperands (keepsSpacing name) .empty rest with
      | .error e => .error e
      | .ok (draft, more) => .ok (⟨name, draft.args.toList, draft.redirections.toList⟩, more)

/-- The operands of a stage hand on no more tokens than they were given. -/
theorem parseOperands_rest_le {keepSpacing : Bool} {draft result : SegmentDraft}
    {tokens rest : List Token}
    (h : parseOperands keepSpacing draft tokens = .ok (result, rest)) :
    rest.length ≤ tokens.length := by
  fun_induction parseOperands keepSpacing draft tokens with
  | case1 => simp_all
  | case2 draft more => simp_all
  | case3 draft more ih => exact Nat.le_succ_of_le (ih h)
  | case4 draft text more ih =>
    exact Nat.le_succ_of_le (Nat.le_trans (ih h) (glue_rest_le text more))
  | case5 => simp at h
  | case6 draft mode tag more path after hpath ih =>
    have hlt := redirectTarget?_rest_lt hpath
    have hle := ih h
    simp only [List.length_cons]
    omega

/-- Reading a stage makes the rest shorter. -/
theorem parseSegment_rest_lt {tokens rest : List Token} {segment : Segment}
    (h : parseSegment tokens = .ok (segment, rest)) : rest.length < tokens.length := by
  unfold parseSegment at h
  split at h
  next => simp at h
  next name more hname =>
    have hlt := word?_rest_lt hname
    have hle := skipSpaces_length_le tokens
    split at h
    · simp at h
    · split at h
      next => simp at h
      next draft after hoperands =>
        have hrest := parseOperands_rest_le hoperands
        simp only [Except.ok.injEq, Prod.mk.injEq] at h
        obtain ⟨-, rfl⟩ := h
        omega

/-- Reads the stages of a pipeline, after those that have been read. -/
def parseSegments (read : Array Segment) (tokens : List Token) :
    Except ParseError (Array Segment) :=
  match _h : parseSegment tokens with
  | .error e => .error e
  | .ok (segment, .pipe :: rest) => parseSegments (read.push segment) rest
  | .ok (segment, _) => .ok (read.push segment)
termination_by tokens.length
decreasing_by
  have hlt := parseSegment_rest_lt _h
  simp only [List.length_cons] at hlt
  omega

/-- The pipeline that a row of tokens denotes. Redirections of inner stages are refused after all
stages have been read, since only the output of the last stage is not a pipe. -/
def parsePipeline (tokens : List Token) : Except ParseError Pipeline :=
  match parseSegments #[] tokens with
  | .error e => .error e
  | .ok segments =>
    match segments.toList.dropLast.find? fun s => !s.redirections.isEmpty with
    | some s => .error (.redirectionNotLast s.name)
    | none => .ok ⟨segments.toList⟩

end LineShell
