import LineShell.Proofs.Pipeline.Written
import LineShell.Shell

/-!
# Rows of tokens put together

A row of tokens is parsed in two goes. First each chunk between pipes gives its stage, or the first
chunk that cannot be read gives the error; only then is it checked that no stage but the last one
is redirected. Rows that a pipe joins therefore give the stages of both, and separators at the ends
of a row give nothing.
-/

namespace LineShell

/-- The stages of a row of tokens, whichever of them are redirected. -/
def stagesIn (tokens : List Token) : Except ParseError (List Segment) :=
  (tokens.splitOn .pipe).mapM Segment.ofChunk

/-- The pipeline of stages of which only the last one may be redirected. -/
def Pipeline.ofStages (segments : List Segment) : Except ParseError Pipeline :=
  match segments.dropLast.find? fun segment => !segment.redirections.isEmpty with
  | some segment => .error (.redirectionNotLast segment.name)
  | none => .ok ⟨segments⟩

/-- What a line denotes: a pipeline, or the reason why it denotes none. -/
def parseLine (line : String) : Except LineError Pipeline :=
  match tokenize line with
  | .error e => .error (.lexing e)
  | .ok tokens => (parsePipeline tokens).mapError .parsing

/-- What a line with tokens denotes is what the parser makes of them. -/
theorem parseLine_of_tokenize {line : String} {tokens : List Token}
    (h : tokenize line = .ok tokens) :
    parseLine line = (parsePipeline tokens).mapError .parsing := by
  rw [parseLine, h]

/-- A result that is known without the reason for which there could be none. -/
theorem eq_ok_of_toOption {ε α : Type} {result : Except ε α} {a : α}
    (h : result.toOption = some a) : result = .ok a := by
  cases result with
  | error e => cases h
  | ok b =>
    cases h
    rfl

/-- A pipeline that can be computed from a line is what the line denotes. -/
theorem parseLine_eq_ok_of_toOption {line : String} {p : Pipeline}
    (h : (parseLine line).toOption = some p) : parseLine line = .ok p := eq_ok_of_toOption h

/-- A line denotes the pipeline as which its tokens are read. -/
theorem parseLine_eq_ok_iff {line : String} {p : Pipeline} :
    parseLine line = .ok p ↔ Denotes line p := by
  constructor
  · intro h
    cases htokens : tokenize line with
    | error e =>
      rw [parseLine, htokens] at h
      cases h
    | ok tokens =>
      rw [parseLine_of_tokenize htokens] at h
      cases hparse : parsePipeline tokens with
      | error e =>
        rw [hparse] at h
        cases h
      | ok other =>
        rw [hparse] at h
        cases h
        exact ⟨tokens, htokens, hparse⟩
  · rintro ⟨tokens, htokens, hparse⟩
    rw [parseLine_of_tokenize htokens, hparse]
    rfl

/-- A line that denotes a pipeline is not empty. -/
theorem Denotes.ne_empty {line : String} {p : Pipeline} (h : Denotes line p) : line ≠ "" := by
  rintro rfl
  have hnone : (parseLine "").toOption = none := by decide +kernel
  rw [parseLine_eq_ok_iff.mpr h] at hnone
  cases hnone

/-- A line whose tokens are known and that is no pipeline was refused by the parser. -/
theorem parsePipeline_eq_error {line : String} {tokens : List Token} {e : ParseError}
    (htokens : tokenize line = .ok tokens) (h : parseLine line = .error (.parsing e)) :
    parsePipeline tokens = .error e := by
  rw [parseLine_of_tokenize htokens] at h
  cases hparse : parsePipeline tokens with
  | ok p =>
    rw [hparse] at h
    cases h
  | error reason =>
    rw [hparse] at h
    cases h
    rfl

/-- The parser reads the stages before it looks at where the redirections are. -/
theorem parsePipeline_eq_ofStages (tokens : List Token) :
    parsePipeline tokens = (stagesIn tokens).bind Pipeline.ofStages := by
  have hchunks : ∀ chunk ∈ tokens.splitOn Token.pipe, Token.pipe ∉ chunk := fun _ =>
    not_mem_of_mem_splitOn
  have hread := parseSegments_intercalate #[] hchunks (List.splitOn_ne_nil Token.pipe tokens)
  rw [List.intercalate_splitOn] at hread
  unfold parsePipeline stagesIn
  rw [hread]
  cases (tokens.splitOn .pipe).mapM Segment.ofChunk with
  | error e => rfl
  | ok segments =>
    simp only [Except.map, Array.empty_append]
    rfl

/-- A row without a pipe is one chunk. -/
theorem stagesIn_chunk {chunk : List Token} (hchunk : .pipe ∉ chunk) :
    stagesIn chunk = (Segment.ofChunk chunk).map fun segment => [segment] := by
  have hsplit : chunk.splitOn Token.pipe = [chunk] := by
    apply List.splitOnP_eq_singleton
    intro token htoken
    simpa using fun h : token = .pipe => hchunk (h ▸ htoken)
  rw [stagesIn, hsplit, List.mapM_cons]
  cases Segment.ofChunk chunk <;> rfl

/-- Rows that a pipe joins give the stages of the first one, and then those of the second one. -/
theorem stagesIn_pipe (first second : List Token) :
    stagesIn (first ++ .pipe :: second) =
      (stagesIn first).bind fun before => (stagesIn second).map (before ++ ·) := by
  have hsplit : (first ++ Token.pipe :: second).splitOn Token.pipe =
      first.splitOn Token.pipe ++ second.splitOn Token.pipe :=
    List.splitOnP_append_cons first second BEq.rfl
  unfold stagesIn
  rw [hsplit, List.mapM_append]
  cases (first.splitOn Token.pipe).mapM Segment.ofChunk with
  | error e => rfl
  | ok before => cases (second.splitOn Token.pipe).mapM Segment.ofChunk <;> rfl

/-- The stages of a pipeline are those of its row, and none but the last one is redirected. -/
theorem parsePipeline_eq_ok_iff {tokens : List Token} {p : Pipeline} :
    parsePipeline tokens = .ok p ↔
      stagesIn tokens = .ok p.segments ∧
        ∀ segment ∈ p.segments.dropLast, segment.redirections = [] := by
  have hchunks : ∀ chunk ∈ tokens.splitOn Token.pipe, Token.pipe ∉ chunk := fun _ =>
    not_mem_of_mem_splitOn
  have hiff := parsePipeline_intercalate_eq_ok_iff hchunks (List.splitOn_ne_nil _ _) p
  rwa [List.intercalate_splitOn] at hiff

/-- A row whose stages cannot be read is refused for this reason and no other. -/
theorem stagesIn_eq_error {tokens : List Token} {e : ParseError}
    (h : parsePipeline tokens = .error e) (he : ∀ name, e ≠ .redirectionNotLast name) :
    stagesIn tokens = .error e := by
  rw [parsePipeline_eq_ofStages] at h
  cases hstages : stagesIn tokens with
  | error reason =>
    rw [hstages] at h
    exact congrArg Except.error (Except.error.inj h)
  | ok segments =>
    rw [hstages] at h
    simp only [Except.bind, Pipeline.ofStages] at h
    split at h
    · cases h
      exact absurd rfl (he _)
    · cases h

/-- Stages of which the first ones are not redirected are a pipeline when the others are one. -/
theorem Pipeline.ofStages_append {before after : List Segment} (hne : after ≠ [])
    (hbefore : ∀ segment ∈ before, segment.redirections = []) :
    ofStages (before ++ after) =
      (ofStages after).map fun p => ⟨before ++ p.segments⟩ := by
  have hnone : (before.find? fun segment => !segment.redirections.isEmpty) = none := by
    rw [List.find?_eq_none]
    intro segment hsegment
    simp [hbefore segment hsegment]
  unfold ofStages
  rw [List.dropLast_append_of_ne_nil hne, List.find?_append, hnone, Option.none_or]
  cases after.dropLast.find? fun segment => !segment.redirections.isEmpty <;> rfl

/-- A redirected stage in front of others is refused. -/
theorem Pipeline.ofStages_redirected {before after : List Segment} {segment : Segment}
    (hne : after ≠ []) (hbefore : ∀ segment ∈ before, segment.redirections = [])
    (hredirected : segment.redirections ≠ []) :
    ofStages (before ++ [segment] ++ after) =
      .error (.redirectionNotLast segment.name) := by
  have hcons : (segment :: after).dropLast = segment :: after.dropLast :=
    List.dropLast_cons_of_ne_nil hne
  have hhead : (!segment.redirections.isEmpty) = true := by simpa using hredirected
  have hone : segment :: after ≠ [] := List.cons_ne_nil _ _
  rw [List.append_assoc, List.singleton_append, ofStages_append hone hbefore, ofStages, hcons,
    List.find?_cons, hhead]
  rfl

/-- A run of literals ends at any other token, and with the row. -/
theorem literals_concat (token : Token) (htoken : token.isLiteral = false) (tokens : List Token) :
    (tokens ++ [token]).takeWhile Token.isLiteral = tokens.takeWhile Token.isLiteral ∧
      (tokens ++ [token]).dropWhile Token.isLiteral =
        tokens.dropWhile Token.isLiteral ++ [token] := by
  have hneg : ¬token.isLiteral = true := by simp [htoken]
  induction tokens with
  | nil => simp [htoken]
  | cons first rest ih =>
    by_cases hfirst : first.isLiteral
    · simp only [List.cons_append, List.takeWhile_cons_of_pos hfirst,
        List.dropWhile_cons_of_pos hfirst, ih.1, ih.2, and_self]
    · simp only [List.cons_append, List.takeWhile_cons_of_neg hfirst,
        List.dropWhile_cons_of_neg hfirst, and_self]

/-- A separator at the end of a row is no part. -/
theorem parts_concat_space (tokens : List Token) : parts (tokens ++ [.space]) = parts tokens := by
  fun_induction parts tokens with
  | case1 => simp only [List.nil_append, parts]
  | case2 text rest ih =>
    obtain ⟨htake, hdrop⟩ := literals_concat .space rfl rest
    rw [List.cons_append, parts, htake, hdrop, ih]
  | case3 mode tag rest ih => rw [List.cons_append, parts, ih]
  | case4 rest ih => rw [List.cons_append, parts, ih]
  | case5 rest ih => rw [List.cons_append, parts, ih]

/-- Separators at the ends of a row are no parts. -/
theorem parts_separated {before after : List Token} (hbefore : ∀ token ∈ before, token = .space)
    (hafter : ∀ token ∈ after, token = .space) (tokens : List Token) :
    parts (before ++ tokens ++ after) = parts tokens := by
  have hend : ∀ count, parts (tokens ++ List.replicate count .space) = parts tokens := by
    intro count
    induction count with
    | zero => rw [List.replicate_zero, List.append_nil]
    | succ count ih => rw [List.replicate_succ', ← List.append_assoc, parts_concat_space, ih]
  have hfront : ∀ count, parts (List.replicate count .space ++ tokens ++ after) =
      parts (tokens ++ after) := by
    intro count
    induction count with
    | zero => rw [List.replicate_zero, List.nil_append]
    | succ count ih => rw [List.replicate_succ, List.cons_append, List.cons_append, parts, ih]
  rw [List.eq_replicate_of_mem hbefore, hfront, List.eq_replicate_of_mem hafter, hend]

/-- Separators at the ends of a chunk do not change its stage. -/
theorem stagesIn_separated_chunk {before chunk after : List Token} (hchunk : .pipe ∉ chunk)
    (hbefore : ∀ token ∈ before, token = .space) (hafter : ∀ token ∈ after, token = .space) :
    stagesIn (before ++ chunk ++ after) = stagesIn chunk := by
  have hpipe : Token.pipe ∉ before ++ chunk ++ after := by
    intro h
    rcases List.mem_append.mp h with h | h
    · rcases List.mem_append.mp h with h | h
      · cases hbefore _ h
      · exact hchunk h
    · cases hafter _ h
  have hparts := parts_separated hbefore hafter chunk
  rw [stagesIn_chunk hpipe, stagesIn_chunk hchunk, Segment.ofChunk, Segment.ofChunk, hparts]

/-- Separators at the ends of a row do not change its stages. -/
theorem stagesIn_separated {before after : List Token} (hbefore : ∀ token ∈ before, token = .space)
    (hafter : ∀ token ∈ after, token = .space) (tokens : List Token) :
    stagesIn (before ++ tokens ++ after) = stagesIn tokens := by
  have hnone : ∀ token ∈ ([] : List Token), token = .space := fun _ h =>
    absurd h List.not_mem_nil
  -- The chunk in front of the first pipe takes the separators before the row, and the shorter row
  -- behind that pipe those after it.
  induction hlength : tokens.length using Nat.strongRecOn generalizing before tokens with
  | _ length ih =>
    by_cases hpipe : Token.pipe ∈ tokens
    · obtain ⟨first, rest, rfl, hfirst⟩ := List.eq_append_cons_of_mem hpipe
      have hrest : rest.length < length := by
        rw [← hlength, List.length_append, List.length_cons]
        omega
      have hsecond : stagesIn ([] ++ rest ++ after) = stagesIn rest :=
        ih rest.length hrest hnone rest rfl
      have hchunk : stagesIn (before ++ first ++ []) = stagesIn first :=
        stagesIn_separated_chunk hfirst hbefore hnone
      have hrow : before ++ (first ++ Token.pipe :: rest) ++ after =
          (before ++ first ++ []) ++ Token.pipe :: ([] ++ rest ++ after) := by
        simp only [List.append_assoc, List.cons_append, List.nil_append, List.append_nil]
      rw [hrow, stagesIn_pipe, stagesIn_pipe, hchunk, hsecond]
    · exact stagesIn_separated_chunk hpipe hbefore hafter

end LineShell
