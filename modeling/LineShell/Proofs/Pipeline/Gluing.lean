import LineShell.Proofs.Pipeline.Rows

/-!
# Adjacent literals

Literals without anything between them are one word, wherever they stand in a row of tokens. A space
in front of a redirection operator, on the other hand, separates nothing. Both are cases of one
fact: a piece of a row can be replaced by another when this does not change the parts of the row
that the piece begins, whether or not a literal stands in front of it.
-/

namespace LineShell

/-- A literal and what follows it begin with the word that is glued from it. -/
theorem parts_literal (text : String) (rest : List Token) :
    parts (.literal text :: rest) = .word (glue text rest).1 :: parts (glue text rest).2 := by
  rw [parts, glue_eq, String.join_cons]

/-- Two adjacent literals are read as the literal of both texts. -/
theorem parts_literal_literal (first second : String) (rest : List Token) :
    parts (.literal first :: .literal second :: rest) =
      parts (.literal (first ++ second) :: rest) := by
  rw [parts_literal, parts_literal, glue]

/-- Two rows have the same parts, and they still have when a literal is put in front of both. -/
structure SameParts (first second : List Token) : Prop where
  alone : parts first = parts second
  behind_literal : ∀ text, parts (.literal text :: first) = parts (.literal text :: second)

/-- A literal that is followed by something else is a word of its own. -/
theorem parts_literal_of_not_literal {token : Token} (htoken : token.isLiteral = false)
    (text : String) (rest : List Token) :
    parts (.literal text :: token :: rest) = .word text :: parts (token :: rest) := by
  have hneg : ¬token.isLiteral = true := by simp [htoken]
  rw [parts, List.takeWhile_cons_of_neg hneg, List.dropWhile_cons_of_neg hneg]
  simp

/-- The parts of a row that begins with anything but a literal depend on the parts of the rest. -/
theorem parts_cons_congr {token : Token} (htoken : token.isLiteral = false)
    {first second : List Token} (h : parts first = parts second) :
    parts (token :: first) = parts (token :: second) := by
  cases token with
  | literal text => cases htoken
  | space => simpa only [parts] using h
  | pipe => simpa only [parts] using h
  | redirect mode tag => simpa only [parts, List.cons.injEq, true_and] using h

/-- Tokens that are put in front of two rows with the same parts leave them with the same parts. -/
theorem SameParts.append {first second : List Token} (h : SameParts first second)
    (before : List Token) : SameParts (before ++ first) (before ++ second) := by
  induction before with
  | nil => exact h
  | cons token rest ih =>
    cases hliteral : token.isLiteral with
    | true =>
      obtain ⟨text, rfl⟩ : ∃ text, token = .literal text := by
        cases token <;> first | exact ⟨_, rfl⟩ | cases hliteral
      refine ⟨ih.behind_literal text, fun word => ?_⟩
      rw [List.cons_append, List.cons_append, parts_literal_literal, parts_literal_literal]
      exact ih.behind_literal (word ++ text)
    | false =>
      have hsame := parts_cons_congr hliteral ih.alone
      refine ⟨hsame, fun word => ?_⟩
      rw [List.cons_append, List.cons_append, parts_literal_of_not_literal hliteral,
        parts_literal_of_not_literal hliteral]
      exact congrArg _ hsame

/-- Chunks with the same parts denote the same stage. -/
theorem SameParts.ofChunk_eq {first second : List Token} (h : SameParts first second) :
    Segment.ofChunk first = Segment.ofChunk second := by
  rw [Segment.ofChunk, Segment.ofChunk, h.alone]

/-- In a chunk a piece can be replaced by one that leaves the chunk with the same parts. -/
theorem stagesIn_congr_chunk {before first second after : List Token}
    (hfirst : .pipe ∉ before ++ (first ++ after)) (hsecond : .pipe ∉ before ++ (second ++ after))
    (h : SameParts (first ++ after) (second ++ after)) :
    stagesIn (before ++ (first ++ after)) = stagesIn (before ++ (second ++ after)) := by
  rw [stagesIn_chunk hfirst, stagesIn_chunk hsecond, (h.append before).ofChunk_eq]

/-- A piece without a pipe can be replaced in a row by one that leaves the row with the same parts,
whatever stands before and behind it. -/
theorem stagesIn_congr {first second : List Token} (hfirst : .pipe ∉ first)
    (hsecond : .pipe ∉ second) (h : ∀ rest, SameParts (first ++ rest) (second ++ rest))
    (before after : List Token) :
    stagesIn (before ++ (first ++ after)) = stagesIn (before ++ (second ++ after)) := by
  -- The first pipe behind the piece ends its chunk.
  have hchunk {before : List Token} (hbefore : .pipe ∉ before) :
      stagesIn (before ++ (first ++ after)) = stagesIn (before ++ (second ++ after)) := by
    by_cases hpipe : Token.pipe ∈ after
    · obtain ⟨rest, more, rfl, hrest⟩ := List.eq_append_cons_of_mem hpipe
      have hrow (piece : List Token) : before ++ (piece ++ (rest ++ .pipe :: more)) =
          before ++ (piece ++ rest) ++ .pipe :: more := by
        simp only [List.append_assoc]
      have hsame : stagesIn (before ++ (first ++ rest)) = stagesIn (before ++ (second ++ rest)) :=
        stagesIn_congr_chunk (by simp [hbefore, hfirst, hrest])
          (by simp [hbefore, hsecond, hrest]) (h rest)
      rw [hrow, hrow, stagesIn_pipe, stagesIn_pipe, hsame]
    · exact stagesIn_congr_chunk (by simp [hbefore, hfirst, hpipe])
        (by simp [hbefore, hsecond, hpipe]) (h after)
  -- The chunks in front of the first pipe before the piece are the same, and the row behind that
  -- pipe is shorter.
  induction hlength : before.length using Nat.strongRecOn generalizing before with
  | _ length ih =>
    by_cases hpipe : Token.pipe ∈ before
    · obtain ⟨rest, more, rfl, -⟩ := List.eq_append_cons_of_mem hpipe
      have hmore : more.length < length := by
        rw [← hlength, List.length_append, List.length_cons]
        omega
      have hrow (piece : List Token) : rest ++ .pipe :: more ++ (piece ++ after) =
          rest ++ .pipe :: (more ++ (piece ++ after)) := by
        simp only [List.append_assoc, List.cons_append]
      rw [hrow, hrow, stagesIn_pipe, stagesIn_pipe, ih more.length hmore more rfl]
    · exact hchunk hpipe

/-- Two adjacent literals denote what the literal of both texts denotes. -/
theorem stagesIn_literals (before : List Token) (first second : String) (after : List Token) :
    stagesIn (before ++ .literal first :: .literal second :: after) =
      stagesIn (before ++ .literal (first ++ second) :: after) := by
  have hsame (rest : List Token) : SameParts ([.literal first, .literal second] ++ rest)
      ([.literal (first ++ second)] ++ rest) := by
    refine ⟨parts_literal_literal first second rest, fun text => ?_⟩
    simp only [List.cons_append, List.nil_append, parts_literal_literal, String.append_assoc]
  exact stagesIn_congr (by simp) (by simp) hsame before after

/-- A space in front of a redirection operator separates nothing. -/
theorem stagesIn_space_redirect (before : List Token) (mode : RedirectMode) (tag : String)
    (after : List Token) :
    stagesIn (before ++ .space :: .redirect mode tag :: after) =
      stagesIn (before ++ .redirect mode tag :: after) := by
  have hsame (rest : List Token) : SameParts ([.space, .redirect mode tag] ++ rest)
      ([.redirect mode tag] ++ rest) := by
    have hspace : Token.space.isLiteral = false := rfl
    have hoperator : (Token.redirect mode tag).isLiteral = false := rfl
    refine ⟨by simp [parts], fun text => ?_⟩
    simp only [List.cons_append, List.nil_append, parts_literal_of_not_literal hspace,
      parts_literal_of_not_literal hoperator, parts]
  exact stagesIn_congr (by simp) (by simp) hsame before after

end LineShell
