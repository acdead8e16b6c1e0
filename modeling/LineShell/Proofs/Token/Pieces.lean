import LineShell.Proofs.Token.Reading

/-!
# Reading a line in pieces

A line that is cut in two is read in two goes: the first piece completes some tokens and leaves a
state behind, and the second piece is read from that state. What may join the pieces, a pipe or
nothing but spaces, does to the state what the end of the line does to it, unless the first piece
ends in a backslash that takes the next character.
-/

namespace LineShell

/-- No tokens behind a result change nothing. -/
theorem map_append_nil (result : Except LexError (List Token)) :
    result.map (· ++ []) = result := by
  cases result with
  | error e => rfl
  | ok tokens => exact congrArg Except.ok (List.append_nil tokens)

namespace LexState

/-- The tokens that a piece of a line completes, and the state after it. -/
def run : LexState → List Char → List Token × LexState
  | state, [] => ([], state)
  | state, c :: rest =>
    ((state.step c).1 ++ ((state.step c).2.run rest).1, ((state.step c).2.run rest).2)

/-- Running goes on from the state after the first character. -/
theorem run_cons (state : LexState) (c : Char) (rest : List Char) :
    state.run (c :: rest) =
      ((state.step c).1 ++ ((state.step c).2.run rest).1, ((state.step c).2.run rest).2) := rfl

/-- A line is read in two pieces, the second one from the state that the first one leaves. -/
theorem read_append (state : LexState) (first second : List Char) :
    state.read (first ++ second) =
      withTokens (state.run first).1 ((state.run first).2.read second) := by
  induction first generalizing state with
  | nil => exact (withTokens_nil _).symm
  | cons c rest ih => rw [List.cons_append, read_cons, ih, withTokens_withTokens, run_cons]

/-- What a piece completes and what the end of the line adds are the tokens of the piece. -/
theorem read_eq_finish_run (state : LexState) (cs : List Char) :
    state.read cs = withTokens (state.run cs).1 (state.run cs).2.finish := by
  have hread := read_append state cs []
  rwa [List.append_nil, read_nil] at hread

/-- A piece with one more character leaves the state after that character. -/
theorem run_concat_state (state : LexState) (cs : List Char) (c : Char) :
    (state.run (cs ++ [c])).2 = ((state.run cs).2.step c).2 := by
  induction cs generalizing state with
  | nil => rfl
  | cons d rest ih => exact ih (state.step d).2

/-- Whether the lexer is behind a backslash that takes the next character, whatever that is. -/
def takesNext : LexState → Bool
  | escape | wordEscape _ => true
  | _ => false

/-- Only a backslash takes the next character. -/
theorem takesNext_stepNormal {c : Char} (hc : c ≠ '\\') : (stepNormal c).takesNext = false := by
  unfold stepNormal
  split <;> first | rfl | exact absurd rfl hc

/-- Inside a word, too, only a backslash takes the next character. -/
theorem takesNext_stepWord (text : String) {c : Char} (hc : c ≠ '\\') :
    (stepWord text c).2.takesNext = false := by
  unfold stepWord
  by_cases hends : endsWord c = true
  · rw [if_pos hends]
    exact takesNext_stepNormal hc
  · rw [if_neg hends, if_neg hc]
    rfl

/-- A character other than a backslash does not take the one after it, in any state. -/
theorem takesNext_step (state : LexState) {c : Char} (hc : c ≠ '\\') :
    (state.step c).2.takesNext = false := by
  cases state with
  | normal => exact takesNext_stepNormal hc
  | escape => rfl
  | word text => exact takesNext_stepWord text hc
  | wordEscape text => rfl
  | spaces =>
    simp only [step]
    split
    · rfl
    · exact takesNext_stepNormal hc
  | digit name =>
    simp only [step]
    split
    · rfl
    · split
      · rfl
      · exact takesNext_stepWord _ hc
  | spacedDigit name =>
    simp only [step]
    split
    · rfl
    · split
      · rfl
      · exact takesNext_stepNormal hc
  | redirect tag =>
    simp only [step]
    split
    · rfl
    · exact takesNext_stepNormal hc
  | singleQuote text =>
    simp only [step]
    split <;> rfl
  | doubleQuote text =>
    simp only [step, if_neg hc]
    split <;> rfl
  | doubleEscape text =>
    simp only [step]
    split <;> rfl

/-- A piece that does not end in a backslash does not take the character after it. -/
theorem takesNext_run {cs : List Char} (hlast : cs.getLast? ≠ some '\\') :
    (normal.run cs).2.takesNext = false := by
  rcases List.eq_nil_or_concat cs with rfl | ⟨before, c, rfl⟩
  · rfl
  · have hc : c ≠ '\\' := by simpa using hlast
    rw [List.concat_eq_append, run_concat_state]
    exact takesNext_step _ hc

/-- Where the line may end and the next character is not taken, a pipe or a quote completes what the
end of the line would have completed, and is itself read at a token boundary. -/
theorem step_of_finish {state : LexState} {tokens : List Token} (htakes : state.takesNext = false)
    (hfinish : state.finish = .ok tokens) {c : Char} (hends : endsWord c = true) (hspace : c ≠ ' ')
    (hsign : c ≠ '>') : state.step c = enterNormal tokens c := by
  cases state with
  | escape => cases htakes
  | wordEscape text => cases htakes
  | singleQuote text => cases hfinish
  | doubleQuote text => cases hfinish
  | doubleEscape text => cases hfinish
  | normal =>
    cases hfinish
    rfl
  | spaces =>
    cases hfinish
    exact if_neg hspace
  | digit name =>
    cases hfinish
    simp only [step, stepWord, hends, if_neg hspace, if_neg hsign, if_true]
  | spacedDigit name =>
    cases hfinish
    simp only [step, if_neg hspace, if_neg hsign]
  | redirect tag =>
    cases hfinish
    exact if_neg hsign
  | word text =>
    cases hfinish
    exact if_pos hends

/-- Where the line may end and the next character is not taken, a pipe is read as such behind the
tokens that the end of the line would have completed. -/
theorem read_pipe {state : LexState} {tokens : List Token} (htakes : state.takesNext = false)
    (hfinish : state.finish = .ok tokens) (rest : List Char) :
    state.read ('|' :: rest) = withTokens (tokens ++ [.pipe]) (normal.read rest) := by
  have hpipe : normal.read ('|' :: rest) = withTokens [.pipe] (normal.read rest) := rfl
  rw [read_cons, step_of_finish htakes hfinish rfl (by decide) (by decide), withTokens_enterNormal,
    hpipe, withTokens_withTokens]

/-- Spaces behind spaces add nothing to what follows them. -/
theorem read_spaces_replicate_append {cs : List Char} (hcs : cs.head? ≠ some ' ') (count : Nat) :
    spaces.read (List.replicate count ' ' ++ cs) = normal.read cs := by
  have hdrop : (List.replicate count ' ' ++ cs).dropWhile (· == ' ') = cs := by
    rw [List.dropWhile_append_of_pos (by simp)]
    cases cs with
    | nil => rfl
    | cons c rest =>
      have hc : c ≠ ' ' := by simpa using hcs
      simp [hc]
  rw [read_spaces, hdrop]

/-- Spaces behind spaces add nothing. -/
theorem read_spaces_replicate (count : Nat) : spaces.read (List.replicate count ' ') = .ok [] := by
  have hnil : ([] : List Char).head? ≠ some ' ' := by simp
  simpa [finish] using read_spaces_replicate_append hnil count

/-- Spaces leave a quotation open. -/
theorem read_replicate_space_of_error {state : LexState} {e : LexError}
    (hfinish : state.finish = .error e) (count : Nat) :
    state.read (List.replicate count ' ') = .error e := by
  induction count generalizing state with
  | zero => exact hfinish
  | succ count ih =>
    have hopen : (state.step ' ').2.finish = .error e := by
      cases state <;> first | exact hfinish | cases hfinish
    rw [List.replicate_succ, read_cons, ih hopen, withTokens_error]

/-- Where the line may end and the next character is not taken, a space completes what the end of
the line would have completed, and at most one separator. Only a digit may be something else, when
a greater-than sign follows the space. -/
theorem read_space {state : LexState} {tokens : List Token} (htakes : state.takesNext = false)
    (hfinish : state.finish = .ok tokens) :
    ∃ trail, (∀ token ∈ trail, token = Token.space) ∧
      ∀ rest : List Char, (∀ name, state = digit name → rest.head? ≠ some '>') →
        state.read (' ' :: rest) = withTokens (tokens ++ trail) (spaces.read rest) := by
  have hone : ∀ token ∈ [Token.space], token = .space := fun _ h => List.mem_singleton.mp h
  have hnone : ∀ token ∈ ([] : List Token), token = .space := fun _ h =>
    absurd h List.not_mem_nil
  cases state with
  | escape => cases htakes
  | wordEscape text => cases htakes
  | singleQuote text => cases hfinish
  | doubleQuote text => cases hfinish
  | doubleEscape text => cases hfinish
  | normal => cases hfinish; exact ⟨[.space], hone, fun rest _ => rfl⟩
  | redirect tag => cases hfinish; exact ⟨[.space], hone, fun rest _ => rfl⟩
  | word text => cases hfinish; exact ⟨[.space], hone, fun rest _ => rfl⟩
  | spaces => cases hfinish; exact ⟨[], hnone, fun rest _ => rfl⟩
  | spacedDigit name => cases hfinish; exact ⟨[], hnone, fun rest _ => rfl⟩
  | digit name =>
    cases hfinish
    refine ⟨[.space], hone, fun rest hrest => ?_⟩
    have hdigit : (digit name).read (' ' :: rest) = (spacedDigit name).read rest :=
      withTokens_nil _
    rw [hdigit, read_spacedDigit name (hrest name rfl), ← withTokens_withTokens]
    rfl

/-- Spaces at the end of a line that no backslash takes add at most one separator. -/
theorem read_replicate_space {state : LexState} (htakes : state.takesNext = false) (count : Nat) :
    ∃ trail, (∀ token ∈ trail, token = Token.space) ∧
      state.read (List.replicate count ' ') = state.finish.map (· ++ trail) := by
  have hnone : ∀ token ∈ ([] : List Token), token = .space := fun _ h =>
    absurd h List.not_mem_nil
  cases hfinish : state.finish with
  | error e => exact ⟨[], hnone, read_replicate_space_of_error hfinish count⟩
  | ok tokens =>
    cases count with
    | zero =>
      refine ⟨[], hnone, ?_⟩
      rw [List.replicate_zero, read_nil, hfinish, map_append_nil]
    | succ count =>
      obtain ⟨trail, htrail, hread⟩ := read_space htakes hfinish
      refine ⟨trail, htrail, ?_⟩
      have hhead : (List.replicate count ' ').head? ≠ some '>' := by
        cases count <;> simp [List.replicate_succ]
      rw [List.replicate_succ, hread _ fun _ _ => hhead, read_spaces_replicate, withTokens_ok,
        List.append_nil]
      rfl

/-- A space that a backslash takes at the end of a line is text. The line that ends at the
backslash does not have this text. -/
theorem read_taken_space {state : LexState} (htakes : state.takesNext = true) (count : Nat) :
    ∃ kept taken, state.finish = .ok kept ∧
      state.read (List.replicate (count + 1) ' ') = .ok taken ∧
      taken.filter (· != .space) ≠ kept.filter (· != .space) := by
  have hnext {state next : LexState} {tokens : List Token}
      (hstep : state.step ' ' = (tokens, next)) :
      state.read (List.replicate (count + 1) ' ') =
        withTokens tokens (next.read (List.replicate count ' ')) := by
    rw [List.replicate_succ, read_cons, hstep]
  cases state with
  | escape =>
    have hescape : escape.step ' ' = ([.literal " "], normal) := rfl
    have hspaces : ∃ trail, (∀ token ∈ trail, token = Token.space) ∧
        normal.read (List.replicate count ' ') = .ok trail := read_replicate_space rfl count
    obtain ⟨trail, -, hread⟩ := hspaces
    refine ⟨[], .literal " " :: trail, rfl, ?_, ?_⟩
    · rw [hnext hescape, hread]
      rfl
    · rw [List.filter_cons_of_pos rfl]
      exact List.cons_ne_nil _ _
  | wordEscape text =>
    have hword : (word (text.push ' ')).takesNext = false := rfl
    obtain ⟨trail, htrail, hread⟩ := read_replicate_space hword count
    have hescape : (wordEscape text).step ' ' = ([], word (text.push ' ')) := rfl
    refine ⟨[.literal (text.push '\\')], .literal (text.push ' ') :: trail, rfl, ?_, ?_⟩
    · rw [hnext hescape, withTokens_nil, hread]
      rfl
    · have hnone : trail.filter (· != .space) = [] := by simpa using htrail
      rw [List.filter_cons_of_pos rfl, hnone, List.filter_cons_of_pos rfl, List.filter_nil]
      intro h
      simp at h
  | _ => cases htakes

end LexState

/-- Of a line, what stands behind a text is read from the state that the text leaves. -/
theorem tokenize_append (text rest : String) :
    tokenize (text ++ rest) =
      withTokens (LexState.normal.run text.toList).1
        ((LexState.normal.run text.toList).2.read rest.toList) := by
  rw [tokenize, tokenizeChars_eq_read, String.toList_append, LexState.read_append]

/-- What a line completes and what its end adds are its tokens. -/
theorem tokenize_eq_finish (line : String) :
    tokenize line =
      withTokens (LexState.normal.run line.toList).1
        (LexState.normal.run line.toList).2.finish := by
  rw [tokenize, tokenizeChars_eq_read, LexState.read_eq_finish_run]

/-- An accepted text may be the whole line: the end of the line adds the last of its tokens. -/
theorem exists_finish_of_tokenize {text : String} {tokens : List Token}
    (h : tokenize text = .ok tokens) :
    ∃ last, (LexState.normal.run text.toList).2.finish = .ok last ∧
      tokens = (LexState.normal.run text.toList).1 ++ last := by
  rw [tokenize_eq_finish] at h
  cases hfinish : (LexState.normal.run text.toList).2.finish with
  | error e =>
    rw [hfinish] at h
    cases h
  | ok last =>
    rw [hfinish, withTokens_ok] at h
    exact ⟨last, rfl, (Except.ok.inj h).symm⟩

end LineShell
