import LineShell.Proofs.Token.Lexeme

/-!
# The contents of literals

Every character of a literal comes from the line, and in the order of the line. A character with a
meaning of its own is not among them where it is met outside quotes and not behind a backslash. So
a name is read back as it is written exactly when none of its characters has such a meaning.
-/

namespace LineShell

/-- The characters of a token that is a literal. -/
@[simp]
def Token.literalChars : Token → List Char
  | literal text => text.toList
  | _ => []

/-- The characters of the literals among tokens. -/
def contents (tokens : List Token) : List Char := tokens.flatMap Token.literalChars

/-- No tokens hold nothing. -/
theorem contents_nil : contents [] = [] := rfl

/-- The literals of two rows of tokens hold their characters one after the other. -/
@[simp]
theorem contents_append (first second : List Token) :
    contents (first ++ second) = contents first ++ contents second := List.flatMap_append

/-- A token in front of others puts its characters in front. -/
@[simp]
theorem contents_cons (token : Token) (tokens : List Token) :
    contents (token :: tokens) = token.literalChars ++ contents tokens := rfl

namespace LexState

/-- The characters that a state may still put into a literal. -/
def held : LexState → List Char
  | normal | spaces | escape | redirect _ => []
  | digit name | spacedDigit name => [name]
  | word text | singleQuote text | doubleQuote text => text.toList
  | wordEscape text | doubleEscape text => text.toList ++ ['\\']

/-- At a token boundary a character is held or dropped, but not put into a literal yet. -/
theorem contents_emitNormal (c : Char) : contents (emitNormal c) = [] := by
  unfold emitNormal
  split <;> rfl

/-- At a token boundary nothing but the character itself can be held. -/
theorem held_stepNormal_sublist (c : Char) : (stepNormal c).held.Sublist [c] := by
  unfold stepNormal
  split <;> simp [held]

/-- What a character completes at a token boundary and leaves held comes from the tokens before it
and the character. -/
theorem enterNormal_sublist (emitted : List Token) (c : Char) :
    (contents (enterNormal emitted c).1 ++ (enterNormal emitted c).2.held).Sublist
      (contents emitted ++ [c]) := by
  rw [enterNormal, contents_append, contents_emitNormal, List.append_nil]
  exact (held_stepNormal_sublist c).append_left _

/-- What a character completes in a word and leaves held comes from the word and the character. -/
theorem stepWord_sublist (text : String) (c : Char) :
    (contents (stepWord text c).1 ++ (stepWord text c).2.held).Sublist (text.toList ++ [c]) := by
  unfold stepWord
  split
  · simpa [contents_nil] using enterNormal_sublist [.literal text] c
  · split
    · rename_i hc
      simp [held, hc, contents_nil]
    · simp [held, contents_nil]

/-- What a character completes and leaves held comes from what was held before and the character. -/
theorem step_sublist (state : LexState) (c : Char) :
    (contents (state.step c).1 ++ (state.step c).2.held).Sublist (state.held ++ [c]) := by
  have hdigit (name : Char) : [name] = (String.singleton name).toList := by simp
  cases state with
  | normal => simpa [step, held, contents_nil] using enterNormal_sublist [] c
  | spaces =>
    simp only [step]
    split
    · simp [held, contents_nil]
    · simpa [held, contents_nil] using enterNormal_sublist [] c
  | escape => simp [step, held, contents_nil]
  | digit name =>
    simp only [step]
    split
    · simp [held, contents_nil]
    · split
      · simp [held, contents_nil]
      · rw [held, hdigit]
        exact stepWord_sublist (String.singleton name) c
  | spacedDigit name =>
    simp only [step]
    split
    · simp [held, contents_nil]
    · split
      · simp [held, contents_nil]
      · simpa [held, contents_nil] using
          enterNormal_sublist [.literal (String.singleton name), .space] c
  | redirect tag =>
    simp only [step]
    split
    · simp [held, contents_nil]
    · simpa [held, contents_nil] using
        enterNormal_sublist [.redirect .truncate tag] c
  | word text => exact stepWord_sublist text c
  | wordEscape text => simp [step, held, contents_nil]
  | singleQuote text =>
    simp only [step]
    split <;> simp [held, contents_nil]
  | doubleQuote text =>
    simp only [step]
    split
    · simp [held, contents_nil]
    · split
      · rename_i hc
        simp [held, hc, contents_nil]
      · simp [held, contents_nil]
  | doubleEscape text =>
    simp only [step]
    split <;> simp [held, contents_nil]

/-- What the end of the line completes comes from what was held. -/
theorem finish_sublist {state : LexState} {tokens : List Token} (h : state.finish = .ok tokens) :
    (contents tokens).Sublist state.held := by
  cases state <;> cases h <;> simp [held, contents_nil]

/-- What a step completes, and what is read after it, comes from what the step completes and leaves
held and the rest of the line. -/
theorem contents_withTokens_sublist {emitted tokens : List Token} {before held rest : List Char}
    {result : Except LexError (List Token)} (h : withTokens emitted result = .ok tokens)
    (hstep : (contents emitted ++ held).Sublist before)
    (hrest : ∀ more, result = .ok more → (contents more).Sublist (held ++ rest)) :
    (contents tokens).Sublist (before ++ rest) := by
  cases result with
  | error e => cases h
  | ok more =>
    cases h
    have hmore := (hrest more rfl).append_left (contents emitted)
    rw [← List.append_assoc] at hmore
    rw [contents_append]
    exact hmore.trans (hstep.append_right rest)

/-- The literals that are read from a state come from what the state holds and the rest of the
line. -/
theorem read_sublist {state : LexState} {cs : List Char} {tokens : List Token}
    (h : state.read cs = .ok tokens) : (contents tokens).Sublist (state.held ++ cs) := by
  induction cs generalizing state tokens with
  | nil =>
    rw [List.append_nil]
    exact finish_sublist h
  | cons c rest ih =>
    rw [List.append_cons]
    exact contents_withTokens_sublist h (step_sublist state c) fun _ => ih

/-! ## Characters with a meaning of their own -/

/-- The characters that have a meaning of their own outside quotes. -/
def specialChars : List Char := [' ', '\x27', '\x22', '\\', '|', '>']

/-- A character without a meaning of its own belongs to the word in which it is read. -/
theorem step_word_plain (text : String) {c : Char} (hc : c ∉ specialChars) :
    (word text).step c = ([], word (text.push c)) := by
  have hends : endsWord c = false := by
    rw [← Bool.not_eq_true, endsWord_iff]
    exact fun h => hc (by simp_all [specialChars])
  have hslash : c ≠ '\\' := fun h => hc (by simp [specialChars, h])
  simp [step, stepWord, hends, hslash]

/-- Characters without a meaning of their own belong to the word in which they are read. -/
theorem read_word_plain (text : String) {cs : List Char} (hcs : ∀ c ∈ cs, c ∉ specialChars)
    (tail : List Char) :
    (word text).read (cs ++ tail) = (word (text ++ String.ofList cs)).read tail := by
  induction cs generalizing text with
  | nil => simp
  | cons c rest ih =>
    obtain ⟨hc, hrest⟩ := List.forall_mem_cons.mp hcs
    rw [List.cons_append, read_cons, step_word_plain text hc, withTokens_nil, ih _ hrest,
      push_append_ofList]

/-- At a token boundary a character without a meaning of its own begins a word, unless it is a digit
that may yet name a stream. -/
theorem step_normal_plain {c : Char} (hc : c ∉ specialChars) :
    normal.step c = ([], word (String.singleton c)) ∨
      (c = '1' ∨ c = '2') ∧ normal.step c = ([], digit c) := by
  have hemit : emitNormal c = [] := by
    unfold emitNormal
    split <;> first | rfl | exact absurd (by decide) hc
  have hnext : stepNormal c = word (String.singleton c) ∨
      (c = '1' ∨ c = '2') ∧ stepNormal c = digit c := by
    unfold stepNormal
    split <;> first | exact .inl rfl | exact .inr ⟨by decide, rfl⟩ | exact absurd (by decide) hc
  rw [step, enterNormal, hemit, List.nil_append]
  exact hnext.imp (congrArg _) (And.imp_right (congrArg _))

/-- Characters without a meaning of their own are read as the beginning of a word. Only a single
digit may be something else, when a redirection follows it. -/
theorem read_plain {cs : List Char} (hne : cs ≠ []) (hcs : ∀ c ∈ cs, c ∉ specialChars)
    (tail : List Char) :
    normal.read (cs ++ tail) = (word (String.ofList cs)).read tail ∨
      ∃ name, cs = [name] ∧ (name = '1' ∨ name = '2') ∧
        normal.read (cs ++ tail) = (digit name).read tail := by
  obtain ⟨c, rest, rfl⟩ := List.exists_cons_of_ne_nil hne
  obtain ⟨hc, hrest⟩ := List.forall_mem_cons.mp hcs
  have hword : (word (String.singleton c)).read (rest ++ tail) =
      (word (String.ofList (c :: rest))).read tail := by
    rw [read_word_plain _ hrest, String.ofList_cons]
  rw [List.cons_append, read_cons]
  rcases step_normal_plain hc with hstep | ⟨hname, hstep⟩
  · rw [hstep, withTokens_nil]
    exact .inl hword
  · rw [hstep, withTokens_nil]
    cases rest with
    | nil => exact .inr ⟨c, rfl, hname, rfl⟩
    | cons d more =>
      -- the digit is the beginning of a word when another character of the word follows
      obtain ⟨hd, -⟩ := List.forall_mem_cons.mp hrest
      have hsign : (d :: more ++ tail).head? ≠ some '>' := fun h =>
        hd (by simp [specialChars, Option.some.inj h])
      have hspace : ∀ others, d :: more ++ tail = ' ' :: others → others.head? ≠ some '>' :=
        fun others h => absurd (List.cons.inj h).1 fun h => hd (by simp [specialChars, h])
      rw [read_digit_word c hsign hspace]
      exact .inl hword

/-- Characters without a meaning of their own are a word, and a space behind them is a separator,
when no redirection follows the space. -/
theorem read_plain_space {cs : List Char} (hne : cs ≠ []) (hcs : ∀ c ∈ cs, c ∉ specialChars)
    {rest : List Char} (hrest : rest.head? ≠ some '>') :
    normal.read (cs ++ ' ' :: rest) =
      withTokens [.literal (String.ofList cs), .space] (spaces.read rest) := by
  have hword (text : String) : (word text).read (' ' :: rest) =
      withTokens [.literal text, .space] (spaces.read rest) := rfl
  rcases read_plain hne hcs (' ' :: rest) with hread | ⟨name, rfl, -, hread⟩
  · rw [hread, hword]
  · have hsign : (' ' :: rest).head? ≠ some '>' := by simp
    have hspace (others : List Char) (h : ' ' :: rest = ' ' :: others) :
        others.head? ≠ some '>' := (List.cons.inj h).2 ▸ hrest
    rw [hread, read_digit_word name hsign hspace, hword, String.singleton_eq_ofList]

/-- Behind a word a character with a meaning of its own, other than a space, is not part of any
literal, and neither is a backslash that takes the next character. -/
theorem read_special_sublist {text : String} {c : Char} {rest : List Char}
    (hc : c ∈ specialChars) (hspace : c ≠ ' ') (hrest : rest ≠ []) {tokens : List Token}
    (h : (word text).read (c :: rest) = .ok tokens) :
    (contents tokens).Sublist (text.toList ++ rest) := by
  by_cases hslash : c = '\\'
  · -- the character behind the backslash takes its place
    obtain ⟨d, more, rfl⟩ := List.exists_cons_of_ne_nil hrest
    have hread : (word text).read (c :: d :: more) = (word (text.push d)).read more := by
      rw [hslash, read_cons, read_cons]
      simp [step, stepWord, endsWord]
    rw [hread] at h
    simpa [held] using read_sublist h
  · have hends : endsWord c = true := by
      rw [endsWord_iff]
      simp_all [specialChars]
    have hnext : (stepNormal c).held = [] := by
      simp only [specialChars, List.mem_cons, List.not_mem_nil, or_false] at hc
      rcases hc with rfl | rfl | rfl | rfl | rfl | rfl <;> rfl
    refine contents_withTokens_sublist h ?_ fun _ => read_sublist
    simp [step, stepWord, hends, enterNormal, contents_emitNormal, hnext]

/-- A digit is read as the beginning of a word, or it names the stream of a redirection and no
literal holds the digit or the character behind it. -/
theorem read_digit_sublist (name c : Char) (rest : List Char) :
    (digit name).read (c :: rest) = (word (String.singleton name)).read (c :: rest) ∨
      ∀ tokens, (digit name).read (c :: rest) = .ok tokens → (contents tokens).Sublist rest := by
  by_cases hsign : c = '>'
  · refine .inr fun tokens h => ?_
    have hread : (digit name).read (c :: rest) = (redirect (tagOfDigit name)).read rest := by
      rw [hsign, read_cons]
      simp [step]
    rw [hread] at h
    exact read_sublist h
  · by_cases hspace : c = ' ' ∧ rest.head? = some '>'
    · obtain ⟨hc, hhead⟩ := hspace
      obtain ⟨more, rfl⟩ := List.head?_eq_some_iff.mp hhead
      refine .inr fun tokens h => ?_
      have hread : (digit name).read (c :: '>' :: more) =
          (redirect (tagOfDigit name)).read more := by
        rw [hc, read_cons, read_cons]
        simp [step]
      rw [hread] at h
      exact (read_sublist h).trans (List.sublist_cons_self _ _)
    · refine .inl (read_digit_word name (by simpa using hsign) fun others h => ?_)
      obtain ⟨hc, rfl⟩ := List.cons.inj h
      exact fun hhead => hspace ⟨hc, hhead⟩

/-- Characters of which some have a meaning of their own have a first one. -/
theorem exists_first_special {cs : List Char} (h : ¬∀ c ∈ cs, c ∉ specialChars) :
    ∃ before c rest, cs = before ++ c :: rest ∧ (∀ c ∈ before, c ∉ specialChars) ∧
      c ∈ specialChars := by
  induction cs with
  | nil => exact absurd (fun _ hc => absurd hc List.not_mem_nil) h
  | cons c rest ih =>
    by_cases hc : c ∈ specialChars
    · exact ⟨[], c, rest, rfl, fun _ h => absurd h List.not_mem_nil, hc⟩
    · obtain ⟨before, d, more, rfl, hbefore, hd⟩ :=
        ih fun hrest => h (List.forall_mem_cons.mpr ⟨hc, hrest⟩)
      exact ⟨c :: before, d, more, rfl, List.forall_mem_cons.mpr ⟨hc, hbefore⟩, hd⟩

end LexState

/-- No character of the text has a meaning of its own. -/
def IsPlain (text : String) : Prop := ∀ c ∈ text.toList, c ∉ LexState.specialChars

instance : DecidablePred IsPlain := fun text =>
  List.decidableBAll (fun c => c ∉ LexState.specialChars) text.toList

end LineShell
