import LineShell.Token.Lexer

/-!
# Reading from a state of the lexer

What the lexer makes of the rest of a line depends on its state alone. Facts about a piece of a
line are stated here over whatever follows the piece, so that they can be chained.
-/

namespace LineShell

/-- A lexing result with further tokens in front. -/
def withTokens (tokens : List Token) (result : Except LexError (List Token)) :
    Except LexError (List Token) :=
  result.map (tokens ++ ·)

/-- Tokens in front of a success are in front of its tokens. -/
@[simp] theorem withTokens_ok (tokens more : List Token) :
    withTokens tokens (.ok more) = .ok (tokens ++ more) := rfl

/-- Tokens in front of a failure are lost. -/
@[simp] theorem withTokens_error (tokens : List Token) (e : LexError) :
    withTokens tokens (.error e) = .error e := rfl

/-- No tokens in front change nothing. -/
@[simp] theorem withTokens_nil (result : Except LexError (List Token)) :
    withTokens [] result = result := by
  cases result <;> rfl

/-- Tokens that are put in front twice stand in a row. -/
@[simp] theorem withTokens_withTokens (first second : List Token)
    (result : Except LexError (List Token)) :
    withTokens first (withTokens second result) = withTokens (first ++ second) result := by
  cases result with
  | error e => rfl
  | ok tokens => simp only [withTokens_ok, List.append_assoc]

/-- A character that is pushed onto a text is the first of what follows the text. -/
theorem push_append_ofList (text : String) (c : Char) (rest : List Char) :
    text.push c ++ String.ofList rest = text ++ String.ofList (c :: rest) := by
  apply String.toList_injective
  simp only [String.toList_append, String.toList_push, String.toList_ofList, List.append_assoc,
    List.singleton_append]

namespace LexState

/-- The tokens that the rest of a line adds when the lexer reaches it in the given state. -/
def read : LexState → List Char → Except LexError (List Token)
  | state, [] => state.finish
  | state, c :: rest => withTokens (state.step c).1 (read (state.step c).2 rest)

/-- The end of the line is read by finishing. -/
@[simp] theorem read_nil (state : LexState) : state.read [] = state.finish := rfl

/-- Reading goes on from the state after the first character. -/
theorem read_cons (state : LexState) (c : Char) (rest : List Char) :
    state.read (c :: rest) = withTokens (state.step c).1 ((state.step c).2.read rest) := rfl

/-- A step that completes tokens and goes on at a token boundary puts these tokens in front of
what reading the character there gives. -/
theorem withTokens_enterNormal (emitted : List Token) (c : Char) (rest : List Char) :
    withTokens (enterNormal emitted c).1 ((enterNormal emitted c).2.read rest) =
      withTokens emitted (normal.read (c :: rest)) := by
  rw [read_cons, withTokens_withTokens]
  rfl

/-- Further spaces belong to the token that the first of them completed. -/
theorem read_spaces (cs : List Char) :
    spaces.read cs = normal.read (cs.dropWhile (· == ' ')) := by
  induction cs with
  | nil => rfl
  | cons c rest ih =>
    by_cases hspace : c = ' '
    · subst hspace
      simpa only [read_cons, step, if_true, withTokens_nil, List.dropWhile_cons, beq_self_eq_true]
        using ih
    · have hstep : spaces.step c = enterNormal [] c := by simp only [step, if_neg hspace]
      have hdrop : (c :: rest).dropWhile (· == ' ') = c :: rest := by
        simp [hspace]
      rw [read_cons, hstep, withTokens_enterNormal, withTokens_nil, hdrop]

/-- After one greater-than sign, a second one makes the redirection append. -/
theorem read_redirect_append (tag : String) (rest : List Char) :
    (redirect tag).read ('>' :: rest) = withTokens [.redirect .append tag] (normal.read rest) := by
  simp only [read_cons, step, if_true]

/-- After one greater-than sign, anything but a second one leaves a truncating redirection. -/
theorem read_redirect_truncate (tag : String) {cs : List Char} (hcs : cs.head? ≠ some '>') :
    (redirect tag).read cs = withTokens [.redirect .truncate tag] (normal.read cs) := by
  cases cs with
  | nil => rfl
  | cons c rest =>
    have hc : c ≠ '>' := by simpa using hcs
    have hstep : (redirect tag).step c = enterNormal [.redirect .truncate tag] c := by
      simp only [step, if_neg hc]
    rw [read_cons, hstep, withTokens_enterNormal]

/-- What follows a greater-than sign says how its redirection opens the target and what is read
behind it. The stream that is redirected has no part in this. -/
theorem exists_read_redirect (cs : List Char) :
    ∃ mode rest, ∀ tag, (redirect tag).read cs =
      withTokens [.redirect mode tag] (normal.read rest) := by
  by_cases hsign : cs.head? = some '>'
  · obtain ⟨rest, rfl⟩ := List.head?_eq_some_iff.mp hsign
    exact ⟨.append, rest, fun tag => read_redirect_append tag rest⟩
  · exact ⟨.truncate, cs, fun tag => read_redirect_truncate tag hsign⟩

/-- A digit and one space before anything but a greater-than sign are a word and a separator. -/
theorem read_spacedDigit (name : Char) {cs : List Char} (hcs : cs.head? ≠ some '>') :
    (spacedDigit name).read cs =
      withTokens [.literal (String.singleton name)] (normal.read (' ' :: cs)) := by
  have hspace : normal.read (' ' :: cs) = withTokens [.space] (spaces.read cs) := rfl
  rw [hspace, withTokens_withTokens]
  cases cs with
  | nil => rfl
  | cons c rest =>
    have hc : c ≠ '>' := by simpa using hcs
    by_cases hblank : c = ' '
    · subst hblank
      have hdigit : (spacedDigit name).step ' ' =
          ([.literal (String.singleton name), .space], spaces) := by
        simp only [step, if_neg hc, if_true]
      have hspaces : spaces.step ' ' = ([], spaces) := by simp only [step, if_true]
      rw [read_cons, read_cons, hdigit, hspaces, withTokens_nil]
      rfl
    · have hdigit : (spacedDigit name).step c =
          enterNormal [.literal (String.singleton name), .space] c := by
        simp only [step, if_neg hc, if_neg hblank]
      have hspaces : spaces.step c = enterNormal [] c := by simp only [step, if_neg hblank]
      rw [read_cons, read_cons, hdigit, hspaces, withTokens_enterNormal, withTokens_enterNormal,
        withTokens_nil]
      rfl

/-- Characters that are read from one token boundary to the next as the given tokens, whatever
follows them. -/
def ReadsAs (cs : List Char) (tokens : List Token) : Prop :=
  ∀ rest, normal.read (cs ++ rest) = withTokens tokens (normal.read rest)

/-- No characters are read as no tokens. -/
theorem ReadsAs.nil : ReadsAs [] [] := fun _ => (withTokens_nil _).symm

/-- Characters that stand in a row are read as their tokens in a row. -/
theorem ReadsAs.append {first second : List Char} {firstTokens secondTokens : List Token}
    (hfirst : ReadsAs first firstTokens) (hsecond : ReadsAs second secondTokens) :
    ReadsAs (first ++ second) (firstTokens ++ secondTokens) := by
  intro rest
  rw [List.append_assoc, hfirst, hsecond, withTokens_withTokens]

/-- Pieces that stand in a row are read piece by piece. -/
theorem ReadsAs.flatMap {α : Type} {chars : α → List Char} {tokens : α → List Token}
    (h : ∀ x, ReadsAs (chars x) (tokens x)) (xs : List α) :
    ReadsAs (xs.flatMap chars) (xs.flatMap tokens) := by
  induction xs with
  | nil => exact .nil
  | cons x rest ih =>
    rw [List.flatMap_cons, List.flatMap_cons]
    exact (h x).append ih

/-- A space in front of anything but a space is read as a token of its own. -/
theorem ReadsAs.space {c : Char} {cs : List Char} {tokens : List Token} (hc : c ≠ ' ')
    (h : ReadsAs (c :: cs) tokens) : ReadsAs (' ' :: c :: cs) (.space :: tokens) := by
  intro rest
  have hstep : normal.read (' ' :: c :: cs ++ rest) =
      withTokens [.space] (spaces.read (c :: (cs ++ rest))) := rfl
  have hdrop : (c :: (cs ++ rest)).dropWhile (· == ' ') = c :: cs ++ rest := by
    simp [hc]
  rw [hstep, read_spaces, hdrop, h, withTokens_withTokens]
  rfl

end LexState

/-- A lexer that has emitted tokens puts them in front of what it reads from its state. -/
theorem Lexer.finish_foldl_feed (lexer : Lexer) (cs : List Char) :
    (cs.foldl Lexer.feed lexer).finish =
      withTokens lexer.emitted.toList (lexer.state.read cs) := by
  induction cs generalizing lexer with
  | nil => rfl
  | cons c rest ih =>
    obtain ⟨emitted, state⟩ := lexer
    rw [List.foldl_cons, ih, LexState.read_cons, withTokens_withTokens]
    simp only [feed, Array.toList_appendList]

/-- The tokens of a line are what is read from a token boundary. -/
theorem tokenizeChars_eq_read (cs : List Char) : tokenizeChars cs = LexState.normal.read cs := by
  rw [tokenizeChars, Lexer.finish_foldl_feed]
  exact withTokens_nil _

end LineShell
