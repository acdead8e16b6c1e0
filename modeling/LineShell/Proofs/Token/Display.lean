import LineShell.Proofs.Token.Reading
import Mathlib.Data.List.Chain

/-!
# Displayed tokens

Which rows of tokens a line can have. A run of spaces is one token, so two spaces never stand side
by side, and a redirection always names one of the two output streams. Every row of this kind has a
displayed form that is read back as the same row, so no displayed token changes how its neighbours
are read.
-/

namespace LineShell

namespace Token

/-- The text of a token is one that the lexer gives to tokens of its kind. -/
def TextFits (token : Token) : Prop :=
  match token with
  | literal _ => True
  | space => token.text = " "
  | redirect _ _ => token.text ∈ [stdoutTag, stderrTag]
  | pipe => token.text = "|"

/-- How a character of a literal is displayed in double quotes. -/
def displayChar (c : Char) : List Char := if c ∈ ['\\', '\x22'] then ['\\', c] else [c]

/-- The number of the stream that a tag names. -/
def digitOfTag (tag : String) : Char := if tag = stderrTag then '2' else '1'

/-- The displayed form of a token. A redirection is displayed with the number of its stream. -/
def display : Token → List Char
  | literal text => '\x22' :: text.toList.flatMap displayChar ++ ['\x22']
  | space => [' ']
  | redirect .truncate tag => [digitOfTag tag, '>']
  | redirect .append tag => [digitOfTag tag, '>', '>']
  | pipe => ['|']

end Token

/-- A row of tokens that a line can have. -/
structure Lexical (tokens : List Token) : Prop where
  spaces_apart : tokens.IsChain fun first second => first = .space → second ≠ .space
  texts_fit : ∀ token ∈ tokens, token.TextFits

/-- The line that displays a row of tokens. -/
def displayLine (tokens : List Token) : String := String.ofList (tokens.flatMap Token.display)

namespace Lexical

/-- A token in front of a row, when its text fits and no space comes to stand before a space. -/
theorem cons {token : Token} {rest : List Token} (hrest : Lexical rest) (htext : token.TextFits)
    (hspace : token = .space → rest.head? ≠ some .space) : Lexical (token :: rest) := by
  refine ⟨List.isChain_cons.mpr ⟨fun next hnext hfirst hsecond => ?_, hrest.spaces_apart⟩,
    List.forall_mem_cons.mpr ⟨htext, hrest.texts_fit⟩⟩
  exact hspace hfirst (hsecond ▸ hnext)

/-- The rows of no tokens. -/
theorem nil : Lexical [] := ⟨.nil, fun _ h => absurd h List.not_mem_nil⟩

/-- A literal may stand anywhere. -/
theorem literal {rest : List Token} (text : String) (hrest : Lexical rest) :
    Lexical (.literal text :: rest) := hrest.cons trivial nofun

/-- A redirection may stand anywhere, when its tag is that of a stream. -/
theorem redirect {rest : List Token} {tag : String} (mode : RedirectMode)
    (htag : tag ∈ [Token.stdoutTag, Token.stderrTag]) (hrest : Lexical rest) :
    Lexical (.redirect mode tag :: rest) := hrest.cons htag nofun

/-- What stands behind a token. -/
theorem of_cons {token : Token} {rest : List Token} (h : Lexical (token :: rest)) :
    Lexical rest :=
  ⟨h.spaces_apart.tail, fun other hmem => h.texts_fit other (List.mem_cons_of_mem _ hmem)⟩

/-- No space stands behind a space. -/
theorem head?_ne_space {rest : List Token} (h : Lexical (.space :: rest)) :
    rest.head? ≠ some .space :=
  fun hnext => (List.isChain_cons.mp h.spaces_apart).1 _ hnext rfl rfl

end Lexical

/-! ## Tokens of a line -/

namespace LexState

/-- A redirection that the lexer is about to emit names a stream. -/
def Tagged : LexState → Prop
  | redirect tag => tag ∈ [Token.stdoutTag, Token.stderrTag]
  | _ => True

/-- The tokens that the lexer emits from a state are a row that a line can have, and a space is the
first of them only at a token boundary. -/
structure Emits (state : LexState) (tokens : List Token) : Prop where
  lexical : Lexical tokens
  head?_ne_space : state ≠ normal → tokens.head? ≠ some .space

/-- Away from token boundaries it does not matter in which state the lexer is. -/
theorem Emits.of_ne_normal {state next : LexState} {tokens : List Token} (h : next.Emits tokens)
    (hnext : next ≠ normal) : state.Emits tokens :=
  ⟨h.lexical, fun _ => h.head?_ne_space hnext⟩

/-- A literal is emitted from any state. -/
theorem Emits.literal {rest : List Token} (state : LexState) (text : String)
    (hrest : Lexical rest) : state.Emits (.literal text :: rest) :=
  ⟨hrest.literal text, fun _ => nofun⟩

/-- A redirection is emitted from any state. -/
theorem Emits.redirect {rest : List Token} {tag : String} (state : LexState) (mode : RedirectMode)
    (htag : tag ∈ [Token.stdoutTag, Token.stderrTag]) (hrest : Lexical rest) :
    state.Emits (.redirect mode tag :: rest) :=
  ⟨hrest.redirect mode htag, fun _ => nofun⟩

/-- A character at a token boundary leads to a boundary only if it is a pipe. -/
theorem stepNormal_ne_normal {c : Char} (hc : c ≠ '|') : stepNormal c ≠ normal := by
  intro hnormal
  unfold stepNormal at hnormal
  split at hnormal <;> contradiction

/-- Reading a character at a token boundary emits a space only for a space. -/
theorem emits_emitNormal {c : Char} {rest : List Token} (h : (stepNormal c).Emits rest) :
    Lexical (emitNormal c ++ rest) ∧
      (c ≠ ' ' → (emitNormal c ++ rest).head? ≠ some .space) := by
  by_cases hspace : c = ' '
  · subst hspace
    exact ⟨h.lexical.cons rfl fun _ => h.head?_ne_space LexState.noConfusion,
      fun hne => absurd rfl hne⟩
  · by_cases hpipe : c = '|'
    · subst hpipe
      exact ⟨h.lexical.cons rfl nofun, fun _ => nofun⟩
    · have hemit : emitNormal c = [] := by
        unfold emitNormal
        split <;> first | rfl | contradiction
      rw [hemit, List.nil_append]
      exact ⟨h.lexical, fun _ => h.head?_ne_space (stepNormal_ne_normal hpipe)⟩

/-- One step inside a bare word. -/
theorem Emits.stepWord {state : LexState} {text : String} {c : Char} {rest : List Token}
    (h : (stepWord text c).2.Emits rest) : state.Emits ((stepWord text c).1 ++ rest) := by
  unfold LexState.stepWord at h ⊢
  split at h
  next hends =>
    rw [if_pos hends]
    exact .literal state text (emits_emitNormal h).1
  next hends =>
    rw [if_neg hends]
    split at h
    · rw [if_pos ‹_›]
      exact h.of_ne_normal LexState.noConfusion
    · rw [if_neg ‹_›]
      exact h.of_ne_normal LexState.noConfusion

/-- What one step emits may stand before what is emitted after it. -/
theorem Emits.step {state : LexState} {c : Char} {rest : List Token} (htag : state.Tagged)
    (h : (state.step c).2.Emits rest) : state.Emits ((state.step c).1 ++ rest) := by
  cases state with
  | normal => exact ⟨(emits_emitNormal h).1, fun hne => absurd rfl hne⟩
  | spaces =>
    by_cases hspace : c = ' '
    · simp only [LexState.step, if_pos hspace] at h ⊢
      exact h
    · simp only [LexState.step, if_neg hspace] at h ⊢
      obtain ⟨hlexical, hhead⟩ := emits_emitNormal h
      exact ⟨hlexical, fun _ => hhead hspace⟩
  | escape => exact .literal _ _ h.lexical
  | digit name =>
    by_cases hsign : c = '>'
    · simp only [LexState.step, if_pos hsign] at h ⊢
      exact h.of_ne_normal LexState.noConfusion
    · by_cases hspace : c = ' '
      · simp only [LexState.step, if_neg hsign, if_pos hspace] at h ⊢
        exact h.of_ne_normal LexState.noConfusion
      · simp only [LexState.step, if_neg hsign, if_neg hspace] at h ⊢
        exact h.stepWord
  | spacedDigit name =>
    by_cases hsign : c = '>'
    · simp only [LexState.step, if_pos hsign] at h ⊢
      exact h.of_ne_normal LexState.noConfusion
    · by_cases hspace : c = ' '
      · simp only [LexState.step, if_neg hsign, if_pos hspace] at h ⊢
        exact .literal _ _ (h.lexical.cons rfl fun _ => h.head?_ne_space LexState.noConfusion)
      · simp only [LexState.step, if_neg hsign, if_neg hspace] at h ⊢
        obtain ⟨hlexical, hhead⟩ := emits_emitNormal h
        exact .literal _ _ (hlexical.cons rfl fun _ => hhead hspace)
  | redirect tag =>
    by_cases hsign : c = '>'
    · simp only [LexState.step, if_pos hsign] at h ⊢
      exact .redirect _ _ htag h.lexical
    · simp only [LexState.step, if_neg hsign] at h ⊢
      exact .redirect _ _ htag (emits_emitNormal h).1
  | word text => exact h.stepWord
  | wordEscape text => exact h.of_ne_normal LexState.noConfusion
  | singleQuote text =>
    by_cases hquote : c = '\x27'
    · simp only [LexState.step, if_pos hquote] at h ⊢
      exact .literal _ _ h.lexical
    · simp only [LexState.step, if_neg hquote] at h ⊢
      exact h.of_ne_normal LexState.noConfusion
  | doubleQuote text =>
    by_cases hquote : c = '\x22'
    · simp only [LexState.step, if_pos hquote] at h ⊢
      exact .literal _ _ h.lexical
    · by_cases hslash : c = '\\'
      · simp only [LexState.step, if_neg hquote, if_pos hslash] at h ⊢
        exact h.of_ne_normal LexState.noConfusion
      · simp only [LexState.step, if_neg hquote, if_neg hslash] at h ⊢
        exact h.of_ne_normal LexState.noConfusion
  | doubleEscape text =>
    by_cases hescape : escapedInDouble c = true
    · simp only [LexState.step, if_pos hescape] at h ⊢
      exact h.of_ne_normal LexState.noConfusion
    · simp only [LexState.step, if_neg hescape] at h ⊢
      exact h.of_ne_normal LexState.noConfusion

/-- After one step a redirection that is to be emitted still names a stream. -/
theorem Tagged.step {state : LexState} {c : Char} (h : state.Tagged) :
    (state.step c).2.Tagged := by
  have hdigit (name : Char) : tagOfDigit name ∈ [Token.stdoutTag, Token.stderrTag] := by
    unfold tagOfDigit
    split <;> decide
  have hnormal : (stepNormal c).Tagged := by
    unfold stepNormal
    split <;> first | exact True.intro | exact List.mem_cons_self
  have hword (text : String) : (stepWord text c).2.Tagged := by
    unfold stepWord
    split
    · exact hnormal
    · split <;> trivial
  cases state with
  | normal => exact hnormal
  | spaces =>
    rw [LexState.step]
    split
    · trivial
    · exact hnormal
  | escape => trivial
  | digit name =>
    rw [LexState.step]
    split
    · exact hdigit name
    · split
      · trivial
      · exact hword _
  | spacedDigit name =>
    rw [LexState.step]
    split
    · exact hdigit name
    · split
      · trivial
      · exact hnormal
  | redirect tag =>
    rw [LexState.step]
    split
    · trivial
    · exact hnormal
  | word text => exact hword text
  | wordEscape text => trivial
  | singleQuote text =>
    rw [LexState.step]
    split <;> trivial
  | doubleQuote text =>
    rw [LexState.step]
    split
    · trivial
    · split <;> trivial
  | doubleEscape text =>
    rw [LexState.step]
    split <;> trivial

/-- What the end of the line emits. -/
theorem Emits.finish {state : LexState} {tokens : List Token} (htag : state.Tagged)
    (h : state.finish = .ok tokens) : state.Emits tokens := by
  cases state <;> cases h
  case normal => exact ⟨.nil, nofun⟩
  case spaces => exact ⟨.nil, nofun⟩
  case escape => exact ⟨.nil, nofun⟩
  case digit name => exact .literal _ _ .nil
  case spacedDigit name => exact .literal _ _ (Lexical.nil.cons rfl nofun)
  case redirect tag => exact .redirect _ _ htag .nil
  case word text => exact .literal _ _ .nil
  case wordEscape text => exact .literal _ _ .nil

/-- What the lexer makes of the rest of a line. -/
theorem Emits.of_read {state : LexState} {cs : List Char} {tokens : List Token}
    (htag : state.Tagged) (h : state.read cs = .ok tokens) : state.Emits tokens := by
  induction cs generalizing state tokens with
  | nil => exact .finish htag h
  | cons c rest ih =>
    rw [read_cons] at h
    cases hrest : (state.step c).2.read rest with
    | error e =>
      rw [hrest] at h
      cases h
    | ok more =>
      rw [hrest] at h
      cases h
      exact .step htag (ih htag.step hrest)

/-! ## Displayed tokens are read back -/

/-- The rest of a displayed literal is read as the rest of its text. -/
theorem read_doubleQuote_display (text : String) (cs rest : List Char) :
    (doubleQuote text).read (cs.flatMap Token.displayChar ++ '\x22' :: rest) =
      withTokens [.literal (text ++ String.ofList cs)] (normal.read rest) := by
  induction cs generalizing text with
  | nil =>
    have hclose : (doubleQuote text).step '\x22' = ([.literal text], normal) := by
      simp only [step, if_true]
    rw [List.flatMap_nil, List.nil_append, read_cons, hclose, String.ofList_nil,
      String.append_empty]
  | cons c more ih =>
    rw [List.flatMap_cons, List.append_assoc, Token.displayChar, ← push_append_ofList]
    by_cases hc : c ∈ ['\\', '\x22']
    · have hslash : (doubleQuote text).step '\\' = ([], doubleEscape text) := rfl
      have hescaped : (doubleEscape text).step c = ([], doubleQuote (text.push c)) := by
        have hescape : escapedInDouble c = true := by
          simp only [List.mem_cons, List.not_mem_nil, or_false] at hc
          rcases hc with rfl | rfl <;> rfl
        simp only [step, if_pos hescape]
      rw [if_pos hc, List.cons_append, List.singleton_append, read_cons, hslash, read_cons,
        hescaped, withTokens_nil, withTokens_nil, ih]
    · have hstep : (doubleQuote text).step c = ([], doubleQuote (text.push c)) := by
        simp only [List.mem_cons, List.not_mem_nil, or_false, not_or] at hc
        simp only [step, if_neg hc.1, if_neg hc.2]
      rw [if_neg hc, List.singleton_append, read_cons, hstep, withTokens_nil, ih]

/-- A displayed literal is read as the literal. -/
theorem readsAs_displayLiteral (text : String) :
    ReadsAs (Token.literal text).display [.literal text] := by
  intro rest
  have hstep : normal.read ((Token.literal text).display ++ rest) =
      (doubleQuote "").read (text.toList.flatMap Token.displayChar ++ '\x22' :: rest) := by
    rw [Token.display, List.append_assoc, List.cons_append, List.singleton_append, read_cons]
    exact withTokens_nil _
  rw [hstep, read_doubleQuote_display, String.empty_append, String.ofList_toList]

/-- A displayed redirection is read as the redirection, when the next character is no part of the
operator. -/
theorem read_displayRedirect (mode : RedirectMode) {tag : String}
    (htag : tag ∈ [Token.stdoutTag, Token.stderrTag]) {cs : List Char} (hcs : cs.head? ≠ some '>') :
    normal.read ((Token.redirect mode tag).display ++ cs) =
      withTokens [.redirect mode tag] (normal.read cs) := by
  have hdigit (operator : List Char) :
      normal.read (Token.digitOfTag tag :: '>' :: operator) =
        (LexState.redirect tag).read operator := by
    simp only [List.mem_cons, List.not_mem_nil, or_false] at htag
    rcases htag with rfl | rfl
    · exact (withTokens_nil _).trans (withTokens_nil _)
    · exact (withTokens_nil _).trans (withTokens_nil _)
  cases mode with
  | truncate => exact (hdigit cs).trans (read_redirect_truncate tag hcs)
  | append => exact (hdigit ('>' :: cs)).trans (read_redirect_append tag cs)

/-- What a displayed row of tokens begins with: never a greater-than sign, and a space only if the
row does. -/
theorem head?_flatMap_display (tokens : List Token) :
    (tokens.flatMap Token.display).head? ≠ some '>' ∧
      (tokens.head? ≠ some .space → (tokens.flatMap Token.display).head? ≠ some ' ') := by
  cases tokens with
  | nil => exact ⟨nofun, fun _ => nofun⟩
  | cons token rest =>
    rw [List.flatMap_cons]
    cases token with
    | literal text => exact ⟨nofun, fun _ => nofun⟩
    | space => exact ⟨nofun, fun hne => absurd rfl hne⟩
    | redirect mode tag =>
      have hdigit : Token.digitOfTag tag ≠ '>' ∧ Token.digitOfTag tag ≠ ' ' := by
        unfold Token.digitOfTag
        split <;> decide
      have hhead : ((Token.redirect mode tag).display ++ rest.flatMap Token.display).head? =
          some (Token.digitOfTag tag) := by
        cases mode <;> rfl
      rw [hhead]
      exact ⟨fun h => hdigit.1 (Option.some.inj h), fun _ h => hdigit.2 (Option.some.inj h)⟩
    | pipe => exact ⟨nofun, fun _ => nofun⟩

/-- A row of tokens that a line can have is read back from its displayed form. -/
theorem read_display {tokens : List Token} (h : Lexical tokens) :
    normal.read (tokens.flatMap Token.display) = .ok tokens := by
  induction tokens with
  | nil => rfl
  | cons token rest ih =>
    have hrest := ih h.of_cons
    rw [List.flatMap_cons]
    cases token with
    | literal text =>
      rw [readsAs_displayLiteral, hrest]
      rfl
    | space =>
      have hhead := (head?_flatMap_display rest).2 h.head?_ne_space
      have hdrop : (rest.flatMap Token.display).dropWhile (· == ' ') =
          rest.flatMap Token.display := by
        cases hline : rest.flatMap Token.display with
        | nil => rfl
        | cons c more =>
          have hc : c ≠ ' ' := by simpa [hline] using hhead
          simp [hc]
      have hstep : normal.read (Token.space.display ++ rest.flatMap Token.display) =
          withTokens [.space] (spaces.read (rest.flatMap Token.display)) := rfl
      rw [hstep, read_spaces, hdrop, hrest]
      rfl
    | redirect mode tag =>
      have htag : tag ∈ [Token.stdoutTag, Token.stderrTag] := h.texts_fit _ List.mem_cons_self
      rw [read_displayRedirect mode htag (head?_flatMap_display rest).1, hrest]
      rfl
    | pipe =>
      have hstep : normal.read (Token.pipe.display ++ rest.flatMap Token.display) =
        withTokens [.pipe] (normal.read (rest.flatMap Token.display)) := rfl
      rw [hstep, hrest]
      rfl

end LexState

/-- The rows of tokens that lines have are those in which no two spaces stand side by side and every
token has a text of its kind. They are also the rows that are read back from their displayed form,
so the tokens of any line are. -/
theorem tokenize_displayLine (tokens : List Token) :
    ((∃ line, tokenize line = .ok tokens) ↔ Lexical tokens) ∧
      (Lexical tokens ↔ tokenize (displayLine tokens) = .ok tokens) ∧
      ∀ line, tokenize line = .ok tokens → tokenize (displayLine tokens) = .ok tokens := by
  have hlexical {line : String} (h : tokenize line = .ok tokens) : Lexical tokens := by
    rw [tokenize, tokenizeChars_eq_read] at h
    have hemits : LexState.normal.Emits tokens := .of_read trivial h
    exact hemits.lexical
  have hdisplay (h : Lexical tokens) : tokenize (displayLine tokens) = .ok tokens := by
    rw [tokenize, displayLine, String.toList_ofList, tokenizeChars_eq_read]
    exact LexState.read_display h
  exact ⟨⟨fun ⟨line, h⟩ => hlexical h, fun h => ⟨_, hdisplay h⟩⟩, ⟨hdisplay, hlexical⟩,
    fun line h => hdisplay (hlexical h)⟩

example :
    displayLine [.literal "a\\\x22", .space, .redirect .truncate "stderr", .pipe] =
      "\x22a\\\\\\\x22\x22 2>|" := by rfl

end LineShell
