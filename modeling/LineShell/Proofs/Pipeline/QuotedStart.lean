import LineShell.Proofs.Pipeline.Gluing
import LineShell.Proofs.Token.Contents
import LineShell.Proofs.Token.Pieces

/-!
# Words with a quoted beginning

Quotes around the beginning of a word cut the word in two literals, and the parser glues them. But
behind the closing quote the lexer is at a token boundary, where a digit may name the stream of a
redirection. Inside a word it may not. So a single digit that stands between the closing quote and
the operator is part of the operator, and it is part of the word when the quotes are left out.
-/

namespace LineShell

/-- The text ends in a space that separates: no backslash takes it, and no quotation is open. -/
def EndsInSeparator (text : String) : Prop :=
  ∃ before, text.toList = before ++ [' '] ∧ (LexState.normal.run before).2.takesNext = false ∧
    ∃ tokens, (LexState.normal.run before).2.finish = .ok tokens

/-- A text is a single digit that names the stream of a redirection whose operator begins the second
text, at once or behind one space. -/
def NamesStream (digit operator : String) : Prop :=
  (digit = "1" ∨ digit = "2") ∧ (['>'] <+: operator.toList ∨ [' ', '>'] <+: operator.toList)

instance (digit operator : String) : Decidable (NamesStream digit operator) :=
  inferInstanceAs (Decidable (_ ∧ _))

namespace LexState

/-- Plain characters are read as the beginning of a word, unless they are a digit that names the
stream of the redirection behind them. -/
theorem read_plain_word {text : String} (hne : text ≠ "") (hplain : IsPlain text) {rest : String}
    (hstream : ¬NamesStream text rest) :
    normal.read (text.toList ++ rest.toList) = (word text).read rest.toList := by
  have hchars : text.toList ≠ [] := fun h => hne (String.toList_eq_nil_iff.mp h)
  rcases read_plain hchars hplain rest.toList with hread | ⟨name, htext, hname, hread⟩
  · rw [hread, String.ofList_toList]
  · have hsingle : text = String.singleton name :=
      String.toList_injective (htext.trans (by simp))
    have hdigit : text = "1" ∨ text = "2" := by
      rw [hsingle]
      rcases hname with rfl | rfl
      · exact .inl rfl
      · exact .inr rfl
    have hsign : rest.toList.head? ≠ some '>' := by
      intro h
      obtain ⟨more, hrest⟩ := List.head?_eq_some_iff.mp h
      exact hstream ⟨hdigit, .inl ⟨more, hrest.symm⟩⟩
    have hspace (others : List Char) (hrest : rest.toList = ' ' :: others) :
        others.head? ≠ some '>' := by
      intro h
      obtain ⟨more, rfl⟩ := List.head?_eq_some_iff.mp h
      exact hstream ⟨hdigit, .inr ⟨more, hrest.symm⟩⟩
    rw [hread, read_digit_word name hsign hspace, hsingle]

/-- A word ends at the end of the line and in front of a character that ends words. -/
theorem read_word_ends (text : String) {cs : List Char} (hcs : ∀ c ∈ cs.head?, endsWord c = true) :
    (word text).read cs = withTokens [.literal text] (normal.read cs) := by
  cases cs with
  | nil => rfl
  | cons c rest =>
    have hends : endsWord c = true := hcs c rfl
    have hstep : (word text).step c = enterNormal [.literal text] c := by
      simp only [step, stepWord, hends, if_true]
    rw [read_cons, hstep, withTokens_enterNormal]

/-- At a token boundary a digit that names the stream of a redirection is part of its operator. -/
theorem read_namesStream {digit operator : String} (h : NamesStream digit operator) :
    ∃ mode tag rest, normal.read (digit.toList ++ operator.toList) =
      withTokens [.redirect mode tag] (normal.read rest) := by
  obtain ⟨hdigit, hoperator⟩ := h
  have hname : ∃ name, normal.read (digit.toList ++ operator.toList) =
      (LexState.digit name).read operator.toList := by
    rcases hdigit with rfl | rfl
    · exact ⟨'1', withTokens_nil _⟩
    · exact ⟨'2', withTokens_nil _⟩
  obtain ⟨name, hname⟩ := hname
  have hsign : ∃ rest, (LexState.digit name).read operator.toList =
      (redirect (tagOfDigit name)).read rest := by
    rcases hoperator with ⟨rest, hrest⟩ | ⟨rest, hrest⟩
    · exact ⟨rest, by simp [← hrest, read_cons, step]⟩
    · exact ⟨rest, by simp [← hrest, read_cons, step]⟩
  obtain ⟨rest, hsign⟩ := hsign
  obtain ⟨mode, more, hredirect⟩ := exists_read_redirect rest
  exact ⟨mode, _, more, by rw [hname, hsign, hredirect]⟩

end LexState

/-- A text completes the given tokens, and what follows it is read as at the beginning of a line,
unless it goes on with spaces or is the operator of a redirection. -/
def Completes (before : String) (front : List Token) : Prop :=
  ∀ rest : String, rest.toList.head? ≠ some ' ' → rest.toList.head? ≠ some '>' →
    tokenize (before ++ rest) = withTokens front (LexState.normal.read rest.toList)

/-- Behind an empty text or a separating space a word begins. -/
theorem exists_completes {before : String} (h : before = "" ∨ EndsInSeparator before) :
    ∃ front, Completes before front := by
  rcases h with rfl | ⟨start, hstart, htakes, tokens, hfinish⟩
  · refine ⟨[], fun rest _ _ => ?_⟩
    rw [String.empty_append, tokenize, tokenizeChars_eq_read, withTokens_nil]
  · obtain ⟨trail, -, hread⟩ := LexState.read_space htakes hfinish
    refine ⟨(LexState.normal.run start).1 ++ (tokens ++ trail), fun rest hspace hsign => ?_⟩
    have hspaces : LexState.spaces.read rest.toList = LexState.normal.read rest.toList :=
      LexState.read_spaces_replicate_append hspace 0
    rw [tokenize, tokenizeChars_eq_read, String.toList_append, hstart, List.append_assoc,
      LexState.read_append, List.singleton_append, hread _ fun _ _ => hsign, hspaces,
      withTokens_withTokens]

/-- Lines whose tokens differ only in front, where this makes no difference to the stages, denote
the same. -/
theorem parseLine_congr {first second : String} {front other : List Token}
    {result : Except LexError (List Token)} (hfirst : tokenize first = withTokens front result)
    (hsecond : tokenize second = withTokens other result)
    (hstages : ∀ rest, stagesIn (front ++ rest) = stagesIn (other ++ rest)) :
    parseLine first = parseLine second := by
  cases result with
  | error e => rw [parseLine, parseLine, hfirst, hsecond, withTokens_error, withTokens_error]
  | ok rest =>
    rw [withTokens_ok] at hfirst hsecond
    rw [parseLine_of_tokenize hfirst, parseLine_of_tokenize hsecond, parsePipeline_eq_ofStages,
      parsePipeline_eq_ofStages, hstages]

/-- Plain characters begin neither with a space nor with an operator. -/
theorem IsPlain.head?_ne {text : String} (h : IsPlain text) (hne : text ≠ "") (rest : String) :
    (text ++ rest).toList.head? ≠ some ' ' ∧ (text ++ rest).toList.head? ≠ some '>' := by
  have hchars : text.toList ≠ [] := fun hnil => hne (String.toList_eq_nil_iff.mp hnil)
  obtain ⟨c, more, htext⟩ := List.exists_cons_of_ne_nil hchars
  have hc : c ∉ LexState.specialChars := h c (htext ▸ List.mem_cons_self)
  rw [String.toList_append, htext, List.cons_append, List.head?_cons]
  constructor
  · exact fun hspace => hc (by simp [LexState.specialChars, Option.some.inj hspace])
  · exact fun hsign => hc (by simp [LexState.specialChars, Option.some.inj hsign])

/-- Plain texts in a row are a plain text. -/
theorem IsPlain.append {first second : String} (hfirst : IsPlain first) (hsecond : IsPlain second) :
    IsPlain (first ++ second) := by
  intro c hc
  rw [String.toList_append, List.mem_append] at hc
  exact hc.elim (hfirst c) (hsecond c)

/-- A word whose first character is neither a `1` nor a `2` names no stream. -/
theorem not_namesStream_append {x : String} (hx : x ≠ "")
    (hhead : x.toList.head? ≠ some '1' ∧ x.toList.head? ≠ some '2') (y operator : String) :
    ¬NamesStream (x ++ y) operator := by
  have hchars : x.toList ≠ [] := fun hnil => hx (String.toList_eq_nil_iff.mp hnil)
  obtain ⟨c, more, htext⟩ := List.exists_cons_of_ne_nil hchars
  have hsame : (x ++ y).toList.head? = x.toList.head? := by
    rw [String.toList_append, htext]
    rfl
  rintro ⟨hdigit, -⟩
  rcases hdigit with hdigit | hdigit
  · rw [hdigit] at hsame
    exact hhead.1 hsame.symm
  · rw [hdigit] at hsame
    exact hhead.2 hsame.symm

section

variable {u x y v : String} {front : List Token}

/-- The tokens of a line in which a word begins in quotes. -/
theorem tokenize_quoted (hu : Completes u front) (hx : IsPlain x) (rest : String) :
    tokenize (u ++ ("\x27" ++ (x ++ ("\x27" ++ rest)))) =
      withTokens (front ++ [.literal x]) (LexState.normal.read rest.toList) := by
  have hquote : '\x27' ∉ x.toList := fun h => hx _ h (by decide)
  have hchars : ("\x27" ++ (x ++ ("\x27" ++ rest))).toList =
      '\x27' :: (x.toList ++ '\x27' :: rest.toList) := by simp
  have hopen : LexState.normal.read ('\x27' :: (x.toList ++ '\x27' :: rest.toList)) =
      (LexState.singleQuote "").read (x.toList ++ '\x27' :: rest.toList) := withTokens_nil _
  rw [hu _ (by simp) (by simp), hchars, hopen, LexState.read_singleQuote_closed _ _ hquote,
    String.empty_append, String.ofList_toList, withTokens_withTokens]

/-- The tokens of a line in which a plain word ends in front of another text. -/
theorem tokenize_plain (hu : Completes u front) (hne : x ≠ "") (hx : IsPlain x)
    (hstream : ¬NamesStream x v) (hends : ∀ c ∈ v.toList.head?, LexState.endsWord c = true) :
    tokenize (u ++ (x ++ v)) =
      withTokens (front ++ [.literal x]) (LexState.normal.read v.toList) := by
  obtain ⟨hspace, hsign⟩ := hx.head?_ne hne v
  rw [hu _ hspace hsign, String.toList_append, LexState.read_plain_word hne hx hstream,
    LexState.read_word_ends x hends, withTokens_withTokens]

/-- The tokens of a line in which a plain word ends in front of a space. -/
theorem tokenize_plain_space (hu : Completes u front) (hne : x ≠ "") (hx : IsPlain x)
    (hv : v.toList.head? ≠ some ' ' ∧ v.toList.head? ≠ some '>') :
    tokenize (u ++ (x ++ (" " ++ v))) =
      withTokens (front ++ [.literal x, .space]) (LexState.normal.read v.toList) := by
  have hchars : x.toList ≠ [] := fun hnil => hne (String.toList_eq_nil_iff.mp hnil)
  obtain ⟨hspace, hsign⟩ := hx.head?_ne hne (" " ++ v)
  have hspaces : LexState.spaces.read v.toList = LexState.normal.read v.toList :=
    LexState.read_spaces_replicate_append hv.1 0
  have htoList : (x ++ (" " ++ v)).toList = x.toList ++ ' ' :: v.toList := by simp
  rw [hu _ hspace hsign, htoList, LexState.read_plain_space hchars hx hv.2, hspaces,
    String.ofList_toList, withTokens_withTokens]

end

/-- Quotes around the beginning of a word do not change what a line denotes, unless a single digit
stands between the closing quote and the operator of a redirection. This digit names the stream of
the redirection, as it does behind a space. -/
theorem parseLine_quotedStart {u x y v : String} (hu : u = "" ∨ EndsInSeparator u) (hx : x ≠ "")
    (hxPlain : IsPlain x) (hxHead : x.toList.head? ≠ some '1' ∧ x.toList.head? ≠ some '2')
    (hyPlain : IsPlain y)
    (hv : v = "" ∨ v.toList.head? = some ' ' ∨ v.toList.head? = some '|' ∨
      v.toList.head? = some '>') :
    (¬NamesStream y v →
        parseLine (u ++ x ++ y ++ v) = parseLine (u ++ "\x27" ++ x ++ "\x27" ++ y ++ v)) ∧
      (NamesStream y v →
        parseLine (u ++ "\x27" ++ x ++ "\x27" ++ y ++ v) =
          parseLine (u ++ x ++ " " ++ y ++ v)) := by
  obtain ⟨front, hfront⟩ := exists_completes hu
  have hquoted := tokenize_quoted hfront hxPlain (y ++ v)
  simp only [String.append_assoc]
  constructor
  · intro hstream
    have hends : ∀ c ∈ v.toList.head?, LexState.endsWord c = true := by
      intro c hc
      rcases hv with rfl | hv | hv | hv
      · cases hc
      all_goals
        obtain rfl := Option.some.inj (hv.symm.trans hc)
        rfl
    have hbare := tokenize_plain hfront (by simp [hx]) (hxPlain.append hyPlain)
      (not_namesStream_append hx hxHead y v) hends
    rw [String.append_assoc] at hbare
    by_cases hy : y = ""
    · subst hy
      rw [String.append_empty] at hbare
      rw [String.empty_append] at hquoted hbare ⊢
      exact parseLine_congr hbare hquoted fun _ => rfl
    · rw [String.toList_append, LexState.read_plain_word hy hyPlain hstream,
        LexState.read_word_ends y hends, withTokens_withTokens] at hquoted
      refine parseLine_congr hbare hquoted fun rest => ?_
      simpa using (stagesIn_literals front x y rest).symm
  · intro hstream
    obtain ⟨mode, tag, rest, hread⟩ := LexState.read_namesStream hstream
    have hy : y ≠ "" := by rcases hstream.1 with rfl | rfl <;> decide
    have hspaced := tokenize_plain_space hfront hx hxPlain (hyPlain.head?_ne hy v)
    rw [String.toList_append, hread, withTokens_withTokens] at hquoted hspaced
    refine parseLine_congr hquoted hspaced fun more => ?_
    have hsame := stagesIn_space_redirect (front ++ [.literal x]) mode tag more
    simpa only [List.append_assoc, List.cons_append, List.nil_append] using hsame.symm

/-- The separating space that the command name `echo` has behind it. -/
theorem endsInSeparator_echo : EndsInSeparator "echo " :=
  ⟨"echo".toList, by rfl, by rfl, [.literal "echo"], by rfl⟩

/-- In front of two spaces the digit in `a2` is part of the word, with or without quotes around the
letter. In front of one space and the operator it is part of the operator, when there are quotes. -/
theorem parseLine_quotedStart_digit :
    parseLine ("echo " ++ "a" ++ "2" ++ "  >f") =
        parseLine ("echo " ++ "\x27" ++ "a" ++ "\x27" ++ "2" ++ "  >f") ∧
      parseLine ("echo " ++ "\x27" ++ "a" ++ "\x27" ++ "2" ++ " >f") =
        parseLine ("echo " ++ "a" ++ " " ++ "2" ++ " >f") := by
  have hletter : "a" ≠ "" ∧ IsPlain "a" ∧ IsPlain "2" := by decide
  obtain ⟨hne, hplain, hdigit⟩ := hletter
  have hword := parseLine_quotedStart (v := "  >f") (.inr endsInSeparator_echo) hne hplain
    (by decide) hdigit (by decide)
  have hoperator := parseLine_quotedStart (v := " >f") (.inr endsInSeparator_echo) hne hplain
    (by decide) hdigit (by decide)
  exact ⟨hword.1 (by decide), hoperator.2 (by decide)⟩

/-- Quotes around the beginning of a word do change what some lines denote: in `echo a2>f` the digit
is part of the word, and with `a` in quotes it names the redirected stream. -/
theorem quotedStart_ne :
    ¬∀ u x y v : String, (u = "" ∨ EndsInSeparator u) → x ≠ "" → IsPlain x →
      (x.toList.head? ≠ some '1' ∧ x.toList.head? ≠ some '2') → IsPlain y →
      (v = "" ∨ v.toList.head? = some ' ' ∨ v.toList.head? = some '|' ∨
        v.toList.head? = some '>') →
      parseLine (u ++ x ++ y ++ v) = parseLine (u ++ "\x27" ++ x ++ "\x27" ++ y ++ v) := by
  intro hsame
  have hbare : parseLine ("echo " ++ "a" ++ "2" ++ ">f") =
      .ok ⟨[⟨"echo", ["a2"], [⟨.truncate, .stdout, ⟨"f"⟩⟩]⟩]⟩ :=
    parseLine_eq_ok_of_toOption (by decide +kernel)
  have hquoted : parseLine ("echo " ++ "\x27" ++ "a" ++ "\x27" ++ "2" ++ ">f") =
      .ok ⟨[⟨"echo", ["a"], [⟨.truncate, .stderr, ⟨"f"⟩⟩]⟩]⟩ :=
    parseLine_eq_ok_of_toOption (by decide +kernel)
  have hline := hsame "echo " "a" "2" ">f" (.inr endsInSeparator_echo) (by decide) (by decide)
    (by decide) (by decide) (by decide)
  rw [hbare, hquoted] at hline
  exact absurd (Except.ok.inj hline) (by decide)

end LineShell
