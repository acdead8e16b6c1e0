import LineShell.Proofs.Token.Lexeme
import LineShell.Proofs.Token.Pieces
import Mathlib.Data.List.Induction

/-!
# Open quotations

A line has no tokens exactly when a quotation is open at its end. The quotation was opened behind an
accepted part of the line, and only its own quote can close it. A double quote does so unless a
backslash takes it, and then a second one does.
-/

namespace LineShell

/-- The characters that open a quotation, stand in it and close it. -/
def Quote.enclose (q : Quote) (contents : String) : String :=
  (String.singleton q.char ++ contents).push q.char

/-- Every character of a text stands for itself in the quotation. -/
def Quote.Verbatim (q : Quote) (contents : String) : Prop :=
  match q with
  | .single => '\x27' ∉ contents.toList
  | .double => '\x22' ∉ contents.toList ∧ '\\' ∉ contents.toList

/-- A line has tokens. -/
def IsAccepted (line : String) : Prop := ∃ tokens, tokenize line = .ok tokens

/-- A line leaves a quotation open that began with the given character. -/
def LeavesOpen (quote : Char) (line : String) : Prop :=
  tokenize line = .error (.unterminatedQuote quote)

namespace LexState

/-- The quotation in which the lexer is. -/
def quotation? : LexState → Option Quote
  | singleQuote _ => some .single
  | doubleQuote _ | doubleEscape _ => some .double
  | _ => none

/-- The lexer behind the character that opens a quotation. -/
def opened : Quote → LexState
  | .single => singleQuote ""
  | .double => doubleQuote ""

/-! ## One character -/

/-- The end of the line is an error inside a quotation. -/
theorem finish_of_quotation {state : LexState} {q : Quote} (h : state.quotation? = some q) :
    state.finish = .error (.unterminatedQuote q.char) := by
  cases state <;> cases h <;> rfl

/-- The end of the line is no error outside of quotations. -/
theorem exists_finish_of_no_quotation {state : LexState} (h : state.quotation? = none) :
    ∃ tokens, state.finish = .ok tokens := by
  cases state <;> first | exact ⟨_, rfl⟩ | cases h

/-- At a token boundary a quote opens its quotation, and nothing else opens one. -/
theorem quotation?_stepNormal (c : Char) (q : Quote) :
    (stepNormal c).quotation? = some q → c = q.char := by
  unfold stepNormal
  split <;> intro h <;> cases h <;> rfl

/-- Outside of quotations, only its quote opens a quotation. -/
theorem eq_char_of_opens {state : LexState} {c : Char} {q : Quote} (h : state.quotation? = none)
    (hnext : (state.step c).2.quotation? = some q) : c = q.char := by
  have henter := quotation?_stepNormal c q
  cases state with
  | singleQuote | doubleQuote | doubleEscape => cases h
  | normal | spaces | escape | spacedDigit | redirect | wordEscape =>
    grind [step, enterNormal, quotation?]
  | digit | word => grind [step, stepWord, enterNormal, quotation?]

/-- Inside a quotation, every character but its quote leaves it open. -/
theorem quotation?_step {state : LexState} {q : Quote} (h : state.quotation? = some q) {c : Char}
    (hc : c ≠ q.char) : (state.step c).2.quotation? = some q := by
  cases state <;> cases h <;> grind [step, quotation?, Quote.char]

/-- Inside a quotation, its quote leads back to a token boundary, unless a backslash in double
quotes takes it. -/
theorem step_char {state : LexState} {q : Quote} (h : state.quotation? = some q) :
    (state.step q.char).2 = normal ∨
      q = .double ∧ ∃ text, (state.step q.char).2 = doubleQuote text := by
  cases state with
  | singleQuote text => cases h; exact .inl (by simp [step, Quote.char])
  | doubleQuote text => cases h; exact .inl (by simp [step, Quote.char])
  | doubleEscape text =>
    cases h
    exact .inr ⟨rfl, text.push '\x22', by simp [step, Quote.char, escapedInDouble]⟩
  | _ => cases h

/-- Inside a quotation, a character leaves it open or leads back to a token boundary. -/
theorem quotation?_step_or {state : LexState} {q : Quote} (h : state.quotation? = some q)
    (c : Char) : (state.step c).2.quotation? = some q ∨ (state.step c).2 = normal := by
  by_cases hc : c = q.char
  · rw [hc]
    rcases step_char h with hnormal | ⟨rfl, text, hnext⟩
    · exact .inr hnormal
    · rw [hnext]
      exact .inl rfl
  · exact .inl (quotation?_step h hc)

/-- Where the line may end and the next character is not taken, a quote completes what the end of
the line would have completed, and opens its quotation. -/
theorem step_opens {state : LexState} {tokens : List Token} (htakes : state.takesNext = false)
    (hfinish : state.finish = .ok tokens) (q : Quote) :
    state.step q.char = (tokens, opened q) := by
  cases q <;>
    exact (step_of_finish htakes hfinish rfl (by decide) (by decide)).trans
      (congrArg (·, _) (List.append_nil tokens))

/-- In double quotes, characters other than double quotes and backslashes stand for themselves. -/
theorem read_doubleQuote_verbatim (text : String) {contents : List Char} (rest : List Char)
    (hquote : '\x22' ∉ contents) (hslash : '\\' ∉ contents) :
    (doubleQuote text).read (contents ++ '\x22' :: rest) =
      withTokens [.literal (text ++ String.ofList contents)] (normal.read rest) := by
  induction contents generalizing text with
  | nil =>
    have hstep : (doubleQuote text).step '\x22' = ([.literal text], normal) := by
      simp only [step, if_true]
    rw [List.nil_append, read_cons, hstep, String.ofList_nil, String.append_empty]
  | cons c more ih =>
    obtain ⟨hc, hquote⟩ := List.ne_and_not_mem_of_not_mem_cons hquote
    obtain ⟨hd, hslash⟩ := List.ne_and_not_mem_of_not_mem_cons hslash
    rw [List.cons_append, read_doubleQuote_ordinary _ _ hc.symm hd.symm, ih _ hquote hslash,
      push_append_ofList]

/-- Behind the character that opens a quotation, verbatim contents and the closing quote are read as
one literal. -/
theorem read_opened {q : Quote} {contents : String} (h : q.Verbatim contents) (rest : List Char) :
    (opened q).read (contents.toList ++ q.char :: rest) =
      withTokens [.literal contents] (normal.read rest) := by
  cases q with
  | single =>
    have hread := read_singleQuote_closed "" rest h
    rwa [String.empty_append, String.ofList_toList] at hread
  | double =>
    have hread := read_doubleQuote_verbatim "" rest h.1 h.2
    rwa [String.empty_append, String.ofList_toList] at hread

/-! ## A line -/

/-- The quotation that is open behind characters of a line. -/
def openAfter (cs : List Char) : Option Quote := (normal.run cs).2.quotation?

/-- What is open behind one more character is told by the step from the state before it. -/
theorem openAfter_concat (cs : List Char) (c : Char) :
    openAfter (cs ++ [c]) = ((normal.run cs).2.step c).2.quotation? := by
  rw [openAfter, run_concat_state]

/-- A quotation stays open as long as its quote does not occur. -/
theorem openAfter_append {cs more : List Char} {q : Quote} (h : openAfter cs = some q)
    (hmore : q.char ∉ more) : openAfter (cs ++ more) = some q := by
  induction more generalizing cs with
  | nil => rwa [List.append_nil]
  | cons c rest ih =>
    obtain ⟨hc, hrest⟩ := List.ne_and_not_mem_of_not_mem_cons hmore
    have hnext : openAfter (cs ++ [c]) = some q := by
      rw [openAfter_concat]
      exact quotation?_step h hc.symm
    rw [List.append_cons]
    exact ih hnext hrest

/-- A quotation that is open was opened by its quote, outside of quotations, and it has been open
ever since. -/
theorem exists_opening {cs : List Char} {q : Quote} (h : openAfter cs = some q) :
    ∃ before inside, cs = before ++ q.char :: inside ∧ openAfter before = none ∧
      ∀ seen, seen <+: inside → openAfter (before ++ q.char :: seen) = some q := by
  -- The induction is on the end of the line: the last character opens the quotation or is in it.
  induction cs using List.reverseRecOn with
  | nil => cases h
  | append_singleton front c ih =>
    cases hfront : openAfter front with
    | none =>
      have hnext := h
      rw [openAfter_concat] at hnext
      obtain rfl := eq_char_of_opens hfront hnext
      refine ⟨front, [], rfl, hfront, fun seen hseen => ?_⟩
      rwa [List.prefix_nil.mp hseen]
    | some other =>
      have hsame : other = q := by
        have hnext := h
        rw [openAfter_concat] at hnext
        rcases quotation?_step_or hfront c with hstays | hcloses
        · exact Option.some.inj (hstays.symm.trans hnext)
        · rw [hcloses] at hnext
          cases hnext
      obtain ⟨before, inside, rfl, hbefore, hopen⟩ := ih (hsame ▸ hfront)
      refine ⟨before, inside ++ [c], by simp, hbefore, fun seen hseen => ?_⟩
      rcases List.prefix_concat_iff.mp hseen with rfl | hinside
      · simpa using h
      · exact hopen seen hinside

/-- An open quotation is closed by one more quote or by two, and not by both. -/
theorem openAfter_char_eq_none_iff {cs : List Char} {q : Quote} (h : openAfter cs = some q) :
    openAfter (cs ++ [q.char]) = none ↔ ¬openAfter (cs ++ [q.char] ++ [q.char]) = none := by
  rw [openAfter_concat, openAfter_concat, run_concat_state]
  rcases step_char h with hnormal | ⟨rfl, text, hnext⟩
  · rw [hnormal]
    exact iff_of_true rfl (by cases q <;> exact nofun)
  · rw [hnext]
    exact iff_of_false nofun (not_not_intro rfl)

end LexState

open LexState

/-- A line has tokens exactly if no quotation is open behind it. -/
theorem isAccepted_iff (line : String) : IsAccepted line ↔ openAfter line.toList = none := by
  rw [IsAccepted, tokenize_eq_finish]
  cases hopen : openAfter line.toList with
  | none =>
    obtain ⟨tokens, hfinish⟩ := exists_finish_of_no_quotation hopen
    rw [hfinish]
    exact iff_of_true ⟨_, rfl⟩ rfl
  | some q =>
    rw [finish_of_quotation hopen]
    exact iff_of_false nofun nofun

/-- The error of a line that is not accepted names the quotation that is open behind it. -/
theorem leavesOpen_iff (line : String) (c : Char) :
    LeavesOpen c line ↔ ∃ q : Quote, c = q.char ∧ openAfter line.toList = some q := by
  rw [LeavesOpen, tokenize_eq_finish]
  cases hopen : openAfter line.toList with
  | none =>
    obtain ⟨tokens, hfinish⟩ := exists_finish_of_no_quotation hopen
    rw [hfinish]
    exact iff_of_false nofun nofun
  | some q =>
    rw [finish_of_quotation hopen, withTokens_error]
    constructor
    · intro h
      cases h
      exact ⟨q, rfl, rfl⟩
    · rintro ⟨other, rfl, hother⟩
      rw [Option.some.inj hother]

/-- Behind an accepted line that does not end in a backslash, a quotation is read as one literal. -/
theorem tokenize_enclose {line : String} {tokens : List Token} (h : tokenize line = .ok tokens)
    (hslash : line.toList.getLast? ≠ some '\\') {q : Quote} {contents : String}
    (hcontents : q.Verbatim contents) :
    tokenize (line ++ q.enclose contents) = .ok (tokens ++ [.literal contents]) := by
  obtain ⟨last, hfinish, rfl⟩ := exists_finish_of_tokenize h
  have hchars : (q.enclose contents).toList = q.char :: (contents.toList ++ [q.char]) := by
    simp [Quote.enclose]
  rw [tokenize_append, hchars, read_cons, step_opens (takesNext_run hslash) hfinish,
    read_opened hcontents, withTokens_withTokens, withTokens_withTokens]
  simp [finish]

/-- A line fails only with a quotation that is open at its end. It was opened behind an accepted
part of the line, and every longer part fails alike. So does the line with anything behind it in
which the quote of the quotation does not occur. The quote itself repairs the line, given either
once or twice. Behind an accepted line that does not end in a backslash, each quote alone leaves its
quotation open, and a whole quotation adds one literal to the tokens. -/
theorem tokenize_openQuotes (line : String) :
    (∀ c, LeavesOpen c line →
      (c = '\x27' ∨ c = '\x22') ∧
        (∃ before inside : String, line = before.push c ++ inside ∧ IsAccepted before ∧
          ∀ seen : String, seen.toList <+: inside.toList → LeavesOpen c (before.push c ++ seen)) ∧
        (∀ more : String, c ∉ more.toList → LeavesOpen c (line ++ more)) ∧
        Xor (IsAccepted (line.push c)) (IsAccepted ((line.push c).push c))) ∧
      ∀ tokens, tokenize line = .ok tokens → line.toList.getLast? ≠ some '\\' →
        ∀ q : Quote, LeavesOpen q.char (line.push q.char) ∧
          ∀ contents, q.Verbatim contents →
            tokenize (line ++ q.enclose contents) = .ok (tokens ++ [.literal contents]) := by
  constructor
  · intro c hopen
    obtain ⟨q, rfl, hq⟩ := (leavesOpen_iff line c).mp hopen
    refine ⟨by cases q <;> simp [Quote.char], ?_, fun more hmore => ?_, ?_⟩
    · obtain ⟨before, inside, hline, hbefore, hinside⟩ := exists_opening hq
      refine ⟨String.ofList before, String.ofList inside, ?_, ?_, fun seen hseen => ?_⟩
      · exact String.toList_injective (by simp [hline])
      · rw [isAccepted_iff, String.toList_ofList, hbefore]
      · rw [String.toList_ofList] at hseen
        refine (leavesOpen_iff _ _).mpr ⟨q, rfl, ?_⟩
        simpa using hinside seen.toList hseen
    · refine (leavesOpen_iff _ _).mpr ⟨q, rfl, ?_⟩
      rw [String.toList_append]
      exact openAfter_append hq hmore
    · rw [xor_iff_iff_not, isAccepted_iff, isAccepted_iff, String.toList_push, String.toList_push,
        String.toList_push]
      exact openAfter_char_eq_none_iff hq
  · intro tokens htokens hslash q
    refine ⟨(leavesOpen_iff _ _).mpr ⟨q, rfl, ?_⟩, fun contents => tokenize_enclose htokens hslash⟩
    obtain ⟨last, hfinish, -⟩ := exists_finish_of_tokenize htokens
    rw [String.toList_push, openAfter_concat, step_opens (takesNext_run hslash) hfinish]
    cases q <;> rfl

/-- A backslash takes the first of two double quotes behind `echo "a`, and the second one closes. In
the single quotes behind `echo 2` it stands for itself. -/
theorem tokenize_openQuotes_backslash :
    LeavesOpen '\x22' "echo \x22a\\" ∧ LeavesOpen '\x22' "echo \x22a\\ | \x27" ∧
      Xor (IsAccepted "echo \x22a\\\x22") (IsAccepted "echo \x22a\\\x22\x22") ∧
      tokenize "echo 2\x27>\\\x27" =
        .ok [.literal "echo", .space, .literal "2", .literal ">\\"] := by
  have hopen : LeavesOpen '\x22' "echo \x22a\\" := by rfl
  have htokens : tokenize "echo 2" = .ok [.literal "echo", .space, .literal "2"] := by rfl
  obtain ⟨-, -, hlonger, hrepair⟩ := (tokenize_openQuotes "echo \x22a\\").1 _ hopen
  obtain ⟨-, henclose⟩ := (tokenize_openQuotes "echo 2").2 _ htokens (by decide) .single
  have hcontents : Quote.single.Verbatim ">\\" := by
    show '\x27' ∉ ">\\".toList
    decide
  have hlong := hlonger " | \x27" (by decide)
  have hquoted := henclose ">\\" hcontents
  have hjoined : "echo \x22a\\" ++ " | \x27" = "echo \x22a\\ | \x27" := by decide
  have honce : "echo \x22a\\".push '\x22' = "echo \x22a\\\x22" := by decide
  have htwice : "echo \x22a\\\x22".push '\x22' = "echo \x22a\\\x22\x22" := by decide
  have hquotation : "echo 2" ++ Quote.single.enclose ">\\" = "echo 2\x27>\\\x27" := by decide
  rw [hjoined] at hlong
  rw [honce, htwice] at hrepair
  rw [hquotation] at hquoted
  exact ⟨hopen, hlong, hrepair, hquoted⟩

end LineShell
