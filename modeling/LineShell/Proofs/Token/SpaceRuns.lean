import LineShell.Proofs.Token.Pieces

/-!
# Runs of spaces

Of a run of spaces between two texts the first one completes what the end of the line would have
completed, and the others add nothing, so the length of the run does not matter. The exception is a
digit that may name the stream of a redirection: it looks for the operator behind one space, but
not behind two.
-/

namespace LineShell

namespace LexState

/-- Whether the lexer is at a token boundary, outside words and quotations. -/
def atBoundary : LexState → Bool
  | normal | spaces | spacedDigit _ | redirect _ => true
  | _ => false

/-- At a token boundary only a `1` or a `2` may name a stream. -/
theorem stepNormal_eq_digit_iff (c name : Char) :
    stepNormal c = digit name ↔ c = name ∧ (name = '1' ∨ name = '2') := by
  unfold stepNormal
  split <;> simp_all <;> grind

/-- Inside a word no digit may name a stream. -/
theorem stepWord_ne_digit (text : String) (c name : Char) : (stepWord text c).2 ≠ digit name := by
  unfold stepWord
  by_cases hends : endsWord c = true
  · rw [if_pos hends]
    intro h
    obtain ⟨rfl, rfl | rfl⟩ := (stepNormal_eq_digit_iff c name).mp h
    · cases hends
    · cases hends
  · rw [if_neg hends]
    split <;> simp

/-- A digit may name a stream exactly if it is a `1` or a `2` behind a token boundary. -/
theorem step_eq_digit_iff (state : LexState) (c name : Char) :
    (state.step c).2 = digit name ↔
      state.atBoundary = true ∧ c = name ∧ (name = '1' ∨ name = '2') := by
  have henter := stepNormal_eq_digit_iff c name
  cases state with
  | normal | spaces | spacedDigit | redirect => grind [step, enterNormal, atBoundary]
  | digit | word => grind [step, stepWord_ne_digit, atBoundary]
  | escape | wordEscape | singleQuote | doubleQuote | doubleEscape => grind [step, atBoundary]

/-- After a text the lexer holds a digit that may name a stream exactly if the text ends in a `1`
or a `2` behind a token boundary. -/
theorem run_eq_digit_iff (cs : List Char) (name : Char) :
    (normal.run cs).2 = digit name ↔
      ∃ before, cs = before ++ [name] ∧ (name = '1' ∨ name = '2') ∧
        (normal.run before).2.atBoundary = true := by
  constructor
  · intro h
    rcases List.eq_nil_or_concat cs with rfl | ⟨before, c, rfl⟩
    · cases h
    · rw [List.concat_eq_append, run_concat_state, step_eq_digit_iff] at h
      obtain ⟨hboundary, rfl, hname⟩ := h
      exact ⟨before, List.concat_eq_append, hname, hboundary⟩
  · rintro ⟨before, rfl, hname, hboundary⟩
    rw [run_concat_state, step_eq_digit_iff]
    exact ⟨hboundary, rfl, hname⟩

/-- Where the line may end and the next character is not taken, a run of spaces is read as the same
tokens whatever its length is, unless the operator of a redirection may follow its first space. -/
theorem read_space_run {state : LexState} {tokens : List Token}
    (htakes : state.takesNext = false) (hfinish : state.finish = .ok tokens) :
    ∃ front, ∀ (count : Nat) (cs : List Char), cs.head? ≠ some ' ' →
      (∀ name, state = digit name → cs.head? = some '>' → count ≠ 0) →
        state.read (List.replicate (count + 1) ' ' ++ cs) = withTokens front (normal.read cs) := by
  obtain ⟨trail, -, hread⟩ := read_space htakes hfinish
  refine ⟨tokens ++ trail, fun count cs hcs hdigit => ?_⟩
  have hsign (name : Char) (hstate : state = digit name) :
      (List.replicate count ' ' ++ cs).head? ≠ some '>' := by
    cases count with
    | zero => exact fun h => hdigit name hstate h rfl
    | succ count => simp [List.replicate_succ]
  rw [List.replicate_succ, List.cons_append, hread _ hsign, read_spaces_replicate_append hcs]

/-- Behind a digit that may name a stream, one space before a greater-than sign is read as no space
is: it belongs to the operator. -/
theorem read_digit_space_sign (name : Char) (cs : List Char) :
    (digit name).read (' ' :: '>' :: cs) = (digit name).read ('>' :: cs) := by
  simp [read_cons, step]

/-- Behind a digit that may name a stream, the number of spaces before a greater-than sign makes a
difference: one space belongs to the operator, and several make the digit a word. -/
theorem read_digit_spaces_ne (name : Char) (count : Nat) (cs : List Char) {tokens : List Token}
    (hone : (digit name).read (' ' :: '>' :: cs) = .ok tokens) :
    (digit name).read (List.replicate (count + 2) ' ' ++ '>' :: cs) ≠ .ok tokens := by
  obtain ⟨mode, rest, hredirect⟩ := exists_read_redirect cs
  have hoperator : (digit name).read (' ' :: '>' :: cs) =
      withTokens [.redirect mode (tagOfDigit name)] (normal.read rest) := by
    rw [← hredirect]
    simp [read_cons, step]
  have hword : (digit name).read (List.replicate (count + 2) ' ' ++ '>' :: cs) =
      withTokens [.literal (String.singleton name), .space, .redirect mode Token.stdoutTag]
        (normal.read rest) := by
    have hsign : ('>' :: cs).head? ≠ some ' ' := by simp
    have hnormal : normal.read ('>' :: cs) = (redirect Token.stdoutTag).read cs :=
      withTokens_nil _
    have hdigit : (digit name).read (List.replicate (count + 2) ' ' ++ '>' :: cs) =
        withTokens [.literal (String.singleton name), .space]
          (spaces.read (List.replicate count ' ' ++ '>' :: cs)) := by
      simp [List.replicate_succ, read_cons, step]
    rw [hdigit, read_spaces_replicate_append hsign, hnormal, hredirect, withTokens_withTokens]
    rfl
  rw [hoperator] at hone
  rw [hword]
  intro hmany
  cases hrest : normal.read rest with
  | error e => rw [hrest] at hone; cases hone
  | ok more =>
    -- the digit and the separator are two tokens that the operator does not have
    rw [hrest, withTokens_ok] at hone hmany
    have hsame := congrArg List.length (Except.ok.inj (hmany.trans hone.symm))
    simp at hsame
    omega

end LexState

/-- Spaces in a row. -/
def spaceRun (count : Nat) : String := String.ofList (List.replicate count ' ')

/-- The text ends in a `1` or a `2` that the lexer reads at a token boundary, not inside a word or a
quotation. -/
def EndsInStreamDigit (text : String) : Prop :=
  ∃ before name, text.toList = before ++ [name] ∧ (name = '1' ∨ name = '2') ∧
    (LexState.normal.run before).2.atBoundary = true

/-- A text ends in such a digit exactly if the lexer holds one after it. -/
theorem endsInStreamDigit_iff (text : String) :
    EndsInStreamDigit text ↔ ∃ name, (LexState.normal.run text.toList).2 = .digit name := by
  simp only [LexState.run_eq_digit_iff]
  exact exists_comm

/-- A run of spaces and what follows it, as characters. -/
theorem toList_spaceRun_append (count : Nat) (rest : String) :
    (spaceRun count ++ rest).toList = List.replicate count ' ' ++ rest.toList := by
  rw [String.toList_append, spaceRun, String.toList_ofList]

/-- Before a greater-than sign, an accepted text that ends in a digit which may name a stream is not
read the same way when one space separates them and when several do. -/
theorem EndsInStreamDigit.tokenize_ne {u v : String} (hdigit : EndsInStreamDigit u)
    (hsign : v.toList.head? = some '>') (count : Nat) {read : List Token}
    (hone : tokenize (u ++ spaceRun 1 ++ v) = .ok read) :
    tokenize (u ++ spaceRun (count + 2) ++ v) ≠ .ok read := by
  obtain ⟨name, hstate⟩ := (endsInStreamDigit_iff u).mp hdigit
  obtain ⟨rest, hv⟩ := List.head?_eq_some_iff.mp hsign
  rw [String.append_assoc, tokenize_append, toList_spaceRun_append, hstate, hv] at hone ⊢
  cases hrest : (LexState.digit name).read (List.replicate 1 ' ' ++ '>' :: rest) with
  | error e =>
    rw [hrest] at hone
    cases hone
  | ok more =>
    have hne := LexState.read_digit_spaces_ne name count rest hrest
    rw [hrest, withTokens_ok] at hone
    obtain rfl := Except.ok.inj hone
    cases hmany : (LexState.digit name).read (List.replicate (count + 2) ' ' ++ '>' :: rest) with
    | error e => exact nofun
    | ok others =>
      rw [withTokens_ok]
      intro hsame
      rw [hmany, List.append_cancel_left (Except.ok.inj hsame)] at hne
      exact hne rfl

/-- The length of a run of spaces behind an accepted text does not matter, unless the text ends in a
digit that may name a stream, a greater-than sign follows the spaces and one of the runs, but not
the other, is a single space. That space belongs to the operator of the redirection, as if it were
not there, and no accepted line keeps its tokens when a longer run takes its place. -/
theorem tokenize_spaceRun {u v : String} {tokens : List Token} (hu : tokenize u = .ok tokens)
    (hslash : u.toList.getLast? ≠ some '\\') (hv : v.toList.head? ≠ some ' ') {n m : Nat}
    (hn : 1 ≤ n) (hm : 1 ≤ m) :
    (¬(EndsInStreamDigit u ∧ v.toList.head? = some '>' ∧ ¬(n = 1 ↔ m = 1)) →
        tokenize (u ++ spaceRun n ++ v) = tokenize (u ++ spaceRun m ++ v)) ∧
      (EndsInStreamDigit u ∧ v.toList.head? = some '>' →
        tokenize (u ++ spaceRun 1 ++ v) = tokenize (u ++ v) ∧
          (¬(n = 1 ↔ m = 1) → ∀ read, tokenize (u ++ spaceRun n ++ v) = .ok read →
            tokenize (u ++ spaceRun m ++ v) ≠ .ok read)) := by
  constructor
  · intro hexception
    by_cases hsingle : n = 1 ∧ m = 1
    · rw [hsingle.1, hsingle.2]
    · obtain ⟨last, hfinish, -⟩ := exists_finish_of_tokenize hu
      obtain ⟨front, hrun⟩ := LexState.read_space_run (LexState.takesNext_run hslash) hfinish
      -- behind a digit that sees a greater-than sign neither of the runs is a single space
      have hread (count : Nat) (hcount : count + 1 = n ∨ count + 1 = m) :
          tokenize (u ++ spaceRun (count + 1) ++ v) =
            withTokens ((LexState.normal.run u.toList).1 ++ front)
              (LexState.normal.read v.toList) := by
        rw [String.append_assoc, tokenize_append, toList_spaceRun_append,
          hrun count _ hv, withTokens_withTokens]
        intro name hstate hsign
        have hdigit : EndsInStreamDigit u := (endsInStreamDigit_iff u).mpr ⟨name, hstate⟩
        have hsame : n = 1 ↔ m = 1 :=
          Decidable.of_not_not fun h => hexception ⟨hdigit, hsign, h⟩
        omega
      obtain ⟨n, rfl⟩ := Nat.exists_eq_add_of_le' hn
      obtain ⟨m, rfl⟩ := Nat.exists_eq_add_of_le' hm
      rw [hread n (.inl rfl), hread m (.inr rfl)]
  · rintro ⟨hdigit, hsign⟩
    constructor
    · obtain ⟨name, hstate⟩ := (endsInStreamDigit_iff u).mp hdigit
      obtain ⟨rest, hv⟩ := List.head?_eq_some_iff.mp hsign
      rw [String.append_assoc, tokenize_append, tokenize_append, toList_spaceRun_append, hstate, hv]
      exact congrArg _ (LexState.read_digit_space_sign name rest)
    · intro hdiffer read hread
      by_cases hsingle : n = 1
      · obtain ⟨m, rfl⟩ : ∃ count, m = count + 2 := ⟨m - 2, by omega⟩
        rw [hsingle] at hread
        exact hdigit.tokenize_ne hsign m hread
      · obtain ⟨n, rfl⟩ : ∃ count, n = count + 2 := ⟨n - 2, by omega⟩
        have hone : m = 1 := by omega
        rw [hone]
        exact fun h => hdigit.tokenize_ne hsign n h hread

/-- One space or three behind `echo 12` are read alike before `>f`. Behind `echo 2` they are not:
there one space is read as none. -/
theorem tokenize_spaceRun_echo :
    tokenize ("echo 12" ++ spaceRun 1 ++ ">f") = tokenize ("echo 12" ++ spaceRun 3 ++ ">f") ∧
      tokenize ("echo 2" ++ spaceRun 1 ++ ">f") = tokenize ("echo 2" ++ ">f") ∧
      tokenize ("echo 2" ++ spaceRun 3 ++ ">f") ≠
        .ok [.literal "echo", .space, .redirect .truncate Token.stderrTag, .literal "f"] := by
  have htwelve : tokenize "echo 12" = .ok [.literal "echo", .space, .literal "12"] := by rfl
  have htwo : tokenize "echo 2" = .ok [.literal "echo", .space, .literal "2"] := by rfl
  have hoperator : tokenize ("echo 2" ++ spaceRun 1 ++ ">f") =
      .ok [.literal "echo", .space, .redirect .truncate Token.stderrTag, .literal "f"] := by rfl
  have hword : ¬EndsInStreamDigit "echo 12" := by
    rw [endsInStreamDigit_iff]
    rintro ⟨name, hname⟩
    exact LexState.noConfusion hname
  have hdigit : EndsInStreamDigit "echo 2" ∧ ">f".toList.head? = some '>' :=
    ⟨(endsInStreamDigit_iff _).mpr ⟨'2', by rfl⟩, by decide⟩
  have hsign : ">f".toList.head? ≠ some ' ' := by decide
  have hone : 1 ≤ 1 := by decide
  have hthree : 1 ≤ 3 := by decide
  obtain ⟨hsame, -⟩ := tokenize_spaceRun htwelve (by decide) hsign hone hthree
  obtain ⟨-, hexception⟩ := tokenize_spaceRun htwo (by decide) hsign hone hthree
  obtain ⟨hnone, hne⟩ := hexception hdigit
  exact ⟨hsame fun h => hword h.1, hnone, hne (by decide) _ hoperator⟩

end LineShell
