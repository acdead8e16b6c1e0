import LineShell.Text.Numeral

/-!
# Words that are read as numbers

A word that is read as a number is a sign, which may be missing, and a row of digits, which may
begin with zeros. A number in range is read from all words that stand for it, its decimal form among
them, and from no others.
-/

namespace LineShell.Text

/-- A row of ASCII digits with at least one of them. -/
structure IsDigitRow (cs : List Char) : Prop where
  ne_nil : cs ≠ []
  isDigit : ∀ c ∈ cs, c.isDigit = true

/-- The number that a row of decimal digits stands for. -/
def decimal (cs : List Char) : Nat := Nat.ofDigitChars 10 cs 0

/-- A word stands for an integer: digits, with either sign in front or with none. -/
inductive StandsFor : List Char → Int → Prop
  | unsigned {digits : List Char} (row : IsDigitRow digits) : StandsFor digits (decimal digits)
  | plus {digits : List Char} (row : IsDigitRow digits) :
      StandsFor ('+' :: digits) (decimal digits)
  | minus {digits : List Char} (row : IsDigitRow digits) :
      StandsFor ('-' :: digits) (-(decimal digits : Int))

/-- A word stands for a count: digits, with a plus sign in front or with none. -/
inductive StandsForCount : List Char → Nat → Prop
  | unsigned {digits : List Char} (row : IsDigitRow digits) :
      StandsForCount digits (decimal digits)
  | plus {digits : List Char} (row : IsDigitRow digits) :
      StandsForCount ('+' :: digits) (decimal digits)

/-! ## Rows of digits -/

/-- The digits are the ten ASCII digits. -/
theorem digit?_eq_some_iff {c : Char} {d : Nat} :
    digit? c = some d ↔ c.isDigit = true ∧ c.toNat - '0'.toNat = d := by
  have hdigit : c.isDigit = true ↔ '0' ≤ c ∧ c ≤ '9' := by
    simp [Char.isDigit, Char.le_def]
  rw [digit?, hdigit]
  split
  · simp_all
  · next hother => exact iff_of_false nofun fun h => hother h.1

/-- A value is continued by digits and by nothing else. -/
theorem digitsFrom_eq_some_iff {cs : List Char} {value n : Nat} :
    digitsFrom value cs = some n ↔
      (∀ c ∈ cs, c.isDigit = true) ∧ Nat.ofDigitChars 10 cs value = n := by
  induction cs generalizing value with
  | nil => simp [digitsFrom]
  | cons c rest ih =>
    rw [digitsFrom]
    cases hdigit : digit? c with
    | none =>
      have hother : ¬c.isDigit = true := by
        intro h
        rw [digit?_eq_some_iff.mpr ⟨h, rfl⟩] at hdigit
        cases hdigit
      simp [hother]
    | some d =>
      obtain ⟨hisDigit, rfl⟩ := digit?_eq_some_iff.mp hdigit
      simp [ih, hisDigit, Nat.ofDigitChars_cons]

/-- A row of digits is read as the number that it stands for. -/
theorem digits?_eq_some_iff {cs : List Char} {n : Nat} :
    digits? cs = some n ↔ IsDigitRow cs ∧ decimal cs = n := by
  cases cs with
  | nil => exact iff_of_false nofun fun h => h.1.ne_nil rfl
  | cons c rest =>
    rw [digits?, digitsFrom_eq_some_iff]
    · exact and_congr_left fun _ => ⟨fun h => ⟨List.cons_ne_nil _ _, h⟩, IsDigitRow.isDigit⟩
    · exact List.cons_ne_nil _ _

/-- The decimal form of a number is a row of digits. -/
theorem isDigitRow_toDigits (n : Nat) : IsDigitRow (Nat.toDigits 10 n) :=
  ⟨Nat.toDigits_ne_nil, fun _ h => Nat.isDigit_of_mem_toDigits (by decide) (by decide) h⟩

/-- The decimal form of a number stands for the number. -/
theorem decimal_toDigits (n : Nat) : decimal (Nat.toDigits 10 n) = n :=
  Nat.ofDigitChars_ten_toDigits

/-- A sign is not a digit. -/
theorem IsDigitRow.head_ne {c : Char} {rest : List Char} (h : IsDigitRow (c :: rest))
    (sign : Char) (hsign : sign.isDigit = false) : c ≠ sign := by
  rintro rfl
  rw [h.isDigit c List.mem_cons_self] at hsign
  cases hsign

/-! ## Words with and without a sign -/

/-- A count has a last character, and all of its characters are digits or a plus sign. -/
theorem StandsForCount.isDigit_or_eq {cs : List Char} {k : Nat} (h : StandsForCount cs k) :
    (∃ last, cs.getLast? = some last) ∧ ∀ c ∈ cs, c.isDigit = true ∨ c = '+' := by
  cases h with
  | unsigned row =>
    exact ⟨⟨_, List.getLast?_eq_some_getLast row.ne_nil⟩, fun c hc => .inl (row.isDigit c hc)⟩
  | plus row =>
    refine ⟨⟨_, List.getLast?_eq_some_getLast (List.cons_ne_nil _ _)⟩, ?_⟩
    exact List.forall_mem_cons.mpr ⟨.inr rfl, fun c hc => .inl (row.isDigit c hc)⟩

/-- What a word with a minus sign stands for. -/
theorem standsFor_minus {cs : List Char} {n : Int} :
    StandsFor ('-' :: cs) n ↔ IsDigitRow cs ∧ -(decimal cs : Int) = n := by
  constructor
  · intro h
    cases h with
    | unsigned row => exact absurd rfl (row.head_ne '-' rfl)
    | minus row => exact ⟨row, rfl⟩
  · rintro ⟨row, rfl⟩
    exact .minus row

/-- What a word with a plus sign stands for. -/
theorem standsFor_plus {cs : List Char} {n : Int} :
    StandsFor ('+' :: cs) n ↔ IsDigitRow cs ∧ (decimal cs : Int) = n := by
  constructor
  · intro h
    cases h with
    | unsigned row => exact absurd rfl (row.head_ne '+' rfl)
    | plus row => exact ⟨row, rfl⟩
  · rintro ⟨row, rfl⟩
    exact .plus row

/-- What a word without a sign stands for. -/
theorem standsFor_unsigned {cs : List Char} (hminus : ∀ rest, cs ≠ '-' :: rest)
    (hplus : ∀ rest, cs ≠ '+' :: rest) {n : Int} :
    StandsFor cs n ↔ IsDigitRow cs ∧ (decimal cs : Int) = n := by
  constructor
  · intro h
    cases h with
    | unsigned row => exact ⟨row, rfl⟩
    | plus row => exact absurd rfl (hplus _)
    | minus row => exact absurd rfl (hminus _)
  · rintro ⟨row, rfl⟩
    exact .unsigned row

/-- What a word with a plus sign stands for as a count. -/
theorem standsForCount_plus {cs : List Char} {n : Nat} :
    StandsForCount ('+' :: cs) n ↔ IsDigitRow cs ∧ decimal cs = n := by
  constructor
  · intro h
    cases h with
    | unsigned row => exact absurd rfl (row.head_ne '+' rfl)
    | plus row => exact ⟨row, rfl⟩
  · rintro ⟨row, rfl⟩
    exact .plus row

/-- What a word without a plus sign stands for as a count. -/
theorem standsForCount_unsigned {cs : List Char} (hplus : ∀ rest, cs ≠ '+' :: rest) {n : Nat} :
    StandsForCount cs n ↔ IsDigitRow cs ∧ decimal cs = n := by
  constructor
  · intro h
    cases h with
    | unsigned row => exact ⟨row, rfl⟩
    | plus row => exact absurd rfl (hplus _)
  · rintro ⟨row, rfl⟩
    exact .unsigned row

/-! ## What is read -/

/-- A row of digits is read when its number is in range. -/
theorem bind_digits?_eq_some_iff {α : Type} {cs : List Char} {inRange : Nat → Prop}
    [DecidablePred inRange] {value : Nat → α} {a : α} :
    ((digits? cs).bind fun n => if inRange n then some (value n) else none) = some a ↔
      (IsDigitRow cs ∧ value (decimal cs) = a) ∧ inRange (decimal cs) := by
  rw [Option.bind_eq_some_iff]
  constructor
  · rintro ⟨n, hn, hvalue⟩
    obtain ⟨row, rfl⟩ := digits?_eq_some_iff.mp hn
    obtain ⟨hrange, hsome⟩ := Option.ite_none_right_eq_some.mp hvalue
    exact ⟨⟨row, Option.some.inj hsome⟩, hrange⟩
  · rintro ⟨⟨row, rfl⟩, hrange⟩
    exact ⟨decimal cs, digits?_eq_some_iff.mpr ⟨row, rfl⟩, if_pos hrange⟩

/-- A signed 32-bit integer is read from the words that stand for it, and from no others. -/
theorem signed32?_eq_some_iff {word : String} {n : Int} :
    signed32? word = some n ↔
      StandsFor word.toList n ∧ -2147483648 ≤ n ∧ n ≤ 2147483647 := by
  unfold signed32? signed32Bound
  split
  · next digits hword =>
    rw [hword, standsFor_minus, bind_digits?_eq_some_iff]
    refine and_congr_right fun h => ?_
    omega
  · next digits hword =>
    rw [hword, standsFor_plus, bind_digits?_eq_some_iff]
    refine and_congr_right fun h => ?_
    omega
  · next hminus hplus =>
    rw [standsFor_unsigned hminus hplus, bind_digits?_eq_some_iff]
    refine and_congr_right fun h => ?_
    omega

/-- An unsigned 64-bit count is read from the words that stand for it, and from no others. -/
theorem count?_eq_some_iff {word : String} {n : Nat} :
    count? word = some n ↔ StandsForCount word.toList n ∧ n < UInt64.size := by
  unfold count?
  split
  · next digits hword =>
    rw [hword, standsForCount_plus, bind_digits?_eq_some_iff]
    exact and_congr_right fun h => by rw [h.2]
  · next hplus =>
    rw [standsForCount_unsigned hplus, bind_digits?_eq_some_iff]
    exact and_congr_right fun h => by rw [h.2]

/-! ## Decimal forms -/

/-- The decimal form of a count stands for it. -/
theorem standsForCount_toString (n : Nat) : StandsForCount (toString n).toList n := by
  have h := StandsForCount.unsigned (isDigitRow_toDigits n)
  rwa [decimal_toDigits, ← Nat.toList_repr] at h

/-- The decimal form of an integer stands for it. -/
theorem standsFor_toString (n : Int) : StandsFor (toString n).toList n := by
  cases n with
  | ofNat m =>
    have h := StandsFor.unsigned (isDigitRow_toDigits m)
    rwa [decimal_toDigits, ← Nat.toList_repr] at h
  | negSucc m =>
    have h := StandsFor.minus (isDigitRow_toDigits (m + 1))
    rw [decimal_toDigits, ← Nat.toList_repr] at h
    have hword : (toString (Int.negSucc m)).toList = '-' :: (m + 1).repr.toList :=
      String.toList_append
    rwa [hword]

end LineShell.Text
