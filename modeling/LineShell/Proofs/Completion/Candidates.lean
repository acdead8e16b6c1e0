import LineShell.Proofs.Completion.Coverage
import LineShell.Proofs.Completion.Cursor

/-!
# What is offered for a word

There are two kinds of offers. Where several command names agree further than the word goes, the
word is completed as far as they agree. Everywhere else all names that start with the word are
offered, each with a space behind it. The main result says what completion gives for any line and
any place of the cursor between two characters: which part of the line it replaces, and by what.
-/

namespace LineShell

namespace Completion

/-! ## Common starts -/

/-- A text with which all names start, and in which every other such text is contained. -/
structure GreatestCommonStart (start : String) (names : List String) : Prop where
  common : ∀ name ∈ names, start.toList <+: name.toList
  greatest : ∀ other : String, (∀ name ∈ names, other.toList <+: name.toList) →
    other.toList <+: start.toList

/-- Two texts start with the same characters as far as they agree, and no further. -/
theorem isPrefix_commonStart_iff {start first second : List Char} :
    start <+: commonStart first second ↔ start <+: first ∧ start <+: second := by
  fun_induction commonStart first second generalizing start with
  | case1 a as bs ih =>
    cases start with
    | nil => simp
    | cons c rest =>
      rw [List.cons_prefix_cons, List.cons_prefix_cons, List.cons_prefix_cons, ih]
      exact ⟨fun ⟨hc, has, hbs⟩ => ⟨⟨hc, has⟩, hc, hbs⟩, fun ⟨⟨hc, has⟩, _, hbs⟩ => ⟨hc, has, hbs⟩⟩
  | case2 a as b bs hne =>
    cases start with
    | nil => simp
    | cons c rest =>
      rw [List.cons_prefix_cons, List.cons_prefix_cons]
      refine iff_of_false (by simp) fun ⟨⟨ha, _⟩, hb, _⟩ => hne (ha.symm.trans hb)
  | case3 as bs hcons =>
    cases start with
    | nil => simp
    | cons c rest =>
      refine iff_of_false (by simp) fun ⟨⟨_, has⟩, _, hbs⟩ => ?_
      exact hcons c (rest ++ _) c (rest ++ _) has.symm hbs.symm

/-- Names start with the same characters as far as all of them agree, and no further. -/
theorem isPrefix_longestCommonStart_iff {start : List Char} {names : List String}
    (hne : names ≠ []) :
    start <+: (longestCommonStart names).toList ↔ ∀ name ∈ names, start <+: name.toList := by
  obtain ⟨first, rest, rfl⟩ := List.exists_cons_of_ne_nil hne
  suffices h : ∀ agreed : List Char,
      start <+: rest.foldl (fun agreed name => commonStart agreed name.toList) agreed ↔
        start <+: agreed ∧ ∀ name ∈ rest, start <+: name.toList by
    rw [longestCommonStart, String.toList_ofList, h, List.forall_mem_cons]
  clear hne
  induction rest with
  | nil => simp
  | cons name more ih =>
    intro agreed
    rw [List.foldl_cons, ih, isPrefix_commonStart_iff, List.forall_mem_cons, and_assoc]

/-- The longest common start of names is their greatest one. -/
theorem greatestCommonStart_longestCommonStart {names : List String} (hne : names ≠ []) :
    GreatestCommonStart (longestCommonStart names) names :=
  ⟨(isPrefix_longestCommonStart_iff hne).mp List.prefix_rfl,
    fun _ hother => (isPrefix_longestCommonStart_iff hne).mpr hother⟩

namespace GreatestCommonStart

variable {start other : String} {names : List String}

/-- Names have one greatest common start. -/
theorem unique (h : GreatestCommonStart start names) (hother : GreatestCommonStart other names) :
    start = other := by
  have hstart := hother.greatest start h.common
  have hlength := (h.greatest other hother.common).length_le
  exact String.toList_injective (hstart.eq_of_length_le hlength)

end GreatestCommonStart

/-! ## The two kinds of offers -/

/-- What is offered for a word with which some names start. -/
inductive Offers (word : String) (names : List String) : List Candidate → Prop where
  /-- The word goes on as far as several names agree, and no space follows. -/
  | start {start : String} (several : 2 ≤ names.length) (greatest : GreatestCommonStart start names)
    (longer : word.length < start.length) : Offers word names [⟨start, start⟩]
  /-- Each name is offered with a space behind it. Several names agree in nothing but the word. -/
  | whole (greatest : 2 ≤ names.length → GreatestCommonStart word names) :
    Offers word names (names.map wholeName)

/-- The candidates for a word are one of the two kinds of offers. -/
theorem offers_candidatesFor {word : String} {names : List String}
    (hword : ∀ name ∈ names, word.toList <+: name.toList) :
    Offers word names (candidatesFor word names) := by
  match names with
  | [] => exact .whole fun h => absurd h (by simp)
  | [name] => exact .whole fun h => absurd h (by simp)
  | first :: second :: rest =>
    have hgreatest :=
      greatestCommonStart_longestCommonStart (List.cons_ne_nil first (second :: rest))
    have hbegins := hgreatest.greatest word hword
    simp only [candidatesFor]
    split
    · rename_i hlonger
      refine .start (by simp) hgreatest ?_
      have hne : word.toList ≠ (longestCommonStart (first :: second :: rest)).toList := by
        intro heq
        rw [String.toList_injective heq] at hlonger
        exact absurd hlonger (Nat.lt_irrefl _)
      exact lt_of_le_of_ne hbegins.length_le (mt hbegins.eq_of_length hne)
    · rename_i hshort
      refine .whole fun _ => ?_
      have heq : word = longestCommonStart (first :: second :: rest) := by
        by_contra hne
        exact hshort (utf8ByteSize_lt_of_isPrefix hbegins hne)
      rwa [← heq] at hgreatest

namespace Offers

variable {word : String} {names : List String} {candidates : List Candidate}

/-- Nothing is offered when there are no names, and only then. -/
theorem eq_nil_iff (h : Offers word names candidates) : candidates = [] ↔ names = [] := by
  cases h with
  | start several =>
    refine iff_of_false (List.cons_ne_nil _ _) fun hnone => ?_
    rw [hnone] at several
    exact absurd several (by simp)
  | whole => exact List.map_eq_nil_iff

/-- Whatever is offered goes on from the word. -/
theorem isPrefix_replacement (h : Offers word names candidates)
    (hword : ∀ name ∈ names, word.toList <+: name.toList) {candidate : Candidate}
    (hmem : candidate ∈ candidates) : word.toList <+: candidate.replacement.toList := by
  cases h with
  | start _ greatest _ =>
    rw [List.mem_singleton.mp hmem]
    exact greatest.greatest word hword
  | whole =>
    obtain ⟨name, hname, rfl⟩ := List.mem_map.mp hmem
    rw [wholeName, String.toList_push]
    exact (hword name hname).trans (List.prefix_append _ _)

end Offers

/-! ## Completing a line -/

/-- A name that completion takes for that of a command: a builtin, or an entry of a directory in the
search path that is no directory. -/
def IsCommand (listDirectory : Path → Option (List DirectoryEntry)) (searchPath : List Path)
    (name : String) : Prop :=
  (∃ b : Builtin, b.name = name) ∨ ∃ dir ∈ searchPath, Listed listDirectory dir name

/-- Completing a line replaces the word before the cursor and never anything else. The word starts
at a place between two characters, holds neither blanks nor pipes, and is the longest such text that
ends at the cursor. Nothing is offered exactly when no command starts with the word; whatever is
offered starts with it. Of the commands that start with the word, in strictly increasing order,
either several agree further than the word goes, and the only candidate is what they agree in, or
all are offered with a space behind each. -/
theorem complete_offers (listDirectory : Path → Option (List DirectoryEntry))
    (searchPath : List Path) {line : String} {cursor : Nat}
    (hcursor : String.Pos.Raw.IsValid line ⟨cursor⟩) :
    let completion := complete listDirectory searchPath line cursor
    completion.start ≤ cursor ∧ String.Pos.Raw.IsValid line ⟨completion.start⟩ ∧
      ∃ before word rest, WordAt line cursor before word rest ∧
        before.utf8ByteSize = completion.start ∧
        (completion.candidates = [] ↔
          ∀ name, IsCommand listDirectory searchPath name → ¬word.toList <+: name.toList) ∧
        (∀ candidate ∈ completion.candidates,
          word.toList <+: candidate.replacement.toList) ∧
        ∃ names : List String, names.Pairwise (· < ·) ∧
          (∀ name, name ∈ names ↔
            IsCommand listDirectory searchPath name ∧ word.toList <+: name.toList) ∧
          Offers word names completion.candidates := by
  intro completion
  obtain ⟨before, word, rest, hword⟩ := exists_wordAt hcursor
  have hcompletion : completion = _ := hword.complete_eq listDirectory searchPath
  rw [hcompletion]
  have hnames : ∀ name, name ∈ commandsStartingWith listDirectory searchPath word ↔
      IsCommand listDirectory searchPath name ∧ word.toList <+: name.toList :=
    fun name => mem_commandsStartingWith.trans and_comm
  have hbegin : ∀ name ∈ commandsStartingWith listDirectory searchPath word,
      word.toList <+: name.toList := fun name hname => ((hnames name).mp hname).2
  have hoffers := offers_candidatesFor hbegin
  have hnone : commandsStartingWith listDirectory searchPath word = [] ↔
      ∀ name, IsCommand listDirectory searchPath name → ¬word.toList <+: name.toList := by
    rw [List.eq_nil_iff_forall_not_mem]
    exact forall_congr' fun name => by rw [hnames, not_and]
  refine ⟨?_, hword.isValid_start, before, word, rest, hword, rfl,
    hoffers.eq_nil_iff.trans hnone, fun candidate => hoffers.isPrefix_replacement hbegin,
    _, pairwise_sortedNames _, hnames, hoffers⟩
  rw [hword.cursor_eq]
  exact Nat.le_add_right _ _

/-- A machine with two commands at its root whose names begin with the same two characters, the
first of which takes up two bytes. -/
def accentedCommands : Machine :=
  .ofFiles ⟨#[.directory [("été", 1), ("étang", 1)], .file .empty true]⟩ []

/-- The word behind a pipe is completed as far as the two names agree. -/
theorem complete_offers_accented :
    String.Pos.Raw.IsValid "né |é x" ⟨7⟩ ∧
      complete accentedCommands.listDirectory [⟨"/"⟩] "né |é x" 7 = ⟨5, [⟨"ét", "ét"⟩]⟩ ∧
      ∃ before word rest names, WordAt "né |é x" 7 before word rest ∧
        before.utf8ByteSize = 5 ∧ Offers word names [⟨"ét", "ét"⟩] := by
  have hcursor : String.Pos.Raw.IsValid "né |é x" ⟨7⟩ :=
    String.Pos.Raw.isValid_iff_exists_append.mpr ⟨"né |é", " x", by decide, by decide⟩
  have hcompletion : complete accentedCommands.listDirectory [⟨"/"⟩] "né |é x" 7 =
      ⟨5, [⟨"ét", "ét"⟩]⟩ := by
    decide +kernel
  obtain ⟨-, -, before, word, rest, hword, hstart, -, -, names, -, -, hoffers⟩ :=
    complete_offers accentedCommands.listDirectory [⟨"/"⟩] hcursor
  rw [hcompletion] at hstart hoffers
  exact ⟨hcursor, hcompletion, before, word, rest, names, hword, hstart, hoffers⟩

end Completion

end LineShell
