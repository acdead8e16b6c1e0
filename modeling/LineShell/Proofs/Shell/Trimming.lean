import LineShell.Proofs.Pipeline.Rows
import LineShell.Proofs.Text.Basic
import LineShell.Proofs.Token.Pieces

/-!
# Trimmed lines

The shell trims a line before it reads it. Spaces in front of a line are read as a separator, which
means nothing there, and so are spaces behind a line, unless the line ends in a backslash that
takes the first of them. Trimming such a line removes text: the backslash is then the last
character, and means something else.
-/

namespace LineShell

/-- The blanks that surround a text are spaces. -/
structure PaddedBySpaces (text : String) : Prop where
  leading : ∀ c ∈ text.toList.takeWhile Text.isBlank, c = ' '
  trailing : ∀ c ∈ text.toList.reverse.takeWhile Text.isBlank, c = ' '

/-- The blanks at both ends are looked at one by one. -/
instance (text : String) : Decidable (PaddedBySpaces text) :=
  let isPadded (cs : List Char) : Bool := (cs.takeWhile Text.isBlank).all (· == ' ')
  have hall (cs : List Char) : isPadded cs = true ↔ ∀ c ∈ cs.takeWhile Text.isBlank, c = ' ' := by
    simp only [isPadded, List.all_eq_true, beq_iff_eq]
  decidable_of_iff (isPadded text.toList = true ∧ isPadded text.toList.reverse = true)
    ⟨fun h => ⟨(hall _).mp h.1, (hall _).mp h.2⟩, fun h => ⟨(hall _).mpr h.1, (hall _).mpr h.2⟩⟩

/-- The first of the spaces that trimming removes from the end of a text is taken by the backslash
before it. -/
def EscapesPadding (text : String) : Prop :=
  (LexState.normal.run (Text.trim text).toList).2.takesNext = true ∧
    text.toList.getLast? = some ' '

/-- Results that are the same up to separators at the ends of the row. -/
def SameUpToSeparators (inner outer : Except LexError (List Token)) : Prop :=
  ∃ before after, (∀ token ∈ before, token = .space) ∧ (∀ token ∈ after, token = .space) ∧
    outer = inner.map fun tokens => before ++ tokens ++ after

/-! ## What trimming removes -/

/-- What is left of the blanks of a longer list. -/
theorem mem_takeWhile_append {α : Type} {p : α → Bool} {x : α} {xs : List α} (ys : List α)
    (hx : x ∈ xs.takeWhile p) : x ∈ (xs ++ ys).takeWhile p := by
  rw [List.takeWhile_append]
  by_cases hall : (xs.takeWhile p).length = xs.length
  · rw [if_pos hall]
    exact List.mem_append_left _ ((List.takeWhile_sublist p).mem hx)
  · rwa [if_neg hall]

/-- A text that spaces surround is its trimmed form between them. -/
theorem PaddedBySpaces.toList_eq {text : String} (h : PaddedBySpaces text) :
    ∃ before after, text.toList =
      List.replicate before ' ' ++ ((Text.trim text).toList ++ List.replicate after ' ') := by
  have hfront : text.toList =
      text.toList.takeWhile Text.isBlank ++ Text.dropBlanks text.toList :=
    List.takeWhile_append_dropWhile.symm
  have hback := Text.dropBlanks_eq_trim_append text
  have htrailing : ∀ c ∈ (Text.dropBlanks text.toList).reverse.takeWhile Text.isBlank,
      c = ' ' := by
    intro c hc
    apply h.trailing
    rw [hfront, List.reverse_append]
    exact mem_takeWhile_append _ hc
  rw [List.eq_replicate_of_mem htrailing, List.reverse_replicate] at hback
  rw [List.eq_replicate_of_mem h.leading, hback] at hfront
  exact ⟨_, _, hfront⟩

/-- A trimmed text does not begin with a space. -/
theorem head?_trim_ne_space (text : String) : (Text.trim text).toList.head? ≠ some ' ' := by
  intro hspace
  have hblank : Text.isBlank ' ' = false := (Text.isTrimmed_trim text).head ' ' hspace
  cases hblank

/-! ## What is read of the removed spaces -/

/-- Spaces in front of anything else are read as at most one separator. -/
theorem read_leading_spaces {cs : List Char} (hcs : cs.head? ≠ some ' ') (count : Nat) :
    ∃ lead, (∀ token ∈ lead, token = Token.space) ∧
      LexState.normal.read (List.replicate count ' ' ++ cs) =
        withTokens lead (LexState.normal.read cs) := by
  cases count with
  | zero =>
    refine ⟨[], fun _ h => absurd h List.not_mem_nil, ?_⟩
    rw [List.replicate_zero, List.nil_append, withTokens_nil]
  | succ count =>
    refine ⟨[.space], fun _ h => List.mem_singleton.mp h, ?_⟩
    have hstep : LexState.normal.read (' ' :: (List.replicate count ' ' ++ cs)) =
        withTokens [.space] (LexState.spaces.read (List.replicate count ' ' ++ cs)) := rfl
    rw [List.replicate_succ, List.cons_append, hstep,
      LexState.read_spaces_replicate_append hcs]

/-- A text is read as its trimmed form behind at most one separator, up to the spaces at its end.
These are read from the state that the trimmed form leaves. -/
theorem PaddedBySpaces.tokenize_eq {text : String} (h : PaddedBySpaces text)
    (hne : Text.trim text ≠ "") :
    ∃ lead count, (∀ token ∈ lead, token = Token.space) ∧
      text.toList.getLast? = ((Text.trim text).toList ++ List.replicate count ' ').getLast? ∧
      tokenize text =
        withTokens (lead ++ (LexState.normal.run (Text.trim text).toList).1)
          ((LexState.normal.run (Text.trim text).toList).2.read (List.replicate count ' ')) := by
  obtain ⟨before, after, htext⟩ := h.toList_eq
  have hcharacters : (Text.trim text).toList ≠ [] := by
    intro hnil
    exact hne (String.toList_injective hnil)
  have hrest : (Text.trim text).toList ++ List.replicate after ' ' ≠ [] :=
    List.append_ne_nil_of_left_ne_nil hcharacters _
  have hhead : ((Text.trim text).toList ++ List.replicate after ' ').head? ≠ some ' ' := by
    rw [List.head?_append, Ne, Option.or_eq_some_iff]
    rintro (hspace | ⟨hnone, -⟩)
    · exact head?_trim_ne_space text hspace
    · exact hcharacters (List.head?_eq_none_iff.mp hnone)
  obtain ⟨lead, hlead, hread⟩ := read_leading_spaces hhead before
  refine ⟨lead, after, hlead, ?_, ?_⟩
  · have hsome : ((Text.trim text).toList ++ List.replicate after ' ').getLast?.isSome = true := by
      exact List.getLast?_isSome.mpr hrest
    rw [htext, List.getLast?_append, Option.or_of_isSome hsome]
  · rw [tokenize, tokenizeChars_eq_read, htext, hread, LexState.read_append,
      withTokens_withTokens]

/-- Separators around a piece with tokens stand around all tokens. -/
theorem sameUpToSeparators_withTokens {lead trail : List Token}
    (hlead : ∀ token ∈ lead, token = .space) (htrail : ∀ token ∈ trail, token = .space)
    (tokens : List Token) (result : Except LexError (List Token)) :
    SameUpToSeparators (withTokens tokens result)
      (withTokens (lead ++ tokens) (result.map (· ++ trail))) := by
  refine ⟨lead, trail, hlead, htrail, ?_⟩
  cases result with
  | error e => rfl
  | ok more =>
    refine congrArg Except.ok ?_
    simp only [List.append_assoc]

/-- Separators around tokens leave the other tokens as they are. -/
theorem SameUpToSeparators.filter_eq {inner outer : List Token}
    (h : SameUpToSeparators (.ok inner) (.ok outer)) :
    outer.filter (· != .space) = inner.filter (· != .space) := by
  obtain ⟨before, after, hbefore, hafter, heq⟩ := h
  have houter : outer = before ++ inner ++ after := Except.ok.inj heq
  have hlead : before.filter (· != .space) = [] := by simpa using hbefore
  have htrail : after.filter (· != .space) = [] := by simpa using hafter
  rw [houter, List.filter_append, List.filter_append, hlead, htrail, List.nil_append,
    List.append_nil]

/-- Trimming keeps the tokens of a text, up to the separators at its ends, as long as it does not
remove a space that a backslash takes, and only as long. -/
theorem sameUpToSeparators_trim_iff {text : String} (h : PaddedBySpaces text)
    (hne : Text.trim text ≠ "") :
    SameUpToSeparators (tokenize (Text.trim text)) (tokenize text) ↔ ¬EscapesPadding text := by
  obtain ⟨lead, count, hlead, hlast, htokens⟩ := h.tokenize_eq hne
  rw [htokens, tokenize_eq_finish (Text.trim text)]
  cases htakes : (LexState.normal.run (Text.trim text).toList).2.takesNext with
  | false =>
    have hescapes : ¬EscapesPadding text := by
      rintro ⟨htrue, -⟩
      rw [htakes] at htrue
      cases htrue
    obtain ⟨trail, htrail, hread⟩ := LexState.read_replicate_space htakes count
    rw [hread]
    exact iff_of_true (sameUpToSeparators_withTokens hlead htrail _ _) hescapes
  | true =>
    have hslash : (Text.trim text).toList.getLast? = some '\\' := by
      by_cases hlast : (Text.trim text).toList.getLast? = some '\\'
      · exact hlast
      · rw [LexState.takesNext_run hlast] at htakes
        cases htakes
    cases count with
    | zero =>
      have hescapes : ¬EscapesPadding text := by
        rintro ⟨-, hspace⟩
        rw [hlast, List.replicate_zero, List.append_nil, hslash] at hspace
        cases hspace
      have hread : (LexState.normal.run (Text.trim text).toList).2.read (List.replicate 0 ' ') =
          (LexState.normal.run (Text.trim text).toList).2.finish.map (· ++ []) := by
        rw [List.replicate_zero, LexState.read_nil, map_append_nil]
      have hnone : ∀ token ∈ ([] : List Token), token = .space := fun _ h =>
        absurd h List.not_mem_nil
      rw [hread]
      exact iff_of_true (sameUpToSeparators_withTokens hlead hnone _ _) hescapes
    | succ count =>
      have hescapes : EscapesPadding text := by
        refine ⟨htakes, ?_⟩
        rw [hlast, List.replicate_succ', ← List.append_assoc, List.getLast?_concat]
      refine iff_of_false ?_ (fun hnot => hnot hescapes)
      obtain ⟨kept, taken, hfinish, hread, hdiffer⟩ := LexState.read_taken_space htakes count
      rw [hfinish, hread, withTokens_ok, withTokens_ok]
      intro hsame
      have hfilter := hsame.filter_eq
      have hnone : lead.filter (· != .space) = [] := by simpa using hlead
      rw [List.append_assoc, List.filter_append, List.filter_append, List.filter_append, hnone,
        List.nil_append] at hfilter
      exact hdiffer (List.append_cancel_left hfilter)

/-- Separators at the ends of a row do not change what a line denotes. -/
theorem parseLine_eq_of_same {inner outer : String}
    (h : SameUpToSeparators (tokenize inner) (tokenize outer)) :
    parseLine inner = parseLine outer := by
  obtain ⟨before, after, hbefore, hafter, heq⟩ := h
  unfold parseLine
  rw [heq]
  cases tokenize inner with
  | error e => rfl
  | ok tokens =>
    show (parsePipeline tokens).mapError LineError.parsing =
      (parsePipeline (before ++ tokens ++ after)).mapError LineError.parsing
    rw [parsePipeline_eq_ofStages, parsePipeline_eq_ofStages,
      stagesIn_separated hbefore hafter]

/-- The shell remembers the trimmed line and runs what that line denotes. -/
theorem executeLine_eq_parseLine {σ η : Type} (host : Host σ η) (factories : List (Factory σ η))
    {text : String} (hne : Text.trim text ≠ "") (sh : Shell σ) :
    sh.executeLine host factories text =
      match parseLine (Text.trim text) with
      | .error e => (.error e, sh.remember (Text.trim text))
      | .ok p => (sh.remember (Text.trim text)).executePipeline host factories p := by
  have hempty : ¬(Text.trim text).isEmpty = true := by simpa using hne
  simp only [Shell.executeLine, if_neg hempty, parseLine]
  cases tokenize (Text.trim text) with
  | error e => rfl
  | ok tokens =>
    dsimp only
    cases parsePipeline tokens <;> rfl

/-- A line that denotes a pipeline when it is trimmed is remembered, and the pipeline is run. -/
theorem Denotes.executeLine_eq {σ η : Type} {text : String} {p : Pipeline}
    (h : Denotes (Text.trim text) p) (host : Host σ η) (factories : List (Factory σ η))
    (sh : Shell σ) :
    sh.executeLine host factories text =
      (sh.remember (Text.trim text)).executePipeline host factories p := by
  rw [executeLine_eq_parseLine host factories h.ne_empty, parseLine_eq_ok_iff.mpr h]

/-- Reading the trimmed line is reading the line, where trimming does not remove a space that the
lexer takes as text: the tokens are the same up to separators at the ends of the row, the
pipeline or the error is the same, and so the shell runs what the untrimmed line denotes. Where
trimming does remove such a space, the tokens differ in more than separators. -/
theorem trim_faithful {text : String} (h : PaddedBySpaces text) (hne : Text.trim text ≠ "") :
    (SameUpToSeparators (tokenize (Text.trim text)) (tokenize text) ↔ ¬EscapesPadding text) ∧
      (¬EscapesPadding text → parseLine (Text.trim text) = parseLine text ∧
        ∀ {σ η : Type} (host : Host σ η) (factories : List (Factory σ η)) (sh : Shell σ),
          sh.executeLine host factories text =
            match parseLine text with
            | .error e => (.error e, sh.remember (Text.trim text))
            | .ok p => (sh.remember (Text.trim text)).executePipeline host factories p) := by
  have hiff := sameUpToSeparators_trim_iff h hne
  refine ⟨hiff, fun hescapes => ?_⟩
  have hsame := parseLine_eq_of_same (hiff.mpr hescapes)
  refine ⟨hsame, fun host factories sh => ?_⟩
  rw [executeLine_eq_parseLine host factories hne, hsame]

/-- A space in quotes is not removed, and the spaces behind it mean nothing. -/
theorem trim_faithful_quoted :
    parseLine (Text.trim " echo \x27a \x27 ") = parseLine " echo \x27a \x27 " := by
  have hpadded : PaddedBySpaces " echo \x27a \x27 " := by decide
  have hescapes : ¬EscapesPadding " echo \x27a \x27 " := by
    rintro ⟨htakes, -⟩
    revert htakes
    decide
  exact ((trim_faithful hpadded (by decide)).2 hescapes).1

/-- Trimming removes a space that a backslash takes: the argument that ends in this space ends in
the backslash instead. -/
theorem trim_removes_escaped_space :
    PaddedBySpaces "echo a\\ " ∧ Text.trim "echo a\\ " = "echo a\\" ∧
      parseLine "echo a\\ " = .ok ⟨[⟨"echo", ["a "], []⟩]⟩ ∧
      parseLine "echo a\\" = .ok ⟨[⟨"echo", ["a\\"], []⟩]⟩ := by
  refine ⟨by decide, rfl, ?_, ?_⟩
  · exact parseLine_eq_ok_of_toOption (by decide +kernel)
  · exact parseLine_eq_ok_of_toOption (by decide +kernel)

end LineShell
