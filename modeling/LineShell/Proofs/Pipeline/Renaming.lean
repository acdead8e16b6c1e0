import LineShell.Proofs.Pipeline.Rows
import Mathlib.Data.List.TakeWhile

/-!
# Stages under another name

The name of a stage is the first word of its chunk. Another name in its place leaves the words and
the redirections behind it as they are, and decides only whether the arguments keep the spacing
between the words. A row is refused under both names for the same reason, or under none.
-/

namespace LineShell

/-- The name that is read at the front of a chunk. -/
def commandName? (chunk : List Token) : Option String := (word? (skipSpaces chunk)).map Prod.fst

/-- The tokens of a chunk behind its name. -/
def tokensAfterName (chunk : List Token) : List Token :=
  (skipSpaces chunk).dropWhile Token.isLiteral

/-- The chunk with other literals in the place of its name. -/
def rename (texts : List String) (chunk : List Token) : List Token :=
  chunk.takeWhile (· == .space) ++ (texts.map .literal ++ tokensAfterName chunk)

/-- The stage with a name, words and redirections. -/
def Segment.ofWords (name : String) (words : List String) (redirections : List Redirection) :
    Segment :=
  ⟨name, spaced (name == "echo") words, redirections⟩

/-- Whether an error is another one, up to the name of a stage that has two names. -/
def ParseError.SameUpTo (name other : String) (e e' : ParseError) : Prop :=
  e' = e ∨ e = .redirectionNotLast name ∧ e' = .redirectionNotLast other

/-! ## One chunk -/

/-- The parts of a chunk are its name and those of the tokens behind it. -/
theorem parts_of_commandName? {chunk : List Token} {name : String}
    (h : commandName? chunk = some name) :
    parts chunk = .word name :: parts (tokensAfterName chunk) := by
  unfold commandName? at h
  unfold tokensAfterName
  fun_induction skipSpaces chunk with
  | case1 rest ih =>
    rw [parts]
    exact ih h
  | case2 tokens hspace =>
    cases tokens with
    | nil => cases h
    | cons token rest =>
      cases token with
      | literal text =>
        have hliteral : (Token.literal text).isLiteral = true := rfl
        have hname : (glue text rest).1 = name := Option.some.inj h
        rw [← hname, glue_eq, parts, String.join_cons, List.dropWhile_cons_of_pos hliteral]
      | space => cases h
      | redirect mode tag => cases h
      | pipe => cases h

/-- The parts of a chunk with another name are this name and the parts behind the old one. -/
theorem parts_rename {texts : List String} (hne : texts ≠ []) (chunk : List Token) :
    parts (rename texts chunk) =
      .word (String.join texts) :: parts (tokensAfterName chunk) := by
  have hspaces : ∀ token ∈ chunk.takeWhile (· == .space), token = .space := by
    intro token htoken
    simpa using List.mem_takeWhile_imp htoken
  have hparts := parts_separated hspaces (fun _ h => absurd h List.not_mem_nil)
    (texts.map .literal ++ tokensAfterName chunk)
  rw [List.append_nil] at hparts
  rw [rename, hparts]
  exact parts_literals hne (head?_dropWhile_isLiteral (skipSpaces chunk))

/-- The tokens behind spaces are tokens of the row. -/
theorem skipSpaces_suffix (tokens : List Token) : skipSpaces tokens <:+ tokens := by
  fun_induction skipSpaces tokens with
  | case1 rest ih => exact ih.trans (List.suffix_cons _ _)
  | case2 => exact List.suffix_rfl

/-- Another name brings no pipe into a chunk. -/
theorem pipe_notMem_rename {chunk : List Token} (h : .pipe ∉ chunk) (texts : List String) :
    .pipe ∉ rename texts chunk := by
  intro hmem
  rcases List.mem_append.mp hmem with hspace | hrest
  · exact h ((List.takeWhile_sublist _).mem hspace)
  · rcases List.mem_append.mp hrest with hname | hrest
    · obtain ⟨text, -, htext⟩ := List.mem_map.mp hname
      cases htext
    · exact h ((skipSpaces_suffix chunk).mem ((List.dropWhile_sublist _).mem hrest))

/-- A chunk with a name denotes a stage with this name unless an operator lacks its target. -/
theorem Segment.ofChunk_of_parts {chunk : List Token} {name : String} {operands : List Part}
    (hparts : parts chunk = .word name :: operands) (hname : name ≠ "") :
    ofChunk chunk =
      if Part.lacksTarget operands then .error .missingRedirectTarget
      else .ok (ofWords name (Part.words operands) (Part.redirections operands)) := by
  simp only [ofChunk, hparts, mt String.isEmpty_iff.mp hname, Bool.false_eq_true, if_false,
    ofWords]

/-! ## One stage of a row -/

/-- The stages of a row of which one chunk is looked at. -/
theorem stagesIn_of_splitOn {tokens chunk : List Token} {before after : List (List Token)}
    (h : tokens.splitOn .pipe = before ++ chunk :: after) :
    stagesIn tokens =
      (before.mapM Segment.ofChunk).bind fun front =>
        (Segment.ofChunk chunk).bind fun segment =>
          (after.mapM Segment.ofChunk).map fun back => front ++ segment :: back := by
  rw [stagesIn, h, List.mapM_append, List.mapM_cons]
  cases before.mapM Segment.ofChunk with
  | error e => rfl
  | ok front =>
    cases Segment.ofChunk chunk with
    | error e => rfl
    | ok segment => cases after.mapM Segment.ofChunk <;> rfl

/-- There are as many stages as chunks. -/
theorem length_of_mapM_ofChunk {chunks : List (List Token)} {segments : List Segment}
    (h : chunks.mapM Segment.ofChunk = .ok segments) : segments.length = chunks.length := by
  induction chunks generalizing segments with
  | nil =>
    cases h
    rfl
  | cons chunk rest ih =>
    obtain ⟨segment, more, -, hrest, rfl⟩ := mapM_ofChunk_cons h
    rw [List.length_cons, List.length_cons, ih hrest]

/-- A stage in the place of one with the same redirections changes whether a row is refused in
nothing but the name that is given. -/
theorem Pipeline.ofStages_replace (front back : List Segment) {segment other : Segment}
    (h : other.redirections = segment.redirections) :
    (∃ e e', ofStages (front ++ segment :: back) = .error e ∧
        ofStages (front ++ other :: back) = .error e' ∧ e.SameUpTo segment.name other.name e') ∨
      ofStages (front ++ segment :: back) = .ok ⟨front ++ segment :: back⟩ ∧
        ofStages (front ++ other :: back) = .ok ⟨front ++ other :: back⟩ := by
  have hne (s : Segment) : s :: back ≠ [] := List.cons_ne_nil _ _
  unfold ofStages
  rw [List.dropLast_append_of_ne_nil (hne segment), List.dropLast_append_of_ne_nil (hne other),
    List.find?_append, List.find?_append]
  cases front.find? fun s => !s.redirections.isEmpty with
  | some s => exact .inl ⟨_, _, rfl, rfl, .inl rfl⟩
  | none =>
    cases back with
    | nil => exact .inr ⟨rfl, rfl⟩
    | cons next more =>
      rw [List.dropLast_cons_cons, List.dropLast_cons_cons, Option.none_or, Option.none_or,
        List.find?_cons, List.find?_cons, h]
      cases segment.redirections.isEmpty with
      | false => exact .inl ⟨_, _, rfl, rfl, .inr ⟨rfl, rfl⟩⟩
      | true =>
        cases (next :: more).dropLast.find? fun s => !s.redirections.isEmpty with
        | some s => exact .inl ⟨_, _, rfl, rfl, .inl rfl⟩
        | none => exact .inr ⟨rfl, rfl⟩

/-- A row with another name for one of its stages is refused as the row is, up to this name, or it
has the same stages but for one, which has the same words and redirections under the other name. -/
theorem parsePipeline_rename {tokens chunk : List Token} {before after : List (List Token)}
    (hchunks : tokens.splitOn .pipe = before ++ chunk :: after) {name : String}
    (hread : commandName? chunk = some name) (hname : name ≠ "") {texts : List String}
    (hother : String.join texts ≠ "") :
    let renamed := [Token.pipe].intercalate (before ++ rename texts chunk :: after)
    (∃ e e', parsePipeline tokens = .error e ∧ parsePipeline renamed = .error e' ∧
        e.SameUpTo name (String.join texts) e') ∨
      ∃ front words redirections back, front.length = before.length ∧
        back.length = after.length ∧
        parsePipeline tokens = .ok ⟨front ++ .ofWords name words redirections :: back⟩ ∧
        parsePipeline renamed =
          .ok ⟨front ++ .ofWords (String.join texts) words redirections :: back⟩ := by
  intro renamed
  have hpipes : ∀ piece ∈ before ++ chunk :: after, .pipe ∉ piece := by
    rw [← hchunks]
    exact fun _ => not_mem_of_mem_splitOn
  have hrenamed : renamed.splitOn .pipe = before ++ rename texts chunk :: after := by
    refine List.splitOn_intercalate Token.pipe (fun piece hpiece => ?_) (by simp)
    rcases List.mem_append.mp hpiece with hbefore | hafter
    · exact hpipes piece (List.mem_append_left _ hbefore)
    · rcases List.mem_cons.mp hafter with rfl | hafter
      · exact pipe_notMem_rename
          (hpipes chunk (List.mem_append_right _ List.mem_cons_self)) texts
      · exact hpipes piece (List.mem_append_right _ (List.mem_cons_of_mem _ hafter))
  have hne : texts ≠ [] := by
    rintro rfl
    exact hother String.join_nil
  rw [parsePipeline_eq_ofStages, parsePipeline_eq_ofStages, stagesIn_of_splitOn hchunks,
    stagesIn_of_splitOn hrenamed, Segment.ofChunk_of_parts (parts_of_commandName? hread) hname,
    Segment.ofChunk_of_parts (parts_rename hne chunk) hother]
  -- From here on both rows are read in the same steps, and only the name of one stage differs.
  generalize parts (tokensAfterName chunk) = operands
  generalize Part.words operands = words
  generalize Part.redirections operands = redirections
  cases hfront : before.mapM Segment.ofChunk with
  | error e => exact .inl ⟨e, e, rfl, rfl, .inl rfl⟩
  | ok front =>
    by_cases hlacks : Part.lacksTarget operands
    · rw [if_pos hlacks, if_pos hlacks]
      exact .inl ⟨_, _, rfl, rfl, .inl rfl⟩
    · rw [if_neg hlacks, if_neg hlacks]
      cases hback : after.mapM Segment.ofChunk with
      | error e => exact .inl ⟨e, e, rfl, rfl, .inl rfl⟩
      | ok back =>
        have hsame : (Segment.ofWords (String.join texts) words redirections).redirections =
            (Segment.ofWords name words redirections).redirections := rfl
        refine (Pipeline.ofStages_replace front back hsame).imp_right fun hparsed => ?_
        exact ⟨front, words, redirections, back, length_of_mapM_ofChunk hfront,
          length_of_mapM_ofChunk hback, hparsed⟩

end LineShell
