import LineShell.Proofs.Completion.Candidates
import LineShell.Proofs.Completion.Insertion

/-!
# Completing a word twice

A word that is completed only as far as the command names agree is not finished, and completion is
asked for again at its new end. The second time all names are offered with which the word could
have been meant from the start: the first step leaves none of them out, and no third one follows.
-/

namespace LineShell

namespace Completion

variable {listDirectory : Path → Option (List DirectoryEntry)} {searchPath : List Path}

/-- The commands that start with a word are those that start with what they agree in. -/
theorem commandsStartingWith_eq_of_greatest {word start : String}
    (h : GreatestCommonStart start (commandsStartingWith listDirectory searchPath word)) :
    commandsStartingWith listDirectory searchPath start =
      commandsStartingWith listDirectory searchPath word := by
  have hword : word.toList <+: start.toList :=
    h.greatest word fun name hname => (mem_commandsStartingWith.mp hname).1
  rw [commandsStartingWith, commandsStartingWith]
  refine congrArg sortedNames (List.filter_congr fun name hname => ?_)
  rw [Bool.eq_iff_iff, startsWith, startsWith, List.isPrefixOf_iff_prefix,
    List.isPrefixOf_iff_prefix]
  refine ⟨hword.trans, fun hbegin => h.common name ?_⟩
  rw [commandsStartingWith, mem_sortedNames, List.mem_filter]
  exact ⟨hname, List.isPrefixOf_iff_prefix.mpr hbegin⟩

/-- A word that is all that several names agree in is completed to each of them. -/
theorem candidatesFor_of_greatest {start : String} {names : List String}
    (h : GreatestCommonStart start names) : candidatesFor start names = names.map wholeName := by
  have hoffers := offers_candidatesFor h.common
  generalize candidatesFor start names = candidates at hoffers
  cases hoffers with
  | start _ greatest longer =>
    rw [h.unique greatest] at longer
    exact absurd longer (Nat.lt_irrefl _)
  | whole => rfl

/-- The line in which a candidate has taken the place of the word. -/
theorem WordAt.accept_eq {line before word rest : String} {cursor : Nat}
    (h : WordAt line cursor before word rest) (candidates : List Candidate)
    (candidate : Candidate) :
    accept ⟨before.utf8ByteSize, candidates⟩ line cursor candidate =
      before ++ candidate.replacement ++ rest := by
  have hbefore : takeBytes before.utf8ByteSize line.toList = before.toList := by
    rw [h.line_eq, String.append_assoc, takeBytes_text_append]
  have hline : line.toList = (before ++ word).toList ++ rest.toList :=
    h.line_eq ▸ String.toList_append
  have hrest : line.toList.drop (before ++ word).toList.length = rest.toList := by
    rw [hline, List.drop_left]
  simp only [accept, hbefore, h.takeBytes_cursor, hrest, String.ofList_toList]

/-- A candidate without a space behind it is what several names agree in. -/
theorem Offers.of_singleton {word : String} {names : List String} {candidate : Candidate}
    (h : Offers word names [candidate])
    (hpartial : candidate.replacement.toList.getLast? ≠ some ' ') :
    2 ≤ names.length ∧ GreatestCommonStart candidate.replacement names := by
  generalize hcandidates : [candidate] = candidates at h
  cases h with
  | start several greatest _ =>
    obtain rfl := (List.cons.inj hcandidates).1
    exact ⟨several, greatest⟩
  | whole =>
    obtain ⟨name, -, hname⟩ := List.mem_map.mp (hcandidates ▸ List.mem_singleton_self candidate)
    rw [← hname] at hpartial
    exact absurd (by simp [wholeName]) hpartial

/-- A word is completed in part once at most. Where no command name holds blanks or pipes and the
only candidate for the word before the cursor has no space behind it, the line in which it has taken
the place of the word, with the cursor behind it, has the word start at the same place. Now all
commands that start with the word as it was typed are offered, two at least, in strictly increasing
order and with a space behind each. -/
theorem complete_accept_partial
    (hnames : ∀ name, IsCommand listDirectory searchPath name →
      ∀ c ∈ name.toList, Text.isBlank c = false ∧ c ≠ '|')
    {line : String} {cursor : Nat} (hcursor : String.Pos.Raw.IsValid line ⟨cursor⟩)
    {candidate : Candidate}
    (hone : (complete listDirectory searchPath line cursor).candidates = [candidate])
    (hpartial : candidate.replacement.toList.getLast? ≠ some ' ') :
    let completion := complete listDirectory searchPath line cursor
    let again := complete listDirectory searchPath (completion.accept line cursor candidate)
      (completion.start + candidate.replacement.utf8ByteSize)
    again.start = completion.start ∧
      ∃ before word rest, WordAt line cursor before word rest ∧
        before.utf8ByteSize = completion.start ∧
        completion.accept line cursor candidate = before ++ candidate.replacement ++ rest ∧
        ∃ names : List String, 2 ≤ names.length ∧ names.Pairwise (· < ·) ∧
          (∀ name, name ∈ names ↔
            IsCommand listDirectory searchPath name ∧ word.toList <+: name.toList) ∧
          again.candidates = names.map wholeName := by
  intro completion again
  obtain ⟨before, word, rest, hword⟩ := exists_wordAt hcursor
  have hcompletion : completion = _ := hword.complete_eq listDirectory searchPath
  have hline : completion.accept line cursor candidate =
      before ++ candidate.replacement ++ rest := by
    rw [hcompletion, hword.accept_eq]
  have hoffers : Offers word (commandsStartingWith listDirectory searchPath word) [candidate] := by
    rw [← hone, show complete listDirectory searchPath line cursor = _ from hcompletion]
    exact offers_candidatesFor fun name hname => (mem_commandsStartingWith.mp hname).1
  obtain ⟨hseveral, hgreatest⟩ := hoffers.of_singleton hpartial
  -- What the names agree in is a part of each of them, and so a word itself.
  obtain ⟨name, hname⟩ := List.exists_mem_of_length_pos (Nat.lt_of_lt_of_le Nat.two_pos hseveral)
  have hinside : ∀ c ∈ candidate.replacement.toList, Text.isBlank c = false ∧ c ≠ '|' :=
    fun c hc => hnames name (mem_commandsStartingWith.mp hname).2 c
      ((hgreatest.common name hname).subset hc)
  have hagain : again = ⟨before.utf8ByteSize,
      (commandsStartingWith listDirectory searchPath word).map wholeName⟩ := by
    have hstart : completion.start = before.utf8ByteSize := by rw [hcompletion]
    calc
      again = complete listDirectory searchPath (before ++ candidate.replacement ++ rest)
          (before.utf8ByteSize + candidate.replacement.utf8ByteSize) := by rw [← hline, ← hstart]
      _ = _ := by
        rw [(hword.replace hinside).complete_eq, commandsStartingWith_eq_of_greatest hgreatest,
          candidatesFor_of_greatest hgreatest]
  rw [hagain, hline, hcompletion]
  exact ⟨rfl, before, word, rest, hword, rfl, rfl, _, hseveral, pairwise_sortedNames _,
    fun name => mem_commandsStartingWith.trans and_comm, rfl⟩

/-- The names of the two commands are offered once the word goes on as far as they agree. -/
theorem complete_accept_accented :
    (complete accentedCommands.listDirectory [⟨"/"⟩] "né |é x" 7).candidates = [⟨"ét", "ét"⟩] ∧
      (complete accentedCommands.listDirectory [⟨"/"⟩] "né |é x" 7).accept "né |é x" 7
          ⟨"ét", "ét"⟩ = "né |ét x" ∧
      (complete accentedCommands.listDirectory [⟨"/"⟩] "né |ét x" 8).start = 5 ∧
      ∃ names : List String, 2 ≤ names.length ∧
        (complete accentedCommands.listDirectory [⟨"/"⟩] "né |ét x" 8).candidates =
          names.map wholeName := by
  have hcursor : String.Pos.Raw.IsValid "né |é x" ⟨7⟩ :=
    String.Pos.Raw.isValid_iff_exists_append.mpr ⟨"né |é", " x", by decide, by decide⟩
  have hcompletion : complete accentedCommands.listDirectory [⟨"/"⟩] "né |é x" 7 =
      ⟨5, [⟨"ét", "ét"⟩]⟩ := by
    decide +kernel
  have hnames : ∀ name, IsCommand accentedCommands.listDirectory [⟨"/"⟩] name →
      ∀ c ∈ name.toList, Text.isBlank c = false ∧ c ≠ '|' := by
    intro name hcommand
    have hall : ((commandsStartingWith accentedCommands.listDirectory [⟨"/"⟩] "").all
        fun name => name.toList.all inWord) = true := by
      decide +kernel
    have hname := List.all_eq_true.mp hall name (mem_commandsStartingWith.mpr ⟨by simp, hcommand⟩)
    exact fun c hc => inWord_eq_true_iff.mp (List.all_eq_true.mp hname c hc)
  obtain ⟨hstart, before, word, rest, -, -, -, names, hseveral, -, -, hcandidates⟩ :=
    complete_accept_partial hnames hcursor (congrArg Completion.candidates hcompletion) (by decide)
  rw [hcompletion] at hstart hcandidates ⊢
  have hline : accept ⟨5, [⟨"ét", "ét"⟩]⟩ "né |é x" 7 ⟨"ét", "ét"⟩ = "né |ét x" := by
    decide +kernel
  have hcursor' : 5 + (Candidate.replacement ⟨"ét", "ét"⟩).utf8ByteSize = 8 := by decide
  rw [hline, hcursor'] at hstart hcandidates
  exact ⟨rfl, hline, hstart, names, hseveral, hcandidates⟩

end Completion

end LineShell
