import LineShell.Proofs.Completion.Coverage
import LineShell.Proofs.Completion.Cursor
import LineShell.Proofs.Pipeline.Rows
import LineShell.Proofs.Token.Contents
import Mathlib.Data.List.Basic
import Mathlib.Data.List.Flatten
import Mathlib.Data.List.TakeWhile

/-!
# Reading a completed name back

Where only one command name starts with the word of a line, completion puts this name and a space
in the place of the word. It writes the name as it is. So the line is read back as the command of
this name when no character of the name has a meaning of its own to the lexer, and it is never
read back so when one has.
-/

namespace LineShell

/-! ## Rows of one stage without operands -/

/-- The first word of a chunk holds characters of its literals, in their order. -/
theorem sublist_contents_of_parts {tokens : List Token} {text : String} {rest : List Part}
    (h : parts tokens = .word text :: rest) : text.toList.Sublist (contents tokens) := by
  induction tokens with
  | nil => simp [parts] at h
  | cons token more ih =>
    cases token with
    | literal first =>
      rw [parts] at h
      have htext := (Part.word.inj (List.cons.inj h).1).symm
      have hrun : ((more.takeWhile Token.isLiteral).map Token.text).flatMap String.toList =
          contents (more.takeWhile Token.isLiteral) := by
        rw [List.flatMap_map]
        refine List.flatMap_congr fun token htoken => ?_
        have hliteral := List.all_eq_true.mp List.all_takeWhile token htoken
        cases token <;> first | rfl | cases hliteral
      rw [htext, String.join_cons, String.toList_append, String.toList_join, hrun, contents_cons]
      exact ((List.takeWhile_sublist _).flatMap Token.literalChars).append_left _
    | space =>
      rw [parts] at h
      exact ih h
    | pipe =>
      rw [parts] at h
      exact ih h
    | redirect mode tag =>
      rw [parts] at h
      cases h

/-- A row of a single stage is one chunk. -/
theorem ofChunk_of_stagesIn {tokens : List Token} {segment : Segment}
    (h : stagesIn tokens = .ok [segment]) : Segment.ofChunk tokens = .ok segment := by
  have htokens : [Token.pipe].intercalate (tokens.splitOn Token.pipe) = tokens :=
    List.intercalate_splitOn Token.pipe
  unfold stagesIn at h
  cases hsplit : tokens.splitOn Token.pipe with
  | nil => exact absurd hsplit (List.splitOn_ne_nil _ _)
  | cons chunk rest =>
    rw [hsplit] at h htokens
    obtain ⟨first, more, hfirst, hmore, hsegments⟩ := mapM_ofChunk_cons h
    cases hsegments
    cases rest with
    | nil =>
      rw [← htokens]
      simpa using hfirst
    | cons other others =>
      obtain ⟨_, _, -, -, hnone⟩ := mapM_ofChunk_cons hmore
      cases hnone

/-- A row denotes a single stage without operands when it holds one word, the name of the stage, and
nothing else but spaces. -/
theorem parts_of_parsePipeline {tokens : List Token} {name : String}
    (h : parsePipeline tokens = .ok ⟨[⟨name, [], []⟩]⟩) :
    ∃ rest, parts tokens = .word name :: rest := by
  have hchunk := ofChunk_of_stagesIn (parsePipeline_eq_ok_iff.mp h).1
  unfold Segment.ofChunk at hchunk
  split at hchunk
  · rename_i text operands hparts
    split at hchunk
    · cases hchunk
    · split at hchunk
      · cases hchunk
      · have hname := congrArg Segment.name (Except.ok.inj hchunk)
        exact ⟨operands, (show text = name from hname) ▸ hparts⟩
  · cases hchunk

/-! ## Names in front of a space -/

/-- A name whose characters have no meaning of their own is read as one word. -/
theorem parsePipeline_plain {name : String} (hname : name ≠ "")
    (hplain : ∀ c ∈ name.toList, c ∉ LexState.specialChars) :
    ∃ tokens, tokenize (name.push ' ') = .ok tokens ∧
      parsePipeline tokens = .ok ⟨[⟨name, [], []⟩]⟩ := by
  have hne : name.toList ≠ [] := fun h => hname (String.toList_eq_nil_iff.mp h)
  refine ⟨[.literal name, .space], ?_, ?_⟩
  · rw [tokenize, tokenizeChars_eq_read, String.toList_push]
    have hnil : ([] : List Char).head? ≠ some '>' := by simp
    rw [LexState.read_plain_space hne hplain hnil, String.ofList_toList]
    rfl
  · have hchunk : Segment.ofChunk [.literal name, .space] = .ok ⟨name, [], []⟩ := by
      have hparts : parts [.literal name, .space] = [.word name] := by
        simp [parts, Token.isLiteral]
      simp [Segment.ofChunk, hparts, hname, Part.lacksTarget, Part.words, Part.redirections, spaced]
    rw [parsePipeline_eq_ok_iff, stagesIn_chunk (by simp), hchunk]
    exact ⟨rfl, fun _ h => absurd h List.not_mem_nil⟩

/-- A word in front of a space is the first word of its row. -/
theorem parts_read_word_space {text : String} {rest : List Char} {tokens : List Token}
    (h : (LexState.word text).read (' ' :: rest) = .ok tokens) :
    ∃ operands, parts tokens = .word text :: operands := by
  have hstep : (LexState.word text).step ' ' = ([.literal text, .space], .spaces) := rfl
  rw [LexState.read_cons, hstep] at h
  cases hrest : LexState.spaces.read rest with
  | error e =>
    rw [hrest] at h
    cases h
  | ok more =>
    rw [hrest] at h
    cases h
    exact ⟨parts more, by simp [parts, Token.isLiteral]⟩

/-- A word that goes on with a character with a meaning of its own is not read as the characters
that are written there. -/
theorem ne_of_read_special {before rest : List Char} {c : Char} {name : String}
    {tokens : List Token} {operands : List Part} (hc : c ∈ LexState.specialChars)
    (hread : (LexState.word (String.ofList before)).read (c :: (rest ++ [' '])) = .ok tokens)
    (hparts : parts tokens = .word name :: operands) : name.toList ≠ before ++ c :: rest := by
  intro hchars
  by_cases hspace : c = ' '
  · -- the space ends the word before it
    rw [hspace] at hread
    obtain ⟨_, hword⟩ := parts_read_word_space hread
    rw [hparts] at hword
    have hname : name = String.ofList before := Part.word.inj (List.cons.inj hword).1
    simp [hname] at hchars
  · -- any other one occurs in the name once less than it is written
    have hsublist := (sublist_contents_of_parts hparts).trans
      (LexState.read_special_sublist hc hspace (by simp) hread)
    have hcount := hsublist.count_le c
    simp only [hchars, String.toList_ofList, List.count_append, List.count_cons_self,
      List.count_cons_of_ne (Ne.symm hspace), List.count_nil] at hcount
    omega

/-- A name that begins with characters of a word is read back as a stage of its own only when none
of its characters has a meaning of its own. -/
theorem plain_of_parsePipeline {start : List Char} {name : String} (hne : start ≠ [])
    (hstart : ∀ c ∈ start, c ∉ LexState.specialChars) (hname : start <+: name.toList)
    {tokens : List Token} (htokens : tokenize (name.push ' ') = .ok tokens)
    (hparse : parsePipeline tokens = .ok ⟨[⟨name, [], []⟩]⟩) :
    ∀ c ∈ name.toList, c ∉ LexState.specialChars := by
  by_contra hspecial
  obtain ⟨before, c, rest, hchars, hbefore, hc⟩ := LexState.exists_first_special hspecial
  have hbegins : before ≠ [] := by
    -- the first character of the name is one of the word
    obtain ⟨d, more, rfl⟩ := List.exists_cons_of_ne_nil hne
    rintro rfl
    obtain ⟨others, hothers⟩ := hname
    rw [hchars] at hothers
    exact hstart d List.mem_cons_self ((List.cons.inj hothers).1 ▸ hc)
  obtain ⟨operands, hparts⟩ := parts_of_parsePipeline hparse
  rw [tokenize, tokenizeChars_eq_read, String.toList_push, hchars, List.append_assoc,
    List.cons_append] at htokens
  rcases LexState.read_plain hbegins hbefore (c :: (rest ++ [' '])) with
    hread | ⟨digit, hdigit, -, hread⟩
  · rw [hread] at htokens
    exact ne_of_read_special hc htokens hparts hchars
  · rw [hread] at htokens
    rcases LexState.read_digit_sublist digit c (rest ++ [' ']) with hsame | hsublist
    · rw [hsame] at htokens
      have hword : String.singleton digit = String.ofList before :=
        String.toList_injective (by simp [hdigit])
      exact ne_of_read_special hc (hword ▸ htokens) hparts hchars
    · have hlength := ((sublist_contents_of_parts hparts).trans
        (hsublist tokens htokens)).length_le
      simp only [hchars, hdigit, List.length_append, List.length_cons, List.length_nil] at hlength
      omega

/-! ## Completing a word that is the whole line -/

namespace Completion

/-- The line in which a candidate has taken the place of the word before the cursor. -/
def accept (completion : Completion) (line : String) (cursor : Nat) (candidate : Candidate) :
    String :=
  String.ofList (takeBytes completion.start line.toList) ++ candidate.replacement ++
    String.ofList (line.toList.drop (takeBytes cursor line.toList).length)

/-- The characters of a text take up its bytes. -/
theorem takeBytes_text (text : String) : takeBytes text.utf8ByteSize text.toList = text.toList := by
  simpa using takeBytes_text_append text ""

/-- At the end of a line that is a single word, this word is completed. -/
theorem complete_word (listDirectory : Path → Option (List DirectoryEntry))
    (searchPath : List Path) {word : String} (hword : ∀ c ∈ word.toList, inWord c = true) :
    complete listDirectory searchPath word word.utf8ByteSize =
      ⟨0, candidatesFor word (commandsStartingWith listDirectory searchPath word)⟩ := by
  have hword : WordAt word word.utf8ByteSize "" word "" :=
    ⟨by simp, by simp, fun c hc => inWord_eq_true_iff.mp (hword c hc), by simp⟩
  exact hword.complete_eq listDirectory searchPath

/-- A candidate for a word that is the whole line makes up the whole new line. -/
theorem accept_word (word : String) (candidates : List Candidate) (candidate : Candidate) :
    accept ⟨0, candidates⟩ word word.utf8ByteSize candidate = candidate.replacement := by
  simp only [accept, takeBytes_zero, takeBytes_text, List.drop_length, String.ofList_nil,
    String.empty_append, String.append_empty]

end Completion

/-- A completed name is read back as the command of this name exactly when none of its characters
has a meaning of its own. For a word that is the whole line, and with which exactly one command name
starts, completion offers this name followed by a space; the line that consists of it denotes a
single stage of this name, without arguments and redirections, when the name holds no space, quote,
backslash, pipe or greater-than sign, and otherwise it denotes something else or nothing. -/
theorem parseLine_accept_iff (listDirectory : Path → Option (List DirectoryEntry))
    (searchPath : List Path) {word name : String} (hword : word ≠ "")
    (hplain : ∀ c ∈ word.toList,
      Text.isBlank c = false ∧ c ∉ ['\x27', '\x22', '\\', '|', '>'])
    (hone : Completion.commandsStartingWith listDirectory searchPath word = [name]) :
    let completion := Completion.complete listDirectory searchPath word word.utf8ByteSize
    ∃ candidate, completion.candidates = [candidate] ∧
      completion.accept word word.utf8ByteSize candidate = name.push ' ' ∧
      (parseLine (completion.accept word word.utf8ByteSize candidate) =
          .ok ⟨[⟨name, [], []⟩]⟩ ↔
        ∀ c ∈ name.toList, c ∉ [' ', '\x27', '\x22', '\\', '|', '>']) := by
  intro completion
  have hinWord : ∀ c ∈ word.toList, Completion.inWord c = true := by
    intro c hc
    obtain ⟨hblank, hquotes⟩ := hplain c hc
    have hpipe : c ≠ '|' := fun h => hquotes (by simp [h])
    simp [Completion.inWord, hblank, hpipe]
  have hspecial : ∀ c ∈ word.toList, c ∉ LexState.specialChars := by
    intro c hc
    obtain ⟨hblank, hquotes⟩ := hplain c hc
    have hspace : c ≠ ' ' := fun h => absurd (h ▸ hblank) (by decide)
    exact List.not_mem_cons_of_ne_of_not_mem hspace hquotes
  have hcompletion : completion = ⟨0, [Completion.wholeName name]⟩ := by
    rw [show completion = _ from Completion.complete_word listDirectory searchPath hinWord, hone]
    rfl
  have hline : completion.accept word word.utf8ByteSize (Completion.wholeName name) =
      name.push ' ' := by
    rw [hcompletion, Completion.accept_word]
    rfl
  refine ⟨Completion.wholeName name, by rw [hcompletion], hline, ?_⟩
  have hname : name ∈ Completion.commandsStartingWith listDirectory searchPath word := by
    rw [hone]
    exact List.mem_singleton_self name
  obtain ⟨hstart, -⟩ := Completion.mem_commandsStartingWith.mp hname
  have hne : word.toList ≠ [] := fun h => hword (String.toList_eq_nil_iff.mp h)
  have hnamed : name ≠ "" := by
    rintro rfl
    exact hne (List.prefix_nil.mp hstart)
  rw [hline, parseLine_eq_ok_iff]
  constructor
  · rintro ⟨tokens, htokens, hparse⟩
    exact plain_of_parsePipeline hne hspecial hstart htokens hparse
  · exact parsePipeline_plain hnamed

/-- A machine with two commands at its root, one of which has a space in its name. -/
def spacedCommand : Machine :=
  .ofFiles ⟨#[.directory [("make", 1), ("my tool", 1)], .file .empty true]⟩ []

/-- A name of letters is read back. -/
theorem parseLine_accept_letters :
    "ma" ≠ "" ∧
      (∀ c ∈ "ma".toList, Text.isBlank c = false ∧ c ∉ ['\x27', '\x22', '\\', '|', '>']) ∧
      Completion.commandsStartingWith spacedCommand.listDirectory [⟨"/"⟩] "ma" = ["make"] ∧
      ∃ candidate,
        (Completion.complete spacedCommand.listDirectory [⟨"/"⟩] "ma" 2).candidates =
          [candidate] ∧
        parseLine ((Completion.complete spacedCommand.listDirectory [⟨"/"⟩] "ma" 2).accept
          "ma" 2 candidate) = .ok ⟨[⟨"make", [], []⟩]⟩ := by
  have hone : Completion.commandsStartingWith spacedCommand.listDirectory [⟨"/"⟩] "ma" =
      ["make"] := by
    decide +kernel
  have hplain : ∀ c ∈ "ma".toList,
      Text.isBlank c = false ∧ c ∉ ['\x27', '\x22', '\\', '|', '>'] :=
    List.forall_iff_forall_mem.mp (by decide)
  obtain ⟨candidate, hcandidates, -, hread⟩ :=
    parseLine_accept_iff spacedCommand.listDirectory [⟨"/"⟩] (by decide) hplain hone
  have hletters : ∀ c ∈ "make".toList, c ∉ [' ', '\x27', '\x22', '\\', '|', '>'] :=
    List.forall_iff_forall_mem.mp (by decide)
  exact ⟨by decide, hplain, hone, candidate, hcandidates, hread.mpr hletters⟩

/-- A name with a space is the only one that starts with the word, and it is completed as it is. The
line then denotes the command of the part before the space. -/
theorem parseLine_accept_spaced :
    (∀ c ∈ "my".toList, Text.isBlank c = false ∧ c ∉ ['\x27', '\x22', '\\', '|', '>']) ∧
      Completion.commandsStartingWith spacedCommand.listDirectory [⟨"/"⟩] "my" = ["my tool"] ∧
      (Completion.complete spacedCommand.listDirectory [⟨"/"⟩] "my" 2).candidates =
        [Completion.wholeName "my tool"] ∧
      parseLine ((Completion.complete spacedCommand.listDirectory [⟨"/"⟩] "my" 2).accept
        "my" 2 (Completion.wholeName "my tool")) = .ok ⟨[⟨"my", ["tool"], []⟩]⟩ ∧
      parseLine ((Completion.complete spacedCommand.listDirectory [⟨"/"⟩] "my" 2).accept
        "my" 2 (Completion.wholeName "my tool")) ≠ .ok ⟨[⟨"my tool", [], []⟩]⟩ := by
  have hread : parseLine ((Completion.complete spacedCommand.listDirectory [⟨"/"⟩] "my" 2).accept
      "my" 2 (Completion.wholeName "my tool")) = .ok ⟨[⟨"my", ["tool"], []⟩]⟩ :=
    parseLine_eq_ok_of_toOption (by decide +kernel)
  refine ⟨List.forall_iff_forall_mem.mp (by decide), by decide +kernel, by decide +kernel,
    hread, ?_⟩
  rw [hread]
  decide

end LineShell
