import LineShell.Program
import LineShell.Proofs.Shell.HistoryListing
import LineShell.Proofs.Text.Basic

/-!
# Saved histories

A history is saved as a text with a line for each entry. How the lines end does not matter when the
text is loaded, nor do blank lines and blanks around an entry. The lines of a session are trimmed as
those of a file are, so the history of a session comes back from any text that holds its entries.
-/

namespace LineShell

/-- What a history can keep of a line: a text with something in it, without blanks at its ends. -/
structure IsEntry (entry : String) : Prop where
  ne_empty : entry ≠ ""
  trimmed : Text.IsTrimmed entry
  oneLine : '\n' ∉ entry.toList

/-- Blanks on one line. -/
structure IsPadding (text : String) : Prop where
  blank : Text.AllBlank text
  oneLine : '\n' ∉ text.toList

/-- The end of a line. -/
inductive LineEnd where
  | lineFeed
  | returnAndFeed

/-- The characters at the end of a line. -/
def LineEnd.text : LineEnd → String
  | lineFeed => "\n"
  | returnAndFeed => "\r\n"

/-- A line without its end is blank or holds an entry between blanks. -/
inductive LineHolds : String → List String → Prop
  | nothing {line : String} (padding : IsPadding line) : LineHolds line []
  | entry {before entry after : String} (leading : IsPadding before) (isEntry : IsEntry entry)
      (trailing : IsPadding after) : LineHolds (before ++ entry ++ after) [entry]

/-- The lines of a text hold entries, in order. The last line may lack its end. -/
inductive HoldsEntries : String → List String → Prop
  | last {line : String} {entries : List String} (holds : LineHolds line entries) :
      HoldsEntries line entries
  | line {line rest : String} {entries others : List String} (holds : LineHolds line entries)
      (ending : LineEnd) (more : HoldsEntries rest others) :
      HoldsEntries (line ++ ending.text ++ rest) (entries ++ others)

/-- The text of a history: its entries, each with a line feed behind it. -/
def History.written (h : History) : String := String.join (h.toList.map (· ++ "\n"))

/-- A history comes back, with the same numbers, from each text that holds its entries, and its
written form is such a text. -/
structure History.Reloads (h : History) : Prop where
  written : HoldsEntries h.written h.toList
  loaded : ∀ text, HoldsEntries text h.toList → ofText text = h
  numbers : ∀ text, HoldsEntries text h.toList → ∀ limit, (ofText text).tail limit = h.tail limit

/-- A history from before a session: there was none, or it has been loaded. -/
def History.IsPast (h : History) : Prop := h = .empty ∨ ∃ text, h = .ofText text

/-! ## Lines -/

/-- There is nothing in a text without characters. -/
theorem isPadding_empty : IsPadding "" :=
  ⟨fun _ h => absurd h List.not_mem_nil, List.not_mem_nil⟩

/-- A carriage return is a blank. -/
theorem isPadding_return : IsPadding "\r" := by
  refine ⟨fun c hc => ?_, by decide⟩
  have hchars : "\r".toList = ['\r'] := by decide
  rw [hchars, List.mem_singleton] at hc
  rw [hc]
  rfl

/-- Blanks behind blanks on one line. -/
theorem IsPadding.append {before after : String} (hbefore : IsPadding before)
    (hafter : IsPadding after) : IsPadding (before ++ after) := by
  constructor
  · intro c hc
    rw [String.toList_append] at hc
    exact (List.mem_append.mp hc).elim (hbefore.blank c) (hafter.blank c)
  · rw [String.toList_append]
    exact List.not_mem_append hbefore.oneLine hafter.oneLine

/-- An entry is a line of its own. -/
theorem IsEntry.lineHolds {entry : String} (h : IsEntry entry) : LineHolds entry [entry] := by
  have hholds := LineHolds.entry isPadding_empty h isPadding_empty
  rwa [String.empty_append, String.append_empty] at hholds

namespace LineHolds

variable {line : String} {entries : List String}

/-- Blanks behind a line make no difference to what it holds. -/
theorem append_padding (h : LineHolds line entries) {padding : String}
    (hpadding : IsPadding padding) : LineHolds (line ++ padding) entries := by
  cases h with
  | nothing hline => exact .nothing (hline.append hpadding)
  | entry leading isEntry trailing =>
    rw [String.append_assoc]
    exact .entry leading isEntry (trailing.append hpadding)

/-- What a line holds are entries. -/
theorem isEntry (h : LineHolds line entries) : ∀ entry ∈ entries, IsEntry entry := by
  cases h with
  | nothing hline => exact fun _ hmem => absurd hmem List.not_mem_nil
  | entry leading isEntry trailing =>
    rintro entry hmem
    rwa [List.mem_singleton.mp hmem]

/-- There is no line feed in a line. -/
theorem oneLine (h : LineHolds line entries) : '\n' ∉ line.toList := by
  cases h with
  | nothing hline => exact hline.oneLine
  | entry leading isEntry trailing =>
    rw [String.toList_append, String.toList_append]
    exact List.not_mem_append (List.not_mem_append leading.oneLine isEntry.oneLine)
      trailing.oneLine

/-- What a line holds is kept of it. -/
theorem remembered_eq (h : LineHolds line entries) : remembered [line] = entries := by
  cases h with
  | nothing hline =>
    simp [remembered, hline.blank.trim_eq]
  | entry leading isEntry trailing =>
    simp [remembered, Text.trim_padded leading.blank trailing.blank, isEntry.trimmed.trim_eq,
      isEntry.ne_empty]

end LineHolds

/-- A line holds what is kept of it. -/
theorem lineHolds_remembered {line : String} (h : '\n' ∉ line.toList) :
    LineHolds line (remembered [line]) := by
  obtain ⟨before, after, hbefore, hafter, hline⟩ := Text.exists_padding line
  have hparts : '\n' ∉ (before ++ Text.trim line ++ after).toList := hline ▸ h
  simp only [String.toList_append, List.mem_append, not_or] at hparts
  obtain ⟨⟨hfront, hinside⟩, hback⟩ := hparts
  have hleading : IsPadding before := ⟨hbefore, hfront⟩
  have htrailing : IsPadding after := ⟨hafter, hback⟩
  by_cases hempty : Text.trim line = ""
  · have hnothing : remembered [line] = [] := by simp [remembered, hempty]
    rw [hempty, String.append_empty] at hline
    rw [hnothing, hline]
    exact .nothing (hleading.append htrailing)
  · have hkept : remembered [line] = [Text.trim line] := by simp [remembered, hempty]
    have hholds := LineHolds.entry hleading ⟨hempty, Text.isTrimmed_trim line, hinside⟩ htrailing
    rwa [← hline, ← hkept] at hholds

/-- What is kept of lines without line feeds are entries. -/
theorem isEntry_of_mem_remembered {lines : List String}
    (h : ∀ line ∈ lines, '\n' ∉ line.toList) : ∀ entry ∈ remembered lines, IsEntry entry := by
  induction lines with
  | nil => exact fun _ hmem => absurd hmem List.not_mem_nil
  | cons line rest ih =>
    obtain ⟨hline, hrest⟩ := List.forall_mem_cons.mp h
    intro entry hmem
    rw [← List.singleton_append, remembered_append] at hmem
    exact (List.mem_append.mp hmem).elim ((lineHolds_remembered hline).isEntry entry)
      (ih hrest entry)

/-! ## Texts -/

/-- A carriage return at the end of a line is a blank like any other. -/
theorem Text.trim_dropReturn (line : List Char) :
    trim (String.ofList (dropReturn line)) = trim (String.ofList line) := by
  rw [dropReturn]
  split
  next hlast =>
    obtain ⟨front, rfl⟩ := List.getLast?_eq_some_iff.mp hlast
    have hreturn : String.ofList ['\r'] = "\r" := by decide
    rw [List.dropLast_concat, String.ofList_append, hreturn]
    have hpadded :=
      trim_padded isPadding_empty.blank isPadding_return.blank (String.ofList front)
    rw [String.empty_append] at hpadded
    exact hpadded.symm
  next => rfl

/-- A loaded history has what is kept of the pieces between the line feeds. -/
theorem toList_ofText (text : String) :
    (History.ofText text).toList =
      remembered ((Text.pieces '\n' text.toList).map String.ofList) := by
  have hlines : (History.ofText text).toList =
      remembered ((Text.lines text.toList).map String.ofList) := by
    simp only [History.ofText, History.toList, remembered, List.map_map, Function.comp_def]
  have hreturns (ended : List (List Char)) :
      remembered ((ended.map Text.dropReturn).map String.ofList) =
        remembered (ended.map String.ofList) := by
    simp only [remembered, List.map_map, Function.comp_def, Text.trim_dropReturn]
  obtain ⟨ended, last, hpieces⟩ :=
    (List.eq_nil_or_concat (Text.pieces '\n' text.toList)).resolve_left (Text.pieces_ne_nil _ _)
  rw [hlines, Text.lines, hpieces, List.concat_eq_append, List.getLast?_concat,
    List.dropLast_concat]
  -- the line behind the last line feed counts only if there is something on it
  cases last with
  | nil =>
    dsimp only
    rw [hreturns, List.map_append, remembered_append]
    exact (List.append_nil _).symm
  | cons c rest =>
    dsimp only
    rw [List.map_append, List.map_append, remembered_append, remembered_append, hreturns]

/-- The history of a text without line feeds. -/
theorem toList_ofText_last {line : String} (h : '\n' ∉ line.toList) :
    (History.ofText line).toList = remembered [line] := by
  rw [toList_ofText, Text.pieces_of_notMem h, List.map_singleton, String.ofList_toList]

/-- The history of a text with a line in front. -/
theorem toList_ofText_line {line : String} (h : '\n' ∉ line.toList) (rest : String) :
    (History.ofText (line ++ "\n" ++ rest)).toList =
      remembered [line] ++ (History.ofText rest).toList := by
  have hfeed : (line ++ "\n" ++ rest).toList = line.toList ++ '\n' :: rest.toList := by simp
  rw [toList_ofText, hfeed, Text.pieces_append_separator, List.map_append, remembered_append,
    ← toList_ofText rest, Text.pieces_of_notMem h, List.map_singleton, String.ofList_toList]

namespace HoldsEntries

variable {text : String} {entries : List String}

/-- What a text holds are entries. -/
theorem isEntry (h : HoldsEntries text entries) : ∀ entry ∈ entries, IsEntry entry := by
  induction h with
  | last holds => exact holds.isEntry
  | line holds ending more ih =>
    intro entry hmem
    exact (List.mem_append.mp hmem).elim (holds.isEntry entry) (ih entry)

/-- What a text holds is loaded. -/
theorem toList_ofText_eq (h : HoldsEntries text entries) :
    (History.ofText text).toList = entries := by
  induction h with
  | last holds => rw [toList_ofText_last holds.oneLine, holds.remembered_eq]
  | @line line rest entries others holds ending more ih =>
    cases ending with
    | lineFeed =>
      rw [LineEnd.text, toList_ofText_line holds.oneLine, holds.remembered_eq, ih]
    | returnAndFeed =>
      have hfeed : LineEnd.returnAndFeed.text = "\r" ++ "\n" := by decide
      have hline := holds.append_padding isPadding_return
      rw [hfeed, ← String.append_assoc, toList_ofText_line hline.oneLine, hline.remembered_eq, ih]

end HoldsEntries

/-- A text holds what is loaded. -/
theorem holdsEntries_ofText (text : String) : HoldsEntries text (History.ofText text).toList := by
  -- The recursion is on the text behind the first line feed, as far as there is one.
  by_cases hfeed : '\n' ∈ text.toList
  · obtain ⟨front, back, hchars, hfront⟩ := List.eq_append_cons_of_mem hfeed
    have htext : text = String.ofList front ++ "\n" ++ String.ofList back :=
      String.toList_injective (by simp [hchars])
    have hline : '\n' ∉ (String.ofList front).toList := by rwa [String.toList_ofList]
    have hrest := holdsEntries_ofText (String.ofList back)
    rw [htext, toList_ofText_line hline]
    exact .line (lineHolds_remembered hline) .lineFeed hrest
  · rw [toList_ofText_last hfeed]
    exact .last (lineHolds_remembered hfeed)
termination_by text.toList.length
decreasing_by
  rw [hchars, String.toList_ofList, List.length_append, List.length_cons]
  omega

/-- The entries that a text holds are those of the history that is loaded. -/
theorem holdsEntries_iff {text : String} {entries : List String} :
    HoldsEntries text entries ↔ (History.ofText text).toList = entries :=
  ⟨HoldsEntries.toList_ofText_eq, fun h => h ▸ holdsEntries_ofText text⟩

/-- The entries of a loaded history. -/
theorem isEntry_ofText (text : String) : ∀ entry ∈ (History.ofText text).toList, IsEntry entry :=
  (holdsEntries_ofText text).isEntry

/-- Entries with a line feed behind each of them are a text that holds them. -/
theorem holdsEntries_join {entries : List String} (h : ∀ entry ∈ entries, IsEntry entry) :
    HoldsEntries (String.join (entries.map (· ++ "\n"))) entries := by
  induction entries with
  | nil => exact .last (.nothing isPadding_empty)
  | cons entry rest ih =>
    obtain ⟨hentry, hrest⟩ := List.forall_mem_cons.mp h
    rw [List.map_cons, String.join_cons]
    exact .line hentry.lineHolds .lineFeed (ih hrest)

namespace History

/-- Histories with the same entries are the same. -/
theorem eq_of_toList_eq {h other : History} (heq : h.toList = other.toList) : h = other := by
  obtain ⟨entries⟩ := h
  obtain ⟨others⟩ := other
  exact congrArg History.mk (Array.toList_inj.mp heq)

/-- A history comes back exactly if it could have been loaded. -/
theorem reloads_iff (h : History) : h.Reloads ↔ ∀ entry ∈ h.toList, IsEntry entry := by
  refine ⟨fun hreloads => hreloads.written.isEntry, fun hentries => ?_⟩
  have hloaded : ∀ text, HoldsEntries text h.toList → ofText text = h :=
    fun text htext => eq_of_toList_eq htext.toList_ofText_eq
  exact ⟨holdsEntries_join hentries, hloaded, fun text htext limit => by rw [hloaded text htext]⟩

end History

/-- The program begins without a history, or with the one that it loads. The bytes of a text in the
file that the variable HISTFILE names are always loaded. -/
theorem history_loadHistory (log : Log) (bindings : List (String × String)) (directory : Path)
    (m : Machine) :
    let env := Environment.initial bindings directory
    let loaded := (Program.loadHistory log env m).1.history
    loaded.IsPast ∧ ∀ file text, env.get? "HISTFILE" = some file →
      m.files.read m.workingDirectory ⟨file⟩ = .ok text.toUTF8 → loaded = .ofText text := by
  intro env loaded
  constructor
  · show History.IsPast (Program.loadHistory log env m).1.history
    rw [Program.loadHistory]
    split
    · exact .inl rfl
    · split
      · exact .inr ⟨_, rfl⟩
      · exact .inl rfl
  · intro file text hfile hbytes
    have htext : m.readText ⟨file⟩ = .ok text := by
      rw [Machine.readText, FileSystem.readText, hbytes]
      dsimp only
      rw [Text.fromUTF8?_eq_some_iff.mpr rfl]
    show (Program.loadHistory log env m).1.history = .ofText text
    simp only [Program.loadHistory, hfile, htext]

/-! ## Sessions -/

section

variable {σ η : Type}

/-- The lines that the loop of a shell reads, up to the one after which it does not go on. -/
def Shell.linesRead (host : Host σ η) (factories : List (Factory σ η))
    (nextLine : σ → LineRead × σ) : Nat → Shell σ → List String
  | 0, _ => []
  | lines + 1, sh =>
    match (nextLine sh.system).1 with
    | .endOfInput | .unreadable => []
    | .line text =>
      let taken := sh.takeLine host factories nextLine text
      let goesOn := taken.1 && taken.2.env.exitRequest.isNone
      text :: if goesOn then taken.2.linesRead host factories nextLine lines else []

/-- The loop of a shell leaves the history with what is kept of the lines that it has read. -/
theorem history_loop {host : Host σ η} {factories : List (Factory σ η)}
    (hfactories : LeaveAlone host factories fun sh : Shell σ => sh.env.history)
    (nextLine : σ → LineRead × σ) (n : Nat) (sh : Shell σ) :
    (sh.loop host factories nextLine n).2.env.history.toList =
      sh.env.history.toList ++ remembered (sh.linesRead host factories nextLine n) := by
  induction n generalizing sh with
  | zero => exact (List.append_nil _).symm
  | succ n ih =>
    rw [Shell.linesRead]
    cases hread : (nextLine sh.system).1 with
    | endOfInput =>
      rw [loop_endOfInput host factories hread]
      exact (List.append_nil _).symm
    | unreadable =>
      rw [loop_unreadable host factories hread]
      exact (List.append_nil _).symm
    | line text =>
      have hline := (lineRun_takeLine host factories nextLine text sh).history_eq hfactories
      rw [Shell.env_read] at hline
      rw [loop_line host factories hread]
      rcases htaken : sh.takeLine host factories nextLine text with ⟨returns, after⟩
      simp only [htaken] at hline ⊢
      cases returns with
      | false => exact hline
      | true =>
        cases hrequest : after.env.exitRequest with
        | some code => exact hline
        | none =>
          simp only [Option.elim_none, Option.isNone_none, Bool.and_self, if_true]
          rw [ih, hline, List.append_assoc, ← remembered_append, List.singleton_append]

/-- A history comes back when lines without line feeds have been added to one that was loaded. -/
theorem reloads_of_toList_eq {h past : History} {lines : List String} (hpast : past.IsPast)
    (hlines : ∀ line ∈ lines, '\n' ∉ line.toList)
    (heq : h.toList = past.toList ++ remembered lines) : h.Reloads := by
  have hentries : ∀ entry ∈ past.toList, IsEntry entry := by
    rcases hpast with rfl | ⟨text, rfl⟩
    · exact fun _ hmem => absurd hmem List.not_mem_nil
    · exact isEntry_ofText text
  rw [History.reloads_iff, heq]
  intro entry hmem
  exact (List.mem_append.mp hmem).elim (hentries entry) (isEntry_of_mem_remembered hlines entry)

/-- A loaded history has the entries that the text holds, line by line, and they are texts on one
line without blanks at their ends. The histories that come back from each text that holds their
entries are those with such entries only. Among them are the loaded ones, so that writing and
loading them again changes nothing, and those of all sessions that begin without a history or with a
loaded one and read lines without line feeds. The program begins like this, and loads the history
whenever the file holds the bytes of a text. -/
theorem savedHistory_reloads (host : Host σ η) (nextLine : σ → LineRead × σ) :
    (∀ text, ∀ entry ∈ (History.ofText text).toList, IsEntry entry) ∧
      (∀ text entries, HoldsEntries text entries ↔ (History.ofText text).toList = entries) ∧
      (∀ h : History, h.Reloads ↔ ∀ entry ∈ h.toList, IsEntry entry) ∧
      (∀ text, History.ofText (History.ofText text).written = History.ofText text) ∧
      (∀ log bindings directory m,
        let env := Environment.initial bindings directory
        let loaded := (Program.loadHistory log env m).1.history
        loaded.IsPast ∧ ∀ file text, env.get? "HISTFILE" = some file →
          m.files.read m.workingDirectory ⟨file⟩ = .ok text.toUTF8 → loaded = .ofText text) ∧
      ∀ sh : Shell σ, sh.env.history.IsPast →
        (∀ n, (∀ line ∈ sh.linesRead host (standardFactories host) nextLine n,
            '\n' ∉ line.toList) →
          (sh.loop host (standardFactories host) nextLine n).2.env.history.Reloads) ∧
        ∀ lines : List String, (∀ line ∈ lines, '\n' ∉ line.toList) →
          (Shell.executeLines host (standardFactories host) lines sh).2.env.history.Reloads := by
  refine ⟨isEntry_ofText, fun text entries => holdsEntries_iff, History.reloads_iff,
    fun text => ?_, history_loadHistory,
    fun sh hpast => ⟨fun n hlines => ?_, fun lines hlines => ?_⟩⟩
  · have hreloads := (History.reloads_iff _).mpr (isEntry_ofText text)
    exact hreloads.loaded _ hreloads.written
  · exact reloads_of_toList_eq hpast hlines (history_loop (fun _ h => .inl h) nextLine n sh)
  · exact reloads_of_toList_eq hpast hlines (history_executeLines host lines sh)

end

/-- A shell at a typewriter with a loaded history and three lines to be read: one that cannot be
split into tokens, a blank one, and a request to leave the shell. -/
def returningTypist : Shell (List String × ByteArray) :=
  ⟨{ Environment.initial [] ⟨"/"⟩ with history := .ofText "ls\r\n\n  pwd" },
    ["  echo \x27a ", "", "exit 3"], .empty⟩

/-- The history of a session comes back from a text with other blanks and other ends of lines, and a
file of one line is loaded. -/
theorem savedHistory_reloads_typed :
    let after := (returningTypist.loop typewriter (standardFactories typewriter) typedLine 4).2
    let bindings := [("HISTFILE", "/work/notes")]
    after.env.history = ⟨#["ls", "pwd", "echo \x27a", "exit 3"]⟩ ∧ after.env.history.Reloads ∧
      History.ofText "ls\n\tpwd\r\n \n\r\necho \x27a\n exit 3 " = after.env.history ∧
      (Program.loadHistory ⟨.warn, none⟩ (.initial bindings ⟨"/"⟩) noteMachine).1.history =
        ⟨#["old"]⟩ := by
  intro after bindings
  obtain ⟨-, hholds, -, -, hfiles, hsessions⟩ := savedHistory_reloads typewriter typedLine
  have hreloads : after.env.history.Reloads :=
    (hsessions returningTypist (.inr ⟨_, rfl⟩)).1 4 (by decide +kernel)
  have hhistory : after.env.history = ⟨#["ls", "pwd", "echo \x27a", "exit 3"]⟩ := by
    decide +kernel
  have hother : HoldsEntries "ls\n\tpwd\r\n \n\r\necho \x27a\n exit 3 "
      after.env.history.toList := by
    rw [hhistory, hholds]
    decide +kernel
  have hloaded := (hfiles ⟨.warn, none⟩ bindings ⟨"/"⟩ noteMachine).2 "/work/notes" "old\n"
    (by decide +kernel) (by decide +kernel)
  have hold : History.ofText "old\n" = ⟨#["old"]⟩ := by decide +kernel
  exact ⟨hhistory, hreloads, hreloads.loaded _ hother, hloaded.trans hold⟩

end LineShell
