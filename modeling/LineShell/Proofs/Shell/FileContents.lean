import LineShell.Proofs.Machine.Files
import LineShell.Proofs.Shell.Classification
import LineShell.Proofs.Shell.Stages
import LineShell.Proofs.Shell.Trimming

/-!
# The contents of files over a run

Running lines that call echo does to the files and to the terminal what the ledger of these lines
says.
-/

namespace LineShell

section

variable {σ η κ : Type} [DecidableEq κ]

/-- The results of lines that a shell runs one after the other, and the shell afterwards. -/
def Shell.executeLines (host : Host σ η) (factories : List (Factory σ η)) :
    List String → Shell σ → List (Except LineError ExitCode) × Shell σ
  | [], sh => ([], sh)
  | text :: rest, sh =>
    match sh.executeLine host factories text with
    | (result, sh) =>
      match executeLines host factories rest sh with
      | (results, sh) => (result :: results, sh)

/-! ## Running lines -/

/-- A call of echo that is a pipeline of its own is done when its line is written, and then its
files are closed. A request to leave the shell that has been pending gives the code. -/
theorem runStages_echo {host : Host σ η} {files : OutputFiles η} {words : List String}
    (sh : Shell σ) {s' : σ}
    (h : host.write (files.stdout.getD host.terminal.stdout)
      ((String.join words).push '\n').toUTF8 sh.system = (.ok (), s')) :
    runStages host files [⟨"echo", Builtin.echo.command host words⟩] sh =
      (.ok (sh.env.exitRequest.getD 0), ⟨sh.env, host.closeAll files.toList s'⟩) := by
  have hstart := Builtin.start_echo ⟨host.terminal.stdin,
    files.stdout.getD host.terminal.stdout, files.stderr.getD host.terminal.stderr⟩ sh.env h
  exact runStages_single hstart

namespace Host.Stores

variable {host : Host σ η} {directory : Path} (stores : host.Stores directory κ)

/-- After a pipeline that consists of a call of echo with redirections of its standard output, the
files are as the ledger of the line says. -/
theorem executePipeline_echo {line : EchoLine}
    (hplain : ∀ r ∈ line.redirections, stores.plain r.2) (sh : Shell σ)
    (hvalid : stores.valid sh.system) (hdirectory : sh.env.currentDirectory = directory) :
    ∃ s', sh.executePipeline host (standardFactories host)
        ⟨[⟨"echo", line.words.intersperse " ",
          line.redirections.map fun r => ⟨r.1, .stdout, ⟨r.2⟩⟩⟩]⟩ =
          (.ok (sh.env.exitRequest.getD 0), ⟨sh.env, s'⟩) ∧
      stores.valid s' ∧ stores.ledger s' = line.applyTo stores.file (stores.ledger sh.system) := by
  obtain ⟨files, opened, hopen, hopened, hledger, hleads⟩ :=
    stores.openRedirections_leadsTo hplain hvalid
      (show stores.LeadsTo sh.system .none none from ⟨rfl, trivial⟩)
  rw [Option.or_none] at hleads
  obtain ⟨written, hwrite, hwritten, hwrites⟩ :=
    stores.write_leadsTo hopened hleads line.output
  obtain ⟨hclosed, hkept⟩ := stores.valid_closeAll hwritten files.toList
  refine ⟨host.closeAll files.toList written, ?_, hclosed, ?_⟩
  · rw [EchoLine.output, ← join_intersperse] at hwrite
    rw [← hdirectory] at hopen
    have hrun := runStages_echo ⟨sh.env, opened⟩ hwrite
    simp only [Shell.executePipeline, Pipeline.last?, List.getLast?_singleton, hopen]
    exact hrun
  · rw [hkept, hwrites, hledger]
    rfl

/-- After a line that calls echo, the files are as the ledger of the line says. -/
theorem executeLine_echo {line : EchoLine} (hplain : ∀ r ∈ line.redirections, stores.plain r.2)
    (sh : Shell σ) (hvalid : stores.valid sh.system)
    (hdirectory : sh.env.currentDirectory = directory) :
    ∃ s', sh.executeLine host (standardFactories host) line.text =
        (.ok (sh.env.exitRequest.getD 0), ⟨(sh.remember (Text.trim line.text)).env, s'⟩) ∧
      stores.valid s' ∧ stores.ledger s' = line.applyTo stores.file (stores.ledger sh.system) := by
  rw [line.denotes.executeLine_eq]
  exact stores.executePipeline_echo hplain (sh.remember (Text.trim line.text)) hvalid hdirectory

/-- After lines that call echo, the files are as the ledger of the lines says. -/
theorem executeLines_applyAll {lines : List EchoLine}
    (hplain : ∀ line ∈ lines, ∀ r ∈ line.redirections, stores.plain r.2) (sh : Shell σ)
    (hvalid : stores.valid sh.system) (hdirectory : sh.env.currentDirectory = directory) :
    (Shell.executeLines host (standardFactories host) (lines.map EchoLine.text) sh).1 =
        lines.map (fun _ => .ok (sh.env.exitRequest.getD 0)) ∧
      stores.ledger
          (Shell.executeLines host (standardFactories host) (lines.map EchoLine.text) sh).2.system =
        EchoLine.applyAll stores.file lines (stores.ledger sh.system) := by
  induction lines generalizing sh with
  | nil => exact ⟨rfl, rfl⟩
  | cons line rest ih =>
    obtain ⟨hline, hrest⟩ := List.forall_mem_cons.mp hplain
    obtain ⟨s', hexecuted, hvalid', hledger⟩ :=
      stores.executeLine_echo hline sh hvalid hdirectory
    obtain ⟨hresults, hfinal⟩ :=
      ih hrest ⟨(sh.remember (Text.trim line.text)).env, s'⟩ hvalid' hdirectory
    simp only [List.map_cons, Shell.executeLines, hexecuted]
    refine ⟨congrArg _ hresults, hfinal.trans ?_⟩
    rw [EchoLine.applyAll_cons, ← hledger]

end Host.Stores

/-! ## A shell that takes notes -/

/-- A directory with two files, and the file that stands for the terminal. -/
def noteFiles : FileSystem :=
  ⟨#[.directory [("work", 1)], .directory [("notes", 2), ("kept", 3)],
    .file "old\n".toUTF8 false, .file "safe\n".toUTF8 false, .file .empty false]⟩

/-- Two names in the directory, of which one is not there yet. -/
def notePlaces : FileSystem.OutputPlaces :=
  ⟨⟨"/work"⟩, 1, fun name => name = "notes" ∨ name = "log", 4⟩

/-- A terminal whose output is left in a file. -/
def noteTerminal : Streams Handle := ⟨0, 1, 1⟩

/-- A machine with the files and the terminal. -/
def noteMachine : Machine :=
  { Machine.ofFiles noteFiles [] with streams := #[.device .null .read, .file 4 0 .append] }

/-- A line whose reading has been computed. -/
def EchoLine.ofParsed (text : String) (words : List String)
    (redirections : List (RedirectMode × String))
    (h : (parseLine (Text.trim text)).toOption = some ⟨[⟨"echo", words.intersperse " ",
      redirections.map fun redirection => ⟨redirection.1, .stdout, ⟨redirection.2⟩⟩⟩]⟩) :
    EchoLine :=
  ⟨text, words, redirections, parseLine_eq_ok_iff.mp (parseLine_eq_ok_of_toOption h)⟩

/-- Lines that empty one file and later the other, and add to both. -/
def noteLines : List EchoLine :=
  [.ofParsed "echo a > log" ["a"] [(.truncate, "log")] (by decide +kernel),
    .ofParsed "echo b  b >> notes" ["b", "b"] [(.append, "notes")] (by decide +kernel),
    .ofParsed "echo > notes c >> log" ["c"] [(.truncate, "notes"), (.append, "log")]
      (by decide +kernel),
    .ofParsed "echo hi" ["hi"] [] (by decide +kernel)]

/-- Output can be left in the directory. -/
theorem holds_noteFiles : noteFiles.Holds [] notePlaces where
  separate := FileSystem.separate_of_nodup (by decide +kernel) (by decide +kernel)
  reached := ⟨[("work", 1)], 40, by decide +kernel, rfl, by decide +kernel⟩
  isSome_entries := by decide +kernel
  regular := by
    intro name id _ hchild
    have hfiles : ∀ entry ∈ noteFiles.allEntries, entry.1 = 1 →
        (noteFiles.data? entry.2.2).isSome := by decide +kernel
    exact hfiles _ (FileSystem.mem_allEntries hchild) rfl
  isSome_terminal := by decide +kernel
  hidden := by
    intro directory name hchild
    have hfiles : ∀ entry ∈ noteFiles.allEntries, entry.2.2 ≠ 4 := by decide +kernel
    exact hfiles _ (FileSystem.mem_allEntries hchild) rfl

/-- A shell can run on the machine. -/
theorem keeps_noteMachine : noteMachine.Keeps noteTerminal notePlaces :=
  ⟨rfl, holds_noteFiles, 0, .append, .empty, rfl, rfl, .inl rfl⟩

/-- The lines open files of the directory. -/
theorem plain_noteLines : ∀ line ∈ noteLines, ∀ r ∈ line.redirections,
    FileSystem.FileName notePlaces.directory r.2 ∧ notePlaces.names r.2 := by
  have hname (name : String) (h : name = "notes" ∨ name = "log") :
      FileSystem.FileName notePlaces.directory name ∧ notePlaces.names name := by
    refine ⟨?_, h⟩
    rcases h with rfl | rfl <;>
      exact ⟨by decide, by decide, by decide, by decide, by decide, by decide +kernel⟩
  have hnames : ∀ line ∈ noteLines, ∀ r ∈ line.redirections, r.2 = "notes" ∨ r.2 = "log" := by
    decide +kernel
  exact fun line hline r hr => hname _ (hnames line hline r hr)

/-- When lines that call echo run one after the other, all of them end with the code 0, or with that
of a request to leave the shell which has been pending. The files and the terminal hold what the
ledger of the lines says: a file that no line names is as it was, a file that lines empty holds the
outputs directed to it since the last of these lines, any other file gets the outputs directed to it
added, and so does the terminal. -/
theorem executeLines_contents {host : Host σ η} {directory : Path}
    (stores : host.Stores directory κ) {lines : List EchoLine}
    (hplain : ∀ line ∈ lines, ∀ r ∈ line.redirections, stores.plain r.2) (sh : Shell σ)
    (hvalid : stores.valid sh.system) (hdirectory : sh.env.currentDirectory = directory) :
    let run := Shell.executeLines host (standardFactories host) (lines.map EchoLine.text) sh
    let before := stores.ledger sh.system
    let after := stores.ledger run.2.system
    run.1 = lines.map (fun _ => .ok (sh.env.exitRequest.getD 0)) ∧
      after = EchoLine.applyAll stores.file lines before ∧
      (∀ k, (∀ line ∈ lines, ¬line.Names stores.file k) → after.files k = before.files k) ∧
      (∀ k earlier line later, lines = earlier ++ line :: later →
        line.Truncates stores.file k → (∀ other ∈ later, ¬other.Truncates stores.file k) →
        after.files k = some (EchoLine.outputsTo stores.file (some k) (line :: later))) ∧
      (∀ k, (∃ line ∈ lines, line.Names stores.file k) →
        (∀ line ∈ lines, ¬line.Truncates stores.file k) →
        after.files k = some ((before.files k).getD .empty ++
          EchoLine.outputsTo stores.file (some k) lines)) ∧
      after.terminal = before.terminal ++ EchoLine.outputsTo stores.file none lines := by
  intro run before after
  obtain ⟨hresults, hafter⟩ := stores.executeLines_applyAll hplain sh hvalid hdirectory
  have hledger : after = EchoLine.applyAll stores.file lines before := hafter
  refine ⟨hresults, hledger, fun k hunnamed => ?_, ?_, fun k hnamed hkept => ?_, ?_⟩
  · rw [hledger, EchoLine.applyAll_of_not_names hunnamed]
  · rintro k earlier line later rfl hline hlater
    rw [hledger, EchoLine.applyAll_of_truncates hline hlater]
  · have hthere := (EchoLine.isSome_applyAll lines k before).mpr (.inr hnamed)
    obtain ⟨contents, hcontents⟩ := Option.isSome_iff_exists.mp hthere
    have hadded := EchoLine.getD_applyAll hkept before
    rw [hcontents, Option.getD_some] at hadded
    rw [hledger, hcontents, hadded]
  · rw [hledger, EchoLine.terminal_applyAll]

/-- The first file has been emptied since it was added to, the second one holds two outputs, and a
file that no line names is as it was. -/
theorem executeLines_contents_notes :
    let run := Shell.executeLines (Machine.host noteTerminal)
      (standardFactories (Machine.host noteTerminal))
      ["echo a > log", "echo b  b >> notes", "echo > notes c >> log", "echo hi"]
      ⟨.initial [] ⟨"/work"⟩, noteMachine⟩
    let after := Machine.ledger notePlaces run.2.system
    run.1 = [.ok 0, .ok 0, .ok 0, .ok 0] ∧ after.files (1, "log") = some "a\nc\n".toUTF8 ∧
      after.files (1, "notes") = some .empty ∧ after.files (1, "kept") = some "safe\n".toUTF8 ∧
      after.terminal = "hi\n".toUTF8 := by
  intro run after
  obtain ⟨hresults, hledger, -, -, -, hterminal⟩ :=
    executeLines_contents (Machine.stores noteTerminal notePlaces) plain_noteLines
      ⟨.initial [] ⟨"/work"⟩, noteMachine⟩ keeps_noteMachine rfl
  have hafter : after = EchoLine.applyAll (fun name => (1, name)) noteLines
      (Machine.ledger notePlaces noteMachine) := hledger
  refine ⟨hresults, ?_, ?_, ?_, hterminal.trans (by decide +kernel)⟩
  · rw [hafter]
    decide +kernel
  · rw [hafter]
    decide +kernel
  · rw [hafter]
    decide +kernel

end

end LineShell
