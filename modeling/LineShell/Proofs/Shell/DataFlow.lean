import LineShell.Proofs.Shell.Phases
import LineShell.Proofs.Shell.Plumbing
import Mathlib.Data.List.Basic

/-!
# The flow of data through a pipeline

On a system of queues the first stage of a pipeline reads the terminal, and each further stage reads
exactly what the stage before it has written to its standard output. Only the last stage writes to
the standard output of the pipeline. So a stage that copies its input can be put between two stages,
and nobody can tell.
-/

namespace LineShell

/-- The stages of a pipeline of transducers, each with its input and what it yields. -/
def flow : List Transducer → ByteArray → Environment → List (ByteArray × Yield)
  | [], _, _ => []
  | transducer :: rest, input, env =>
    let yield := transducer input env
    (input, yield) :: flow rest yield.stdout yield.env

/-- What a stage in front of others writes to the terminal, and what the shell reports of it. -/
def Yield.complaints (yield : Yield) : List (Channel × ByteArray) :=
  [(.terminalErr, yield.stderr), (.terminalErr, yield.report)]

/-- What the stages of a pipeline write to other streams than pipes, and what the shell reports of
them. The standard output and the standard error of the last stage go to its files, where there are
any. -/
def outputs (files : OutputFiles Channel) : List Yield → List (Channel × ByteArray)
  | [] => []
  | [last] =>
    [(files.stdout.getD .terminalOut, last.stdout), (files.stderr.getD .terminalErr, last.stderr),
      (.terminalErr, last.report)]
  | yield :: rest => yield.complaints ++ outputs files rest

/-- Output streams are replaced by files and by nothing else. -/
def OutputFiles.AreFiles (files : OutputFiles Channel) : Prop :=
  ∀ channel ∈ files.toList, ∃ number, channel = .file number

/-- Redirections with a file for each of them, numbered from the given one on. -/
def numberFiles (first : Nat) (redirections : List Redirection) : List (Redirection × Channel) :=
  (redirections.zipIdx first).map fun file => (file.1, .file file.2)

/-- The files of a pipeline when all redirections of its last stage are opened: one for each of
them, numbered from the given one on. Each output goes to the last file that is meant for it. -/
def Pipeline.redirected (p : Pipeline) (first : Nat) : OutputFiles Channel :=
  let files := numberFiles first (p.last?.elim [] Segment.redirections)
  ⟨lastFile files .stdout, lastFile files .stderr⟩

/-- What a stage can read when it is started. -/
def StageEntry.offered (entry : StageEntry Plumbing Channel) : Option ByteArray :=
  entry.shell.system.offered entry.streams.stdin

namespace Plumbing

/-- The state after a stage has written what it yields. It may have read its input or not. -/
def deliver (s : Plumbing) (channels : Streams Channel) (yield : Yield) (spent : Bool) : Plumbing :=
  ((s.setSpent channels.stdin spent).put channels.stdout yield.stdout).put channels.stderr
    yield.stderr

/-- A stream can be read to its end, and it is no pipe that is still to be made. -/
structure Ready (s : Plumbing) (stdin : Channel) (input : ByteArray) : Prop where
  offered_eq : s.offered stdin = some input
  lt_pipes : ∀ pipe, stdin = .reading pipe → pipe < s.pipes

/-- The stages that a tracer noted are the given ones, the first of them reading the given stream,
and all streams have gained what the stages write. -/
structure Flowed (files : OutputFiles Channel) (stdin : Channel) (s s' : Plumbing)
    (stages : List (ByteArray × Yield)) (trace : List (ShellEvent Plumbing Channel)) : Prop where
  offered_eq : (startedStages trace).map StageEntry.offered = stages.map (some ·.1)
  stdin_eq : ∀ entry ∈ (startedStages trace).head?, entry.streams.stdin = stdin
  gains : s.Gains (outputs files (stages.map Prod.snd)) s'

end Plumbing

/-! ## One stage -/

open Plumbing

variable {openable : RedirectMode → Path → Except SystemError Unit}
  {resolve : Environment → String → List String → Option Transducer}

/-- The commands of a pipeline of transducers. -/
def transducerCommand (openable : RedirectMode → Path → Except SystemError Unit)
    (resolve : Environment → String → List String → Option Transducer) (sh : Shell Plumbing)
    (segment : Segment) : Command Plumbing Channel :=
  Command.create (plumbing openable) [transducerFactory resolve] sh.env sh.system segment.name
    segment.args

/-- A yield settles as a stage that is finished. -/
theorem settled?_outcome {σ : Type} (yield : Yield) :
    settled? (yield.outcome : Except StartError (Started σ)) = some (.finished yield.code) := by
  unfold Yield.outcome Yield.code
  cases yield.result <;> rfl

/-- The failure of a stage is reported on the terminal. -/
theorem reportFailure_outcome (yield : Yield) (s : Plumbing) :
    reportFailure (plumbing openable) yield.outcome s = s.put .terminalErr yield.report := by
  unfold Yield.outcome Yield.report
  cases yield.result with
  | ok code => exact (put_empty s .terminalErr).symm
  | error text => rfl

/-- Whether a stream takes bytes does not depend on what has been read and written. -/
theorem takes_congr {s s' : Plumbing} (h : s'.closed = s.closed) (channel : Channel) :
    s'.takes channel = s.takes channel := by
  cases channel <;> simp only [takes, h]

/-- A stage writes what its transducer yields on the input that it is offered. -/
theorem start_create (openable : RedirectMode → Path → Except SystemError Unit)
    (resolve : Environment → String → List String → Option Transducer) (origin : Shell Plumbing)
    (segment : Segment) (channels : Streams Channel) {s : Plumbing} {input : ByteArray}
    (env : Environment)
    (hinput : s.offered channels.stdin = some input) (hstdout : s.takes channels.stdout = true)
    (hstderr : s.takes channels.stderr = true) :
    let yield := transducerOf resolve origin.env segment input env
    ∃ spent,
      (transducerCommand openable resolve origin segment).start channels env s =
        (yield.outcome, yield.env, s.deliver channels yield spent) := by
  intro yield
  cases hresolve : resolve origin.env segment.name segment.args with
  | some transducer =>
    have hyield : yield = transducer input env := by
      simp only [yield, transducerOf, hresolve, Option.getD_some]
    have hcreate : transducerCommand openable resolve origin segment = transducer.command := by
      simp only [transducerCommand, Command.create, transducerFactory, List.findSome?_cons,
        hresolve, Option.map_some]
    have hfirst : (s.setSpent channels.stdin true).takes channels.stdout = true :=
      (takes_congr rfl _).trans hstdout
    have hsecond : ((s.setSpent channels.stdin true).put channels.stdout
        (transducer input env).stdout).takes channels.stderr = true :=
      (takes_congr rfl _).trans hstderr
    refine ⟨true, ?_⟩
    rw [hcreate, hyield]
    simp only [Transducer.command, hinput, write_of_takes hfirst, write_of_takes hsecond, deliver]
  | none =>
    have hyield : yield = Transducer.unresolved segment.name input env := by
      simp only [yield, transducerOf, hresolve, Option.getD_none]
    have hcreate : transducerCommand openable resolve origin segment =
        Command.unresolved (plumbing openable) segment.name := by
      simp only [transducerCommand, Command.create, transducerFactory, List.findSome?_cons,
        hresolve, Option.map_none, List.findSome?_nil]
    have hwrite (line : String) : (plumbing openable).writeLine channels.stderr line s =
        (.ok (), s.put channels.stderr (line.push '\n').toUTF8) := write_of_takes hstderr _
    refine ⟨s.spent channels.stdin, ?_⟩
    rw [hcreate, hyield]
    simp only [Command.unresolved, Command.endWith, hwrite, Transducer.unresolved, Yield.outcome,
      deliver, setSpent_self, put_empty]

/-- What a stage delivers is gained by the streams that it writes to. -/
theorem gains_deliver (s : Plumbing) (channels : Streams Channel) (yield : Yield) (spent : Bool) :
    s.Gains [(channels.stdout, yield.stdout), (channels.stderr, yield.stderr)]
      (s.deliver channels yield spent) :=
  (gains_put (s.setSpent channels.stdin spent) channels.stdout yield.stdout).trans
    (gains_put _ channels.stderr yield.stderr)

/-- What a stage delivers into a pipe is not gained by any other stream. -/
theorem gains_deliver_of_isPipeEnd (s : Plumbing) (channels : Streams Channel) (yield : Yield)
    (spent : Bool) (hpipe : channels.stdout.isPipeEnd = true) :
    s.Gains [(channels.stderr, yield.stderr)] (s.deliver channels yield spent) :=
  (gains_put_of_isPipeEnd (s.setSpent channels.stdin spent) yield.stdout hpipe).trans
    (gains_put _ channels.stderr yield.stderr)

/-- Closing streams only closes them. -/
theorem closeAll_plumbing (openable : RedirectMode → Path → Except SystemError Unit)
    (channels : List Channel) (s : Plumbing) :
    let after := (plumbing openable).closeAll channels s
    after.written = s.written ∧ after.spent = s.spent ∧ after.pipes = s.pipes := by
  induction channels generalizing s with
  | nil => exact ⟨rfl, rfl, rfl⟩
  | cons channel rest ih =>
    obtain ⟨hwritten, hspent, hpipes⟩ := ih (s.close channel)
    exact ⟨hwritten.trans (written_close s channel), hspent.trans (spent_close s channel),
      hpipes.trans (pipes_close s channel)⟩

/-- Closing streams brings nothing. -/
theorem gains_closeAll (channels : List Channel) (s : Plumbing) :
    s.Gains [] ((plumbing openable).closeAll channels s) :=
  .of_written_eq fun _ _ => by rw [(closeAll_plumbing openable channels s).1]

/-- A stage in front of others is started with a new pipe, into which it writes. -/
def innerChannels (s : Plumbing) (input : Option Channel) : Streams Channel :=
  ⟨input.getD .terminalIn, .writing s.pipes, .terminalErr⟩

/-- How a stage in front of others is connected. -/
theorem connect_inner (openable : RedirectMode → Path → Except SystemError Unit)
    (files : OutputFiles Channel) (input : Option Channel) (s : Plumbing) :
    connect (plumbing openable) files false input s =
      (⟨innerChannels s input, input.toList ++ [.writing s.pipes], some (.reading s.pipes)⟩,
        s.addPipe) := rfl

/-- The state after a stage in front of others: its writing end is closed, and so is the stream that
it has read. -/
def afterInner (openable : RedirectMode → Path → Except SystemError Unit) (s : Plumbing)
    (input : Option Channel) (yield : Yield) (spent : Bool) : Plumbing :=
  ((plumbing openable).closeAll (input.toList ++ [.writing s.pipes])
    (s.addPipe.deliver (innerChannels s input) yield spent)).put .terminalErr yield.report

/-- A stage in front of others brings the terminal its standard error and the report of it. -/
theorem gains_afterInner (s : Plumbing) (input : Option Channel) (yield : Yield) (spent : Bool) :
    s.Gains yield.complaints (afterInner openable s input yield spent) := by
  have hdeliver := gains_deliver_of_isPipeEnd s.addPipe (innerChannels s input) yield spent rfl
  exact (gains_addPipe s).trans (hdeliver.trans ((gains_closeAll _ _).trans (gains_put _ _ _)))

/-- After a stage in front of others, the next one can read what that stage has written. -/
theorem ready_afterInner {s : Plumbing} {input : Option Channel} {bytes : ByteArray}
    (h : s.Ready (input.getD .terminalIn) bytes) (yield : Yield) (spent : Bool) :
    (afterInner openable s input yield spent).Ready (.reading s.pipes) yield.stdout := by
  let delivered := s.addPipe.deliver (innerChannels s input) yield spent
  let closing := input.toList ++ [Channel.writing s.pipes]
  obtain ⟨hwrittenAfter, hspentAfter, hpipesAfter⟩ :=
    closeAll_plumbing openable closing delivered
  have hclosed : (afterInner openable s input yield spent).closed (.writing s.pipes) = true := by
    have hlast : (plumbing openable).closeAll closing delivered =
        ((plumbing openable).closeAll input.toList delivered).close (.writing s.pipes) :=
      List.foldl_append
    have hclose (t : Plumbing) : (t.close (.writing s.pipes)).closed (.writing s.pipes) = true :=
      Function.update_self _ _ _
    rw [afterInner, put, hlast]
    exact hclose _
  have hspent : (afterInner openable s input yield spent).spent (.reading s.pipes) = false := by
    have hne : Channel.reading s.pipes ≠ input.getD .terminalIn := fun heq =>
      Nat.lt_irrefl _ (h.lt_pipes s.pipes heq.symm)
    have hread : delivered.spent (.reading s.pipes) = s.addPipe.spent (.reading s.pipes) :=
      Function.update_of_ne hne _ _
    exact (congrFun hspentAfter _).trans (hread.trans (Function.update_self _ _ _))
  have hwritten :
      (afterInner openable s input yield spent).written (.writing s.pipes) = yield.stdout := by
    have hne : Channel.writing s.pipes ≠ .terminalErr := Channel.noConfusion
    have hreport : (afterInner openable s input yield spent).written (.writing s.pipes) =
        ((plumbing openable).closeAll closing delivered).written (.writing s.pipes) :=
      written_put_of_ne _ hne _
    have hstderr : delivered.written (.writing s.pipes) =
        (s.addPipe.put (.writing s.pipes) yield.stdout).written (.writing s.pipes) :=
      written_put_of_ne _ hne _
    have hnew : s.addPipe.written (.writing s.pipes) = .empty := Function.update_self _ _ _
    rw [hreport, hwrittenAfter, hstderr, written_put, Function.update_self, hnew,
      ByteArray.empty_append]
  constructor
  · simp only [offered, hclosed, hspent, hwritten, if_true, Bool.false_eq_true, if_false]
  · intro pipe hpipe
    obtain rfl := Channel.reading.inj hpipe
    have hpipes : (afterInner openable s input yield spent).pipes = s.pipes + 1 := hpipesAfter
    omega

/-- The streams of the last stage: its files, and the terminal where there are none. -/
def lastChannels (files : OutputFiles Channel) (input : Option Channel) : Streams Channel :=
  ⟨input.getD .terminalIn, files.stdout.getD .terminalOut, files.stderr.getD .terminalErr⟩

/-- How the last stage is connected. -/
theorem connect_last (openable : RedirectMode → Path → Except SystemError Unit)
    (files : OutputFiles Channel) (input : Option Channel) (s : Plumbing) :
    connect (plumbing openable) files true input s =
      (⟨lastChannels files input, input.toList ++ files.toList, none⟩, s) := rfl

/-- The state after the last stage. -/
def afterLast (openable : RedirectMode → Path → Except SystemError Unit)
    (files : OutputFiles Channel) (s : Plumbing) (input : Option Channel) (yield : Yield)
    (spent : Bool) : Plumbing :=
  ((plumbing openable).closeAll (input.toList ++ files.toList)
    (s.deliver (lastChannels files input) yield spent)).put .terminalErr yield.report

/-- The last stage brings its files, or the terminal, what it writes, and the terminal the report
of it. -/
theorem gains_afterLast (files : OutputFiles Channel) (s : Plumbing) (input : Option Channel)
    (yield : Yield) (spent : Bool) :
    s.Gains (outputs files [yield]) (afterLast openable files s input yield spent) :=
  (gains_deliver s (lastChannels files input) yield spent).trans
    ((gains_closeAll _ _).trans (gains_put _ _ _))

/-- A stream that can be read to its end can still be when a pipe is made. -/
theorem offered_addPipe {s : Plumbing} {stdin : Channel} {bytes : ByteArray}
    (h : s.Ready stdin bytes) : s.addPipe.offered stdin = some bytes := by
  rw [← h.offered_eq]
  cases stdin with
  | reading pipe =>
    have hne : pipe ≠ s.pipes := Nat.ne_of_lt (h.lt_pipes pipe rfl)
    simp [offered, addPipe, hne]
  | _ => rfl

/-- A stage of which an output may go to a file can write to it. -/
theorem takes_getD (s : Plumbing) {file : Option Channel} {terminal : Channel}
    (hterminal : s.takes terminal = true)
    (hfile : ∀ channel ∈ file.toList, ∃ number, channel = .file number) :
    s.takes (file.getD terminal) = true := by
  cases file with
  | none => exact hterminal
  | some channel =>
    obtain ⟨number, rfl⟩ := hfile channel List.mem_cons_self
    rfl

/-! ## All stages -/

/-- One stage is started and leaves no request to leave the shell pending. Its start is noted, its
failure reported, and the stages behind it are launched. -/
theorem launch_stage {files : OutputFiles Channel} {origin : Shell Plumbing} {segment : Segment}
    (rest : List Segment) {input : Option Channel} {env : Environment} {s connected : Plumbing}
    {connection : Connection Channel} {yield : Yield} {spent : Bool}
    (trace : List (ShellEvent Plumbing Channel))
    (hconnect : connect (plumbing openable) files rest.isEmpty input s = (connection, connected))
    (hstart : (transducerCommand openable resolve origin segment).start connection.streams env
      connected = (yield.outcome, yield.env, connected.deliver connection.streams yield spent))
    (hstay : yield.env.exitRequest = none) :
    ∃ reports, OnlyReports (plumbing openable) reports ∧
      let commands := traceCommands origin (transducerCommand openable resolve origin)
      let after := ((plumbing openable).closeAll connection.own
        (connected.deliver connection.streams yield spent)).put .terminalErr yield.report
      let others := launch (plumbing openable).traced files (stagesOf commands rest) connection.next
        yield.env (after, trace ++ (.started ⟨segment.name, segment.args, origin,
          connection.streams, ⟨env, connected⟩⟩ :: reports))
      launch (plumbing openable).traced files (stagesOf commands (segment :: rest)) input env
          (s, trace) =
        (others.1.cons (segment.name, .finished yield.code), others.2) := by
  refine ⟨failureReports (plumbing openable) yield.outcome,
    onlyReports_failureReports (plumbing openable) yield.outcome, ?_⟩
  intro commands after others
  rw [stagesOf_cons, launch_cons, isEmpty_stagesOf, connect_traced, hconnect]
  simp only [commands, withTrace, traceCommands, Command.start_traced hstart, settled?_traced,
    settled?_outcome, Option.map_some, hstay, closeAll_traced, reportFailure_traced,
    reportFailure_outcome, List.append_assoc, List.singleton_append]
  rfl

/-- Launching the stages of segments starts all of them, and the data flows through them as given.
All of them are finished then, and waiting for them gives the code of the last one. -/
def LaunchesFlow (openable : RedirectMode → Path → Except SystemError Unit)
    (resolve : Environment → String → List String → Option Transducer)
    (files : OutputFiles Channel) (origin : Shell Plumbing) (segments : List Segment)
    (input : Option Channel) (env : Environment) (s : Plumbing)
    (stages : List (ByteArray × Yield)) : Prop :=
  ∀ trace, ∃ started final noted s',
    launch (plumbing openable).traced files
        (stagesOf (traceCommands origin (transducerCommand openable resolve origin)) segments)
        input env (s, trace) = (.all started, final.env, s', trace ++ noted) ∧
      (∀ code t, waitAll (plumbing openable).traced code started t = (final.code, t)) ∧
      (stages.map Prod.snd).getLast? = some final ∧
      Flowed files (input.getD .terminalIn) s s' stages noted

/-- The last stage reads its input and writes to its files or to the terminal. -/
theorem launchesFlow_last {files : OutputFiles Channel} (hfiles : files.AreFiles)
    (origin : Shell Plumbing) (segment : Segment) {input : Option Channel} {env : Environment}
    {s : Plumbing} {bytes : ByteArray} (hready : s.Ready (input.getD .terminalIn) bytes)
    (hstay : (transducerOf resolve origin.env segment bytes env).env.exitRequest = none) :
    LaunchesFlow openable resolve files origin [segment] input env s
      [(bytes, transducerOf resolve origin.env segment bytes env)] := by
  intro trace
  let yield := transducerOf resolve origin.env segment bytes env
  have hstdout : s.takes (files.stdout.getD .terminalOut) = true :=
    takes_getD s rfl fun channel hmem => hfiles channel (List.mem_append_left _ hmem)
  have hstderr : s.takes (files.stderr.getD .terminalErr) = true :=
    takes_getD s rfl fun channel hmem => hfiles channel (List.mem_append_right _ hmem)
  obtain ⟨spent, hstart⟩ := start_create openable resolve origin segment
    (lastChannels files input) env hready.offered_eq hstdout hstderr
  obtain ⟨reports, honly, hlaunch⟩ :=
    launch_stage [] trace (connect_last openable files input s) hstart hstay
  let start : StageEntry Plumbing Channel :=
    ⟨segment.name, segment.args, origin, lastChannels files input, ⟨env, s⟩⟩
  refine ⟨[(segment.name, .finished yield.code)], yield, .started start :: (reports ++ []),
    afterLast openable files s input yield spent, ?_, fun _ _ => rfl, rfl, ?_, ?_,
    gains_afterLast files s input yield spent⟩
  · rw [List.append_nil]
    exact hlaunch
  · rw [startedStages_started start honly]
    exact congrArg List.singleton hready.offered_eq
  · rw [startedStages_started start honly]
    rintro _ ⟨⟩
    rfl

/-- A stage in front of others reads its input and writes into a pipe, which the next stage
reads. -/
theorem launchesFlow_cons {files : OutputFiles Channel} (origin : Shell Plumbing)
    (segment next : Segment) (more : List Segment) {input : Option Channel} {env : Environment}
    {s : Plumbing} {bytes : ByteArray} {stages : List (ByteArray × Yield)}
    (hready : s.Ready (input.getD .terminalIn) bytes) {yield : Yield}
    (hyield : transducerOf resolve origin.env segment bytes env = yield)
    (hstay : yield.env.exitRequest = none) (hne : stages ≠ [])
    (hrest : ∀ spent, LaunchesFlow openable resolve files origin (next :: more)
      (some (.reading s.pipes)) yield.env (afterInner openable s input yield spent) stages) :
    LaunchesFlow openable resolve files origin (segment :: next :: more) input env s
      ((bytes, yield) :: stages) := by
  intro trace
  have hstdout : s.addPipe.takes (.writing s.pipes) = true := by
    simp [takes, addPipe]
  obtain ⟨spent, hstart⟩ := start_create openable resolve origin segment
    (innerChannels s input) env (offered_addPipe hready) hstdout rfl
  rw [hyield] at hstart
  obtain ⟨reports, honly, hlaunch⟩ := launch_stage (next :: more) trace
    (connect_inner openable files input s) hstart hstay
  let start : StageEntry Plumbing Channel :=
    ⟨segment.name, segment.args, origin, innerChannels s input, ⟨env, s.addPipe⟩⟩
  obtain ⟨started, final, noted, s', hothers, hwait, hfinal, hflow⟩ :=
    hrest spent (trace ++ (.started start :: reports))
  obtain ⟨stage, others, rfl⟩ := List.exists_cons_of_ne_nil hne
  refine ⟨(segment.name, .finished yield.code) :: started, final,
    .started start :: (reports ++ noted), s', ?_, fun _ => hwait _, ?_, ?_, ?_, ?_⟩
  · rw [List.append_assoc, List.cons_append] at hothers
    exact hlaunch.trans (congrArg
      (fun others => (others.1.cons (segment.name, .finished yield.code), others.2)) hothers)
  · exact List.getLast?_cons_cons.trans hfinal
  · rw [startedStages_started start honly]
    exact congrArg₂ List.cons (offered_addPipe hready) hflow.offered_eq
  · rw [startedStages_started start honly]
    rintro _ ⟨⟩
    rfl
  · exact (gains_afterInner s input yield spent).trans hflow.gains

/-- Launching the stages of a pipeline of transducers lets the data flow from each stage to the
next. -/
theorem launch_flow (openable : RedirectMode → Path → Except SystemError Unit)
    {files : OutputFiles Channel} (hfiles : files.AreFiles) (origin : Shell Plumbing)
    {segments : List Segment} (hne : segments ≠ []) {input : Option Channel} {env : Environment}
    {s : Plumbing} {bytes : ByteArray} (hready : s.Ready (input.getD .terminalIn) bytes)
    (hstay : ∀ stage ∈ flow (segments.map (transducerOf resolve origin.env)) bytes env,
      stage.2.env.exitRequest = none) :
    LaunchesFlow openable resolve files origin segments input env s
      (flow (segments.map (transducerOf resolve origin.env)) bytes env) := by
  -- What one stage hands to the next is a state in which its output is ready to be read.
  induction segments generalizing input env s bytes with
  | nil => exact absurd rfl hne
  | cons segment rest ih =>
    have hyield := hstay _ List.mem_cons_self
    cases rest with
    | nil => exact launchesFlow_last hfiles origin segment hready hyield
    | cons next more =>
      refine launchesFlow_cons origin segment next more hready rfl hyield (List.cons_ne_nil _ _)
        fun spent => ?_
      exact ih (List.cons_ne_nil next more) (ready_afterInner hready _ spent)
        fun stage hmem => hstay stage (List.mem_cons_of_mem _ hmem)

/-! ## The whole pipeline -/

/-- Opening redirections that can be opened gives each of them a file of its own. -/
theorem openRedirections_plumbing (directory : Path) {redirections : List Redirection}
    (hopen : ∀ redirection ∈ redirections,
      openable redirection.mode (directory.join redirection.path) = .ok ())
    (files : OutputFiles Channel) (hfiles : files.AreFiles) (s : Plumbing) :
    let all := files.replaceAll (numberFiles s.files redirections)
    all.AreFiles ∧
      openRedirections (plumbing openable) directory files redirections s =
        (.ok all, s.addFiles redirections.length) := by
  induction redirections generalizing files s with
  | nil => exact ⟨hfiles, rfl⟩
  | cons redirection rest ih =>
    obtain ⟨hfirst, hrest⟩ := List.forall_mem_cons.mp hopen
    have hopened : openRedirection (plumbing openable) directory redirection s =
        (.ok (.file s.files), s.addFiles 1) := by
      simp only [openRedirection, plumbing, hfirst]
    -- A file whose place is taken need not be closed in this system.
    have hclosed : (plumbing openable).closeAll (files.get? redirection.stream).toList
        (s.addFiles 1) = s.addFiles 1 := by
      cases hfile : files.get? redirection.stream with
      | none => rfl
      | some channel =>
        obtain ⟨number, rfl⟩ := hfiles channel (files.mem_toList_of_get? hfile)
        rfl
    have hreplaced : (files.replace redirection.stream (.file s.files)).AreFiles := by
      intro channel hmem
      rcases files.mem_toList_replace hmem with rfl | hmem
      · exact ⟨s.files, rfl⟩
      · exact hfiles channel hmem
    have hcount : (s.addFiles 1).addFiles rest.length =
        s.addFiles (redirection :: rest).length := by
      rw [addFiles, addFiles, addFiles, List.length_cons, Nat.add_assoc, Nat.add_comm 1]
    obtain ⟨hchannels, hopening⟩ := ih hrest _ hreplaced (s.addFiles 1)
    refine ⟨hchannels, ?_⟩
    rw [openRedirections, hopened]
    dsimp only
    rw [hclosed, hopening, hcount]
    rfl

/-- Running the stages of a pipeline of transducers lets the data flow, from the terminal on. -/
theorem runStages_flow (openable : RedirectMode → Path → Except SystemError Unit)
    {files : OutputFiles Channel} (hfiles : files.AreFiles) (origin : Shell Plumbing)
    {segments : List Segment} (hne : segments ≠ []) (sh : Shell Plumbing)
    (trace : List (ShellEvent Plumbing Channel))
    (hstay : ∀ stage ∈
      flow (segments.map (transducerOf resolve origin.env)) sh.system.unread sh.env,
      stage.2.env.exitRequest = none) :
    let stages := flow (segments.map (transducerOf resolve origin.env)) sh.system.unread sh.env
    ∃ final noted s',
      runStages (plumbing openable).traced files
          (stagesOf (traceCommands origin (transducerCommand openable resolve origin)) segments)
          (sh.withTrace trace) =
        (.ok final.code, ⟨final.env, s', trace ++ noted⟩) ∧
        (stages.map Prod.snd).getLast? = some final ∧
        Flowed files .terminalIn sh.system s' stages noted := by
  have hready : sh.system.Ready ((none : Option Channel).getD .terminalIn) sh.system.unread :=
    ⟨rfl, nofun⟩
  obtain ⟨started, final, noted, s', hlaunch, hwait, hfinal, hflow⟩ :=
    launch_flow openable hfiles origin hne hready hstay trace
  refine ⟨final, noted, s', ?_, hfinal, hflow⟩
  simp only [runStages, Shell.withTrace, hlaunch, hwait]

/-- A pipeline of transducers runs as the flow of its data says: its code is that of the last stage,
and the environment is the one that the last stage leaves. -/
structure RunsAsFlow (files : OutputFiles Channel) (sh : Shell Plumbing)
    (stages : List (ByteArray × Yield)) (trace : List (ShellEvent Plumbing Channel))
    (outcome : Except LineError ExitCode × Shell Plumbing) : Prop
    extends Flowed files .terminalIn sh.system outcome.2.system stages trace where
  code_eq : outcome.1 = .ok ((stages.map Prod.snd).getLast?.elim 0 Yield.code)
  env_eq : outcome.2.env = (stages.map Prod.snd).getLast?.elim sh.env Yield.env

/-- A pipeline of transducers whose redirections can be opened runs as the flow of its data says. -/
theorem runsAsFlow (openable : RedirectMode → Path → Except SystemError Unit)
    (resolve : Environment → String → List String → Option Transducer) (p : Pipeline)
    (sh : Shell Plumbing)
    (hopen : ∀ last ∈ p.last?, ∀ redirection ∈ last.redirections,
      openable redirection.mode (sh.env.currentDirectory.join redirection.path) = .ok ())
    (hstay : ∀ stage ∈ flow (p.segments.map (transducerOf resolve sh.env)) sh.system.unread sh.env,
      stage.2.env.exitRequest = none) :
    RunsAsFlow (p.redirected sh.system.files) sh
      (flow (p.segments.map (transducerOf resolve sh.env)) sh.system.unread sh.env)
      (pipelineTrace (plumbing openable) [transducerFactory resolve] p sh)
      (sh.executePipeline (plumbing openable) [transducerFactory resolve] p) := by
  let host := plumbing openable
  let factories := [transducerFactory resolve]
  cases hlast : p.last? with
  | none =>
    have hnil : p.segments = [] := List.getLast?_eq_none_iff.mp hlast
    have htrace : pipelineTrace host factories p sh = [] := by
      rw [pipelineTrace, executePipeline_of_empty _ _ hnil]
      rfl
    rw [htrace, executePipeline_of_empty _ _ hnil, hnil]
    exact ⟨⟨rfl, fun _ h => absurd h (Option.not_mem_none _), .of_written_eq fun _ _ => rfl⟩, rfl,
      rfl⟩
  | some last =>
    have hne : p.segments ≠ [] := List.ne_nil_of_mem (List.mem_of_getLast? hlast)
    obtain ⟨hchannels, hopened⟩ := openRedirections_plumbing sh.env.currentDirectory
      (hopen last hlast) .none (fun _ h => absurd h List.not_mem_nil) sh.system
    have hfiles : OutputFiles.none.replaceAll (numberFiles sh.system.files last.redirections) =
        p.redirected sh.system.files := by
      simp only [Pipeline.redirected, hlast, Option.elim_some, ← get?_none_replaceAll]
      rfl
    rw [hfiles] at hchannels hopened
    obtain ⟨openings, hopenings, htraced⟩ := openRedirections_traced host _ [] hopened
    obtain ⟨final, noted, s', hstages, hfinal, hflow⟩ := runStages_flow openable hchannels sh hne
      ⟨sh.env, sh.system.addFiles last.redirections.length⟩ openings hstay
    have hpipeline := (executePipeline_traced_of_opened host factories hlast htraced).trans hstages
    obtain ⟨trace, hrun, -⟩ := exists_pipelinePhases host factories p sh
    have htrace : startedStages (pipelineTrace host factories p sh) = startedStages noted := by
      rw [pipelineTrace, hpipeline, startedStages_append, hopenings.startedStages_eq,
        List.nil_append]
    have houtcome : sh.executePipeline host factories p = (.ok final.code, ⟨final.env, s'⟩) := by
      obtain ⟨hcode, hshell⟩ := Prod.mk.inj (hrun.symm.trans hpipeline)
      obtain ⟨henv, hsystem⟩ := Shell.mk.inj hshell
      refine Prod.ext hcode ?_
      rw [← henv, ← (Prod.mk.inj hsystem).1]
    rw [houtcome]
    refine ⟨⟨?_, ?_, hflow.gains⟩, ?_, ?_⟩
    · rw [htrace]
      exact hflow.offered_eq
    · rw [htrace]
      exact hflow.stdin_eq
    · exact congrArg (fun yield : Option Yield => Except.ok (yield.elim 0 Yield.code)) hfinal.symm
    · exact congrArg (fun yield : Option Yield => yield.elim sh.env Yield.env) hfinal.symm

/-! ## Putting a copy between two stages -/

/-- The stages behind others read what the last of those writes, in the environment that it
leaves. -/
theorem flow_append {transducers : List Transducer} (hne : transducers ≠ []) (input : ByteArray)
    (env : Environment) :
    ∃ last ∈ flow transducers input env, ∀ others,
      flow (transducers ++ others) input env =
        flow transducers input env ++ flow others last.2.stdout last.2.env := by
  induction transducers generalizing input env with
  | nil => exact absurd rfl hne
  | cons transducer rest ih =>
    let yield := transducer input env
    cases rest with
    | nil => exact ⟨(input, yield), List.mem_cons_self, fun others => rfl⟩
    | cons next more =>
      obtain ⟨last, hmem, hothers⟩ := ih (List.cons_ne_nil next more) yield.stdout yield.env
      exact ⟨last, List.mem_cons_of_mem _ hmem, fun others =>
        congrArg ((input, yield) :: ·) (hothers others)⟩

/-- What stages write in front of others, and what those write. -/
theorem outputs_append (files : OutputFiles Channel) (first : List Yield) {last : List Yield}
    (hne : last ≠ []) :
    outputs files (first ++ last) = first.flatMap Yield.complaints ++ outputs files last := by
  induction first with
  | nil => rfl
  | cons yield rest ih =>
    have hinner : outputs files (yield :: (rest ++ last)) =
        yield.complaints ++ outputs files (rest ++ last) := by
      rw [outputs]
      exact fun h => hne (List.append_eq_nil_iff.mp h).2
    rw [List.cons_append, hinner, ih, List.flatMap_cons, List.append_assoc]

/-- A copy that is put in front of other stages brings no stream anything. -/
theorem bytesTo_outputs_copy (files : OutputFiles Channel) (channel : Channel)
    (first : List Yield) (input : ByteArray) (env : Environment) {last : List Yield}
    (hne : last ≠ []) :
    bytesTo channel (outputs files (first ++ Transducer.copy input env :: last)) =
      bytesTo channel (outputs files (first ++ last)) := by
  let copied := Transducer.copy input env
  have hcopied : bytesTo channel copied.complaints = .empty := by
    have hnothing : copied.complaints = [(.terminalErr, .empty), (.terminalErr, .empty)] := rfl
    simp only [hnothing, bytesTo, ite_self, ByteArray.empty_append]
  have hlast : outputs files (copied :: last) = copied.complaints ++ outputs files last := by
    rw [← List.singleton_append, outputs_append files [copied] hne, List.flatMap_singleton]
  rw [outputs_append files first (List.cons_ne_nil _ _), outputs_append files first hne, hlast,
    bytesTo_append, bytesTo_append, hcopied, ByteArray.empty_append, ← bytesTo_append]

/-- A copy between two stages is one more stage, and the others are as without it. -/
theorem exists_flow_copy {before : List Transducer} (hne : before ≠ []) (after : List Transducer)
    (input : ByteArray) (env : Environment) :
    ∃ front, ∃ last ∈ front,
      flow (before ++ after) input env = front ++ flow after last.2.stdout last.2.env ∧
      flow (before ++ .copy :: after) input env =
        front ++ (last.2.stdout, Transducer.copy last.2.stdout last.2.env) ::
          flow after last.2.stdout last.2.env := by
  obtain ⟨last, hlast, hothers⟩ := flow_append hne input env
  exact ⟨_, last, hlast, hothers after, hothers (.copy :: after)⟩

/-- Two runs of which one has one more stage, a copy in front of others, end in the same way and
write the same. -/
theorem RunsAsFlow.eq_of_copy {files : OutputFiles Channel} {sh : Shell Plumbing}
    {front back : List (ByteArray × Yield)} {bytes : ByteArray} {env : Environment}
    {trace trace' : List (ShellEvent Plumbing Channel)}
    {outcome outcome' : Except LineError ExitCode × Shell Plumbing} (hback : back ≠ [])
    (h : RunsAsFlow files sh (front ++ back) trace outcome)
    (h' : RunsAsFlow files sh (front ++ (bytes, Transducer.copy bytes env) :: back) trace'
      outcome') :
    outcome'.1 = outcome.1 ∧ outcome'.2.env = outcome.2.env ∧
      ∀ channel, channel.isPipeEnd = false →
        outcome'.2.system.written channel = outcome.2.system.written channel := by
  have hyields : back.map Prod.snd ≠ [] := mt List.map_eq_nil_iff.mp hback
  have hlast : ((front ++ (bytes, Transducer.copy bytes env) :: back).map Prod.snd).getLast? =
      ((front ++ back).map Prod.snd).getLast? := by
    obtain ⟨yield, rest, hrest⟩ := List.exists_cons_of_ne_nil hyields
    rw [List.map_append, List.map_append, List.map_cons, hrest, List.getLast?_append_cons,
      List.getLast?_append_cons, List.getLast?_cons_cons]
  refine ⟨?_, ?_, fun channel hchannel => ?_⟩
  · rw [h'.code_eq, h.code_eq, hlast]
  · rw [h'.env_eq, h.env_eq, hlast]
  · rw [h'.gains channel hchannel, h.gains channel hchannel, List.map_append, List.map_append,
      List.map_cons, bytesTo_outputs_copy files channel _ bytes env hyields]

/-- On a system of queues, where a pipeline of transducers opens its redirections and nothing asks
to leave the shell, all stages are started. The first reads the terminal, and each further one has
as its input what the one before it writes to its standard output, whether its start succeeds or
not. Only the last stage writes to the standard output of the pipeline. The standard errors reach
the terminal in order, each followed by the report of a failure, but for that of the last stage when
there is a file for it. A copy between two stages changes neither the code nor the environment nor
any output. -/
theorem executePipeline_flow (openable : RedirectMode → Path → Except SystemError Unit)
    (resolve : Environment → String → List String → Option Transducer) (p : Pipeline)
    (sh : Shell Plumbing)
    (hopen : ∀ last ∈ p.last?, ∀ redirection ∈ last.redirections,
      openable redirection.mode (sh.env.currentDirectory.join redirection.path) = .ok ())
    (hstay : ∀ stage ∈ flow (p.segments.map (transducerOf resolve sh.env)) sh.system.unread sh.env,
      stage.2.env.exitRequest = none) :
    let host := plumbing openable
    let factories := [transducerFactory resolve]
    let outcome := sh.executePipeline host factories p
    RunsAsFlow (p.redirected sh.system.files) sh
        (flow (p.segments.map (transducerOf resolve sh.env)) sh.system.unread sh.env)
        (pipelineTrace host factories p sh) outcome ∧
      ∀ before copy after, p.segments = before ++ after → before ≠ [] → after ≠ [] →
        resolve sh.env copy.name copy.args = some .copy →
        let other := sh.executePipeline host factories ⟨before ++ copy :: after⟩
        other.1 = outcome.1 ∧ other.2.env = outcome.2.env ∧
          ∀ channel, channel.isPipeEnd = false →
            other.2.system.written channel = outcome.2.system.written channel := by
  intro host factories outcome
  have hflow := runsAsFlow openable resolve p sh hopen hstay
  refine ⟨hflow, fun before copy after hsegments hbefore hafter hcopy => ?_⟩
  let transducer := transducerOf resolve sh.env
  have hcopied : (before ++ copy :: after).map transducer =
      before.map transducer ++ .copy :: after.map transducer := by
    simp only [transducer, transducerOf, List.map_append, List.map_cons, hcopy, Option.getD_some]
  obtain ⟨front, last, hlast, hshort, hlong⟩ := exists_flow_copy
    (mt List.map_eq_nil_iff.mp hbefore) (after.map transducer) sh.system.unread sh.env
  rw [← List.map_append, ← hsegments] at hshort
  rw [← hcopied] at hlong
  have hlast? : Pipeline.last? ⟨before ++ copy :: after⟩ = p.last? := by
    obtain ⟨next, rest, rfl⟩ := List.exists_cons_of_ne_nil hafter
    rw [Pipeline.last?, Pipeline.last?, hsegments, List.getLast?_append_cons,
      List.getLast?_append_cons, List.getLast?_cons_cons]
  have hback : flow (after.map transducer) last.2.stdout last.2.env ≠ [] := by
    obtain ⟨next, rest, rfl⟩ := List.exists_cons_of_ne_nil hafter
    exact List.cons_ne_nil _ _
  rw [hshort] at hstay hflow
  have hstays : ∀ stage ∈ flow ((before ++ copy :: after).map transducer) sh.system.unread sh.env,
      stage.2.env.exitRequest = none := by
    rw [hlong]
    intro stage hmem
    rcases List.mem_append.mp hmem with hfront | hrest
    · exact hstay stage (List.mem_append_left _ hfront)
    · rcases List.mem_cons.mp hrest with rfl | hafter
      · exact hstay last (List.mem_append_left _ hlast)
      · exact hstay stage (List.mem_append_right _ hafter)
  have hlonger := runsAsFlow openable resolve ⟨before ++ copy :: after⟩ sh (by rwa [hlast?]) hstays
  have hfiles : Pipeline.redirected ⟨before ++ copy :: after⟩ sh.system.files =
      p.redirected sh.system.files := by
    rw [Pipeline.redirected, hlast?]
    rfl
  rw [hlong, hfiles] at hlonger
  exact hflow.eq_of_copy hback hlonger

/-- Transducers that keep the environment: one copies its input, one says it is ready and complains,
and one writes a line before its start fails. -/
def exampleTransducers (_ : Environment) (name : String) (_ : List String) : Option Transducer :=
  match name with
  | "copy" => some .copy
  | "say" => some fun _ env => ⟨"ready\n".toUTF8, "late\n".toUTF8, env, .ok 3⟩
  | "fail" => some fun input env => ⟨input ++ "half\n".toUTF8, .empty, env, .error "no"⟩
  | _ => none

/-- A stage behind one whose start fails reads what that one has written before, and sends it to its
file. The complaint of the first stage and the report of the failure reach the terminal. A copy
between the two changes nothing. -/
theorem executePipeline_flow_failure :
    let p : Pipeline := ⟨[⟨"say", [], []⟩, ⟨"fail", [], []⟩,
      ⟨"copy", [], [⟨.truncate, .stdout, ⟨"out"⟩⟩]⟩]⟩
    let q : Pipeline := ⟨[⟨"say", [], []⟩, ⟨"copy", [], []⟩, ⟨"fail", [], []⟩,
      ⟨"copy", [], [⟨.truncate, .stdout, ⟨"out"⟩⟩]⟩]⟩
    let sh : Shell Plumbing := ⟨.initial [] ⟨"/"⟩,
      ⟨.empty, fun _ => .empty, fun _ => false, fun _ => false, 0, 0⟩⟩
    let run (p : Pipeline) :=
      sh.executePipeline (plumbing fun _ _ => .ok ()) [transducerFactory exampleTransducers] p
    (run p).1 = .ok 0 ∧ (run p).2.system.written (.file 0) = "ready\nhalf\n".toUTF8 ∧
      (run p).2.system.written .terminalOut = .empty ∧
      (run p).2.system.written .terminalErr = "late\nminish: no\n".toUTF8 ∧
      (run q).2.system.written (.file 0) = (run p).2.system.written (.file 0) := by
  intro p q sh run
  let transducers := p.segments.map (transducerOf exampleTransducers sh.env)
  let stages := flow transducers sh.system.unread sh.env
  have hstay : ∀ stage ∈ stages, stage.2.env.exitRequest = none := by decide
  obtain ⟨hflow, hcopy⟩ := executePipeline_flow (fun _ _ => .ok ()) exampleTransducers p sh
    (fun _ _ _ _ => rfl) hstay
  obtain ⟨-, -, hcopied⟩ := hcopy [⟨"say", [], []⟩] ⟨"copy", [], []⟩ _ rfl nofun nofun rfl
  refine ⟨hflow.code_eq, ?_, ?_, ?_, hcopied (.file 0) rfl⟩
  · exact (hflow.gains (.file 0) rfl).trans (by decide)
  · exact (hflow.gains .terminalOut rfl).trans (by decide)
  · exact (hflow.gains .terminalErr rfl).trans (by decide)

end LineShell
