import LineShell.Proofs.Machine.Pipes
import LineShell.Proofs.Shell.Launching

/-!
# Stalling pipelines

The stage that reads a pipe is started after the stage that writes it. A program writes when it has
been started, but a builtin has written everything by then. Where a pipe holds no more than so many
bytes, a builtin in front of another stage can therefore write no more than these: the shell waits
for a reader that only the shell could start. This file shows that a pipeline comes to a standstill
in this way exactly, and in no other.
-/

namespace LineShell

section

variable {σ η : Type}

/-- The number of bytes that the shell itself writes to the standard output of a stage. -/
def StageEntry.outputSize (host : Host σ η) (entry : StageEntry σ η) : Nat :=
  outputSizeOf host entry.name entry.args entry.shell.env entry.shell.system

/-- Of the stages of a pipeline with so many segments, the one at a place was started, writes more
than a pipe holds, and is not the last. -/
def Overflows (host : Host σ η) (capacity segments : Nat) (started : List (StageEntry σ η))
    (i : Nat) : Prop :=
  i + 1 < segments ∧ ∃ entry, started[i]? = some entry ∧ capacity < entry.outputSize host

namespace Host.BoundedPipes

variable {host : Host σ η} {capacity : Nat} {pipes : host.BoundedPipes capacity}

/-! ## Launching the stages -/

/-- How a stage is connected, as seen from the state before. -/
structure Connects (pipes : host.BoundedPipes capacity) (s : σ) (isLast : Bool)
    (connection : Connection η) (s' : σ) : Prop where
  later : pipes.later s s'
  stdin : pipes.known s' connection.streams.stdin
  stderr : pipes.steady s' connection.streams.stderr
  next : ∀ stream ∈ connection.next, pipes.known s' stream
  last_stdout : isLast = true → pipes.steady s' connection.streams.stdout
  inner_stdout : isLast = false → pipes.known s' connection.streams.stdout ∧
    pipes.unread s' connection.streams.stdout 0

/-- A stage reads a stream that there is, and writes to steady streams or to a new pipe. -/
theorem connects_connect {files : OutputFiles η} {isLast : Bool} {input : Option η} {s s' : σ}
    {connection : Connection η} (hvalid : pipes.valid s)
    (hfiles : ∀ file ∈ files.toList, pipes.steady s file)
    (hinput : ∀ stream ∈ input, pipes.known s stream)
    (h : connect host files isLast input s = (connection, s')) :
    Connects pipes s isLast connection s' := by
  obtain ⟨hstdout, hstderr⟩ := pipes.terminal_steady hvalid
  have hstdin : pipes.known s (input.getD host.terminal.stdin) := by
    cases input with
    | none => exact pipes.terminal_known hvalid
    | some stream => exact hinput stream rfl
  cases isLast with
  | true =>
    cases h
    have hfile (stream : OutputStream) {terminal : η} (hterminal : pipes.steady s terminal) :
        pipes.steady s ((files.get? stream).getD terminal) := by
      cases hget : files.get? stream with
      | none => exact hterminal
      | some file => exact hfiles file (files.mem_toList_of_get? hget)
    have hnext : ∀ stream ∈ (none : Option η), pipes.known s stream := by
      rintro stream ⟨⟩
    exact ⟨pipes.later_self hvalid, hstdin, hfile .stderr hstderr, hnext,
      fun _ => hfile .stdout hstdout, Bool.noConfusion⟩
  | false =>
    obtain ⟨hlater, hreading, hwriting, hunread⟩ := pipes.pipe hvalid
    cases h
    refine ⟨hlater, pipes.known_of_later hlater hstdin, pipes.steady_of_later hlater hstderr, ?_,
      Bool.noConfusion, fun _ => ⟨hwriting, hunread⟩⟩
    rintro stream ⟨⟩
    exact hreading

/-- A connected stage blocks the shell exactly when other stages follow and the pipe to them does
not hold what a builtin writes. -/
theorem starts_connected (origin : Shell σ) {segment : Segment} {rest : List Segment}
    {connection : Connection η} {env requested : Environment} {s connected after : σ}
    {command : Command σ η} {outcome : Except StartError (Started σ)}
    (hconnects : Connects pipes s rest.isEmpty connection connected)
    (hcreated : Created host segment.name segment.args command)
    (hstart : command.start connection.streams env connected = (outcome, requested, after)) :
    pipes.Starts connected (0 < rest.length ∧
        capacity < (entryFor origin segment connection env connected).outputSize host)
      (outcome, requested, after) := by
  have hvalid := pipes.valid_of_later hconnects.later
  rw [← hstart]
  cases rest with
  | nil =>
    have hstalls : ¬(0 < ([] : List Segment).length ∧
        capacity < (entryFor origin segment connection env connected).outputSize host) :=
      fun h => Nat.lt_irrefl 0 h.1
    exact starts_created_steady hcreated _ env hvalid hconnects.stdin (hconnects.last_stdout rfl)
      hconnects.stderr hstalls
  | cons next more =>
    obtain ⟨hstdout, hunread⟩ := hconnects.inner_stdout rfl
    have hstarts := starts_created_pipe hcreated connection.streams env hvalid hconnects.stdin
      hstdout hunread hconnects.stderr
    have hpos : 0 < (next :: more).length := Nat.zero_lt_succ _
    exact ⟨hstarts.blocked_iff.trans (and_iff_right hpos).symm, hstarts.later⟩

/-- A stage that has been started leaves a state in which the next one can be connected. -/
theorem later_started {isLast : Bool} {connection : Connection η} {requested : Environment}
    {s connected after : σ} {stalls : Prop} {outcome : Except StartError (Started σ)}
    (hconnects : Connects pipes s isLast connection connected)
    (hstarts : pipes.Starts connected stalls (outcome, requested, after))
    (hblocked : outcome ≠ .error .blocked) :
    let launched := reportFailure host outcome (host.closeAll connection.own after)
    pipes.later s launched ∧ ∀ stream ∈ connection.next, pipes.known launched stream := by
  have hafter := hstarts.later hblocked
  have hclosed := pipes.later_closeAll (pipes.valid_of_later hafter) connection.own
  have hreported := pipes.later_reportFailure (pipes.valid_of_later hclosed) outcome
  have hlater := pipes.later_trans hafter (pipes.later_trans hclosed hreported)
  refine ⟨pipes.later_trans hconnects.later hlater, fun stream hstream => ?_⟩
  exact pipes.known_of_later hlater (hconnects.next stream hstream)

end Host.BoundedPipes

/-- Only a first stage that is not the last one can overflow its pipe at the first place. -/
theorem overflows_zero (host : Host σ η) (capacity segments : Nat) (entry : StageEntry σ η)
    (more : List (StageEntry σ η)) :
    Overflows host capacity (segments + 1) (entry :: more) 0 ↔
      0 < segments ∧ capacity < entry.outputSize host := by
  unfold Overflows
  simp

/-- Behind the first stage the places are those of the other stages. -/
theorem overflows_succ (host : Host σ η) (capacity segments : Nat) (entry : StageEntry σ η)
    (more : List (StageEntry σ η)) (i : Nat) :
    Overflows host capacity (segments + 1) (entry :: more) (i + 1) ↔
      Overflows host capacity segments more i := by
  unfold Overflows
  simp

/-- The shell is blocked by the stages that it started exactly when one of them overflows its pipe,
and that one was the last to be started. -/
structure StallsExactly (host : Host σ η) (capacity segments : Nat)
    (started : List (StageEntry σ η)) (blocked : Prop) : Prop where
  blocked_iff : blocked ↔ ∃ i, Overflows host capacity segments started i
  length_eq : ∀ i, Overflows host capacity segments started i → started.length = i + 1

namespace StallsExactly

variable {host : Host σ η} {capacity segments : Nat}

/-- Whether the shell is blocked may be said in another way. -/
theorem of_iff {started : List (StageEntry σ η)} {blocked other : Prop} (hiff : other ↔ blocked)
    (h : StallsExactly host capacity segments started blocked) :
    StallsExactly host capacity segments started other :=
  ⟨hiff.trans h.blocked_iff, h.length_eq⟩

/-- Without a stage that was started the shell is not blocked. -/
theorem nil (host : Host σ η) (capacity segments : Nat) :
    StallsExactly host capacity segments [] False := by
  have hnone : ∀ i, ¬Overflows host capacity segments [] i := by
    rintro i ⟨-, entry, hentry, -⟩
    cases hentry
  have hnot : ¬∃ i, Overflows host capacity segments [] i := not_exists.mpr hnone
  exact ⟨iff_of_false not_false hnot, fun i h => absurd h (hnone i)⟩

/-- A first stage that overflows its pipe is the last one that is started. -/
theorem blocked {entry : StageEntry σ η} (hinner : 0 < segments)
    (hsize : capacity < entry.outputSize host) :
    StallsExactly host capacity (segments + 1) [entry] True := by
  refine ⟨iff_of_true trivial ⟨0, (overflows_zero ..).mpr ⟨hinner, hsize⟩⟩, fun i h => ?_⟩
  cases i with
  | zero => rfl
  | succ i =>
    obtain ⟨-, other, hother, -⟩ := h
    cases hother

/-- A first stage that does not overflow its pipe leaves it to the other stages to do so. -/
theorem cons {entry : StageEntry σ η} {more : List (StageEntry σ η)} {blocked : Prop}
    (hfits : ¬(0 < segments ∧ capacity < entry.outputSize host))
    (hmore : StallsExactly host capacity segments more blocked) :
    StallsExactly host capacity (segments + 1) (entry :: more) blocked := by
  constructor
  · rw [hmore.blocked_iff]
    constructor
    · rintro ⟨i, h⟩
      exact ⟨i + 1, (overflows_succ ..).mpr h⟩
    · rintro ⟨i, h⟩
      cases i with
      | zero => exact absurd ((overflows_zero ..).mp h) hfits
      | succ i => exact ⟨i, (overflows_succ ..).mp h⟩
  · intro i h
    cases i with
    | zero => exact absurd ((overflows_zero ..).mp h) hfits
    | succ i =>
      have hlength := hmore.length_eq i ((overflows_succ ..).mp h)
      rw [List.length_cons, hlength]

end StallsExactly

/-- A launch blocks the shell exactly by a stage that overflows its pipe. -/
theorem LaunchRun.stallsExactly {host : Host σ η} {capacity : Nat}
    {pipes : host.BoundedPipes capacity} {files : OutputFiles η} {origin : Shell σ}
    {command : Segment → Command σ η}
    (hcreated : ∀ segment : Segment,
      Host.BoundedPipes.Created host segment.name segment.args (command segment))
    {segments : List Segment} {input : Option η} {env : Environment} {s : σ}
    {noted : List (ShellEvent σ η)} {result : LaunchResult σ}
    (h : LaunchRun host files origin command segments input env s noted result)
    (hvalid : pipes.valid s) (hfiles : ∀ file ∈ files.toList, pipes.steady s file)
    (hinput : ∀ stream ∈ input, pipes.known s stream) :
    StallsExactly host capacity segments.length (startedStages noted) (result = .blocked) := by
  have hsettled {outcome : Except StartError (Started σ)} {started : Started σ}
      (h : settled? outcome = some started) : outcome ≠ .error .blocked := by
    intro hblocked
    rw [(settled?_eq_none_iff outcome).mpr hblocked] at h
    cases h
  induction h with
  | nil => exact (StallsExactly.nil host capacity 0).of_iff (by simp)
  | @blocked segment rest input env requested s connected after connection connects starts =>
    have hconnects := Host.BoundedPipes.connects_connect hvalid hfiles hinput connects
    have hstarts :=
      Host.BoundedPipes.starts_connected origin hconnects (hcreated segment) starts
    obtain ⟨hinner, hsize⟩ := hstarts.blocked_iff.mp rfl
    exact (StallsExactly.blocked hinner hsize).of_iff (by simp)
  | @exited segment rest input env requested s connected after connection outcome started code
      connects starts settles requests =>
    have hconnects := Host.BoundedPipes.connects_connect hvalid hfiles hinput connects
    have hstarts :=
      Host.BoundedPipes.starts_connected origin hconnects (hcreated segment) starts
    have hfits := mt hstarts.blocked_iff.mpr (hsettled settles)
    have hreports := onlyReports_failureReports host outcome
    rw [← List.append_nil (failureReports host outcome), startedStages_started _ hreports]
    exact .cons hfits ((StallsExactly.nil host capacity _).of_iff (by simp))
  | @next segment rest input env requested s connected after connection outcome started more result
      connects starts settles requests others ih =>
    have hconnects := Host.BoundedPipes.connects_connect hvalid hfiles hinput connects
    have hstarts :=
      Host.BoundedPipes.starts_connected origin hconnects (hcreated segment) starts
    have hfits := mt hstarts.blocked_iff.mpr (hsettled settles)
    obtain ⟨hlater, hnext⟩ :=
      Host.BoundedPipes.later_started hconnects hstarts (hsettled settles)
    have hmore := ih (pipes.valid_of_later hlater)
      (fun file hfile => pipes.steady_of_later hlater (hfiles file hfile)) hnext
    rw [startedStages_started _ (onlyReports_failureReports host outcome)]
    refine .cons hfits (hmore.of_iff ?_)
    cases result <;> simp [LaunchResult.cons]

/-! ## The whole pipeline -/

/-- The files that are opened for redirections are steady streams. -/
theorem openRedirections_steady {host : Host σ η} {capacity : Nat}
    (pipes : host.BoundedPipes capacity) {directory : Path} {files : OutputFiles η}
    {redirections : List Redirection} {s s' : σ}
    {result : Except (Path × SystemError) (OutputFiles η)} (hvalid : pipes.valid s)
    (hfiles : ∀ file ∈ files.toList, pipes.steady s file)
    (h : openRedirections host directory files redirections s = (result, s')) :
    pipes.valid s' ∧
      ∀ opened, result = .ok opened → ∀ file ∈ opened.toList, pipes.steady s' file := by
  induction redirections generalizing files s with
  | nil =>
    cases h
    refine ⟨hvalid, ?_⟩
    rintro opened ⟨⟩
    exact hfiles
  | cons redirection rest ih =>
    obtain ⟨hopen, hsteady⟩ :=
      pipes.openOutput redirection.mode (directory.join redirection.path) hvalid
    rw [openRedirections, openRedirection] at h
    rcases hresult : host.openOutput redirection.mode (directory.join redirection.path) s with
      ⟨outcome, after⟩
    rw [hresult] at h hopen hsteady
    have hafter := pipes.valid_of_later hopen
    cases outcome with
    | error e =>
      cases h
      refine ⟨pipes.valid_of_later (pipes.later_closeAll hafter _), fun opened hopened => ?_⟩
      cases hopened
    | ok file =>
      have hclosed := pipes.later_closeAll hafter (files.get? redirection.stream).toList
      refine ih (pipes.valid_of_later hclosed) (fun other hother => ?_) h
      refine pipes.steady_of_later hclosed ?_
      rcases files.mem_toList_replace hother with rfl | hold
      · exact hsteady other rfl
      · exact pipes.steady_of_later hopen (hfiles other hold)

/-- The stages of a pipeline block the shell exactly by a stage that overflows its pipe. -/
theorem runStages_stallsExactly {host : Host σ η} {capacity : Nat}
    (pipes : host.BoundedPipes capacity) {files : OutputFiles η} (origin : Shell σ)
    {command : Segment → Command σ η}
    (hcreated : ∀ segment : Segment,
      Host.BoundedPipes.Created host segment.name segment.args (command segment))
    (segments : List Segment) (sh : Shell σ) (trace : List (ShellEvent σ η))
    (hvalid : pipes.valid sh.system) (hfiles : ∀ file ∈ files.toList, pipes.steady sh.system file) :
    ∃ noted,
      (runStages host.traced files (stagesOf (traceCommands origin command) segments)
        (sh.withTrace trace)).2.system.2 = trace ++ noted ∧
      StallsExactly host capacity segments.length (startedStages noted)
        ((runStages host files (stagesOf command segments) sh).1 = .error .blocked) := by
  rcases hlaunch : launch host files (stagesOf command segments) none sh.env sh.system with
    ⟨result, env, after⟩
  have hinput : ∀ stream ∈ (none : Option η), pipes.known sh.system stream := by
    rintro stream ⟨⟩
  obtain ⟨noted, reports, hrun, honly, htraced⟩ :=
    runStages_traced host files origin command segments sh trace hlaunch
  have hblocked : result.outcome host after = .error .blocked ↔ result = .blocked := by
    cases result <;> simp [LaunchResult.outcome]
  refine ⟨noted ++ reports, ?_, ?_⟩
  · rw [htraced]
    exact List.append_assoc ..
  · rw [startedStages_append, honly.startedStages_eq, List.append_nil,
      (runStages_eq_outcome hlaunch).1]
    exact (hrun.stallsExactly hcreated hvalid hfiles hinput).of_iff hblocked

/-- On a system with bounded pipes a pipeline blocks the shell exactly when a builtin in front of
another stage writes more than a pipe holds. It is then the last stage that was started: the shell
waits in it for the reader of its pipe, and has not started that reader. -/
theorem executePipeline_blocked_iff {host : Host σ η} {capacity : Nat}
    (pipes : host.BoundedPipes capacity) (p : Pipeline) {sh : Shell σ}
    (hvalid : pipes.valid sh.system) :
    let started := startedStages (pipelineTrace host (standardFactories host) p sh)
    ((sh.executePipeline host (standardFactories host) p).1 = .error .blocked ↔
        ∃ i, Overflows host capacity p.segments.length started i) ∧
      ∀ i, Overflows host capacity p.segments.length started i → started.length = i + 1 := by
  dsimp only
  suffices h : StallsExactly host capacity p.segments.length
      (startedStages (pipelineTrace host (standardFactories host) p sh))
      ((sh.executePipeline host (standardFactories host) p).1 = .error .blocked) from
    ⟨h.blocked_iff, h.length_eq⟩
  cases hlast : p.last? with
  | none =>
    have hnil : p.segments = [] := List.getLast?_eq_none_iff.mp hlast
    rw [pipelineTrace, executePipeline_of_empty _ _ hnil, executePipeline_of_empty _ _ hnil]
    exact (StallsExactly.nil ..).of_iff (by simp)
  | some last =>
    rcases hopen : openRedirections host sh.env.currentDirectory .none last.redirections
      sh.system with ⟨result, opened⟩
    obtain ⟨noted, hopenings, htraced⟩ := openRedirections_traced host _ [] hopen
    have hfiles : ∀ file ∈ (OutputFiles.none : OutputFiles η).toList,
        pipes.steady sh.system file := fun file hfile => absurd hfile List.not_mem_nil
    obtain ⟨hvalidOpened, hsteady⟩ := openRedirections_steady pipes hvalid hfiles hopen
    cases result with
    | error e =>
      have hrefused : (sh.executePipeline host (standardFactories host) p).1 =
          .ok redirectionFailed := by
        simp only [Shell.executePipeline, hlast, hopen]
      have hstarted : startedStages (pipelineTrace host (standardFactories host) p sh) = [] := by
        simp only [pipelineTrace, Shell.executePipeline, hlast, Shell.withTrace, htraced,
          report_traced]
        rw [List.nil_append, startedStages_append, hopenings.startedStages_eq]
        rfl
      rw [hrefused, hstarted]
      exact (StallsExactly.nil ..).of_iff (by simp)
    | ok files =>
      obtain ⟨started, htrace, hstalls⟩ := runStages_stallsExactly pipes sh
        (fun segment => Host.BoundedPipes.created_standardFactories host sh.env sh.system
          segment.name segment.args)
        p.segments ⟨sh.env, opened⟩ noted hvalidOpened (hsteady files rfl)
      rw [List.nil_append] at htraced
      rw [pipelineTrace, executePipeline_traced_of_opened host _ hlast htraced, htrace,
        startedStages_append, hopenings.startedStages_eq, List.nil_append,
        (executePipeline_of_opened host _ hlast hopen).1]
      exact hstalls

end

/-- With pipes of four bytes, the first of three stages writes its line, the second blocks the
shell, and the third is not started. -/
theorem executePipeline_blocked_echo :
    let host := Machine.host ⟨0, 1, 2⟩
    let device : Stream := .device .null .update
    let m : Machine := { Machine.ofFiles .empty [] with
      streams := #[device, device, device], pipeCapacity := 4 }
    let sh : Shell Machine := ⟨.initial [] ⟨"/"⟩, m⟩
    let p : Pipeline := ⟨[⟨"echo", ["abc"], []⟩, ⟨"echo", ["abcd"], []⟩, ⟨"pwd", [], []⟩]⟩
    m.Hosts ⟨0, 1, 2⟩ 4 ∧ (sh.executePipeline host (standardFactories host) p).1 = .error .blocked ∧
      (startedStages (pipelineTrace host (standardFactories host) p sh)).length = 2 := by
  intro host device m sh p
  have hpipes : ∀ stream ∈ m.streams, stream.pipe? = none := by
    simp [m, device, Stream.pipe?]
  have hhosts : m.Hosts ⟨0, 1, 2⟩ m.pipeCapacity :=
    .of_fresh rfl hpipes (Nat.zero_lt_succ 2) (by decide) (by decide)
  have hsizes : (startedStages (pipelineTrace host (standardFactories host) p sh)).map
      (StageEntry.outputSize host) = [4, 5] := by
    decide +kernel
  obtain ⟨first, rest, hstarted, -, hrest⟩ := List.map_eq_cons_iff.mp hsizes
  obtain ⟨second, more, hmore, hsize, -⟩ := List.map_eq_cons_iff.mp hrest
  have hoverflows : Overflows host 4 p.segments.length
      (startedStages (pipelineTrace host (standardFactories host) p sh)) 1 := by
    refine ⟨by decide, second, ?_, ?_⟩
    · rw [hstarted, hmore]
      rfl
    · rw [hsize]
      decide
  have hvalid : (Machine.boundedPipes ⟨0, 1, 2⟩ 4).valid sh.system := hhosts
  obtain ⟨hblocked, hlength⟩ := executePipeline_blocked_iff (Machine.boundedPipes _ 4) p hvalid
  exact ⟨hhosts, hblocked.mpr ⟨1, hoverflows⟩, hlength 1 hoverflows⟩

end LineShell
