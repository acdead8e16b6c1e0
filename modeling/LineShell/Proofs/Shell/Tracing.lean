import LineShell.Proofs.Shell.Stages

/-!
# Tracing a pipeline

A tracer stands between the shell and the system and changes nothing. Its trace holds what the
shell itself asks of the system where others can see it: the files that it opens, the bytes that it
writes, and the stages that it starts, each with everything that it is given. What a stage does
between its start and its end is its own affair and does not show in the trace.
-/

namespace LineShell

/-- A stage as it is started. -/
structure StageEntry (σ η : Type) where
  name : String
  args : List String
  /-- The shell from which the command of the stage was created. -/
  origin : Shell σ
  streams : Streams η
  /-- The shell in which the stage is started. -/
  shell : Shell σ

/-- What a tracer notes. -/
inductive ShellEvent (σ η : Type) where
  | opened (mode : RedirectMode) (path : Path) (outcome : Except SystemError η)
  | wrote (stream : η) (bytes : ByteArray)
  | started (entry : StageEntry σ η)

/-- A state of the system with a trace beside it. -/
abbrev Traced (σ η : Type) := σ × List (ShellEvent σ η)

section

variable {σ η : Type}

namespace ShellEvent

/-- The stage that an event starts. -/
def entry? : ShellEvent σ η → Option (StageEntry σ η)
  | started entry => some entry
  | _ => none

/-- The report of a message of the shell on the terminal. -/
def report (host : Host σ η) (message : String) : ShellEvent σ η :=
  wrote host.terminal.stderr ((shellName ++ ": " ++ message).push '\n').toUTF8

end ShellEvent

/-- The stages that are started in a trace. -/
def startedStages (trace : List (ShellEvent σ η)) : List (StageEntry σ η) :=
  trace.filterMap ShellEvent.entry?

/-- A trace in which the shell does nothing but report. -/
def OnlyReports (host : Host σ η) (trace : List (ShellEvent σ η)) : Prop :=
  ∀ event ∈ trace, ∃ message, event = .report host message

/-- The result of an operation, with a trace beside the state. -/
def withTrace {α : Type} (trace : List (ShellEvent σ η)) (result : α × σ) : α × Traced σ η :=
  (result.1, result.2, trace)

/-- The shell with a trace beside the state of its system. -/
def Shell.withTrace (trace : List (ShellEvent σ η)) (sh : Shell σ) : Shell (Traced σ η) :=
  ⟨sh.env, sh.system, trace⟩

/-- The child that passes a trace on. -/
def traceChild (child : Child σ) : Child (Traced σ η) := fun s => withTrace s.2 (child s.1)

/-- The system with a trace beside its states. -/
def Host.traced (host : Host σ η) : Host (Traced σ η) η where
  terminal := host.terminal
  pipe s := LineShell.withTrace s.2 (host.pipe s.1)
  openOutput mode path s :=
    match host.openOutput mode path s.1 with
    | (outcome, after) => (outcome, after, s.2 ++ [.opened mode path outcome])
  write stream bytes s :=
    LineShell.withTrace (s.2 ++ [.wrote stream bytes]) (host.write stream bytes s.1)
  close stream s := (host.close stream s.1, s.2)
  isFile s := host.isFile s.1
  isDirectory s := host.isDirectory s.1
  canonicalPath s := host.canonicalPath s.1
  changeDirectory path s := LineShell.withTrace s.2 (host.changeDirectory path s.1)
  spawn launch streams s :=
    match host.spawn launch streams s.1 with
    | (.ok child, after) => (.ok (traceChild child), after, s.2)
    | (.error e, after) => (.error e, after, s.2)

/-- The stage whose child passes a trace on. -/
def Started.traced : Started σ → Started (Traced σ η)
  | finished code => finished code
  | running child => running (traceChild child)

/-- The command whose start is noted, when it was created from the given shell. -/
def Command.traced (origin : Shell σ) (name : String) (args : List String)
    (command : Command σ η) : Command (Traced σ η) η where
  start streams env s :=
    match command.start streams env s.1 with
    | (result, after, system) =>
      (result.map Started.traced, after, system,
        s.2 ++ [.started ⟨name, args, origin, streams, ⟨env, s.1⟩⟩])

/-- The commands of segments, traced. -/
def traceCommands (origin : Shell σ) (command : Segment → Command σ η) (segment : Segment) :
    Command (Traced σ η) η :=
  (command segment).traced origin segment.name segment.args

/-- The maker of the traced commands. It claims every name, so that stages for unknown names are
traced as well. -/
def tracer (host : Host σ η) (factories : List (Factory σ η)) : Factory (Traced σ η) η where
  create? env s name args :=
    some ((Command.create host factories env s.1 name args).traced ⟨env, s.1⟩ name args)

/-- The trace of a pipeline. -/
def pipelineTrace (host : Host σ η) (factories : List (Factory σ η)) (p : Pipeline)
    (sh : Shell σ) : List (ShellEvent σ η) :=
  (Shell.executePipeline host.traced [tracer host factories] p (sh.withTrace [])).2.system.2

/-- The stages whose children pass a trace on. -/
def traceStages (stages : List (String × Started σ)) :
    List (String × Started (Traced σ η)) :=
  stages.map fun stage => (stage.1, stage.2.traced)

/-- The result of starting traced stages. -/
def LaunchResult.traced : LaunchResult σ → LaunchResult (Traced σ η)
  | all stages => all (traceStages stages)
  | exited code => exited code
  | blocked => blocked

/-! ## Operations under a tracer -/

/-- Nothing is reported in an empty trace. -/
theorem OnlyReports.nil (host : Host σ η) : OnlyReports host [] :=
  fun _ h => absurd h List.not_mem_nil

/-- One report. -/
theorem OnlyReports.single (host : Host σ η) (message : String) :
    OnlyReports host [.report host message] :=
  fun _ h => ⟨message, List.mem_singleton.mp h⟩

/-- Reports in a row. -/
theorem OnlyReports.append {host : Host σ η} {first second : List (ShellEvent σ η)}
    (hfirst : OnlyReports host first) (hsecond : OnlyReports host second) :
    OnlyReports host (first ++ second) :=
  fun event h => (List.mem_append.mp h).elim (hfirst event) (hsecond event)

/-- Reports start no stage. -/
theorem OnlyReports.startedStages_eq {host : Host σ η} {trace : List (ShellEvent σ η)}
    (h : OnlyReports host trace) : startedStages trace = [] := by
  refine List.filterMap_eq_nil_iff.mpr fun event hmem => ?_
  obtain ⟨message, rfl⟩ := h event hmem
  rfl

/-- The stages that are started in traces one after the other. -/
theorem startedStages_append (first second : List (ShellEvent σ η)) :
    startedStages (first ++ second) = startedStages first ++ startedStages second :=
  List.filterMap_append

/-- A stage whose start is noted comes before the stages that are noted later. -/
theorem startedStages_started {host : Host σ η} (entry : StageEntry σ η)
    {reports : List (ShellEvent σ η)} (h : OnlyReports host reports)
    (more : List (ShellEvent σ η)) :
    startedStages (.started entry :: (reports ++ more)) = entry :: startedStages more := by
  have hreports : startedStages (reports ++ more) = startedStages more := by
    rw [startedStages_append, h.startedStages_eq, List.nil_append]
  exact congrArg (entry :: ·) hreports

/-- Closing streams does not show in a trace. -/
theorem closeAll_traced (host : Host σ η) (streams : List η) (s : σ)
    (trace : List (ShellEvent σ η)) :
    host.traced.closeAll streams (s, trace) = (host.closeAll streams s, trace) := by
  induction streams generalizing s with
  | nil => rfl
  | cons stream rest ih => exact ih (host.close stream s)

/-- Connecting a stage does not show in a trace. -/
theorem connect_traced (host : Host σ η) (files : OutputFiles η) (isLast : Bool)
    (input : Option η) (s : σ) (trace : List (ShellEvent σ η)) :
    connect host.traced files isLast input (s, trace) =
      withTrace trace (connect host files isLast input s) := by
  cases isLast <;> rfl

/-- A report is noted. -/
theorem report_traced (host : Host σ η) (message : String) (s : σ)
    (trace : List (ShellEvent σ η)) :
    host.traced.report message (s, trace) =
      (host.report message s, trace ++ [.report host message]) := rfl

/-- A traced command starts as the command does, and its start is noted. -/
theorem Command.start_traced {command : Command σ η} {streams : Streams η}
    {env env' : Environment} {s s' : σ} {result : Except StartError (Started σ)}
    (h : command.start streams env s = (result, env', s')) (origin : Shell σ) (name : String)
    (args : List String) (trace : List (ShellEvent σ η)) :
    (command.traced origin name args).start streams env (s, trace) =
      (result.map Started.traced, env', s',
        trace ++ [.started ⟨name, args, origin, streams, ⟨env, s⟩⟩]) := by
  simp only [traced, h]

/-- A traced start counts as the traced stage. -/
theorem settled?_traced (result : Except StartError (Started σ)) :
    settled? (result.map (Started.traced (η := η))) = (settled? result).map Started.traced := by
  cases result with
  | ok started => rfl
  | error e => cases e <;> rfl

/-- The reports of a start that failed. -/
def failureReports (host : Host σ η) : Except StartError (Started σ) → List (ShellEvent σ η)
  | .ok _ => []
  | .error e => [.report host e.message]

/-- A start that failed leads to nothing but reports. -/
theorem onlyReports_failureReports (host : Host σ η) (result : Except StartError (Started σ)) :
    OnlyReports host (failureReports host result) := by
  cases result with
  | ok started => exact .nil host
  | error e => exact .single host e.message

/-- The report of a failure is noted. -/
theorem reportFailure_traced (host : Host σ η) (result : Except StartError (Started σ)) (s : σ)
    (trace : List (ShellEvent σ η)) :
    reportFailure host.traced (result.map Started.traced) (s, trace) =
      (reportFailure host result s, trace ++ failureReports host result) := by
  cases result with
  | ok started => exact congrArg (Prod.mk s) (List.append_nil trace).symm
  | error e => exact report_traced host e.message s trace

/-- A traced result has one more stage before the others when the result has. -/
theorem LaunchResult.traced_cons (name : String) (started : Started σ) (result : LaunchResult σ) :
    (result.cons (name, started)).traced (η := η) =
      result.traced.cons (name, started.traced) := by
  cases result <;> rfl

/-! ## Waiting under a tracer -/

/-- A child that passes a trace on ends as the child does. -/
theorem traceChild_eq {child : Child σ} {s s' : σ} {outcome : Except SystemError WaitStatus}
    (h : child s = (outcome, s')) (trace : List (ShellEvent σ η)) :
    traceChild child (s, trace) = (outcome, s', trace) := by
  simp only [traceChild, withTrace, h]

/-- The reports of a wait that failed. -/
def waitReports (host : Host σ η) (name : String) :
    Except SystemError WaitStatus → List (ShellEvent σ η)
  | .ok _ => []
  | .error e => [.report host (name ++ ": " ++ e.message)]

/-- A wait that failed leads to nothing but reports. -/
theorem onlyReports_waitReports (host : Host σ η) (name : String)
    (outcome : Except SystemError WaitStatus) :
    OnlyReports host (waitReports host name outcome) := by
  cases outcome with
  | ok status => exact .nil host
  | error e => exact .single host _

/-- The report of a wait is noted. -/
theorem reportWait_traced (host : Host σ η) (name : String)
    (outcome : Except SystemError WaitStatus) (s : σ) (trace : List (ShellEvent σ η)) :
    reportWait host.traced name outcome (s, trace) =
      (reportWait host name outcome s, trace ++ waitReports host name outcome) := by
  cases outcome with
  | ok status => exact congrArg (Prod.mk s) (List.append_nil trace).symm
  | error e => exact report_traced host (name ++ ": " ++ e.message) s trace

/-- Waiting for traced stages does what waiting for the stages does, and shows only in reports. -/
theorem waitAll_traced (host : Host σ η) (code : ExitCode) (stages : List (String × Started σ))
    (s : σ) (trace : List (ShellEvent σ η)) :
    ∃ reports, OnlyReports host reports ∧
      waitAll host.traced code (traceStages stages) (s, trace) =
        withTrace (trace ++ reports) (waitAll host code stages s) := by
  induction stages generalizing code s trace with
  | nil =>
    refine ⟨[], .nil host, ?_⟩
    rw [List.append_nil]
    rfl
  | cons stage rest ih =>
    obtain ⟨name, started⟩ := stage
    cases started with
    | finished own => exact ih own s trace
    | running child =>
      rcases hchild : child s with ⟨outcome, after⟩
      obtain ⟨reports, honly, hrest⟩ := ih (waitCode outcome) (reportWait host name outcome after)
        (trace ++ waitReports host name outcome)
      refine ⟨waitReports host name outcome ++ reports,
        (onlyReports_waitReports host name outcome).append honly, ?_⟩
      rw [waitAll_running host hchild, ← List.append_assoc, ← hrest, ← reportWait_traced]
      exact waitAll_running host.traced (traceChild_eq hchild trace) code name _

end

end LineShell
