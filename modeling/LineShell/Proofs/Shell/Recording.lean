import LineShell.Shell

/-!
# Recording a pipeline

A recorder stands between the shell and the system. It notes in a record each stage that the shell
starts and each child that it waits for, and changes nothing else. A stage that is finished after
its start has no child, so waiting for it is not noted.
-/

namespace LineShell

/-- What came of the start of a stage. -/
inductive StartOutcome where
  | finished (code : ExitCode)
  | running
  | failed (e : StartError)
  deriving DecidableEq, Repr

/-- The start of a stage: what was started, what came of it, and the request to leave the shell
that was pending afterwards. -/
structure StageStart where
  name : String
  args : List String
  outcome : StartOutcome
  pending : Option ExitCode
  deriving DecidableEq, Repr

/-- What a recorder notes. The stages are numbered in the order of their starts, from zero. -/
inductive StageEvent where
  | started (start : StageStart)
  | waited (stage : Nat) (outcome : Except SystemError WaitStatus)

/-- Whether an event is the start of a stage. -/
def StageEvent.isStart : StageEvent → Bool
  | started _ => true
  | waited _ _ => false

/-- The number of stages that have been started. -/
def startCount (record : List StageEvent) : Nat := record.countP StageEvent.isStart

/-- A state of the system with a record beside it. -/
abbrev Recorded (σ : Type) := σ × List StageEvent

section

variable {σ η : Type}

/-- The result of an operation that notes nothing, with the record beside the state. -/
def withRecord {α : Type} (record : List StageEvent) (result : α × σ) : α × Recorded σ :=
  (result.1, result.2, record)

/-- The shell with a record beside the state of its system. -/
def Shell.withRecord (record : List StageEvent) (sh : Shell σ) : Shell (Recorded σ) :=
  ⟨sh.env, sh.system, record⟩

/-- The system with a record beside its states. None of its operations is noted. -/
def Host.recorded (host : Host σ η) : Host (Recorded σ) η where
  terminal := host.terminal
  pipe s := withRecord s.2 (host.pipe s.1)
  openOutput mode path s := withRecord s.2 (host.openOutput mode path s.1)
  write stream bytes s := withRecord s.2 (host.write stream bytes s.1)
  close stream s := (host.close stream s.1, s.2)
  isFile s := host.isFile s.1
  isDirectory s := host.isDirectory s.1
  canonicalPath s := host.canonicalPath s.1
  changeDirectory path s := withRecord s.2 (host.changeDirectory path s.1)
  spawn launch streams s :=
    match host.spawn launch streams s.1 with
    | (.ok child, after) => (.ok fun s => withRecord s.2 (child s.1), after, s.2)
    | (.error e, after) => (.error e, after, s.2)

/-- The child of the stage with the given number. Waiting for it is noted. -/
def recordChild (stage : Nat) (child : Child σ) : Child (Recorded σ) := fun s =>
  match child s.1 with
  | (outcome, after) => (outcome, after, s.2 ++ [.waited stage outcome])

/-- The stage with the given number, with its child recorded. -/
def Started.recorded (stage : Nat) : Started σ → Started (Recorded σ)
  | finished code => finished code
  | running child => running (recordChild stage child)

/-- What came of a start. -/
def StartOutcome.of : Except StartError (Started σ) → StartOutcome
  | .ok (.finished code) => finished code
  | .ok (.running _) => running
  | .error e => failed e

/-- The start of a stage with the given result and environment. -/
def StageStart.ofResult (name : String) (args : List String)
    (result : Except StartError (Started σ)) (env : Environment) : StageStart :=
  ⟨name, args, .of result, env.exitRequest⟩

/-- The command whose start is noted. -/
def Command.recorded (name : String) (args : List String) (command : Command σ η) :
    Command (Recorded σ) η where
  start streams env s :=
    match command.start streams env s.1 with
    | (result, env, after) =>
      (result.map (Started.recorded (startCount s.2)), env, after,
        s.2 ++ [.started (.ofResult name args result env)])

/-- The commands of segments, recorded. -/
def recordCommands (command : Segment → Command σ η) (segment : Segment) :
    Command (Recorded σ) η :=
  (command segment).recorded segment.name segment.args

/-- The stages of segments with the given commands. -/
def stagesOf (command : Segment → Command σ η) (segments : List Segment) : List (Stage σ η) :=
  segments.map fun segment => ⟨segment.name, command segment⟩

/-- The first stage has the command of the first segment. -/
theorem stagesOf_cons (command : Segment → Command σ η) (segment : Segment)
    (rest : List Segment) :
    stagesOf command (segment :: rest) =
      ⟨segment.name, command segment⟩ :: stagesOf command rest := rfl

/-- There are no stages exactly when there are no segments. -/
theorem isEmpty_stagesOf (command : Segment → Command σ η) (segments : List Segment) :
    (stagesOf command segments).isEmpty = segments.isEmpty := List.isEmpty_map

/-- The maker of the recorded commands. It claims every name, so that stages for unknown names are
recorded as well. -/
def recorder (host : Host σ η) (factories : List (Factory σ η)) : Factory (Recorded σ) η where
  create? env s name args :=
    some ((Command.create host factories env s.1 name args).recorded name args)

/-- The record of a pipeline: what a recorder notes while the shell executes it. -/
def stageRecord (host : Host σ η) (factories : List (Factory σ η)) (p : Pipeline)
    (sh : Shell σ) : List StageEvent :=
  (Shell.executePipeline host.recorded [recorder host factories] p
    (sh.withRecord [])).2.system.2

/-- Waiting for a recorded child gives what waiting for the child gives, and is noted. -/
theorem recordChild_eq {child : Child σ} {s s' : σ} {outcome : Except SystemError WaitStatus}
    (h : child s = (outcome, s')) (stage : Nat) (record : List StageEvent) :
    recordChild stage child (s, record) = (outcome, s', record ++ [.waited stage outcome]) := by
  simp only [recordChild, h]

/-- A recorded command starts as the command does, and its start is noted. -/
theorem Command.start_recorded {command : Command σ η} {streams : Streams η}
    {env env' : Environment} {s s' : σ} {result : Except StartError (Started σ)}
    (h : command.start streams env s = (result, env', s')) (name : String) (args : List String)
    (record : List StageEvent) :
    (command.recorded name args).start streams env (s, record) =
      (result.map (Started.recorded (startCount record)), env', s',
        record ++ [.started (.ofResult name args result env')]) := by
  simp only [recorded, h]

/-! ## Operations that are not noted -/

/-- Closing streams leaves the record as it is. -/
theorem closeAll_recorded (host : Host σ η) (streams : List η) (s : σ)
    (record : List StageEvent) :
    host.recorded.closeAll streams (s, record) = (host.closeAll streams s, record) := by
  induction streams generalizing s with
  | nil => rfl
  | cons stream rest ih => exact ih (host.close stream s)

/-- Reports leave the record as it is. -/
theorem report_recorded (host : Host σ η) (message : String) (s : σ)
    (record : List StageEvent) :
    host.recorded.report message (s, record) = (host.report message s, record) := rfl

/-- Connecting a stage leaves the record as it is. -/
theorem connect_recorded (host : Host σ η) (files : OutputFiles η) (isLast : Bool)
    (input : Option η) (s : σ) (record : List StageEvent) :
    connect host.recorded files isLast input (s, record) =
      withRecord record (connect host files isLast input s) := by
  cases isLast <;> rfl

/-- Opening redirections leaves the record as it is. -/
theorem openRedirections_recorded (host : Host σ η) (directory : Path) (files : OutputFiles η)
    (redirections : List Redirection) (s : σ) (record : List StageEvent) :
    openRedirections host.recorded directory files redirections (s, record) =
      withRecord record (openRedirections host directory files redirections s) := by
  induction redirections generalizing files s with
  | nil => rfl
  | cons redirection rest ih =>
    have hopen : openRedirection host.recorded directory redirection (s, record) =
        withRecord record (openRedirection host directory redirection s) := rfl
    rw [openRedirections, openRedirections, hopen]
    obtain ⟨result, after⟩ := openRedirection host directory redirection s
    cases result with
    | ok file => simp only [withRecord, closeAll_recorded, ih]
    | error e => simp only [withRecord, closeAll_recorded]

/-- The commands of a pipeline are known by a function of the segments. -/
theorem createStages_eq (host : Host σ η) (factories : List (Factory σ η)) (sh : Shell σ)
    (segments : List Segment) :
    createStages host factories sh segments =
      stagesOf (fun segment =>
        Command.create host factories sh.env sh.system segment.name segment.args) segments := rfl

/-- The recorder gives the commands of a pipeline, recorded. -/
theorem createStages_recorder (host : Host σ η) (factories : List (Factory σ η)) (sh : Shell σ)
    (segments : List Segment) (record : List StageEvent) :
    createStages host.recorded [recorder host factories] (sh.withRecord record) segments =
      stagesOf (recordCommands fun segment =>
        Command.create host factories sh.env sh.system segment.name segment.args) segments := rfl

end

end LineShell
