import LineShell.Proofs.Shell.Recording

/-!
# The stages of a pipeline

Which stages a pipeline starts, which of them it waits for, and the code that it gives. The stages
are started from left to right, whether or not the ones before could be started. The first start
after which a request to leave the shell is pending ends the pipeline with the requested code, and
nothing is waited for. Otherwise all stages are started first and waited for afterwards.
-/

namespace LineShell

/-- The code of a stage that needs no waiting. A stage that could not be started has one. -/
def StartOutcome.code? : StartOutcome → Option ExitCode
  | finished code => some code
  | running => none
  | failed _ => some .cannotExecute

/-- The code of a stage that had to be waited for. -/
def waitCode : Except SystemError WaitStatus → ExitCode
  | .ok status => status.exitCode
  | .error _ => .cannotExecute

/-- The name and the arguments of a stage that was started. -/
def StageStart.call (start : StageStart) : String × List String := (start.name, start.args)

/-- The name and the arguments of a stage. -/
def Segment.call (segment : Segment) : String × List String := (segment.name, segment.args)

/-- Whether the shell goes on after a start: the start came to an end, and no request to leave the
shell is pending. -/
structure StageStart.GoesOn (start : StageStart) : Prop where
  returns : start.outcome ≠ .failed .blocked
  pending_eq_none : start.pending = none

/-- The waits for numbered stages, given what each wait gives. Only running stages have one. -/
def waits (wait : Nat → Except SystemError WaitStatus) (starts : List (StageStart × Nat)) :
    List StageEvent :=
  (starts.filter fun stage => stage.1.outcome.code?.isNone).map fun stage =>
    .waited stage.2 (wait stage.2)

/-- The codes of numbered stages, given what each wait gives. -/
def exitCodes (wait : Nat → Except SystemError WaitStatus) (starts : List (StageStart × Nat)) :
    List ExitCode :=
  starts.map fun stage => stage.1.outcome.code?.getD (waitCode (wait stage.2))

/-- The records of pipelines with the given segments, and the results that belong to them. -/
inductive PipelineRecord (segments : List Segment) :
    List StageEvent → Except LineError ExitCode → Prop where
  /-- A request to leave the shell was pending after the last start. -/
  | exited {starts : List StageStart} {start : StageStart} {code : ExitCode}
      (calls : (starts ++ [start]).map StageStart.call <+: segments.map Segment.call)
      (goesOn : ∀ other ∈ starts, other.GoesOn) (returns : start.outcome ≠ .failed .blocked)
      (pending : start.pending = some code) :
      PipelineRecord segments ((starts ++ [start]).map .started) (.ok code)
  /-- The last start never came to an end. -/
  | blocked {starts : List StageStart} {start : StageStart}
      (calls : (starts ++ [start]).map StageStart.call <+: segments.map Segment.call)
      (goesOn : ∀ other ∈ starts, other.GoesOn) (blocked : start.outcome = .failed .blocked) :
      PipelineRecord segments ((starts ++ [start]).map .started) (.error .blocked)
  /-- All stages were started, and then the running ones were waited for in the same order. -/
  | ended {starts : List StageStart} (wait : Nat → Except SystemError WaitStatus)
      (calls : starts.map StageStart.call = segments.map Segment.call)
      (goesOn : ∀ start ∈ starts, start.GoesOn) :
      PipelineRecord segments (starts.map .started ++ waits wait starts.zipIdx)
        (.ok ((exitCodes wait starts.zipIdx).getLastD 0))

section

variable {σ η : Type}

/-- A command leaves a request to leave the shell pending. -/
def Command.KeepsExitRequest (command : Command σ η) : Prop :=
  ∀ streams env s, env.exitRequest.isSome → (command.start streams env s).2.1.exitRequest.isSome

/-- The stage as which a start counts when it came to an end. -/
def settled? : Except StartError (Started σ) → Option (Started σ)
  | .ok started => some started
  | .error .blocked => none
  | .error _ => some (.finished .cannotExecute)

/-- Reports why a stage could not be started. -/
def reportFailure (host : Host σ η) : Except StartError (Started σ) → σ → σ
  | .ok _, s => s
  | .error e, s => host.report e.message s

/-- Reports why a stage could not be waited for. -/
def reportWait (host : Host σ η) (name : String) : Except SystemError WaitStatus → σ → σ
  | .ok _, s => s
  | .error e, s => host.report (name ++ ": " ++ e.message) s

/-- Numbered stages whose children are recorded. -/
def recordStages (stages : List ((String × Started σ) × Nat)) :
    List (String × Started (Recorded σ)) :=
  stages.map fun stage => (stage.1.1, stage.1.2.recorded stage.2)

/-- The result of starting recorded stages, of which the first has the given number. -/
def LaunchResult.recorded (first : Nat) : LaunchResult σ → LaunchResult (Recorded σ)
  | all stages => all (recordStages (stages.zipIdx first))
  | exited code => exited code
  | blocked => blocked

/-- The code of a stage that needs no waiting. -/
def Started.code? : Started σ → Option ExitCode
  | finished code => some code
  | running _ => none

/-- How the starts of the stages of some segments lead to the result of launching the stages. -/
inductive Launched : List Segment → List StageStart → LaunchResult σ → Prop where
  | nil : Launched [] [] (.all [])
  | blocked {segment : Segment} {rest : List Segment} {start : StageStart}
      (call : start.call = segment.call) (blocked : start.outcome = .failed .blocked) :
      Launched (segment :: rest) [start] .blocked
  | exited {segment : Segment} {rest : List Segment} {start : StageStart} {code : ExitCode}
      (call : start.call = segment.call) (returns : start.outcome ≠ .failed .blocked)
      (pending : start.pending = some code) :
      Launched (segment :: rest) [start] (.exited code)
  | cons {segment : Segment} {rest : List Segment} {start : StageStart}
      {starts : List StageStart} {stage : String × Started σ} {result : LaunchResult σ}
      (call : start.call = segment.call) (goesOn : start.GoesOn)
      (code : start.outcome.code? = stage.2.code?) (more : Launched rest starts result) :
      Launched (segment :: rest) (start :: starts) (result.cons stage)

/-! ## Starting the stages -/

/-- One stage is connected and started, and the shell goes on with the rest unless the start never
came to an end or a request to leave is pending. -/
theorem launch_cons (host : Host σ η) (files : OutputFiles η) (stage : Stage σ η)
    (rest : List (Stage σ η)) (input : Option η) (env : Environment) (s : σ) :
    launch host files (stage :: rest) input env s =
      match connect host files rest.isEmpty input s with
      | (connection, s) =>
        match stage.command.start connection.streams env s with
        | (result, env, s) =>
          match settled? result with
          | none => (.blocked, env, s)
          | some started =>
            match env.exitRequest with
            | some code =>
              (.exited code, env,
                host.closeAll (connection.next.toList ++ if rest.isEmpty then [] else files.toList)
                  (reportFailure host result (host.closeAll connection.own s)))
            | none =>
              match launch host files rest connection.next env
                (reportFailure host result (host.closeAll connection.own s)) with
              | (result, env, s) => (result.cons (stage.name, started), env, s) := by
  rcases hconnect : connect host files rest.isEmpty input s with ⟨connection, connected⟩
  rcases hstart : stage.command.start connection.streams env connected with ⟨result, after⟩
  rw [launch]
  simp only [hconnect, hstart]
  cases result with
  | ok started => rfl
  | error e => cases e <;> rfl

/-- A recorded start counts as the recorded stage. -/
theorem settled?_recorded (first : Nat) (result : Except StartError (Started σ)) :
    settled? (result.map (Started.recorded first)) =
      (settled? result).map (Started.recorded first) := by
  cases result with
  | ok started => rfl
  | error e => cases e <;> rfl

/-- Reports of failures leave the record as it is. -/
theorem reportFailure_recorded (host : Host σ η) (first : Nat)
    (result : Except StartError (Started σ)) (s : σ) (record : List StageEvent) :
    reportFailure host.recorded (result.map (Started.recorded first)) (s, record) =
      (reportFailure host result s, record) := by
  cases result with
  | ok started => rfl
  | error e => exact report_recorded host e.message s record

/-- A start that does not count never came to an end. -/
theorem StartOutcome.of_eq_blocked {result : Except StartError (Started σ)}
    (h : settled? result = none) : StartOutcome.of result = .failed .blocked := by
  cases result with
  | ok started => cases h
  | error e => cases e <;> first | rfl | cases h

/-- A start that counts came to an end, and its code is that of the stage as which it counts. -/
theorem StartOutcome.of_settled {result : Except StartError (Started σ)} {started : Started σ}
    (h : settled? result = some started) :
    StartOutcome.of result ≠ .failed .blocked ∧ (StartOutcome.of result).code? = started.code? := by
  cases result with
  | ok other =>
    obtain rfl := Option.some.inj h
    cases other <;> exact ⟨nofun, rfl⟩
  | error e =>
    cases e with
    | blocked => cases h
    | _ =>
      obtain rfl := Option.some.inj h
      exact ⟨nofun, rfl⟩

/-- A recorded result has one more stage before the others when the result has. -/
theorem LaunchResult.recorded_cons (first : Nat) (name : String) (started : Started σ)
    (result : LaunchResult σ) :
    (result.cons (name, started)).recorded first =
      (result.recorded (first + 1)).cons (name, started.recorded first) := by
  cases result <;> rfl

/-- A start is counted. -/
theorem startCount_append_started (record : List StageEvent) (start : StageStart) :
    startCount (record ++ [.started start]) = startCount record + 1 := by
  rw [startCount, List.countP_append]
  rfl

/-- Launching recorded stages does what launching the stages does, and notes the starts. -/
theorem launch_recorded (host : Host σ η) (files : OutputFiles η)
    (command : Segment → Command σ η) {segments : List Segment} {input : Option η}
    {env env' : Environment} {s s' : σ} {result : LaunchResult σ} (record : List StageEvent)
    (h : launch host files (stagesOf command segments) input env s = (result, env', s')) :
    ∃ starts, Launched segments starts result ∧
      launch host.recorded files (stagesOf (recordCommands command) segments) input env
          (s, record) =
        (result.recorded (startCount record), env', s', record ++ starts.map .started) := by
  induction segments generalizing input env s record result with
  | nil =>
    rw [stagesOf, List.map_nil, launch] at h
    cases h
    exact ⟨[], .nil, by rw [List.map_nil, List.append_nil]; rfl⟩
  | cons segment rest ih =>
    rw [stagesOf_cons, launch_cons, isEmpty_stagesOf] at h
    rw [stagesOf_cons, launch_cons, isEmpty_stagesOf, connect_recorded]
    rcases hconnect : connect host files rest.isEmpty input s with ⟨connection, connected⟩
    rcases hstart : (command segment).start connection.streams env connected with
      ⟨outcome, requested, after⟩
    simp only [hconnect, hstart] at h
    simp only [withRecord, recordCommands, Command.start_recorded hstart, settled?_recorded]
    have hcall : (StageStart.ofResult segment.name segment.args outcome requested).call =
        segment.call := rfl
    cases hsettled : settled? outcome with
    | none =>
      simp only [hsettled] at h
      cases h
      exact ⟨_, .blocked hcall (StartOutcome.of_eq_blocked hsettled), rfl⟩
    | some started =>
      obtain ⟨hreturns, hcode⟩ := StartOutcome.of_settled hsettled
      simp only [hsettled] at h
      simp only [Option.map_some, closeAll_recorded, reportFailure_recorded]
      cases hrequest : requested.exitRequest with
      | some code =>
        simp only [hrequest] at h
        cases h
        exact ⟨_, .exited hcall hreturns hrequest, rfl⟩
      | none =>
        simp only [hrequest] at h
        rcases hrest : launch host files (stagesOf command rest) connection.next requested
            (reportFailure host outcome (host.closeAll connection.own after)) with
          ⟨more, env', s'⟩
        rw [hrest] at h
        cases h
        -- The rest is launched with the start in the record, which counts it.
        obtain ⟨starts, hlaunched, hrecorded⟩ :=
          ih (record ++ [.started (.ofResult segment.name segment.args outcome requested)]) hrest
        refine ⟨_ :: starts, .cons hcall ⟨hreturns, hrequest⟩ hcode hlaunched, ?_⟩
        simp only [hrecorded, startCount_append_started, LaunchResult.recorded_cons, List.map_cons,
          List.append_assoc, List.singleton_append]

/-- When all stages have been launched, the shell went on after each start. -/
theorem Launched.of_all {segments : List Segment} {starts : List StageStart}
    {stages : List (String × Started σ)} (h : Launched segments starts (.all stages)) :
    starts.map StageStart.call = segments.map Segment.call ∧ (∀ start ∈ starts, start.GoesOn) ∧
      starts.map (·.outcome.code?) = stages.map (·.2.code?) := by
  generalize hresult : LaunchResult.all stages = result at h
  induction h generalizing stages with
  | nil =>
    cases hresult
    exact ⟨rfl, fun _ h => absurd h List.not_mem_nil, rfl⟩
  | blocked => cases hresult
  | exited => cases hresult
  | @cons segment rest start starts stage result call goesOn code more ih =>
    cases result with
    | exited => cases hresult
    | blocked => cases hresult
    | all others =>
      cases hresult
      obtain ⟨hcalls, hgoesOn, hcodes⟩ := ih rfl
      refine ⟨?_, List.forall_mem_cons.mpr ⟨goesOn, hgoesOn⟩, ?_⟩
      · rw [List.map_cons, List.map_cons, call, hcalls]
      · rw [List.map_cons, List.map_cons, code, hcodes]

/-- When not all stages have been launched, the shell went on after each start but the last one. -/
theorem Launched.exists_last {segments : List Segment} {starts : List StageStart}
    {result : LaunchResult σ} (h : Launched segments starts result)
    (hresult : ∀ stages, result ≠ .all stages) :
    ∃ before start, starts = before ++ [start] ∧
      (before ++ [start]).map StageStart.call <+: segments.map Segment.call ∧
      (∀ other ∈ before, other.GoesOn) ∧
      ((result = .blocked ∧ start.outcome = .failed .blocked) ∨
        ∃ code, result = .exited code ∧ start.outcome ≠ .failed .blocked ∧
          start.pending = some code) := by
  have hnil : ∀ other ∈ ([] : List StageStart), other.GoesOn := fun _ h => absurd h List.not_mem_nil
  induction h with
  | nil => exact absurd rfl (hresult [])
  | @blocked segment rest start call blocked =>
    refine ⟨[], start, rfl, ?_, hnil, .inl ⟨rfl, blocked⟩⟩
    rw [List.nil_append, List.map_singleton, List.map_cons, call]
    exact List.prefix_append [segment.call] (rest.map Segment.call)
  | @exited segment rest start code call returns pending =>
    refine ⟨[], start, rfl, ?_, hnil, .inr ⟨code, rfl, returns, pending⟩⟩
    rw [List.nil_append, List.map_singleton, List.map_cons, call]
    exact List.prefix_append [segment.call] (rest.map Segment.call)
  | @cons segment rest first starts stage result call goesOn code more ih =>
    have hmore : ∀ stages, result ≠ .all stages := by
      rintro stages rfl
      exact hresult (stage :: stages) rfl
    obtain ⟨before, start, rfl, hcalls, hgoesOn, hlast⟩ := ih hmore
    refine ⟨first :: before, start, rfl, ?_, List.forall_mem_cons.mpr ⟨goesOn, hgoesOn⟩, ?_⟩
    · rw [List.cons_append, List.map_cons, List.map_cons, call]
      exact (List.prefix_cons_inj segment.call).mpr hcalls
    · rcases hlast with ⟨rfl, hblocked⟩ | ⟨requested, rfl, hexited⟩
      · exact .inl ⟨rfl, hblocked⟩
      · exact .inr ⟨requested, rfl, hexited⟩

/-! ## Waiting for the stages -/

/-- Waits that differ for no stage of the given numbers give the same events and codes. -/
theorem waits_congr {wait other : Nat → Except SystemError WaitStatus}
    {starts : List (StageStart × Nat)} (h : ∀ stage ∈ starts, wait stage.2 = other stage.2) :
    waits wait starts = waits other starts ∧ exitCodes wait starts = exitCodes other starts := by
  constructor
  · refine List.map_congr_left fun stage hmem => ?_
    rw [h stage (List.mem_filter.mp hmem).1]
  · refine List.map_congr_left fun stage hmem => ?_
    rw [h stage hmem]

/-- A stage with a code is not waited for. -/
theorem waits_cons_of_code {start : StageStart} {code : ExitCode}
    (hcode : start.outcome.code? = some code) (wait : Nat → Except SystemError WaitStatus)
    (stage : Nat) (rest : List (StageStart × Nat)) :
    waits wait ((start, stage) :: rest) = waits wait rest ∧
      exitCodes wait ((start, stage) :: rest) = code :: exitCodes wait rest := by
  constructor
  · have hskip : ¬start.outcome.code?.isNone = true := by simp only [hcode]; exact nofun
    rw [waits, List.filter_cons, if_neg hskip]
    rfl
  · rw [exitCodes, List.map_cons, hcode]
    rfl

/-- A stage without a code is waited for, and the wait gives its code. -/
theorem waits_cons_of_running {start : StageStart} (hcode : start.outcome.code? = none)
    (wait : Nat → Except SystemError WaitStatus) (stage : Nat) (rest : List (StageStart × Nat)) :
    waits wait ((start, stage) :: rest) = .waited stage (wait stage) :: waits wait rest ∧
      exitCodes wait ((start, stage) :: rest) = waitCode (wait stage) :: exitCodes wait rest := by
  constructor
  · have hkeep : start.outcome.code?.isNone = true := by rw [hcode]; rfl
    rw [waits, List.filter_cons, if_pos hkeep, List.map_cons]
    rfl
  · rw [exitCodes, List.map_cons, hcode]
    rfl

/-- The wait for a child gives the code so far. -/
theorem waitAll_running (host : Host σ η) {child : Child σ} {s s' : σ}
    {outcome : Except SystemError WaitStatus} (h : child s = (outcome, s')) (code : ExitCode)
    (name : String) (rest : List (String × Started σ)) :
    waitAll host code ((name, .running child) :: rest) s =
      waitAll host (waitCode outcome) rest (reportWait host name outcome s') := by
  cases outcome <;> simp only [waitAll, Started.wait, h, waitCode, reportWait]

/-- Reports of waits leave the record as it is. -/
theorem reportWait_recorded (host : Host σ η) (name : String)
    (outcome : Except SystemError WaitStatus) (s : σ) (record : List StageEvent) :
    reportWait host.recorded name outcome (s, record) =
      (reportWait host name outcome s, record) := by
  cases outcome with
  | ok status => rfl
  | error e => exact report_recorded host (name ++ ": " ++ e.message) s record

/-- Waiting for recorded stages does what waiting for the stages does, and notes the waits. The
code is that of the last stage. -/
theorem waitAll_recorded (host : Host σ η) {starts : List StageStart}
    {stages : List (String × Started σ)}
    (hcodes : starts.map (·.outcome.code?) = stages.map (·.2.code?)) (first : Nat)
    (code : ExitCode) (s : σ) (record : List StageEvent) :
    ∃ wait,
      waitAll host.recorded code (recordStages (stages.zipIdx first)) (s, record) =
        withRecord (record ++ waits wait (starts.zipIdx first)) (waitAll host code stages s) ∧
      (waitAll host code stages s).1 = (exitCodes wait (starts.zipIdx first)).getLastD code := by
  induction stages generalizing starts first code s record with
  | nil =>
    obtain rfl : starts = [] := List.map_eq_nil_iff.mp hcodes
    refine ⟨fun _ => .ok ⟨0⟩, ?_, rfl⟩
    rw [List.zipIdx_nil, List.zipIdx_nil]
    exact congrArg (fun record => (code, s, record)) (List.append_nil record).symm
  | cons stage rest ih =>
    obtain ⟨name, started⟩ := stage
    cases starts with
    | nil => cases hcodes
    | cons start starts =>
      rw [List.map_cons, List.map_cons] at hcodes
      obtain ⟨hcode, hrest⟩ := List.cons.inj hcodes
      cases started with
      | finished own =>
        obtain ⟨wait, hrecorded, hlast⟩ := ih hrest (first + 1) own s record
        obtain ⟨hwaits, hexits⟩ := waits_cons_of_code hcode wait first (starts.zipIdx (first + 1))
        refine ⟨wait, ?_, ?_⟩
        · rw [List.zipIdx_cons, List.zipIdx_cons, hwaits]
          exact hrecorded
        · rw [List.zipIdx_cons, hexits, List.getLastD_cons]
          exact hlast
      | running child =>
        rcases hchild : child s with ⟨outcome, after⟩
        obtain ⟨others, hrecorded, hlast⟩ := ih hrest (first + 1) (waitCode outcome)
          (reportWait host name outcome after) (record ++ [.waited first outcome])
        -- The rest of the stages have greater numbers, so their waits are the ones given.
        let wait (stage : Nat) := if stage = first then outcome else others stage
        have hwait : wait first = outcome := if_pos rfl
        have hothers : ∀ stage ∈ starts.zipIdx (first + 1), wait stage.2 = others stage.2 := by
          intro stage hmem
          have hle := List.le_snd_of_mem_zipIdx hmem
          exact if_neg (by omega)
        obtain ⟨hwaits, hexits⟩ := waits_congr hothers
        obtain ⟨hnext, hcodes⟩ := waits_cons_of_running hcode wait first (starts.zipIdx (first + 1))
        refine ⟨wait, ?_, ?_⟩
        · rw [List.zipIdx_cons, List.zipIdx_cons, hnext, hwaits, hwait, waitAll_running host hchild,
            List.append_cons, ← hrecorded, ← reportWait_recorded]
          exact waitAll_running host.recorded (recordChild_eq hchild first record) code name _
        · rw [List.zipIdx_cons, hcodes, hexits, hwait, List.getLastD_cons,
            waitAll_running host hchild]
          exact hlast

/-! ## Running the pipeline -/

/-- A stage that is run alone and is finished when it has been started gives its code, unless the
shell was asked to end with another one. Its files are closed. -/
theorem runStages_single {host : Host σ η} {files : OutputFiles η} {name : String}
    {command : Command σ η} {sh : Shell σ} {code : ExitCode} {env : Environment} {s : σ}
    (h : command.start ⟨host.terminal.stdin, files.stdout.getD host.terminal.stdout,
      files.stderr.getD host.terminal.stderr⟩ sh.env sh.system =
        (.ok (.finished code), env, s)) :
    runStages host files [⟨name, command⟩] sh =
      (.ok (env.exitRequest.getD code), ⟨env, host.closeAll files.toList s⟩) := by
  -- The stage is the last one, so a request to leave the shell leaves no stage out.
  cases hrequest : env.exitRequest <;>
    simp only [runStages, launch, connect, List.isEmpty_nil, if_true, Option.getD_none,
      Option.toList_none, List.nil_append, h, hrequest, LaunchResult.cons, waitAll, Started.wait,
      Host.closeAll, Option.getD_some, List.foldl_nil]

/-- A pipeline of one stage, which is finished when it has been started, is finished as well. A
request to leave the shell gives the code. -/
theorem executePipeline_single {host : Host σ η} {factories : List (Factory σ η)} {sh : Shell σ}
    {name : String} {words : List String} {code : ExitCode} {env : Environment} {s : σ}
    (hstart : (Command.create host factories sh.env sh.system name words).start host.terminal
      sh.env sh.system = (.ok (.finished code), env, s)) :
    sh.executePipeline host factories ⟨[⟨name, words, []⟩]⟩ =
      (.ok (env.exitRequest.getD code), ⟨env, s⟩) := by
  have hrun : runStages host .none
      [⟨name, Command.create host factories sh.env sh.system name words⟩] sh =
        (.ok (env.exitRequest.getD code), ⟨env, s⟩) := runStages_single hstart
  simp only [Shell.executePipeline, Pipeline.last?, List.getLast?_singleton, openRedirections,
    createStages, List.map_cons, List.map_nil]
  exact hrun

/-- Running recorded stages does what running the stages does, and gives a record. -/
theorem runStages_recorded (host : Host σ η) (files : OutputFiles η)
    (command : Segment → Command σ η) (segments : List Segment) (sh : Shell σ) :
    let outcome := runStages host files (stagesOf command segments) sh
    ∃ record,
      runStages host.recorded files (stagesOf (recordCommands command) segments)
          (sh.withRecord []) = (outcome.1, outcome.2.withRecord record) ∧
        PipelineRecord segments record outcome.1 := by
  rcases hlaunch : launch host files (stagesOf command segments) none sh.env sh.system with
    ⟨result, env, after⟩
  obtain ⟨starts, hlaunched, hrecorded⟩ := launch_recorded host files command [] hlaunch
  simp only [runStages, hlaunch, Shell.withRecord, hrecorded, List.nil_append]
  cases result with
  | all stages =>
    obtain ⟨hcalls, hgoesOn, hcodes⟩ := hlaunched.of_all
    obtain ⟨wait, hwaited, hlast⟩ :=
      waitAll_recorded host hcodes 0 0 after (starts.map StageEvent.started)
    refine ⟨starts.map .started ++ waits wait starts.zipIdx, ?_, ?_⟩
    · show (match waitAll host.recorded 0 (recordStages (stages.zipIdx 0))
          (after, starts.map StageEvent.started) with
        | (code, s) => (Except.ok code, (⟨env, s⟩ : Shell (Recorded σ)))) = _
      rw [hwaited]
      rfl
    · show PipelineRecord segments _ (.ok (waitAll host 0 stages after).1)
      rw [hlast]
      exact .ended wait hcalls hgoesOn
  | exited code =>
    obtain ⟨before, start, rfl, hcalls, hgoesOn, hlast⟩ := hlaunched.exists_last nofun
    rcases hlast with ⟨hresult, -⟩ | ⟨requested, hresult, hreturns, hpending⟩
    · cases hresult
    · cases hresult
      exact ⟨_, rfl, .exited hcalls hgoesOn hreturns hpending⟩
  | blocked =>
    obtain ⟨before, start, rfl, hcalls, hgoesOn, hlast⟩ := hlaunched.exists_last nofun
    rcases hlast with ⟨-, hblocked⟩ | ⟨_, hresult, -⟩
    · exact ⟨_, rfl, .blocked hcalls hgoesOn hblocked⟩
    · cases hresult

/-- A start after which a request to leave the shell is pending is the last one. -/
theorem launch_recorded_pending (host : Host σ η) (files : OutputFiles η)
    (command : Segment → Command σ η) (segment : Segment) {env : Environment}
    (hkeeps : (command segment).KeepsExitRequest) (hpending : env.exitRequest.isSome)
    (rest : List Segment) (input : Option η) (s : σ) (record : List StageEvent) :
    ∃ start result env' s',
      launch host.recorded files (stagesOf (recordCommands command) (segment :: rest)) input env
          (s, record) = (result, env', s', record ++ [.started start]) ∧
        ∀ stages, result ≠ .all stages := by
  rcases hconnect : connect host files rest.isEmpty input s with ⟨connection, connected⟩
  rcases hstart : (command segment).start connection.streams env connected with
    ⟨outcome, requested, after⟩
  have hkept : requested.exitRequest.isSome := by
    have hafter := hkeeps connection.streams env connected hpending
    rwa [hstart] at hafter
  obtain ⟨code, hrequest⟩ := Option.isSome_iff_exists.mp hkept
  rw [stagesOf_cons, launch_cons, isEmpty_stagesOf, connect_recorded, hconnect]
  simp only [withRecord, recordCommands, Command.start_recorded hstart, settled?_recorded]
  cases settled? outcome with
  | none => exact ⟨_, _, _, _, rfl, fun _ h => by cases h⟩
  | some started =>
    simp only [Option.map_some, hrequest, closeAll_recorded, reportFailure_recorded]
    exact ⟨_, _, _, _, rfl, fun _ h => by cases h⟩

/-- Nothing is waited for when not all stages have been launched. -/
theorem runStages_system_of_interrupted {host : Host σ η} {files : OutputFiles η}
    {stages : List (Stage σ η)} (sh : Shell σ) {result : LaunchResult σ} {env : Environment} {s : σ}
    (h : launch host files stages none sh.env sh.system = (result, env, s))
    (hresult : ∀ stages, result ≠ .all stages) :
    (runStages host files stages sh).2.system = s := by
  rw [runStages, h]
  cases result with
  | all stages => exact absurd rfl (hresult stages)
  | exited code => rfl
  | blocked => rfl

/-- A pipeline whose redirections open runs its stages, under a recorder and without one. -/
theorem executePipeline_of_opened (host : Host σ η) (factories : List (Factory σ η))
    {p : Pipeline} {sh : Shell σ} {last : Segment} {files : OutputFiles η} {opened : σ}
    (hlast : p.last? = some last)
    (hfiles : openRedirections host sh.env.currentDirectory .none last.redirections sh.system =
      (.ok files, opened)) :
    let command (segment : Segment) :=
      Command.create host factories sh.env sh.system segment.name segment.args
    sh.executePipeline host factories p =
        runStages host files (stagesOf command p.segments) ⟨sh.env, opened⟩ ∧
      (sh.withRecord []).executePipeline host.recorded [recorder host factories] p =
        runStages host.recorded files (stagesOf (recordCommands command) p.segments)
          (Shell.withRecord [] ⟨sh.env, opened⟩) := by
  have hrecorded : openRedirections host.recorded (sh.withRecord []).env.currentDirectory .none
      last.redirections (sh.withRecord []).system = (.ok files, opened, []) :=
    (openRedirections_recorded host sh.env.currentDirectory _ _ _ []).trans
      (congrArg (withRecord []) hfiles)
  constructor
  · simp only [Shell.executePipeline, hlast, hfiles, createStages_eq]
  · simp only [Shell.executePipeline, hlast, hrecorded, createStages_recorder]
    rfl

/-- An empty pipeline gives zero and does nothing. -/
theorem executePipeline_of_empty (host : Host σ η) (factories : List (Factory σ η))
    {p : Pipeline} (h : p.segments = []) (sh : Shell σ) :
    sh.executePipeline host factories p = (.ok 0, sh) := by
  have hlast : p.last? = none := by rw [Pipeline.last?, h]; rfl
  rw [Shell.executePipeline, hlast]

/-- Nothing is noted of an empty pipeline. -/
theorem stageRecord_of_empty (host : Host σ η) (factories : List (Factory σ η))
    {p : Pipeline} (h : p.segments = []) (sh : Shell σ) : stageRecord host factories p sh = [] := by
  rw [stageRecord, executePipeline_of_empty _ _ h]
  rfl

/-- The recorder changes nothing when the redirections of a pipeline open, and its record belongs
to the result. -/
theorem stageRecord_of_opened (host : Host σ η) (factories : List (Factory σ η))
    {p : Pipeline} {sh : Shell σ} {last : Segment} {files : OutputFiles η} {opened : σ}
    (hlast : p.last? = some last)
    (hfiles : openRedirections host sh.env.currentDirectory .none last.redirections sh.system =
      (.ok files, opened)) :
    let outcome := sh.executePipeline host factories p
    let record := stageRecord host factories p sh
    (sh.withRecord []).executePipeline host.recorded [recorder host factories] p =
        (outcome.1, outcome.2.withRecord record) ∧
      PipelineRecord p.segments record outcome.1 := by
  obtain ⟨hplain, hrecorded⟩ := executePipeline_of_opened host factories hlast hfiles
  let command (segment : Segment) :=
    Command.create host factories sh.env sh.system segment.name segment.args
  obtain ⟨record, hrun, hrecord⟩ :=
    runStages_recorded host files command p.segments ⟨sh.env, opened⟩
  have heq : stageRecord host factories p sh = record := by
    rw [stageRecord, hrecorded, hrun]
    rfl
  dsimp only
  rw [heq, hplain, hrecorded, hrun]
  exact ⟨rfl, hrecord⟩

/-- When a request to leave the shell is pending and the first command keeps it, one start is all
that is noted. -/
theorem stageRecord_of_pending (host : Host σ η) (factories : List (Factory σ η))
    {p : Pipeline} {sh : Shell σ} {first last : Segment} {files : OutputFiles η} {opened : σ}
    (hfirst : p.segments.head? = some first) (hlast : p.last? = some last)
    (hfiles : openRedirections host sh.env.currentDirectory .none last.redirections sh.system =
      (.ok files, opened))
    (hpending : sh.env.exitRequest.isSome)
    (hkeeps : (Command.create host factories sh.env sh.system first.name
      first.args).KeepsExitRequest) :
    ∃ start, stageRecord host factories p sh = [.started start] := by
  obtain ⟨-, hrecorded⟩ := executePipeline_of_opened host factories hlast hfiles
  obtain ⟨rest, hsegments⟩ := List.head?_eq_some_iff.mp hfirst
  let command (segment : Segment) :=
    Command.create host factories sh.env sh.system segment.name segment.args
  obtain ⟨start, result, env, after, hlaunch, hresult⟩ :=
    launch_recorded_pending host files command first hkeeps hpending rest none opened []
  have hsystem := runStages_system_of_interrupted (Shell.withRecord [] ⟨sh.env, opened⟩) hlaunch
    hresult
  refine ⟨start, ?_⟩
  rw [stageRecord, hrecorded, hsegments]
  exact congrArg Prod.snd hsystem

/-- For a pipeline whose redirections open, the recorder changes nothing: the result and the shell
are those of the pipeline without a recorder. The record and the result belong together, an empty
pipeline does nothing at all, and a request to leave the shell that is pending already lets only
the first stage be started, unless its command takes the request back. -/
theorem executePipeline_recorded (host : Host σ η) (factories : List (Factory σ η)) (p : Pipeline)
    (sh : Shell σ)
    (hopen : ∀ last ∈ p.last?, (openRedirections host sh.env.currentDirectory .none
      last.redirections sh.system).1.isOk) :
    let outcome := sh.executePipeline host factories p
    let record := stageRecord host factories p sh
    (sh.withRecord []).executePipeline host.recorded [recorder host factories] p =
        (outcome.1, outcome.2.withRecord record) ∧
      PipelineRecord p.segments record outcome.1 ∧
      (p.segments = [] → outcome = (.ok 0, sh) ∧ record = []) ∧
      ∀ first ∈ p.segments.head?, sh.env.exitRequest.isSome →
        (Command.create host factories sh.env sh.system first.name first.args).KeepsExitRequest →
        ∃ start, record = [.started start] := by
  cases hlast : p.last? with
  | none =>
    have hnil : p.segments = [] := List.getLast?_eq_none_iff.mp hlast
    dsimp only
    rw [stageRecord_of_empty _ _ hnil, executePipeline_of_empty _ _ hnil,
      executePipeline_of_empty _ _ hnil, hnil]
    exact ⟨rfl, @PipelineRecord.ended [] [] (fun _ => .ok ⟨0⟩) rfl nofun, fun _ => ⟨rfl, rfl⟩,
      nofun⟩
  | some last =>
    have hok := hopen last hlast
    rcases hfiles : openRedirections host sh.env.currentDirectory .none last.redirections
      sh.system with ⟨result, opened⟩
    rw [hfiles] at hok
    cases result with
    | error e => cases hok
    | ok files =>
      obtain ⟨hrecorded, hrecord⟩ := stageRecord_of_opened host factories hlast hfiles
      refine ⟨hrecorded, hrecord, fun hnil => ?_, fun first hfirst hpending hkeeps => ?_⟩
      · rw [Pipeline.last?, hnil] at hlast
        cases hlast
      · exact stageRecord_of_pending host factories hfirst hlast hfiles hpending hkeeps

end

/-- A system on which every operation succeeds and nothing happens. -/
def idleHost : Host Unit Unit where
  terminal := ⟨(), (), ()⟩
  pipe s := (((), ()), s)
  openOutput _ _ s := (.ok (), s)
  write _ _ s := (.ok (), s)
  close _ s := s
  isFile _ _ := true
  isDirectory _ _ := false
  canonicalPath _ path := .ok path
  changeDirectory _ s := (.ok (), s)
  spawn _ _ s := (.ok fun s => (.ok (.exited 0), s), s)

/-- A maker of commands that run, that cannot be started, and that ask the shell to end. -/
def idleFactory : Factory Unit Unit where
  create? _ _ name _ :=
    match name with
    | "run" => some ⟨fun _ env s => (.ok (.running fun s => (.ok (.exited 3), s)), env, s)⟩
    | "fail" => some ⟨fun _ env s => (.error (.custom "no"), env, s)⟩
    | "exit" => some ⟨fun _ env s => (.ok (.finished 0), env.requestExit 7, s)⟩
    | _ => none

/-- A request to leave the shell comes after a running stage and one that could not be started. The
running stage is not waited for, and the stage behind the request is not started. When a request is
pending before, the first stage is the only one. -/
theorem executePipeline_recorded_exit :
    let p : Pipeline :=
      ⟨[⟨"run", ["x"], []⟩, ⟨"fail", [], []⟩, ⟨"exit", [], []⟩,
        ⟨"run", [], [⟨.truncate, .stdout, ⟨"out"⟩⟩]⟩]⟩
    let env := Environment.initial [] ⟨"/"⟩
    let record :=
      [.started ⟨"run", ["x"], .running, none⟩, .started ⟨"fail", [], .failed (.custom "no"), none⟩,
        .started ⟨"exit", [], .finished 0, some 7⟩]
    (stageRecord idleHost [idleFactory] p ⟨env, ()⟩ = record ∧
      PipelineRecord p.segments record (.ok 7)) ∧
      ∃ start, stageRecord idleHost [idleFactory] p ⟨env.requestExit 5, ()⟩ = [.started start] := by
  intro p env record
  have hopen : ∀ last ∈ p.last?, (openRedirections idleHost ⟨"/"⟩ .none
      last.redirections ()).1.isOk := by
    intro last hlast
    obtain rfl := Option.some.inj hlast
    rfl
  have hplain := executePipeline_recorded idleHost [idleFactory] p ⟨env, ()⟩ hopen
  have hpending := executePipeline_recorded idleHost [idleFactory] p ⟨env.requestExit 5, ()⟩ hopen
  exact ⟨⟨rfl, hplain.2.1⟩, hpending.2.2.2 ⟨"run", ["x"], []⟩ rfl rfl fun _ _ _ h => h⟩

example :
    stageRecord idleHost [idleFactory] ⟨[⟨"run", [], []⟩, ⟨"fail", [], []⟩]⟩
        ⟨.initial [] ⟨"/"⟩, ()⟩ =
      [.started ⟨"run", [], .running, none⟩, .started ⟨"fail", [], .failed (.custom "no"), none⟩,
        .waited 0 (.ok (.exited 3))] := rfl

end LineShell
