import LineShell.Proofs.Shell.Launching

/-!
# From one stage to the next

A stage is started in the environment that the one before it has left, and the environment that the
last one leaves is that of the pipeline. After each start there are three ways to go on: the shell
waits for ever, it ends the pipeline because it was asked to end, or it starts the next stage. A
stage that could not be started goes on like any other, when its failure has been reported.
-/

namespace LineShell

section

variable {σ η : Type}

/-- What comes of the start of a stage. -/
def StageEntry.result (entry : StageEntry σ η) (host : Host σ η)
    (factories : List (Factory σ η)) : StartResult σ :=
  (Command.create host factories entry.origin.env entry.origin.system entry.name entry.args).start
    entry.streams entry.shell.env entry.shell.system

/-- The environment that the started stages of a pipeline hand on from one to the next. -/
inductive EnvCourse (host : Host σ η) (factories : List (Factory σ η)) :
    Environment → List (StageEntry σ η) → Environment → Prop
  | nil (env : Environment) : EnvCourse host factories env [] env
  | cons {entry : StageEntry σ η} {rest : List (StageEntry σ η)} {last : Environment}
      (others : EnvCourse host factories (entry.result host factories).2.1 rest last) :
      EnvCourse host factories entry.shell.env (entry :: rest) last

/-- A stage is noted in a trace, as the one at a position, and the failure of its start right behind
it. -/
def NotedAt (host : Host σ η) (trace : List (ShellEvent σ η)) (i : Nat) (entry : StageEntry σ η)
    (result : Except StartError (Started σ)) : Prop :=
  ∃ before after, (startedStages before).length = i ∧
    trace = before ++ .started entry :: (failureReports host result ++ after)

/-- How a pipeline of some stages goes on after the start of the one at a position. -/
inductive Followed (host : Host σ η) (stages : Nat) (trace : List (ShellEvent σ η))
    (outcome : Except LineError ExitCode) (i : Nat) (entry : StageEntry σ η) :
    StartResult σ → Prop
  /-- The shell waits for ever. -/
  | blocked {env : Environment} {s : σ} (isLast : i + 1 = (startedStages trace).length)
      (ends : outcome = .error .blocked) :
      Followed host stages trace outcome i entry (.error .blocked, env, s)
  /-- A request to leave the shell ends the pipeline. -/
  | exits {result : Except StartError (Started σ)} {env : Environment} {s : σ}
      {stage : Started σ} {code : ExitCode} (settles : settled? result = some stage)
      (noted : NotedAt host trace i entry result) (requests : env.exitRequest = some code)
      (isLast : i + 1 = (startedStages trace).length) (ends : outcome = .ok code) :
      Followed host stages trace outcome i entry (result, env, s)
  /-- The next stage is started, if there is one. The last one gives its code to the pipeline. -/
  | goesOn {result : Except StartError (Started σ)} {env : Environment} {s : σ}
      {stage : Started σ} (settles : settled? result = some stage)
      (noted : NotedAt host trace i entry result) (requests : env.exitRequest = none)
      (next : i + 1 < stages → i + 1 < (startedStages trace).length)
      (ends : i + 1 = stages → ∀ code, stage = .finished code → outcome = .ok code) :
      Followed host stages trace outcome i entry (result, env, s)

/-- A start that failed counts as a stage that cannot be executed. -/
theorem settled?_of_error {e : StartError} (h : e ≠ .blocked) :
    settled? (.error e : Except StartError (Started σ)) = some (.finished .cannotExecute) := by
  cases e with
  | blocked => exact absurd rfl h
  | _ => rfl

namespace Followed

variable {host : Host σ η} {stages i : Nat} {trace : List (ShellEvent σ η)}
  {outcome : Except LineError ExitCode} {entry : StageEntry σ η} {start : StartResult σ}

/-- The next stage is started, unless the shell waits for ever or was asked to end. -/
theorem next_started (h : Followed host stages trace outcome i entry start)
    (hsettles : start.1 ≠ .error .blocked) (hrequest : start.2.1.exitRequest = none)
    (hmore : i + 1 < stages) : i + 1 < (startedStages trace).length := by
  cases h with
  | blocked => exact absurd rfl hsettles
  | exits _ _ requests => cases hrequest.symm.trans requests
  | goesOn _ _ _ next => exact next hmore

/-- The last stage gives its code to the pipeline, unless the shell was asked to end. -/
theorem outcome_eq (h : Followed host stages trace outcome i entry start) {code : ExitCode}
    (hsettles : settled? start.1 = some (.finished code))
    (hrequest : start.2.1.exitRequest = none) (hlast : i + 1 = stages) : outcome = .ok code := by
  cases h with
  | blocked => cases hsettles
  | exits _ _ requests => cases hrequest.symm.trans requests
  | goesOn settles _ _ _ ends =>
    exact ends hlast code (Option.some.inj (settles.symm.trans hsettles))

/-- A request to end the shell ends the pipeline with its code. -/
theorem exits_with (h : Followed host stages trace outcome i entry start)
    (hsettles : start.1 ≠ .error .blocked) {code : ExitCode}
    (hrequest : start.2.1.exitRequest = some code) :
    i + 1 = (startedStages trace).length ∧ outcome = .ok code := by
  cases h with
  | blocked => exact absurd rfl hsettles
  | exits _ _ requests isLast ends =>
    obtain rfl := Option.some.inj (hrequest.symm.trans requests)
    exact ⟨isLast, ends⟩
  | goesOn _ _ requests => cases hrequest.symm.trans requests

/-- The failure of a start is reported right behind it. -/
theorem notedAt (h : Followed host stages trace outcome i entry start)
    (hsettles : start.1 ≠ .error .blocked) : NotedAt host trace i entry start.1 := by
  cases h with
  | blocked => exact absurd rfl hsettles
  | exits _ noted => exact noted
  | goesOn _ noted => exact noted

end Followed

/-! ## The environments of a launch -/

/-- A stage that leaves the given environment comes before the stages that are started in it. -/
theorem EnvCourse.of_result {host : Host σ η} {factories : List (Factory σ η)}
    {entry : StageEntry σ η} {rest : List (StageEntry σ η)} {requested last : Environment}
    (hresult : (entry.result host factories).2.1 = requested)
    (hrest : EnvCourse host factories requested rest last) :
    EnvCourse host factories entry.shell.env (entry :: rest) last := by
  rw [← hresult] at hrest
  exact .cons hrest

/-- The environments of a launch follow from one another. -/
theorem LaunchRun.envCourse {host : Host σ η} {factories : List (Factory σ η)}
    {files : OutputFiles η} {origin : Shell σ} {command : Segment → Command σ η}
    (hcommand : ∀ segment, command segment =
      Command.create host factories origin.env origin.system segment.name segment.args)
    {segments : List Segment} {input : Option η} {env env' : Environment} {s s' : σ}
    {noted : List (ShellEvent σ η)} {result other : LaunchResult σ}
    (h : LaunchRun host files origin command segments input env s noted result)
    (hlaunch : launch host files (stagesOf command segments) input env s = (other, env', s')) :
    EnvCourse host factories env (startedStages noted) env' := by
  -- A stage leaves the environment that the launch goes on with.
  have hresult {segment : Segment} {connection : Connection η} {env requested : Environment}
      {connected after : σ} {outcome : Except StartError (Started σ)}
      (hstart : (command segment).start connection.streams env connected =
        (outcome, requested, after)) :
      ((entryFor origin segment connection env connected).result host factories).2.1 =
        requested := by
    rw [hcommand] at hstart
    exact congrArg (fun result => result.2.1) hstart
  induction h generalizing other env' s' with
  | nil =>
    rw [stagesOf, List.map_nil, launch] at hlaunch
    cases hlaunch
    exact .nil _
  | blocked connects starts =>
    rw [stagesOf_cons, launch_cons, isEmpty_stagesOf] at hlaunch
    simp only [connects, starts, settled?] at hlaunch
    cases hlaunch
    exact .of_result (hresult starts) (.nil _)
  | @exited _ _ _ _ _ _ _ _ _ outcome _ _ connects starts settles requests =>
    rw [stagesOf_cons, launch_cons, isEmpty_stagesOf] at hlaunch
    simp only [connects, starts, settles, requests] at hlaunch
    cases hlaunch
    have hreports := onlyReports_failureReports host outcome
    rw [← List.append_nil (failureReports host outcome), startedStages_started _ hreports]
    exact .of_result (hresult starts) (.nil _)
  | @next _ rest _ _ _ _ _ after connection outcome _ _ _ connects starts settles requests others
      ih =>
    rw [stagesOf_cons, launch_cons, isEmpty_stagesOf] at hlaunch
    simp only [connects, starts, settles, requests] at hlaunch
    rw [startedStages_started _ (onlyReports_failureReports host outcome)]
    rcases hrest : launch host files (stagesOf command rest) connection.next _
        (reportFailure host outcome (host.closeAll connection.own after)) with ⟨more, final, last⟩
    rw [hrest] at hlaunch
    cases hlaunch
    exact .of_result (hresult starts) (ih hrest)

/-- The stages behind one of them are started in the environments that follow from its own. -/
theorem EnvCourse.behind {host : Host σ η} {factories : List (Factory σ η)} {env last : Environment}
    {before after : List (StageEntry σ η)} {entry : StageEntry σ η}
    (h : EnvCourse host factories env (before ++ entry :: after) last) :
    EnvCourse host factories (entry.result host factories).2.1 after last := by
  induction before generalizing env with
  | nil =>
    cases h with
    | cons others => exact others
  | cons first rest ih =>
    cases h with
    | cons others => exact ih others

/-- What every stage keeps of the environment is kept by all of them. -/
theorem EnvCourse.keeps {α : Type} {host : Host σ η} {factories : List (Factory σ η)}
    {env last : Environment} {started : List (StageEntry σ η)}
    (h : EnvCourse host factories env started last) (observe : Environment → α)
    (hstages : ∀ entry ∈ started,
      observe (entry.result host factories).2.1 = observe entry.shell.env) :
    observe last = observe env := by
  induction h with
  | nil => rfl
  | cons others ih =>
    obtain ⟨hfirst, hrest⟩ := List.forall_mem_cons.mp hstages
    exact (ih hrest).trans hfirst

/-! ## The launch from a stage on -/

/-- A launch from the stage at a position on, as a part of the launch of all stages. -/
inductive LaunchesFrom (host : Host σ η) (files : OutputFiles η) (origin : Shell σ)
    (command : Segment → Command σ η) (segments : List Segment) (noted : List (ShellEvent σ η))
    (result : LaunchResult σ) (i : Nat) (entry : StageEntry σ η) : Prop
  | intro {segment : Segment} {rest : List Segment} {input : Option η} {env : Environment} {s : σ}
      {later : List (ShellEvent σ η)} {more : LaunchResult σ} (front : List Segment)
      (before : List (ShellEvent σ η)) (earlier : List (String × Started σ))
      (segments_eq : segments = front ++ segment :: rest) (front_length : front.length = i)
      (noted_eq : noted = before ++ .started entry :: later)
      (before_length : (startedStages before).length = i)
      (result_eq : result = earlier.foldr LaunchResult.cons more)
      (run : LaunchRun host files origin command (segment :: rest) input env s
        (.started entry :: later) more) :
      LaunchesFrom host files origin command segments noted result i entry

section

variable {host : Host σ η} {files : OutputFiles η} {origin : Shell σ}
  {command : Segment → Command σ η}

/-- A launch begins with its first stage. -/
theorem LaunchRun.launchesFrom_head {segment : Segment} {rest : List Segment} {input : Option η}
    {env : Environment} {s : σ} {entry : StageEntry σ η} {later : List (ShellEvent σ η)}
    {result : LaunchResult σ}
    (h : LaunchRun host files origin command (segment :: rest) input env s
      (.started entry :: later) result) :
    LaunchesFrom host files origin command (segment :: rest) (.started entry :: later) result 0
      entry :=
  .intro [] [] [] rfl rfl rfl rfl rfl h

/-- A launch of later stages is a part of the launch that has one more stage in front. -/
theorem LaunchesFrom.cons {segments : List Segment} {noted : List (ShellEvent σ η)}
    {result : LaunchResult σ} {i : Nat} {entry : StageEntry σ η}
    (h : LaunchesFrom host files origin command segments noted result i entry) (segment : Segment)
    (first : StageEntry σ η) (outcome : Except StartError (Started σ))
    (stage : String × Started σ) :
    LaunchesFrom host files origin command (segment :: segments)
      (.started first :: (failureReports host outcome ++ noted)) (result.cons stage) (i + 1)
      entry := by
  obtain ⟨front, before, earlier, rfl, hfront, rfl, hbefore, rfl, hrun⟩ := h
  have hreports := onlyReports_failureReports host outcome
  refine .intro (segment :: front) (.started first :: (failureReports host outcome ++ before))
    (stage :: earlier) rfl (congrArg (· + 1) hfront) ?_ ?_ rfl hrun
  · simp
  · rw [startedStages_started first hreports, List.length_cons, hbefore]

/-- Every stage that is started begins a launch of the stages from it on. -/
theorem LaunchRun.launchesFrom {segments : List Segment} {input : Option η} {env : Environment}
    {s : σ} {noted : List (ShellEvent σ η)} {result : LaunchResult σ}
    (h : LaunchRun host files origin command segments input env s noted result) {i : Nat}
    {entry : StageEntry σ η} (hentry : (startedStages noted)[i]? = some entry) :
    LaunchesFrom host files origin command segments noted result i entry := by
  induction h generalizing i with
  | nil => cases hentry
  | blocked connects starts =>
    cases i with
    | succ i => cases hentry
    | zero =>
      cases hentry
      exact (LaunchRun.blocked connects starts).launchesFrom_head
  | @exited _ _ _ _ _ _ _ _ _ outcome _ _ connects starts settles requests =>
    have hreports := onlyReports_failureReports host outcome
    rw [← List.append_nil (failureReports host outcome), startedStages_started _ hreports] at hentry
    cases i with
    | succ i => cases hentry
    | zero =>
      cases hentry
      exact (LaunchRun.exited connects starts settles requests).launchesFrom_head
  | @next segment _ _ _ _ _ _ _ _ outcome _ _ _ connects starts settles requests others ih =>
    rw [startedStages_started _ (onlyReports_failureReports host outcome)] at hentry
    cases i with
    | succ i => exact (ih hentry).cons segment _ outcome _
    | zero =>
      cases hentry
      exact (LaunchRun.next connects starts settles requests others).launchesFrom_head

/-- The first stage of a launch is started as it is connected. -/
theorem LaunchRun.head_eq {segment : Segment} {rest : List Segment} {input : Option η}
    {env : Environment} {s : σ} {entry : StageEntry σ η} {later : List (ShellEvent σ η)}
    {result : LaunchResult σ}
    (h : LaunchRun host files origin command (segment :: rest) input env s
      (.started entry :: later) result) :
    ∃ connection connected, connect host files rest.isEmpty input s = (connection, connected) ∧
      entry = entryFor origin segment connection env connected := by
  cases h with
  | blocked connects => exact ⟨_, _, connects, rfl⟩
  | exited connects => exact ⟨_, _, connects, rfl⟩
  | next connects => exact ⟨_, _, connects, rfl⟩

/-- The stages that are started are the first ones of the segments, each for its own segment, and
the last one writes to the files. -/
theorem LaunchRun.stage {segments : List Segment} {input : Option η} {env : Environment}
    {s : σ} {noted : List (ShellEvent σ η)} {result : LaunchResult σ}
    (h : LaunchRun host files origin command segments input env s noted result) {i : Nat}
    {entry : StageEntry σ η} (hentry : (startedStages noted)[i]? = some entry) :
    (∃ segment, segments[i]? = some segment ∧ entry.Of origin segment) ∧
      entry.WritesTo host files.get? (i + 1 = segments.length) := by
  obtain @⟨segment, rest, _, _, _, _, _, front, _, _, rfl, rfl, _, _, _, hrun⟩ :=
    h.launchesFrom hentry
  obtain ⟨connection, connected, hconnect, rfl⟩ := hrun.head_eq
  refine ⟨⟨segment, by simp, rfl, rfl, rfl⟩, ?_⟩
  have hlast : (front.length + 1 = (front ++ segment :: rest).length) = (rest = []) := by
    simp
  rw [hlast]
  exact .of_connect hconnect origin _

end

/-! ## After a stage -/

/-- Stages that were started before others are added to a result in which all are started. -/
theorem LaunchResult.foldr_cons (earlier : List (String × Started σ)) (result : LaunchResult σ) :
    earlier.foldr cons result =
      match result with
      | all stages => all (earlier ++ stages)
      | other => other := by
  induction earlier with
  | nil => cases result <;> rfl
  | cons stage rest ih =>
    rw [List.foldr_cons, ih]
    cases result <;> rfl

/-- The code of all stages is that of the last one. -/
theorem waitAll_concat_finished (host : Host σ η) (earlier : List (String × Started σ))
    (name : String) (code first : ExitCode) (s : σ) :
    (waitAll host first (earlier ++ [(name, .finished code)]) s).1 = code := by
  induction earlier generalizing first s with
  | nil => rfl
  | cons stage rest ih =>
    obtain ⟨other, started⟩ := stage
    cases started with
    | finished own => exact ih own s
    | running child =>
      rcases hchild : child s with ⟨waited, after⟩
      rw [List.cons_append, waitAll_running host hchild]
      exact ih _ _

/-- How a pipeline goes on after a stage that is started in its launch. -/
theorem LaunchRun.followed {host : Host σ η} {factories : List (Factory σ η)}
    {files : OutputFiles η} {origin : Shell σ} {command : Segment → Command σ η}
    (hcommand : ∀ segment, command segment =
      Command.create host factories origin.env origin.system segment.name segment.args)
    {segments : List Segment} {input : Option η} {env : Environment} {s : σ}
    {noted : List (ShellEvent σ η)} {result : LaunchResult σ}
    (h : LaunchRun host files origin command segments input env s noted result) {i : Nat}
    {entry : StageEntry σ η} (hentry : (startedStages noted)[i]? = some entry) (waiting : σ) :
    Followed host segments.length noted (result.outcome host waiting) i entry
      (entry.result host factories) := by
  obtain @⟨segment, rest, _, _, _, later, more, front, before, earlier, rfl, rfl, rfl, hbefore, rfl,
    hrun⟩ := h.launchesFrom hentry
  have hcount : (startedStages (before ++ .started entry :: later)).length =
      front.length + 1 + (startedStages later).length := by
    rw [startedStages_append, List.length_append, hbefore, Nat.add_assoc, Nat.add_comm 1]
    rfl
  have hreports (outcome : Except StartError (Started σ)) :=
    (onlyReports_failureReports host outcome).startedStages_eq
  rw [LaunchResult.foldr_cons]
  cases hrun with
  | blocked connects starts =>
    rw [hcommand] at starts
    rw [StageEntry.result, entryFor, starts]
    exact .blocked hcount.symm rfl
  | exited connects starts settles requests =>
    rw [hcommand] at starts
    rw [StageEntry.result, entryFor, starts]
    rw [hreports] at hcount
    exact .exits settles ⟨before, [], hbefore, by simp⟩ requests hcount.symm rfl
  | next connects starts settles requests others =>
    rw [hcommand] at starts
    rw [StageEntry.result, entryFor, starts]
    rw [startedStages_append (failureReports host _), hreports, List.nil_append] at hcount
    refine .goesOn settles ⟨before, _, hbefore, rfl⟩ requests ?_ ?_
    · intro hmore
      have hrest : rest ≠ [] := by
        rintro rfl
        simp at hmore
      have hstarted := List.length_pos_iff.mpr (others.startedStages_ne_nil hrest)
      rw [entryFor] at hcount
      omega
    · rintro hlast code rfl
      obtain rfl : rest = [] := by
        rw [List.length_append, List.length_cons] at hlast
        exact List.length_eq_zero_iff.mp (by omega)
      cases others
      exact congrArg Except.ok (waitAll_concat_finished host earlier segment.name code 0 waiting)

/-! ## Whole pipelines -/

/-- The course of a pipeline: the environments of its stages follow from one another, each stage is
the one for its segment, and after each of them the pipeline goes on as it should. So the started
stages are the first ones. Once there is one, they are all, unless a stage waits for ever or leaves
a request to end the shell. -/
structure PipelineCourse (host : Host σ η) (factories : List (Factory σ η)) (p : Pipeline)
    (sh : Shell σ) (trace : List (ShellEvent σ η)) (outcome : Except LineError ExitCode × Shell σ) :
    Prop where
  envs : EnvCourse host factories sh.env (startedStages trace) outcome.2.env
  stage : ∀ {i : Nat} {entry : StageEntry σ η}, (startedStages trace)[i]? = some entry →
    ∃ segment, p.segments[i]? = some segment ∧ entry.Of sh segment
  followed : ∀ {i : Nat} {entry : StageEntry σ η}, (startedStages trace)[i]? = some entry →
    Followed host p.segments.length trace outcome.1 i entry (entry.result host factories)

/-- A pipeline without a started stage leaves the environment as it is. -/
theorem PipelineCourse.of_none (host : Host σ η) (factories : List (Factory σ η)) (p : Pipeline)
    {sh : Shell σ} {trace : List (ShellEvent σ η)} (htrace : startedStages trace = [])
    {outcome : Except LineError ExitCode × Shell σ} (henv : outcome.2.env = sh.env) :
    PipelineCourse host factories p sh trace outcome := by
  refine ⟨?_, ?_, ?_⟩
  · rw [htrace, henv]
    exact .nil _
  · intro i entry hentry
    rw [htrace] at hentry
    cases hentry
  · intro i entry hentry
    rw [htrace] at hentry
    cases hentry

/-- The stages that are started in a part of a trace outside of which none is started. -/
theorem startedStages_between (noted : List (ShellEvent σ η))
    {opened reports : List (ShellEvent σ η)}
    (hopened : startedStages opened = []) (hreports : startedStages reports = []) :
    startedStages (opened ++ noted ++ reports) = startedStages noted := by
  rw [startedStages_append, startedStages_append, hopened, hreports, List.nil_append,
    List.append_nil]

/-- What is noted before the first stage and behind the last one does not matter. -/
theorem Followed.between {host : Host σ η} {stages : Nat} {noted : List (ShellEvent σ η)}
    {outcome : Except LineError ExitCode} {i : Nat} {entry : StageEntry σ η}
    {start : StartResult σ} (h : Followed host stages noted outcome i entry start)
    {opened reports : List (ShellEvent σ η)} (hopened : startedStages opened = [])
    (hreports : startedStages reports = []) :
    Followed host stages (opened ++ noted ++ reports) outcome i entry start := by
  have hstarted : startedStages (opened ++ noted ++ reports) = startedStages noted :=
    startedStages_between noted hopened hreports
  have hnoted {result : Except StartError (Started σ)} (h : NotedAt host noted i entry result) :
      NotedAt host (opened ++ noted ++ reports) i entry result := by
    obtain ⟨before, after, hbefore, rfl⟩ := h
    refine ⟨opened ++ before, after ++ reports, ?_, by simp⟩
    rw [startedStages_append, hopened, List.nil_append, hbefore]
  cases h with
  | blocked isLast ends =>
    rw [← hstarted] at isLast
    exact .blocked isLast ends
  | exits settles noted requests isLast ends =>
    rw [← hstarted] at isLast
    exact .exits settles (hnoted noted) requests isLast ends
  | goesOn settles noted requests next ends =>
    rw [← hstarted] at next
    exact .goesOn settles (hnoted noted) requests next ends

/-- What is noted around the stages does not matter for their course. -/
theorem PipelineCourse.between {host : Host σ η} {factories : List (Factory σ η)} {p : Pipeline}
    {sh : Shell σ} {noted : List (ShellEvent σ η)} {outcome : Except LineError ExitCode × Shell σ}
    (h : PipelineCourse host factories p sh noted outcome) {opened reports : List (ShellEvent σ η)}
    (hopened : startedStages opened = []) (hreports : startedStages reports = []) :
    PipelineCourse host factories p sh (opened ++ noted ++ reports) outcome := by
  have hstarted : startedStages (opened ++ noted ++ reports) = startedStages noted :=
    startedStages_between noted hopened hreports
  refine ⟨?_, ?_, ?_⟩
  · rw [hstarted]
    exact h.envs
  · intro i entry hentry
    rw [hstarted] at hentry
    exact h.stage hentry
  · intro i entry hentry
    rw [hstarted] at hentry
    exact (h.followed hentry).between hopened hreports

/-- Running stages takes the course of their launch. -/
theorem LaunchRun.course {host : Host σ η} {factories : List (Factory σ η)} {p : Pipeline}
    {sh : Shell σ} {files : OutputFiles η} {opened after : σ} {env : Environment}
    {noted : List (ShellEvent σ η)} {result : LaunchResult σ} {command : Segment → Command σ η}
    (hcommand : ∀ segment, command segment =
      Command.create host factories sh.env sh.system segment.name segment.args)
    (h : LaunchRun host files sh command p.segments none sh.env opened noted result)
    (hlaunch : launch host files (stagesOf command p.segments) none sh.env opened =
      (result, env, after)) :
    PipelineCourse host factories p sh noted
      (runStages host files (stagesOf command p.segments) ⟨sh.env, opened⟩) := by
  have houtcome : _ ∧ (runStages host files (stagesOf command p.segments) ⟨sh.env, opened⟩).2.env =
      env := runStages_eq_outcome hlaunch
  refine ⟨?_, fun hentry => (h.stage hentry).1, fun hentry => ?_⟩
  · rw [houtcome.2]
    exact h.envCourse hcommand hlaunch
  · rw [houtcome.1]
    exact h.followed hcommand hentry after

end

end LineShell
