import LineShell.Proofs.Shell.Tracing

/-!
# Launching the stages of a pipeline

A pipeline opens the redirections of its last stage one after the other, up to the first that cannot
be opened, and launches its stages from left to right, up to the first that waits for ever or leaves
a request to end the shell. Both are given here as relations that follow the recursion of the shell
and hold what a tracer notes: the openings, and the starts with the reports of those that failed.
-/

namespace LineShell

section

variable {σ η : Type}

/-- The file that a stream is sent to by redirections with the files opened for them: that of the
last redirection of the stream. -/
def lastFile (opened : List (Redirection × η)) (stream : OutputStream) : Option η :=
  (opened.filterMap fun file => if file.1.stream = stream then some file.2 else none).getLast?

/-- The files of a stage after one has been opened for each of the given redirections. -/
def OutputFiles.replaceAll (files : OutputFiles η) (opened : List (Redirection × η)) :
    OutputFiles η :=
  opened.foldl (fun files file => files.replace file.1.stream file.2) files

/-- The openings of redirections with the files opened for them, as seen from a directory. -/
def openings (directory : Path) (opened : List (Redirection × η)) : List (ShellEvent σ η) :=
  opened.map fun file => .opened file.1.mode (directory.join file.1.path) (.ok file.2)

/-! ## Opening the redirections -/

/-- How the redirections of a stage are opened: the trace of the openings and their result. -/
inductive Openings (directory : Path) (files : OutputFiles η) :
    List Redirection → List (ShellEvent σ η) → Except (Path × SystemError) (OutputFiles η) → Prop
  | all (opened : List (Redirection × η)) :
      Openings directory files (opened.map Prod.fst) (openings directory opened)
        (.ok (files.replaceAll opened))
  | refused (opened : List (Redirection × η)) (redirection : Redirection)
      (unopened : List Redirection) (e : SystemError) :
      Openings directory files (opened.map Prod.fst ++ redirection :: unopened)
        (openings directory opened ++
          [.opened redirection.mode (directory.join redirection.path) (.error e)])
        (.error (redirection.path, e))

/-- One more redirection is opened before the others. -/
theorem Openings.cons {directory : Path} {files : OutputFiles η} {redirection : Redirection}
    {file : η} {rest : List Redirection} {trace : List (ShellEvent σ η)}
    {result : Except (Path × SystemError) (OutputFiles η)}
    (h : Openings directory (files.replace redirection.stream file) rest trace result) :
    Openings directory files (redirection :: rest)
      (.opened redirection.mode (directory.join redirection.path) (.ok file) :: trace) result := by
  cases h with
  | all opened => exact .all ((redirection, file) :: opened)
  | refused opened other unopened e =>
    exact .refused ((redirection, file) :: opened) other unopened e

/-- Opening redirections under a tracer does what opening them does, and notes each opening. -/
theorem openRedirections_traced (host : Host σ η) (directory : Path) {files : OutputFiles η}
    {redirections : List Redirection} {s s' : σ}
    {result : Except (Path × SystemError) (OutputFiles η)} (trace : List (ShellEvent σ η))
    (h : openRedirections host directory files redirections s = (result, s')) :
    ∃ noted, Openings directory files redirections noted result ∧
      openRedirections host.traced directory files redirections (s, trace) =
        (result, s', trace ++ noted) := by
  induction redirections generalizing files s trace with
  | nil =>
    cases h
    exact ⟨[], .all [], by rw [List.append_nil]; rfl⟩
  | cons redirection rest ih =>
    rcases hopen : openRedirection host directory redirection s with ⟨outcome, after⟩
    have htraced : openRedirection host.traced directory redirection (s, trace) =
        (outcome, after,
          trace ++ [.opened redirection.mode (directory.join redirection.path) outcome]) := by
      rw [openRedirection] at hopen ⊢
      simp only [Host.traced, hopen]
    rw [openRedirections] at h ⊢
    rw [htraced]
    rw [hopen] at h
    cases outcome with
    | error e =>
      cases h
      exact ⟨_, .refused [] redirection rest e, by simp only [closeAll_traced]; rfl⟩
    | ok file =>
      obtain ⟨noted, hopenings, hrest⟩ := ih
        (trace ++ [.opened redirection.mode (directory.join redirection.path) (.ok file)]) h
      refine ⟨_, hopenings.cons, ?_⟩
      simp only [closeAll_traced, hrest, List.append_assoc, List.singleton_append]

/-- The file for a stream is among all the files. -/
theorem OutputFiles.mem_toList_of_get? (files : OutputFiles η) {stream : OutputStream}
    {file : η} (h : files.get? stream = some file) : file ∈ files.toList := by
  rw [toList, List.mem_append, Option.mem_toList, Option.mem_toList]
  cases stream with
  | stdout => exact .inl h
  | stderr => exact .inr h

/-- A file that has been added to others is the only new one. -/
theorem OutputFiles.mem_toList_replace (files : OutputFiles η) {stream : OutputStream}
    {file other : η} (h : other ∈ (files.replace stream file).toList) :
    other = file ∨ other ∈ files.toList := by
  simp only [toList, List.mem_append, Option.mem_toList] at *
  cases stream with
  | stdout =>
    rcases h with hfile | hstderr
    · exact .inl (Option.some.inj hfile).symm
    · exact .inr (.inr hstderr)
  | stderr =>
    rcases h with hstdout | hfile
    · exact .inr (.inl hstdout)
    · exact .inl (Option.some.inj hfile).symm

/-- A later redirection of a stream comes before an earlier one. -/
theorem lastFile_cons (redirection : Redirection) (file : η) (rest : List (Redirection × η))
    (stream : OutputStream) :
    lastFile ((redirection, file) :: rest) stream =
      (lastFile rest stream).or (if redirection.stream = stream then some file else none) := by
  rw [lastFile, List.filterMap_cons]
  by_cases hstream : redirection.stream = stream
  · simp only [if_pos hstream, List.getLast?_cons]
    rw [← lastFile]
    cases lastFile rest stream <;> rfl
  · simp only [if_neg hstream, Option.or_none]
    rfl

/-- The file that replaces a stream is the one that replaced it last. -/
theorem get?_replaceAll (files : OutputFiles η) (opened : List (Redirection × η))
    (stream : OutputStream) :
    (files.replaceAll opened).get? stream =
      (lastFile opened stream).or (files.get? stream) := by
  induction opened generalizing files with
  | nil => rfl
  | cons file rest ih =>
    obtain ⟨redirection, handle⟩ := file
    have hreplace : (files.replace redirection.stream handle).get? stream =
        (if redirection.stream = stream then some handle else none).or (files.get? stream) := by
      cases hstream : redirection.stream <;> cases stream <;> rfl
    rw [OutputFiles.replaceAll, List.foldl_cons, ← OutputFiles.replaceAll, ih, hreplace,
      lastFile_cons, Option.or_assoc]

/-- The files that are opened for a stage without any. -/
theorem get?_none_replaceAll (opened : List (Redirection × η)) :
    (OutputFiles.none.replaceAll opened).get? = lastFile opened := by
  funext stream
  rw [get?_replaceAll]
  cases stream <;> exact Option.or_none

/-- Files that are opened start no stage. -/
theorem startedStages_openings (directory : Path) (opened : List (Redirection × η)) :
    startedStages (openings (σ := σ) directory opened) = [] := by
  rw [startedStages, openings, List.filterMap_map, List.filterMap_eq_nil_iff]
  exact fun _ _ => rfl

/-- No stage is started while redirections are opened. -/
theorem Openings.startedStages_eq {directory : Path} {files : OutputFiles η}
    {redirections : List Redirection} {trace : List (ShellEvent σ η)}
    {result : Except (Path × SystemError) (OutputFiles η)}
    (h : Openings directory files redirections trace result) : startedStages trace = [] := by
  cases h with
  | all opened => exact startedStages_openings directory opened
  | refused opened =>
    rw [startedStages_append, startedStages_openings]
    rfl

/-! ## Starting stages -/

/-- A stage as a launch starts it, connected and in the state that the connection left. -/
def entryFor (origin : Shell σ) (segment : Segment) (connection : Connection η) (env : Environment)
    (s : σ) : StageEntry σ η :=
  ⟨segment.name, segment.args, origin, connection.streams, ⟨env, s⟩⟩

/-- A stage is started for a segment, with a command that was created from the given shell. -/
structure StageEntry.Of (entry : StageEntry σ η) (origin : Shell σ) (segment : Segment) :
    Prop where
  name_eq : entry.name = segment.name
  args_eq : entry.args = segment.args
  origin_eq : entry.origin = origin

/-- Where a stage writes. The last one writes to the files of the pipeline, where there are any, and
to the terminal where there are none. Every other one writes into a pipe and reports on the
terminal. -/
structure StageEntry.WritesTo (entry : StageEntry σ η) (host : Host σ η)
    (file : OutputStream → Option η) (isLast : Prop) : Prop where
  last_stdout : isLast → entry.streams.stdout = (file .stdout).getD host.terminal.stdout
  last_stderr : isLast → entry.streams.stderr = (file .stderr).getD host.terminal.stderr
  inner_stdout : ¬isLast → ∃ s, entry.streams.stdout = (host.pipe s).1.2
  inner_stderr : ¬isLast → entry.streams.stderr = host.terminal.stderr

/-- How the stages of some segments are launched: what a tracer notes, and the result. -/
inductive LaunchRun (host : Host σ η) (files : OutputFiles η) (origin : Shell σ)
    (command : Segment → Command σ η) :
    List Segment → Option η → Environment → σ → List (ShellEvent σ η) → LaunchResult σ → Prop
  /-- No stages are left. -/
  | nil {input : Option η} {env : Environment} {s : σ} :
      LaunchRun host files origin command [] input env s [] (.all [])
  /-- A stage waits for ever. -/
  | blocked {segment : Segment} {rest : List Segment} {input : Option η}
      {env requested : Environment} {s connected after : σ} {connection : Connection η}
      (connects : connect host files rest.isEmpty input s = (connection, connected))
      (starts : (command segment).start connection.streams env connected =
        (.error .blocked, requested, after)) :
      LaunchRun host files origin command (segment :: rest) input env s
        [.started (entryFor origin segment connection env connected)] .blocked
  /-- A stage was started, and a request to leave the shell is pending. -/
  | exited {segment : Segment} {rest : List Segment} {input : Option η}
      {env requested : Environment} {s connected after : σ} {connection : Connection η}
      {outcome : Except StartError (Started σ)} {started : Started σ} {code : ExitCode}
      (connects : connect host files rest.isEmpty input s = (connection, connected))
      (starts : (command segment).start connection.streams env connected =
        (outcome, requested, after))
      (settles : settled? outcome = some started) (requests : requested.exitRequest = some code) :
      LaunchRun host files origin command (segment :: rest) input env s
        (.started (entryFor origin segment connection env connected) ::
          failureReports host outcome) (.exited code)
  /-- A stage was started, and those behind it are launched. -/
  | next {segment : Segment} {rest : List Segment} {input : Option η}
      {env requested : Environment} {s connected after : σ} {connection : Connection η}
      {outcome : Except StartError (Started σ)} {started : Started σ}
      {more : List (ShellEvent σ η)} {result : LaunchResult σ}
      (connects : connect host files rest.isEmpty input s = (connection, connected))
      (starts : (command segment).start connection.streams env connected =
        (outcome, requested, after))
      (settles : settled? outcome = some started) (requests : requested.exitRequest = none)
      (others : LaunchRun host files origin command rest connection.next requested
        (reportFailure host outcome (host.closeAll connection.own after)) more result) :
      LaunchRun host files origin command (segment :: rest) input env s
        (.started (entryFor origin segment connection env connected) ::
          (failureReports host outcome ++ more)) (result.cons (segment.name, started))

/-- A start settles unless it waits for ever. -/
theorem settled?_eq_none_iff (outcome : Except StartError (Started σ)) :
    settled? outcome = none ↔ outcome = .error .blocked := by
  cases outcome with
  | ok started => simp [settled?]
  | error e => cases e <;> simp [settled?]

/-- Launching traced stages does what launching the stages does, and notes the starts. -/
theorem launch_traced (host : Host σ η) (files : OutputFiles η) (origin : Shell σ)
    (command : Segment → Command σ η) {segments : List Segment} {input : Option η}
    {env env' : Environment} {s s' : σ} {result : LaunchResult σ} (trace : List (ShellEvent σ η))
    (h : launch host files (stagesOf command segments) input env s = (result, env', s')) :
    ∃ noted, LaunchRun host files origin command segments input env s noted result ∧
      launch host.traced files (stagesOf (traceCommands origin command) segments) input env
          (s, trace) =
        (result.traced, env', s', trace ++ noted) := by
  induction segments generalizing input env s trace result with
  | nil =>
    rw [stagesOf, List.map_nil, launch] at h
    cases h
    exact ⟨[], .nil, by rw [List.append_nil]; rfl⟩
  | cons segment rest ih =>
    rw [stagesOf_cons, launch_cons, isEmpty_stagesOf] at h
    rw [stagesOf_cons, launch_cons, isEmpty_stagesOf, connect_traced]
    rcases hconnect : connect host files rest.isEmpty input s with ⟨connection, connected⟩
    rcases hstart : (command segment).start connection.streams env connected with
      ⟨outcome, requested, after⟩
    let entry := entryFor origin segment connection env connected
    simp only [hconnect, hstart] at h
    simp only [withTrace, traceCommands, Command.start_traced hstart, settled?_traced]
    cases hsettled : settled? outcome with
    | none =>
      simp only [hsettled] at h
      cases h
      obtain rfl := (settled?_eq_none_iff outcome).mp hsettled
      exact ⟨[.started entry], .blocked hconnect hstart, rfl⟩
    | some started =>
      simp only [hsettled] at h
      simp only [Option.map_some, closeAll_traced, reportFailure_traced]
      cases hrequest : requested.exitRequest with
      | some code =>
        simp only [hrequest] at h
        cases h
        refine ⟨.started entry :: failureReports host outcome,
          .exited hconnect hstart hsettled hrequest, ?_⟩
        simp only [List.append_assoc, List.singleton_append]
        rfl
      | none =>
        simp only [hrequest] at h
        rcases hrest : launch host files (stagesOf command rest) connection.next requested
            (reportFailure host outcome (host.closeAll connection.own after)) with
          ⟨more, env', s'⟩
        rw [hrest] at h
        cases h
        -- The rest is launched with the start and its reports in the trace.
        obtain ⟨noted, hrun, hlaunch⟩ := ih
          (trace ++ [.started entry] ++ failureReports host outcome) hrest
        refine ⟨.started entry :: (failureReports host outcome ++ noted),
          .next hconnect hstart hsettled hrequest hrun, ?_⟩
        simp only [entry, entryFor, List.append_assoc, List.singleton_append] at hlaunch
        simp only [hlaunch, LaunchResult.traced_cons, List.append_assoc, List.cons_append,
          List.nil_append]
        rfl

/-- A stage writes where it is connected to: to its files when it is the last one, and into a new
pipe when it is not. -/
theorem StageEntry.WritesTo.of_connect {host : Host σ η} {files : OutputFiles η}
    {segment : Segment} {rest : List Segment} {input : Option η} {s s' : σ}
    {connection : Connection η}
    (h : connect host files rest.isEmpty input s = (connection, s')) (origin : Shell σ)
    (env : Environment) :
    (entryFor origin segment connection env s').WritesTo host files.get? (rest = []) := by
  cases rest with
  | nil =>
    cases h
    exact ⟨fun _ => rfl, fun _ => rfl, fun hne => absurd rfl hne, fun hne => absurd rfl hne⟩
  | cons next more =>
    cases h
    exact ⟨nofun, nofun, fun _ => ⟨s, rfl⟩, fun _ => rfl⟩

section

variable {host : Host σ η} {files : OutputFiles η} {origin : Shell σ}
  {command : Segment → Command σ η}

/-- A launch of stages starts the first one of them. -/
theorem LaunchRun.startedStages_ne_nil {segments : List Segment} {input : Option η}
    {env : Environment} {s : σ} {noted : List (ShellEvent σ η)} {result : LaunchResult σ}
    (h : LaunchRun host files origin command segments input env s noted result)
    (hne : segments ≠ []) : startedStages noted ≠ [] := by
  cases h with
  | nil => exact absurd rfl hne
  | blocked => exact List.cons_ne_nil _ _
  | exited => exact List.cons_ne_nil _ _
  | next => exact List.cons_ne_nil _ _

/-- Besides the starts there are but reports. -/
theorem LaunchRun.report_of_mem {segments : List Segment} {input : Option η}
    {env : Environment} {s : σ} {noted : List (ShellEvent σ η)} {result : LaunchResult σ}
    (h : LaunchRun host files origin command segments input env s noted result) :
    ∀ event ∈ noted, event.entry? = none → ∃ message, event = .report host message := by
  induction h with
  | nil => exact fun _ hmem => absurd hmem List.not_mem_nil
  | blocked => exact List.forall_mem_cons.mpr ⟨nofun, fun _ hmem => absurd hmem List.not_mem_nil⟩
  | @exited _ _ _ _ _ _ _ _ _ outcome =>
    exact List.forall_mem_cons.mpr
      ⟨nofun, fun event hmem _ => onlyReports_failureReports host outcome event hmem⟩
  | @next _ _ _ _ _ _ _ _ _ outcome _ _ _ _ _ _ _ _ ih =>
    refine List.forall_mem_cons.mpr ⟨nofun, fun event hmem hentry => ?_⟩
    rcases List.mem_append.mp hmem with hreport | hmore
    · exact onlyReports_failureReports host outcome event hreport
    · exact ih event hmore hentry

end

/-! ## The outcome of a launch -/

/-- What becomes of a pipeline whose launch had the given result. -/
def LaunchResult.outcome (host : Host σ η) (s : σ) : LaunchResult σ → Except LineError ExitCode
  | all stages => .ok (waitAll host 0 stages s).1
  | exited code => .ok code
  | blocked => .error .blocked

/-- Running stages leaves what the launch has left, and its outcome is that of the launch. -/
theorem runStages_eq_outcome {host : Host σ η} {files : OutputFiles η} {stages : List (Stage σ η)}
    {sh : Shell σ} {result : LaunchResult σ} {env : Environment} {s : σ}
    (h : launch host files stages none sh.env sh.system = (result, env, s)) :
    (runStages host files stages sh).1 = result.outcome host s ∧
      (runStages host files stages sh).2.env = env := by
  rw [runStages, h]
  cases result <;> exact ⟨rfl, rfl⟩

/-! ## Running stages under a tracer -/

/-- Running traced stages does what running the stages does, and leaves the trace of the launch with
reports behind it. -/
theorem runStages_traced (host : Host σ η) (files : OutputFiles η) (origin : Shell σ)
    (command : Segment → Command σ η) (segments : List Segment) (sh : Shell σ)
    (trace : List (ShellEvent σ η)) {result : LaunchResult σ} {env : Environment} {after : σ}
    (hlaunch : launch host files (stagesOf command segments) none sh.env sh.system =
      (result, env, after)) :
    let outcome := runStages host files (stagesOf command segments) sh
    ∃ noted reports,
      LaunchRun host files origin command segments none sh.env sh.system noted result ∧
        OnlyReports host reports ∧
        runStages host.traced files (stagesOf (traceCommands origin command) segments)
            (sh.withTrace trace) =
          (outcome.1, outcome.2.withTrace (trace ++ noted ++ reports)) := by
  obtain ⟨noted, hrun, htraced⟩ := launch_traced host files origin command trace hlaunch
  simp only [runStages, hlaunch, Shell.withTrace, htraced]
  cases result with
  | all stages =>
    obtain ⟨reports, honly, hwaited⟩ := waitAll_traced host 0 stages after (trace ++ noted)
    refine ⟨noted, reports, hrun, honly, ?_⟩
    simp only [LaunchResult.traced, hwaited, withTrace]
  | exited code => exact ⟨noted, [], hrun, .nil host, by rw [List.append_nil]; rfl⟩
  | blocked => exact ⟨noted, [], hrun, .nil host, by rw [List.append_nil]; rfl⟩

/-- Under a tracer a pipeline whose redirections can be opened goes on with its traced stages. -/
theorem executePipeline_traced_of_opened (host : Host σ η) (factories : List (Factory σ η))
    {p : Pipeline} {sh : Shell σ} {last : Segment} {files : OutputFiles η} {opened : σ}
    {noted : List (ShellEvent σ η)} (hlast : p.last? = some last)
    (htraced : openRedirections host.traced sh.env.currentDirectory .none last.redirections
      (sh.system, []) = (.ok files, opened, noted)) :
    let command (segment : Segment) :=
      Command.create host factories sh.env sh.system segment.name segment.args
    (sh.withTrace []).executePipeline host.traced [tracer host factories] p =
      runStages host.traced files (stagesOf (traceCommands sh command) p.segments)
        (Shell.withTrace noted ⟨sh.env, opened⟩) := by
  simp only [Shell.executePipeline, hlast, Shell.withTrace, htraced]
  rfl

end

end LineShell
