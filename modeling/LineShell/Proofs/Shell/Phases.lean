import LineShell.External
import LineShell.Proofs.Shell.NextStage

/-!
# The phases of a pipeline

A pipeline creates its commands, then opens the redirections of its last stage, and only then
starts its stages, one after the other from the first on. So nothing that a stage does has a say in
which commands run and which files are opened. The first redirection that cannot be opened ends the
pipeline: it is reported on the terminal, and no stage is started.
-/

namespace LineShell

section

variable {σ η : Type}

/-- The traces of a pipeline, and the results and shells that belong to them. -/
inductive PipelinePhases (host : Host σ η) (factories : List (Factory σ η)) (p : Pipeline)
    (sh : Shell σ) :
    List (ShellEvent σ η) → Except LineError ExitCode × Shell σ → Prop where
  /-- There are no stages. -/
  | empty (segments : p.segments = []) : PipelinePhases host factories p sh [] (.ok 0, sh)
  /-- A redirection of the last stage could not be opened. Those before it were, those behind it
  were not even tried, and there is one report. -/
  | refused {last : Segment} {opened : List (Redirection × η)} {redirection : Redirection}
      {unopened : List Redirection} {e : SystemError} {after : σ} (isLast : p.last? = some last)
      (redirections : last.redirections = opened.map Prod.fst ++ redirection :: unopened) :
      PipelinePhases host factories p sh
        (openings sh.env.currentDirectory opened ++
          [.opened redirection.mode (sh.env.currentDirectory.join redirection.path) (.error e),
            .report host (redirection.path.text ++ ": " ++ e.message)])
        (.ok 1, ⟨sh.env, after⟩)
  /-- All redirections of the last stage were opened in order. Afterwards the first stage was
  started, and behind each stage the next one, up to the last stage or to one that waits for ever or
  leaves a request to end the shell. Otherwise there are but reports. -/
  | ran {last : Segment} {opened : List (Redirection × η)} {later : List (ShellEvent σ η)}
      {outcome : Except LineError ExitCode × Shell σ} (isLast : p.last? = some last)
      (redirections : opened.map Prod.fst = last.redirections)
      (starts : startedStages later ≠ [])
      (course : PipelineCourse host factories p sh later outcome)
      (writes : ∀ (i : Nat) (entry : StageEntry σ η), (startedStages later)[i]? = some entry →
        entry.WritesTo host (lastFile opened) (i + 1 = p.segments.length))
      (reports : ∀ event ∈ later, event.entry? = none → ∃ message, event = .report host message) :
      PipelinePhases host factories p sh (openings sh.env.currentDirectory opened ++ later) outcome

/-- A pipeline with a redirection that cannot be opened ends with its report. -/
theorem pipelinePhases_of_refused (host : Host σ η) (factories : List (Factory σ η))
    {p : Pipeline} {sh : Shell σ} {last : Segment} {path : Path} {e : SystemError} {refused : σ}
    {noted : List (ShellEvent σ η)} (hlast : p.last? = some last)
    (hopen : openRedirections host sh.env.currentDirectory .none last.redirections sh.system =
      (.error (path, e), refused))
    (hopenings : Openings sh.env.currentDirectory .none last.redirections noted (.error (path, e)))
    (htraced : openRedirections host.traced sh.env.currentDirectory .none last.redirections
      (sh.system, []) = (.error (path, e), refused, noted)) :
    let outcome := sh.executePipeline host factories p
    ∃ trace,
      (sh.withTrace []).executePipeline host.traced [tracer host factories] p =
          (outcome.1, outcome.2.withTrace trace) ∧
        PipelinePhases host factories p sh trace outcome := by
  intro outcome
  have houtcome : outcome = (.ok redirectionFailed,
      ⟨sh.env, host.report (path.text ++ ": " ++ e.message) refused⟩) := by
    simp only [outcome, Shell.executePipeline, hlast, hopen]
  rw [houtcome]
  refine ⟨noted ++ [.report host (path.text ++ ": " ++ e.message)], ?_, ?_⟩
  · simp only [Shell.executePipeline, hlast, Shell.withTrace, htraced, report_traced]
  · generalize hredirections : last.redirections = redirections at hopenings
    generalize hresult : (Except.error (path, e) : Except _ (OutputFiles η)) = result at hopenings
    cases hopenings with
    | all opened => cases hresult
    | refused opened redirection unopened e =>
      cases hresult
      rw [List.append_assoc]
      exact .refused hlast hredirections

/-- A pipeline whose redirections can be opened goes on to start its stages. -/
theorem pipelinePhases_of_opened (host : Host σ η) (factories : List (Factory σ η))
    {p : Pipeline} {sh : Shell σ} {last : Segment} {files : OutputFiles η} {opened : σ}
    {noted : List (ShellEvent σ η)} (hlast : p.last? = some last)
    (hopen : openRedirections host sh.env.currentDirectory .none last.redirections sh.system =
      (.ok files, opened))
    (hopenings : Openings sh.env.currentDirectory .none last.redirections noted (.ok files))
    (htraced : openRedirections host.traced sh.env.currentDirectory .none last.redirections
      (sh.system, []) = (.ok files, opened, noted)) :
    let outcome := sh.executePipeline host factories p
    ∃ trace,
      (sh.withTrace []).executePipeline host.traced [tracer host factories] p =
          (outcome.1, outcome.2.withTrace trace) ∧
        PipelinePhases host factories p sh trace outcome := by
  intro outcome
  let command (segment : Segment) :=
    Command.create host factories sh.env sh.system segment.name segment.args
  rcases hlaunch : launch host files (stagesOf command p.segments) none sh.env opened with
    ⟨result, env, after⟩
  have houtcome : outcome = runStages host files (stagesOf command p.segments) ⟨sh.env, opened⟩ :=
    (executePipeline_of_opened host factories hlast hopen).1
  obtain ⟨starts, reports, hrun, honly, hstages⟩ :=
    runStages_traced host files sh command p.segments ⟨sh.env, opened⟩ noted hlaunch
  refine ⟨noted ++ (starts ++ reports), ?_, ?_⟩
  · rw [executePipeline_traced_of_opened host factories hlast htraced, hstages, List.append_assoc,
      houtcome]
  · generalize hredirections : last.redirections = redirections at hopenings
    generalize hresult : (Except.ok files : Except (Path × SystemError) _) = result at hopenings
    cases hopenings with
    | refused opened redirection unopened e => cases hresult
    | all opened =>
      cases hresult
      have hstarted : startedStages (starts ++ reports) = startedStages starts := by
        rw [startedStages_append, honly.startedStages_eq, List.append_nil]
      have hne : p.segments ≠ [] := List.ne_nil_of_mem (List.mem_of_getLast? hlast)
      have hcourse := (hrun.course (fun _ => rfl) hlaunch).between
        (rfl : startedStages [] = []) honly.startedStages_eq
      rw [List.nil_append, ← houtcome] at hcourse
      refine .ran hlast hredirections.symm ?_ hcourse (fun i entry hentry => ?_)
        fun event hmem hentry => ?_
      · rw [hstarted]
        exact hrun.startedStages_ne_nil hne
      · rw [hstarted] at hentry
        rw [← get?_none_replaceAll]
        exact (hrun.stage hentry).2
      · rcases List.mem_append.mp hmem with hstart | hreport
        · exact hrun.report_of_mem event hstart hentry
        · exact honly event hreport

/-- Under a tracer a pipeline does what it does without one, and has a trace that shows its
phases. -/
theorem exists_pipelinePhases (host : Host σ η) (factories : List (Factory σ η)) (p : Pipeline)
    (sh : Shell σ) :
    let outcome := sh.executePipeline host factories p
    ∃ trace,
      (sh.withTrace []).executePipeline host.traced [tracer host factories] p =
          (outcome.1, outcome.2.withTrace trace) ∧
        PipelinePhases host factories p sh trace outcome := by
  cases hlast : p.last? with
  | none =>
    have hnil : p.segments = [] := List.getLast?_eq_none_iff.mp hlast
    dsimp only
    rw [executePipeline_of_empty host factories hnil]
    exact ⟨[], executePipeline_of_empty _ _ hnil _, .empty hnil⟩
  | some last =>
    rcases hopen : openRedirections host sh.env.currentDirectory .none last.redirections
      sh.system with ⟨result, opened⟩
    obtain ⟨noted, hopenings, htraced⟩ := openRedirections_traced host _ [] hopen
    cases result with
    | error e => exact pipelinePhases_of_refused host factories hlast hopen hopenings htraced
    | ok files => exact pipelinePhases_of_opened host factories hlast hopen hopenings htraced

/-- The trace of a pipeline is the one that it has under a tracer. -/
theorem pipelineTrace_of_traced {host : Host σ η} {factories : List (Factory σ η)} {p : Pipeline}
    {sh : Shell σ} {outcome : Except LineError ExitCode × Shell σ} {trace : List (ShellEvent σ η)}
    (h : (sh.withTrace []).executePipeline host.traced [tracer host factories] p =
      (outcome.1, outcome.2.withTrace trace)) : pipelineTrace host factories p sh = trace := by
  rw [pipelineTrace, h]
  rfl

/-- Every pipeline takes its course, whatever becomes of its redirections. -/
theorem executePipeline_course (host : Host σ η) (factories : List (Factory σ η)) (p : Pipeline)
    (sh : Shell σ) :
    PipelineCourse host factories p sh (pipelineTrace host factories p sh)
      (sh.executePipeline host factories p) := by
  obtain ⟨trace, hrun, hphases⟩ := exists_pipelinePhases host factories p sh
  rw [pipelineTrace_of_traced hrun]
  generalize sh.executePipeline host factories p = outcome at hphases
  cases hphases with
  | empty => exact .of_none host factories p rfl rfl
  | refused =>
    refine .of_none host factories p ?_ rfl
    rw [startedStages_append, startedStages_openings]
    rfl
  | @ran _ opened _ _ _ _ _ course =>
    have hopenings := startedStages_openings (σ := σ) sh.env.currentDirectory opened
    have hcourse := course.between hopenings (rfl : startedStages [] = [])
    rwa [List.append_nil] at hcourse

/-- A tracer changes nothing about a pipeline, and its trace shows the phases: the redirections of
the last stage are opened in order, as seen from the directory in which the pipeline begins, and
only then the stages are started, with commands that were created from the shell in which it begins.
They are started from the first on, each behind the one before it, and all of them unless one waits
for ever or leaves a request to end the shell. When a redirection cannot be opened, no stage is
started, the environment stays as it is, and there is one report. -/
theorem executePipeline_phases (host : Host σ η) (factories : List (Factory σ η)) (p : Pipeline)
    (sh : Shell σ) :
    let outcome := sh.executePipeline host factories p
    let trace := pipelineTrace host factories p sh
    (sh.withTrace []).executePipeline host.traced [tracer host factories] p =
        (outcome.1, outcome.2.withTrace trace) ∧
      PipelinePhases host factories p sh trace outcome := by
  obtain ⟨trace, hrun, hphases⟩ := exists_pipelinePhases host factories p sh
  dsimp only
  rw [pipelineTrace_of_traced hrun]
  exact ⟨hrun, hphases⟩

end

example :
    let host := { idleHost with
      openOutput := fun mode _ s => (if mode = .append then .error .notFound else .ok (), s) }
    let redirections := [⟨.truncate, .stdout, ⟨"a"⟩⟩, ⟨.append, .stderr, ⟨"b"⟩⟩,
      ⟨.truncate, .stdout, ⟨"c"⟩⟩]
    pipelineTrace host [idleFactory] ⟨[⟨"run", [], redirections⟩]⟩ ⟨.initial [] ⟨"/"⟩, ()⟩ =
      [.opened .truncate ⟨"/a"⟩ (.ok ()), .opened .append ⟨"/b"⟩ (.error .notFound),
        .report host ("b: " ++ SystemError.notFound.message)] := rfl

-- The last stage is created where the pipeline begins, and started where the first one has gone.
example :
    let host : Host Unit String :=
      { terminal := ⟨"keyboard", "screen", "screen"⟩
        pipe := fun s => (("reader", "writer"), s)
        openOutput := fun _ path s => (.ok path.text, s)
        write := fun _ _ s => (.ok (), s)
        close := fun _ s => s
        isFile := fun _ _ => false
        isDirectory := fun _ _ => true
        canonicalPath := fun _ path => .ok path
        changeDirectory := fun _ s => (.ok (), s)
        spawn := fun _ _ s => (.error .notFound, s) }
    let redirections := [⟨.truncate, .stdout, ⟨"a"⟩⟩, ⟨.append, .stderr, ⟨"b"⟩⟩,
      ⟨.truncate, .stdout, ⟨"c"⟩⟩]
    let sh : Shell Unit := ⟨.initial [] ⟨"/srv"⟩, ()⟩
    let there : Shell Unit := ⟨.initial [] ⟨"/srv/new"⟩, ()⟩
    pipelineTrace host (standardFactories host)
        ⟨[⟨"cd", ["new"], [⟨.truncate, .stdout, ⟨"inner"⟩⟩]⟩, ⟨"pwd", [], redirections⟩]⟩ sh =
      [.opened .truncate ⟨"/srv/a"⟩ (.ok "/srv/a"), .opened .append ⟨"/srv/b"⟩ (.ok "/srv/b"),
        .opened .truncate ⟨"/srv/c"⟩ (.ok "/srv/c"),
        .started ⟨"cd", ["new"], sh, ⟨"keyboard", "writer", "screen"⟩, sh⟩,
        .started ⟨"pwd", [], sh, ⟨"reader", "/srv/c", "/srv/b"⟩, there⟩] := rfl

end LineShell
