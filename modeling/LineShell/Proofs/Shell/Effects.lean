import LineShell.Proofs.Shell.Phases
import LineShell.Proofs.Shell.Prescription

/-!
# What builtins may touch

A stage that runs inside the shell is given the whole environment. All that it can do to it is to
set the current directory, by a change of directory that succeeds, or to request an exit, by an exit
whose operand is a code. A pipeline of such stages leaves the directory that was set last, and a
request for an exit ends it.
-/

namespace LineShell

section

variable {σ η : Type}

/-- A stage is a change of directory, with one operand at most, that has succeeded and set the
directory that was found at its target. -/
structure StageEntry.Moves (entry : StageEntry σ η) (host : Host σ η) (found : Path) : Prop where
  name_eq : entry.name = "cd"
  few : entry.args.length ≤ 1
  target : ∃ target s', CdTarget entry.shell.env entry.args.head? target ∧
    Enters host entry.shell.env target entry.shell.system found s' ∧
    entry.result host (standardFactories host) =
      (.ok (.finished 0), { entry.shell.env with currentDirectory := found }, s')

/-- A stage is an exit without an operand or with one that stands for the code. -/
structure StageEntry.Requests (entry : StageEntry σ η) (code : ExitCode) : Prop where
  name_eq : entry.name = "exit"
  operand : ExitOperand entry.args code

/-- What a stage may do to the environment in which it is started. -/
inductive Touches (host : Host σ η) (entry : StageEntry σ η) : Environment → Prop
  | nothing : Touches host entry entry.shell.env
  | directory {found : Path} (moves : entry.Moves host found) :
      Touches host entry { entry.shell.env with currentDirectory := found }
  | request {code : ExitCode} (requests : entry.Requests code) :
      Touches host entry (entry.shell.env.requestExit code)

/-! ## One stage -/

/-- An exit with a code requests it and ends with it. -/
theorem StageEntry.Requests.result_eq {entry : StageEntry σ η} {code : ExitCode}
    (h : entry.Requests code) (host : Host σ η) :
    entry.result host (standardFactories host) =
      (.ok (.finished code), entry.shell.env.requestExit code, entry.shell.system) := by
  rw [result, h.name_eq]
  exact start_exit host entry.streams entry.origin h.operand entry.shell.env entry.shell.system

/-- A stage touches nothing but what it may. -/
theorem touches_result {host : Host σ η} {entry : StageEntry σ η}
    (hinside : RunsInside host entry.origin entry.name) :
    Touches host entry (entry.result host (standardFactories host)).2.1 := by
  obtain ⟨name, args, origin, streams, env, s⟩ := entry
  obtain ⟨p, hp⟩ := hinside.exists_prescribes env s args
  have hdelivers := delivers_start streams hp
  have henv : ((⟨name, args, origin, streams, env, s⟩ : StageEntry σ η).result host
      (standardFactories host)).2.1 = p.env := hdelivers.env_eq
  rw [henv]
  cases hp with
  | cd few means enters =>
    have hresult := hdelivers.eq_of_said (.complaints rfl) rfl
    exact .directory ⟨rfl, few, _, _, means, enters, hresult⟩
  | exit operand => exact .request ⟨rfl, operand⟩
  | _ => exact .nothing

/-! ## Stages one after the other -/

/-- Stages that touch only what they may. -/
def AllTouch (host : Host σ η) (started : List (StageEntry σ η)) : Prop :=
  ∀ entry ∈ started, Touches host entry (entry.result host (standardFactories host)).2.1

section

variable {host : Host σ η} {env last : Environment} {started : List (StageEntry σ η)}
  (course : EnvCourse host (standardFactories host) env started last)

include course

/-- The variables and the history stay as they are. -/
theorem EnvCourse.rest_eq (htouch : AllTouch host started) :
    last.bindings = env.bindings ∧ last.history = env.history := by
  refine Prod.mk.inj (course.keeps (fun env => (env.bindings, env.history)) fun entry hmem => ?_)
  have htouched := htouch entry hmem
  generalize (entry.result host (standardFactories host)).2.1 = touched at htouched
  cases htouched <;> rfl

/-- The directory stays as it is when no stage sets it. -/
theorem EnvCourse.currentDirectory_eq (htouch : AllTouch host started)
    (hstay : ∀ entry ∈ started, ∀ found, ¬entry.Moves host found) :
    last.currentDirectory = env.currentDirectory := by
  refine course.keeps Environment.currentDirectory fun entry hmem => ?_
  have htouched := htouch entry hmem
  generalize (entry.result host (standardFactories host)).2.1 = touched at htouched
  cases htouched with
  | nothing => rfl
  | directory moves => exact absurd moves (hstay entry hmem _)
  | request => rfl

/-- The request to leave stays as it is when no stage requests an exit. -/
theorem EnvCourse.exitRequest_eq (htouch : AllTouch host started)
    (hstay : ∀ entry ∈ started, ∀ code, ¬entry.Requests code) :
    last.exitRequest = env.exitRequest := by
  refine course.keeps Environment.exitRequest fun entry hmem => ?_
  have htouched := htouch entry hmem
  generalize (entry.result host (standardFactories host)).2.1 = touched at htouched
  cases htouched with
  | nothing => rfl
  | directory => rfl
  | request requests => exact absurd requests (hstay entry hmem _)

end

/-! ## Whole pipelines -/

/-- All stages of a pipeline that runs inside the shell touch only what they may. -/
theorem allTouch_startedStages {host : Host σ η} {p : Pipeline} {sh : Shell σ}
    (hinside : ∀ segment ∈ p.segments, RunsInside host sh segment.name) :
    AllTouch host (startedStages (pipelineTrace host (standardFactories host) p sh)) := by
  intro entry hmem
  obtain ⟨i, hentry⟩ := List.getElem?_of_mem hmem
  obtain ⟨segment, hsegment, hof⟩ :=
    (executePipeline_course host (standardFactories host) p sh).stage hentry
  apply touches_result
  rw [hof.origin_eq, hof.name_eq]
  exact hinside segment (List.mem_of_getElem? hsegment)

/-- A builtin with a word too many leaves the environment as it is, and ends with two when it can
say so. -/
theorem start_surplus (host : Host σ η) (origin : Shell σ) {b : Builtin} {words : List String}
    {bound : Nat} {word : String} (htakes : b.maxWords? = some bound)
    (hsurplus : words[bound]? = some word) (streams : Streams η) (env : Environment) (s : σ) :
    let result := (Command.create host (standardFactories host) origin.env origin.system b.name
      words).start streams env s
    result.2.1 = env ∧
      ∀ s', host.writeLine streams.stderr (Text.trimEnd ("Unrecognized argument: " ++ word)) s =
        (.ok (), s') → result = (.ok (.finished 2), env, s') := by
  have hdelivers : Delivers host streams b.name _ _ :=
    delivers_start_surplus streams origin htakes hsurplus env s
  refine ⟨hdelivers.env_eq, fun s' hsaid => ?_⟩
  rw [← Host.writeLines_singleton] at hsaid
  exact hdelivers.eq_of_said (.complaints rfl) hsaid

end

/-- A system on which every operation succeeds, and on which there are directories but no files. -/
def hallway : Host Unit Unit :=
  { idleHost with isFile := fun _ _ => false, isDirectory := fun _ _ => true }

/-- A shell of the system, at the root. -/
def hallwayShell : Shell Unit := ⟨.initial [("HOME", "/home/ann")] ⟨"/"⟩, ()⟩

/-- A pipeline that sets the directory, tries to do so once more, and requests an exit. -/
def hallwayWalk : Pipeline :=
  ⟨[⟨"cd", ["srv"], []⟩, ⟨"gone", [], []⟩, ⟨"cd", ["..", "more"], []⟩, ⟨"exit", ["+3"], []⟩,
    ⟨"pwd", [], []⟩]⟩

/-- The first stage of the pipeline, behind which all others are in the directory that it sets. -/
theorem startedStages_hallwayWalk :
    startedStages (pipelineTrace hallway (standardFactories hallway) hallwayWalk hallwayShell) =
      let there : Shell Unit := ⟨{ hallwayShell.env with currentDirectory := ⟨"/srv"⟩ }, ()⟩
      [⟨"cd", ["srv"], hallwayShell, ⟨(), (), ()⟩, hallwayShell⟩,
        ⟨"gone", [], hallwayShell, ⟨(), (), ()⟩, there⟩,
        ⟨"cd", ["..", "more"], hallwayShell, ⟨(), (), ()⟩, there⟩,
        ⟨"exit", ["+3"], hallwayShell, ⟨(), (), ()⟩, there⟩] := rfl

end LineShell
