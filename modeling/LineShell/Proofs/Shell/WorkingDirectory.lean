import LineShell.Proofs.Shell.Classification
import LineShell.Proofs.Shell.Frame

/-!
# The directory of a shell and of its process

A shell keeps its current directory in its environment, and its process stands in a directory of the
system. Only a change of directory touches either of them. It moves the process first and writes the
directory down when the process has been moved, so that the two are the same directory after every
run of builtins that starts with the same directory in both places.
-/

namespace LineShell

section

variable {σ η : Type}

/-- A system in whose states the process of the shell stands in a directory. Only a change of
directory moves the process. Apart from that, looking paths up, testing for directories and moving
the process may give anything and may fail at any time. -/
structure Host.Locates (host : Host σ η) (directory : σ → Path) : Prop where
  pipe : ∀ s, directory (host.pipe s).2 = directory s
  openOutput : ∀ mode path s, directory (host.openOutput mode path s).2 = directory s
  write : ∀ stream bytes s, directory (host.write stream bytes s).2 = directory s
  close : ∀ stream s, directory (host.close stream s) = directory s
  /-- A canonical path is absolute. -/
  canonical : ∀ {s path found}, host.canonicalPath s path = .ok found → found.isAbsolute = true
  /-- A canonical path is where the process stands when it has been moved there. -/
  moved : ∀ {s path found s'}, host.canonicalPath s path = .ok found →
    host.changeDirectory found s = (.ok (), s') → directory s' = (directory s).join found
  /-- A process that cannot be moved stays where it is. -/
  stayed : ∀ {s path e s'}, host.changeDirectory path s = (.error e, s') →
    directory s' = directory s

namespace Shell

/-- The current directory of a shell and the directory of its process. -/
def directories (directory : σ → Path) (sh : Shell σ) : Path × Path :=
  (sh.env.currentDirectory, directory sh.system)

/-- The current directory of a shell is the directory of its process. -/
def InStep (directory : σ → Path) (sh : Shell σ) : Prop :=
  sh.env.currentDirectory = directory sh.system

/-- The shell when pipelines have been run one after the other, whatever came of them. -/
def executePipelines (host : Host σ η) (factories : List (Factory σ η)) (pipelines : List Pipeline)
    (sh : Shell σ) : Shell σ :=
  pipelines.foldl (fun sh p => (sh.executePipeline host factories p).2) sh

end Shell

/-- From a shell in step with its process one comes to a shell in step with its process. -/
def StaysInStep (directory : σ → Path) (sh sh' : Shell σ) : Prop :=
  sh.InStep directory → sh'.InStep directory

/-- All stages of a pipeline have the names of builtins. -/
def Pipeline.CallsBuiltins (p : Pipeline) : Prop :=
  ∀ segment ∈ p.segments, (Builtin.ofName? segment.name).isSome

instance (p : Pipeline) : Decidable p.CallsBuiltins :=
  inferInstanceAs (Decidable (∀ segment ∈ p.segments, (Builtin.ofName? segment.name).isSome))

/-- The operands that mean the home directory: none, an empty one and a tilde. -/
def MeansHome (operand : Option String) : Prop :=
  operand = none ∨ operand = some "" ∨ operand = some "~"

/-- The directory that the operand of a change of directory names: the home directory, which is
that of the user below the directory of all homes when it is not set, or the operand itself. -/
inductive CdTarget (env : Environment) : Option String → Path → Prop
  | home {operand : Option String} {home : String} (meansHome : MeansHome operand)
      (isSet : env.get? "HOME" = some home) : CdTarget env operand ⟨home⟩
  | user {operand : Option String} (meansHome : MeansHome operand)
      (notSet : env.get? "HOME" = none) :
      CdTarget env operand (Path.join ⟨"/home"⟩ ⟨(env.get? "USER").getD ""⟩)
  | operand {word : String} (isPath : ¬MeansHome (some word)) : CdTarget env (some word) ⟨word⟩

/-- What is said of a target that is not entered. -/
def refusal (target : Path) : String := "cd: " ++ target.text ++ ": No such file or directory"

/-- What comes of a change of directory to a target. -/
inductive CdOutcome (host : Host σ η) (directory : σ → Path) (streams : Streams η)
    (env : Environment) (target : Path) (s : σ) : StartResult σ → Prop
  /-- The target becomes the current directory and the directory of the process, and nothing else
  changes. -/
  | entered {found : Path} {s' : σ} (enters : Enters host env target s found s')
      (directory_eq : directory s' = found) :
      CdOutcome host directory streams env target s
        (.ok (.finished 0), { env with currentDirectory := found }, s')
  /-- The target is refused, which is said. -/
  | refused {refusing s' : σ} (refuses : Refuses host env target s refusing)
      (written : host.writeLine streams.stderr (refusal target) refusing = (.ok (), s'))
      (directory_eq : directory s' = directory s) :
      CdOutcome host directory streams env target s (.ok (.finished 1), env, s')
  /-- The target is refused, and this cannot be said. -/
  | unsaid {refusing s' : σ} {e : WriteError} (refuses : Refuses host env target s refusing)
      (notWritten : host.writeLine streams.stderr (refusal target) refusing = (.error e, s'))
      (directory_eq : directory s' = directory s) :
      CdOutcome host directory streams env target s (.error (.ofWrite e), env, s')

/-! ## One change of directory -/

/-- An absolute path is seen as itself from anywhere. -/
theorem Path.join_of_isAbsolute {p : Path} (h : p.isAbsolute = true) (base : Path) :
    base.join p = p := if_pos h

/-- The home directory is what the variables say. -/
theorem CdTarget.homeDirectory (env : Environment) {operand : Option String}
    (h : MeansHome operand) : CdTarget env operand env.homeDirectory := by
  rw [Environment.homeDirectory]
  cases hhome : env.get? "HOME" with
  | some home => exact .home h hhome
  | none => exact .user h hhome

/-- A call goes to the directory that its operand names. -/
theorem CdTarget.cdTarget (env : Environment) (operand : Option String) :
    CdTarget env operand (BuiltinCall.cdTarget env operand) := by
  unfold BuiltinCall.cdTarget
  split
  · exact .homeDirectory env (.inl rfl)
  · exact .homeDirectory env (.inr (.inl rfl))
  · exact .homeDirectory env (.inr (.inr rfl))
  · next word hempty htilde =>
    refine .operand fun h => ?_
    rcases h with h | h | h
    · cases h
    · exact hempty (Option.some.inj h)
    · exact htilde (Option.some.inj h)

/-- The complaint of a call is what is said of its target. -/
theorem refusal_eq (target : Path) :
    Builtin.cd.name ++ ": " ++ (BuiltinError.noSuchDirectory target).message = refusal target := by
  simp only [Builtin.name, BuiltinError.message, refusal, ← String.append_assoc]
  rfl

section

variable {host : Host σ η} {directory : σ → Path}

/-- The process stands in the directory that it has entered. -/
theorem Enters.directory_eq {env : Environment} {target found : Path} {s s' : σ}
    (h : Enters host env target s found s') (hhost : host.Locates directory) :
    directory s' = found :=
  (hhost.moved h.canonical h.moved).trans
    (Path.join_of_isAbsolute (hhost.canonical h.canonical) _)

/-- The process stays where it is when a target is refused. -/
theorem Refuses.directory_eq {env : Environment} {target : Path} {s s' : σ}
    (h : Refuses host env target s s') (hhost : host.Locates directory) :
    directory s' = directory s := by
  cases h with
  | lost => rfl
  | noDirectory => rfl
  | stuck canonical isDirectory notMoved => exact hhost.stayed notMoved

/-- What comes of a call with an operand. -/
theorem BuiltinCall.cdOutcome_run (h : host.Locates directory) (operand : Option String)
    (streams : Streams η) (env : Environment) (s : σ) :
    CdOutcome host directory streams env (cdTarget env operand) s
      ((cd operand).run host streams env s) := by
  rcases enters_or_refuses host env (cdTarget env operand) s with
    ⟨found, s', henters⟩ | ⟨refusing, hrefuses⟩
  · rw [run, henters.perform_eq]
    exact .entered henters (henters.directory_eq h)
  · rw [run, hrefuses.perform_eq]
    dsimp only [complain, builtin]
    rw [refusal_eq, Command.endWith]
    have hkept : directory (host.writeLine streams.stderr (refusal (cdTarget env operand))
        refusing).2 = directory s := (h.write _ _ _).trans (hrefuses.directory_eq h)
    rcases hwritten : host.writeLine streams.stderr (refusal (cdTarget env operand)) refusing with
      ⟨outcome, s'⟩
    rw [hwritten] at hkept
    cases outcome with
    | ok => exact .refused hrefuses hwritten hkept
    | error e => exact .unsaid hrefuses hwritten hkept

/-! ## Everything else -/

/-- Besides a change of directory, no operation touches either directory. -/
theorem Host.Locates.respects_alike (h : host.Locates directory) :
    host.Respects (Alike (Shell.directories directory)) where
  refl _ := rfl
  trans hfirst hsecond := hsecond.trans hfirst
  pipe env s := congrArg (Prod.mk env.currentDirectory) (h.pipe s)
  openOutput mode path env s :=
    congrArg (Prod.mk env.currentDirectory) (h.openOutput mode path s)
  write stream bytes env s := congrArg (Prod.mk env.currentDirectory) (h.write stream bytes s)
  close stream env s := congrArg (Prod.mk env.currentDirectory) (h.close stream s)

/-- With the same two directories a shell is in step as before. -/
theorem StaysInStep.of_alike {sh sh' : Shell σ} (h : Alike (Shell.directories directory) sh sh') :
    StaysInStep directory sh sh' := by
  obtain ⟨henv, hprocess⟩ := Prod.mk.inj h
  exact fun hstep => henv.trans (hstep.trans hprocess.symm)

/-- No operation that a pipeline itself uses brings a shell out of step. -/
theorem Host.Locates.respects_staysInStep (h : host.Locates directory) :
    host.Respects (StaysInStep directory) where
  refl _ := id
  trans hfirst hsecond := hsecond ∘ hfirst
  pipe env s := .of_alike (h.respects_alike.pipe env s)
  openOutput mode path env s := .of_alike (h.respects_alike.openOutput mode path env s)
  write stream bytes env s := .of_alike (h.respects_alike.write stream bytes env s)
  close stream env s := .of_alike (h.respects_alike.close stream env s)

/-- A call that changes no directory touches neither of the two. -/
theorem BuiltinCall.respects_directories (h : host.Locates directory) {call : BuiltinCall}
    (hcd : ∀ operand, call ≠ .cd operand) :
    call.Respects host (Alike (Shell.directories directory)) :=
  respects_of_ne_cd h.respects_alike (fun _ _ _ => rfl) hcd

/-- No call brings a shell out of step: a change of directory changes both directories or neither,
and the others touch neither. -/
theorem BuiltinCall.respects_staysInStep (h : host.Locates directory) (call : BuiltinCall) :
    call.Respects host (StaysInStep directory) := by
  by_cases hcd : ∃ operand, call = .cd operand
  · obtain ⟨operand, rfl⟩ := hcd
    exact respects_cd (fun _ _ _ _ henters _ => (henters.directory_eq h).symm)
      fun _ _ _ hrefuses hstep => hstep.trans (hrefuses.directory_eq h).symm
  · have hcall := respects_directories h fun operand heq => hcd ⟨operand, heq⟩
    exact ⟨fun env s e s' hperform => .of_alike (hcall.refused env s e s' hperform),
      fun env s report s' hperform => .of_alike (hcall.reported env s report s' hperform)⟩

/-- A pipeline of builtins does not bring a shell out of step. -/
theorem inStep_executePipeline (h : host.Locates directory) {p : Pipeline} (hp : p.CallsBuiltins)
    {sh : Shell σ} (hstep : sh.InStep directory) :
    (sh.executePipeline host (standardFactories host) p).2.InStep directory := by
  have hstays : StaysInStep directory sh
      (sh.executePipeline host (standardFactories host) p).2 := by
    refine executePipeline_respects h.respects_staysInStep fun segment hmem => ?_
    obtain ⟨b, hb⟩ := Option.isSome_iff_exists.mp (hp segment hmem)
    rw [Command.create_of_ofName? host hb]
    exact b.respects_command h.respects_staysInStep fun call _ => call.respects_staysInStep h
  exact hstays hstep

/-- Pipelines of builtins do not bring a shell out of step. -/
theorem inStep_executePipelines (h : host.Locates directory) {pipelines : List Pipeline}
    (hpipelines : ∀ p ∈ pipelines, p.CallsBuiltins) {sh : Shell σ} (hstep : sh.InStep directory) :
    (sh.executePipelines host (standardFactories host) pipelines).InStep directory := by
  induction pipelines generalizing sh with
  | nil => exact hstep
  | cons p rest ih =>
    obtain ⟨hp, hrest⟩ := List.forall_mem_cons.mp hpipelines
    exact ih hrest (inStep_executePipeline h hp hstep)

/-- A builtin other than a change of directory, or one with more words than it takes, touches
neither directory. -/
theorem directories_start (h : host.Locates directory) {b : Builtin} {words : List String}
    (hother : b ≠ .cd ∨ 1 < words.length) (streams : Streams η) (env : Environment) (s : σ) :
    let result := (b.command host words).start streams env s
    result.2.1.currentDirectory = env.currentDirectory ∧ directory result.2.2 = directory s := by
  have hcalls (call : BuiltinCall) (hcall : BuiltinCall.ofWords b words = .ok call) :
      call.Respects host (Alike (Shell.directories directory)) := by
    refine call.respects_directories h ?_
    rintro operand rfl
    obtain rfl : .cd = b := BuiltinCall.builtin_of_ofWords hcall
    rcases hother with hne | hmore
    · exact hne rfl
    · match words, hmore with
      | _ :: _ :: _, _ => cases hcall
  exact Prod.mk.inj (b.respects_command h.respects_alike hcalls streams env s).shell

end

end

/-- A system with a link to a directory, with a file, and with a directory that the process cannot
be moved to. It holds the directory of the process and what has been written. -/
def courtyard : Host (Path × List ByteArray) Unit where
  terminal := ⟨(), (), ()⟩
  pipe s := (((), ()), s)
  openOutput _ _ s := (.ok (), s)
  write _ bytes s := (.ok (), s.1, s.2 ++ [bytes])
  close _ s := s
  isFile _ path := path.text == "/srv/work/notes"
  isDirectory _ path := path.text != "/srv/work/notes"
  canonicalPath _ path :=
    match path.text with
    | "/work" => .ok ⟨"/srv/work"⟩
    | "/srv/work/notes" => .ok ⟨"/srv/work/notes"⟩
    | "/srv/work/../locked" => .ok ⟨"/srv/locked"⟩
    | "/home/ann" => .ok ⟨"/home/ann"⟩
    | _ => .error .notFound
  changeDirectory path s :=
    if path.text = "/srv/locked" then (.error .permissionDenied, s)
    else (.ok (), s.1.join path, s.2)
  spawn _ _ s := (.error .notFound, s)

/-- The process of the system stands in its directory. -/
theorem locates_courtyard : courtyard.Locates Prod.fst where
  pipe _ := rfl
  openOutput _ _ _ := rfl
  write _ _ _ := rfl
  close _ _ := rfl
  canonical := by
    intro s path found h
    simp only [courtyard] at h
    split at h <;> cases h <;> rfl
  moved := by
    intro s path found s' _ h
    simp only [courtyard] at h
    split at h <;> cases h
    rfl
  stayed := by
    intro s path e s' h
    simp only [courtyard] at h
    split at h <;> cases h
    rfl

end LineShell
