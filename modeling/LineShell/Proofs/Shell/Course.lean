import LineShell.External
import LineShell.Proofs.Shell.Stages

/-!
# The course of a pipeline

A pipeline leads from a shell to a shell by operations of the system and by starting its commands,
one after the other. A relation between shells that holds from each of them to itself, that can be
chained, and that all these steps respect therefore holds from the shell before a pipeline to the
shell after it. To have been left alone is such a relation, and so is to have kept an invariant.
-/

namespace LineShell

section

variable {σ η : Type}

/-- Waiting for a child respects a relation. -/
def ChildRespects (rel : Shell σ → Shell σ → Prop) (child : Child σ) : Prop :=
  ∀ env s, rel ⟨env, s⟩ ⟨env, (child s).2⟩

/-- A relation between shells that can be chained and that the operations which a pipeline itself
uses respect. -/
structure Host.Respects (host : Host σ η) (rel : Shell σ → Shell σ → Prop) : Prop where
  refl : ∀ sh, rel sh sh
  trans : ∀ {first second third}, rel first second → rel second third → rel first third
  pipe : ∀ env s, rel ⟨env, s⟩ ⟨env, (host.pipe s).2⟩
  openOutput : ∀ mode path env s, rel ⟨env, s⟩ ⟨env, (host.openOutput mode path s).2⟩
  write : ∀ stream bytes env s, rel ⟨env, s⟩ ⟨env, (host.write stream bytes s).2⟩
  close : ∀ stream env s, rel ⟨env, s⟩ ⟨env, host.close stream s⟩

/-- A start, and waiting for the child that it may give, respects a relation. -/
structure StartRespects (rel : Shell σ → Shell σ → Prop) (sh : Shell σ) (result : StartResult σ) :
    Prop where
  shell : rel sh ⟨result.2.1, result.2.2⟩
  child : ∀ child, result.1 = .ok (.running child) → ChildRespects rel child

/-- Starting a command respects a relation, whatever shell it is started in. -/
def Command.Respects (command : Command σ η) (rel : Shell σ → Shell σ → Prop) : Prop :=
  ∀ streams env s, StartRespects rel ⟨env, s⟩ (command.start streams env s)

/-- Carrying out what a call prescribes respects a relation, before anything is written. -/
structure BuiltinCall.Respects (call : BuiltinCall) (host : Host σ η)
    (rel : Shell σ → Shell σ → Prop) : Prop where
  refused : ∀ env s e s', call.perform host env s = (.error e, s') → rel ⟨env, s⟩ ⟨env, s'⟩
  reported : ∀ env s report s', call.perform host env s = (.ok report, s') →
    rel ⟨env, s⟩ ⟨report.environment, s'⟩

/-- A target, as seen from the current directory, leads to a directory, and the process is moved
there. -/
structure Enters (host : Host σ η) (env : Environment) (target : Path) (s : σ) (found : Path)
    (s' : σ) : Prop where
  canonical : host.canonicalPath s (env.currentDirectory.join target) = .ok found
  isDirectory : host.isDirectory s found = true
  moved : host.changeDirectory found s = (.ok (), s')

/-- Why a target is not entered. -/
inductive Refuses (host : Host σ η) (env : Environment) (target : Path) (s : σ) : σ → Prop
  /-- There is nothing at the target. -/
  | lost {e : SystemError}
      (notFound : host.canonicalPath s (env.currentDirectory.join target) = .error e) :
      Refuses host env target s s
  /-- The target is no directory. -/
  | noDirectory {found : Path}
      (canonical : host.canonicalPath s (env.currentDirectory.join target) = .ok found)
      (isOther : host.isDirectory s found = false) : Refuses host env target s s
  /-- The process cannot be moved to the target. -/
  | stuck {found : Path} {e : SystemError} {s' : σ}
      (canonical : host.canonicalPath s (env.currentDirectory.join target) = .ok found)
      (isDirectory : host.isDirectory s found = true)
      (notMoved : host.changeDirectory found s = (.error e, s')) : Refuses host env target s s'

/-! ## Operations of the system -/

namespace Host.Respects

variable {host : Host σ η} {rel : Shell σ → Shell σ → Prop}

/-- Writing a line is an operation of the system. -/
theorem writeLine (h : host.Respects rel) (stream : η) (line : String) (env : Environment)
    (s : σ) : rel ⟨env, s⟩ ⟨env, (host.writeLine stream line s).2⟩ :=
  h.write stream _ env s

/-- Lines are written one after the other. -/
theorem writeLines (h : host.Respects rel) (stream : η) (lines : List String)
    (env : Environment) (s : σ) : rel ⟨env, s⟩ ⟨env, (host.writeLines stream lines s).2⟩ := by
  induction lines generalizing s with
  | nil => exact h.refl _
  | cons line rest ih =>
    have hline := h.writeLine stream line env s
    rw [Host.writeLines]
    rcases hwritten : host.writeLine stream line s with ⟨result, after⟩
    rw [hwritten] at hline
    cases result with
    | ok => exact h.trans hline (ih after)
    | error e => exact hline

/-- Streams are closed one after the other. -/
theorem closeAll (h : host.Respects rel) (streams : List η) (env : Environment) (s : σ) :
    rel ⟨env, s⟩ ⟨env, host.closeAll streams s⟩ := by
  induction streams generalizing s with
  | nil => exact h.refl _
  | cons stream rest ih => exact h.trans (h.close stream env s) (ih _)

/-- A report writes a line. -/
theorem report (h : host.Respects rel) (message : String) (env : Environment) (s : σ) :
    rel ⟨env, s⟩ ⟨env, host.report message s⟩ :=
  h.writeLine _ _ env s

/-- Redirections are opened one after the other. -/
theorem openRedirections (h : host.Respects rel) (directory : Path) (files : OutputFiles η)
    (redirections : List Redirection) (env : Environment) (s : σ) :
    rel ⟨env, s⟩
      ⟨env, (LineShell.openRedirections host directory files redirections s).2⟩ := by
  induction redirections generalizing files s with
  | nil => exact h.refl _
  | cons redirection rest ih =>
    have hopened := h.openOutput redirection.mode (directory.join redirection.path) env s
    rw [LineShell.openRedirections, openRedirection]
    rcases hopen : host.openOutput redirection.mode (directory.join redirection.path) s with
      ⟨result, after⟩
    rw [hopen] at hopened
    cases result with
    | ok file => exact h.trans hopened (h.trans (h.closeAll _ env after) (ih _ _))
    | error e => exact h.trans hopened (h.closeAll _ env after)

/-- A stage is connected by a pipe or by nothing new. -/
theorem connect (h : host.Respects rel) (files : OutputFiles η) (isLast : Bool)
    (input : Option η) (env : Environment) (s : σ) :
    rel ⟨env, s⟩ ⟨env, (LineShell.connect host files isLast input s).2⟩ := by
  cases isLast with
  | true => exact h.refl _
  | false => exact h.pipe env s

/-- The failure of a start is reported. -/
theorem reportFailure (h : host.Respects rel) (result : Except StartError (Started σ))
    (env : Environment) (s : σ) :
    rel ⟨env, s⟩ ⟨env, LineShell.reportFailure host result s⟩ := by
  cases result with
  | ok started => exact h.refl _
  | error e => exact h.report e.message env s

/-- The failure of a wait is reported. -/
theorem reportWait (h : host.Respects rel) (name : String)
    (outcome : Except SystemError WaitStatus) (env : Environment) (s : σ) :
    rel ⟨env, s⟩ ⟨env, LineShell.reportWait host name outcome s⟩ := by
  cases outcome with
  | ok status => exact h.refl _
  | error e => exact h.report _ env s

end Host.Respects

/-! ## Changes of directory -/

/-- A target is entered or refused. -/
theorem enters_or_refuses (host : Host σ η) (env : Environment) (target : Path) (s : σ) :
    (∃ found s', Enters host env target s found s') ∨ ∃ s', Refuses host env target s s' := by
  cases hcanonical : host.canonicalPath s (env.currentDirectory.join target) with
  | error e => exact .inr ⟨s, .lost hcanonical⟩
  | ok found =>
    cases hdirectory : host.isDirectory s found with
    | false => exact .inr ⟨s, .noDirectory hcanonical hdirectory⟩
    | true =>
      rcases hchange : host.changeDirectory found s with ⟨outcome, s'⟩
      cases outcome with
      | ok => exact .inl ⟨found, s', hcanonical, hdirectory, hchange⟩
      | error e => exact .inr ⟨s', .stuck hcanonical hdirectory hchange⟩

/-- A call enters a target that can be entered. -/
theorem Enters.perform_eq {host : Host σ η} {env : Environment} {operand : Option String}
    {s s' : σ} {found : Path}
    (h : Enters host env (BuiltinCall.cdTarget env operand) s found s') :
    (BuiltinCall.cd operand).perform host env s =
      (.ok ⟨[], [], 0, { env with currentDirectory := found }⟩, s') := by
  simp only [BuiltinCall.perform, BuiltinCall.enterDirectory, h.canonical, h.isDirectory, h.moved,
    if_true]

/-- A call complains of a target that cannot be entered. -/
theorem Refuses.perform_eq {host : Host σ η} {env : Environment} {operand : Option String}
    {s s' : σ} (h : Refuses host env (BuiltinCall.cdTarget env operand) s s') :
    (BuiltinCall.cd operand).perform host env s =
      (.error (.noSuchDirectory (BuiltinCall.cdTarget env operand)), s') := by
  rw [BuiltinCall.perform, BuiltinCall.enterDirectory]
  cases h with
  | lost notFound => simp only [notFound]
  | noDirectory canonical isOther =>
    simp only [canonical, isOther, Bool.false_eq_true, if_false]
  | stuck canonical isDirectory notMoved =>
    simp only [canonical, isDirectory, notMoved, if_true]

/-! ## Commands -/

section

variable {host : Host σ η} {rel : Shell σ → Shell σ → Prop}

/-- A start is respected from an earlier shell as well. -/
theorem StartRespects.after {first second : Shell σ} {result : StartResult σ}
    (h : StartRespects rel second result) (hhost : host.Respects rel) (hfirst : rel first second) :
    StartRespects rel first result :=
  ⟨hhost.trans hfirst h.shell, h.child⟩

/-- A start without a child. -/
theorem StartRespects.of_settled {sh : Shell σ} {result : Except StartError (Started σ)}
    {env : Environment} {s : σ} (hshell : rel sh ⟨env, s⟩)
    (hchild : ∀ child, result ≠ .ok (.running child)) :
    StartRespects rel sh (result, env, s) :=
  ⟨hshell, fun child h => absurd h (hchild child)⟩

/-- A stage that ends with a line. -/
theorem Command.startRespects_endWith (h : host.Respects rel) (code : ExitCode) (line : String)
    (streams : Streams η) (env : Environment) (s : σ) :
    StartRespects rel ⟨env, s⟩ (Command.endWith host code line streams env s) := by
  have hline := h.writeLine streams.stderr line env s
  rw [Command.endWith]
  rcases hwritten : host.writeLine streams.stderr line s with ⟨result, after⟩
  rw [hwritten] at hline
  cases result with
  | ok => exact .of_settled hline nofun
  | error e => exact .of_settled hline nofun

/-- The stage for an unknown name. -/
theorem Command.respects_unresolved (h : host.Respects rel) (name : String) :
    (Command.unresolved host name).Respects rel :=
  Command.startRespects_endWith h .commandNotFound (name ++ ": command not found")

namespace BuiltinCall

/-- Lines that a call writes, when what comes after them respects the relation. -/
theorem startRespects_writing (h : host.Respects rel) (b : Builtin) (stream : η)
    (lines : List String) (streams : Streams η) (env : Environment) (s : σ)
    {next : σ → StartResult σ} (hnext : ∀ s, StartRespects rel ⟨env, s⟩ (next s)) :
    StartRespects rel ⟨env, s⟩ (writing host b stream lines streams env s next) := by
  have hlines := h.writeLines stream lines env s
  rw [writing]
  rcases hwritten : host.writeLines stream lines s with ⟨result, after⟩
  rw [hwritten] at hlines
  cases result with
  | ok => exact (hnext after).after h hlines
  | error e =>
    cases e with
    | failed e => exact (Command.startRespects_endWith h 1 _ streams env after).after h hlines
    | blocked => exact .of_settled hlines nofun

/-- What is shown of a name leaves the environment as it is. -/
theorem environment_describe (name : String) (env : Environment) (resolution : Resolution) :
    (describe name env resolution).environment = env := by
  cases resolution <;> rfl

/-- Besides a change of directory and an exit, a call changes neither the system nor the
environment. -/
theorem perform_of_quiet (host : Host σ η) {call : BuiltinCall}
    (hexit : ∀ code, call ≠ .exit code) (hcd : ∀ target, call ≠ .cd target) (env : Environment)
    (s : σ) :
    (call.perform host env s).2 = s ∧
      ∀ report, (call.perform host env s).1 = .ok report → report.environment = env := by
  cases call with
  | exit code => exact absurd rfl (hexit code)
  | cd target => exact absurd rfl (hcd target)
  | echo words => exact ⟨rfl, fun report hreport => by cases hreport; rfl⟩
  | pwd => exact ⟨rfl, fun report hreport => by cases hreport; rfl⟩
  | type name =>
    cases name with
    | none => exact ⟨rfl, fun report hreport => by cases hreport⟩
    | some name =>
      refine ⟨rfl, fun report hreport => ?_⟩
      cases hreport
      exact environment_describe name env _
  | history limit =>
    refine ⟨rfl, fun report hreport => ?_⟩
    rw [perform] at hreport
    cases hlimit : limit? limit with
    | error e =>
      rw [hlimit] at hreport
      cases hreport
    | ok limit =>
      rw [hlimit] at hreport
      cases hreport
      rfl

/-- Besides a change of directory, a call respects any such relation that an exit respects. -/
theorem respects_of_ne_cd (h : host.Respects rel)
    (hexit : ∀ env code s, rel ⟨env, s⟩ ⟨env.requestExit code, s⟩) {call : BuiltinCall}
    (hcd : ∀ target, call ≠ .cd target) : call.Respects host rel := by
  by_cases hcall : ∃ code, call = .exit code
  · obtain ⟨code, rfl⟩ := hcall
    constructor
    · intro env s e s' hperform
      obtain rfl : s = s' := (Prod.mk.inj hperform).2
      exact h.refl _
    · intro env s report s' hperform
      rw [perform] at hperform
      cases hcode : exitCode? code with
      | error e =>
        rw [hcode] at hperform
        cases hperform
      | ok code =>
        rw [hcode] at hperform
        cases hperform
        exact hexit env code s
  · have hquiet := perform_of_quiet host (fun code h => hcall ⟨code, h⟩) hcd
    constructor
    · intro env s e s' hperform
      obtain ⟨hsystem, -⟩ := hquiet env s
      rw [hperform] at hsystem
      obtain rfl : s' = s := hsystem
      exact h.refl _
    · intro env s report s' hperform
      obtain ⟨hsystem, henv⟩ := hquiet env s
      rw [hperform] at hsystem henv
      obtain rfl : s' = s := hsystem
      rw [henv report rfl]
      exact h.refl _

/-- A change of directory respects a relation that entering and refusing a target respect. -/
theorem respects_cd {operand : Option String}
    (henters : ∀ env s found s', Enters host env (cdTarget env operand) s found s' →
      rel ⟨env, s⟩ ⟨{ env with currentDirectory := found }, s'⟩)
    (hrefuses : ∀ env s s', Refuses host env (cdTarget env operand) s s' →
      rel ⟨env, s⟩ ⟨env, s'⟩) : (cd operand).Respects host rel := by
  constructor
  · intro env s e s' hperform
    rcases enters_or_refuses host env (cdTarget env operand) s with
      ⟨found, after, hentered⟩ | ⟨after, hrefused⟩
    · rw [hentered.perform_eq] at hperform
      cases hperform
    · rw [hrefused.perform_eq] at hperform
      cases hperform
      exact hrefuses env s s' hrefused
  · intro env s report s' hperform
    rcases enters_or_refuses host env (cdTarget env operand) s with
      ⟨found, after, hentered⟩ | ⟨after, hrefused⟩
    · rw [hentered.perform_eq] at hperform
      cases hperform
      exact henters env s found s' hentered
    · rw [hrefused.perform_eq] at hperform
      cases hperform

/-- Carrying out a call. -/
theorem startRespects_run (h : host.Respects rel) {call : BuiltinCall}
    (hcall : call.Respects host rel) (streams : Streams η) (env : Environment) (s : σ) :
    StartRespects rel ⟨env, s⟩ (call.run host streams env s) := by
  rw [run]
  rcases hperform : call.perform host env s with ⟨result, after⟩
  cases result with
  | error e =>
    have hrefused := hcall.refused env s e after hperform
    exact (Command.startRespects_endWith h 1 _ streams env after).after h hrefused
  | ok report =>
    refine StartRespects.after ?_ h (hcall.reported env s report after hperform)
    refine startRespects_writing h _ _ _ _ _ _ fun s => ?_
    refine startRespects_writing h _ _ _ _ _ _ fun s => ?_
    exact .of_settled (h.refl _) nofun

end BuiltinCall

/-- The command that a builtin makes of its words respects a relation when all calls that it may
make of them do. -/
theorem Builtin.respects_command (h : host.Respects rel) {b : Builtin} {words : List String}
    (hcalls : ∀ call, BuiltinCall.ofWords b words = .ok call → call.Respects host rel) :
    (b.command host words).Respects rel := by
  intro streams env s
  rw [Builtin.command]
  cases hcall : BuiltinCall.ofWords b words with
  | ok call => exact BuiltinCall.startRespects_run h (hcalls call hcall) streams env s
  | error surplus => exact Command.startRespects_endWith h _ _ streams env s

/-! ## Whole pipelines -/

/-- A stage that counts as running was started as one. -/
theorem eq_running_of_settled? {result : Except StartError (Started σ)} {child : Child σ}
    (h : settled? result = some (.running child)) : result = .ok (.running child) := by
  cases result with
  | ok started => exact congrArg Except.ok (Option.some.inj h)
  | error e => cases e <;> cases h

/-- Launching stages. -/
theorem launch_respects (h : host.Respects rel) (files : OutputFiles η)
    {stages : List (Stage σ η)} (hstages : ∀ stage ∈ stages, stage.command.Respects rel)
    {input : Option η} {env env' : Environment} {s s' : σ} {result : LaunchResult σ}
    (hlaunch : launch host files stages input env s = (result, env', s')) :
    rel ⟨env, s⟩ ⟨env', s'⟩ ∧
      ∀ started, result = .all started → ∀ stage ∈ started, ∀ child,
        stage.2 = .running child → ChildRespects rel child := by
  induction stages generalizing input env env' s s' result with
  | nil =>
    cases hlaunch
    refine ⟨h.refl _, fun started hstarted stage hmem => ?_⟩
    cases hstarted
    cases hmem
  | cons stage rest ih =>
    obtain ⟨hfirst, hrest⟩ := List.forall_mem_cons.mp hstages
    rw [launch_cons] at hlaunch
    have hconnected := h.connect files rest.isEmpty input env s
    rcases hconnect : connect host files rest.isEmpty input s with ⟨connection, connected⟩
    rw [hconnect] at hlaunch hconnected
    have hstarted := hfirst connection.streams env connected
    rcases hstart : stage.command.start connection.streams env connected with
      ⟨outcome, requested, after⟩
    rw [hstart] at hstarted
    have hshell : rel ⟨env, s⟩ ⟨requested, after⟩ := h.trans hconnected hstarted.shell
    simp only [hstart] at hlaunch
    cases hsettled : settled? outcome with
    | none =>
      simp only [hsettled] at hlaunch
      cases hlaunch
      exact ⟨hshell, nofun⟩
    | some started =>
      let reported := reportFailure host outcome (host.closeAll connection.own after)
      have hreported : rel ⟨env, s⟩ ⟨requested, reported⟩ :=
        h.trans hshell <|
          h.trans (h.closeAll _ requested after) (h.reportFailure outcome requested _)
      simp only [hsettled] at hlaunch
      cases hrequest : requested.exitRequest with
      | some code =>
        simp only [hrequest] at hlaunch
        cases hlaunch
        exact ⟨h.trans hreported (h.closeAll _ _ _), nofun⟩
      | none =>
        simp only [hrequest] at hlaunch
        rcases hmore : launch host files rest connection.next requested
          (reportFailure host outcome (host.closeAll connection.own after)) with
          ⟨more, final, last⟩
        obtain ⟨hlaunched, hothers⟩ := ih hrest hmore
        rw [hmore] at hlaunch
        cases hlaunch
        refine ⟨h.trans hreported hlaunched, fun all hall => ?_⟩
        cases more with
        | exited code => cases hall
        | blocked => cases hall
        | all others =>
          cases hall
          refine List.forall_mem_cons.mpr ⟨fun child hchild => ?_, hothers others rfl⟩
          -- A stage that is waited for later was started as a child by its own command.
          obtain rfl : started = .running child := hchild
          exact hstarted.child child (eq_running_of_settled? hsettled)

/-- Waiting for stages. -/
theorem waitAll_respects (h : host.Respects rel) (code : ExitCode)
    {stages : List (String × Started σ)}
    (hstages : ∀ stage ∈ stages, ∀ child, stage.2 = .running child → ChildRespects rel child)
    (env : Environment) (s : σ) : rel ⟨env, s⟩ ⟨env, (waitAll host code stages s).2⟩ := by
  induction stages generalizing code s with
  | nil => exact h.refl _
  | cons stage rest ih =>
    obtain ⟨hfirst, hrest⟩ := List.forall_mem_cons.mp hstages
    obtain ⟨name, started⟩ := stage
    cases started with
    | finished own => exact ih own hrest s
    | running child =>
      have hwaited := hfirst child rfl env s
      rcases hchild : child s with ⟨outcome, after⟩
      rw [hchild] at hwaited
      rw [waitAll_running host hchild]
      exact h.trans hwaited (h.trans (h.reportWait name outcome env after) (ih _ hrest _))

/-- Running stages. -/
theorem runStages_respects (h : host.Respects rel) (files : OutputFiles η)
    {stages : List (Stage σ η)} (hstages : ∀ stage ∈ stages, stage.command.Respects rel)
    (sh : Shell σ) : rel sh (runStages host files stages sh).2 := by
  rw [runStages]
  rcases hlaunch : launch host files stages none sh.env sh.system with ⟨result, env, after⟩
  obtain ⟨hlaunched, hstarted⟩ := launch_respects h files hstages hlaunch
  cases result with
  | exited code => exact hlaunched
  | blocked => exact hlaunched
  | all started => exact h.trans hlaunched (waitAll_respects h 0 (hstarted started rfl) env after)

/-- A pipeline respects a relation that the operations of the system and its commands respect. -/
theorem executePipeline_respects (h : host.Respects rel) {factories : List (Factory σ η)}
    {p : Pipeline} {sh : Shell σ}
    (hcommands : ∀ segment ∈ p.segments,
      (Command.create host factories sh.env sh.system segment.name segment.args).Respects rel) :
    rel sh (sh.executePipeline host factories p).2 := by
  rw [Shell.executePipeline]
  cases hlast : p.last? with
  | none => exact h.refl _
  | some last =>
    let stages := createStages host factories sh p.segments
    have hstages : ∀ stage ∈ stages, stage.command.Respects rel := by
      intro stage hmem
      obtain ⟨segment, hsegment, rfl⟩ := List.mem_map.mp hmem
      exact hcommands segment hsegment
    have hopened := h.openRedirections sh.env.currentDirectory .none last.redirections sh.env
      sh.system
    dsimp only
    rcases hopen : openRedirections host sh.env.currentDirectory .none last.redirections
      sh.system with ⟨result, opened⟩
    rw [hopen] at hopened
    cases result with
    | error e => exact h.trans hopened (h.report _ sh.env opened)
    | ok files => exact h.trans hopened (runStages_respects h files hstages ⟨sh.env, opened⟩)

end

end

end LineShell
