import LineShell.Proofs.Shell.Course

/-!
# What a pipeline leaves alone

A pipeline changes the shell only through the operations of the system and through its commands. So
what can be observed of a shell stays as it is while a pipeline runs, when neither an operation nor
a command changes it. The commands of a full shell change nothing of the environment but the current
directory and the request to leave the shell.
-/

namespace LineShell

section

variable {σ η α : Type}

/-- Waiting for a child does not change what is observed of a shell. -/
def ChildKeeps (observe : Shell σ → α) (child : Child σ) : Prop :=
  ∀ env s, observe ⟨env, (child s).2⟩ = observe ⟨env, s⟩

/-- No operation of a system changes what is observed of a shell. -/
structure Host.Keeps (host : Host σ η) (observe : Shell σ → α) : Prop where
  pipe : ∀ env s, observe ⟨env, (host.pipe s).2⟩ = observe ⟨env, s⟩
  openOutput : ∀ mode path env s,
    observe ⟨env, (host.openOutput mode path s).2⟩ = observe ⟨env, s⟩
  write : ∀ stream bytes env s, observe ⟨env, (host.write stream bytes s).2⟩ = observe ⟨env, s⟩
  close : ∀ stream env s, observe ⟨env, host.close stream s⟩ = observe ⟨env, s⟩
  changeDirectory : ∀ path env s,
    observe ⟨env, (host.changeDirectory path s).2⟩ = observe ⟨env, s⟩
  spawn : ∀ launch streams env s,
    observe ⟨env, (host.spawn launch streams s).2⟩ = observe ⟨env, s⟩
  child : ∀ launch streams s child, (host.spawn launch streams s).1 = .ok child →
    ChildKeeps observe child

/-- What comes of a start, and of waiting for the child that it may give, is observed as the given
shell is. -/
structure StartKeeps (observe : Shell σ → α) (sh : Shell σ) (result : StartResult σ) : Prop where
  shell : observe ⟨result.2.1, result.2.2⟩ = observe sh
  child : ∀ child, result.1 = .ok (.running child) → ChildKeeps observe child

/-- Starting a command does not change what is observed of a shell. -/
def Command.Keeps (command : Command σ η) (observe : Shell σ → α) : Prop :=
  ∀ streams env s, StartKeeps observe ⟨env, s⟩ (command.start streams env s)

/-- A maker of commands that do not change what is observed of a shell. -/
def Factory.Keeps (factory : Factory σ η) (observe : Shell σ → α) : Prop :=
  ∀ env s name args command, factory.create? env s name args = some command →
    command.Keeps observe

/-- Two shells are observed in the same way. -/
def Alike (observe : Shell σ → α) (sh sh' : Shell σ) : Prop := observe sh' = observe sh

/-- The operations of a system that do not change what is observed lead from a shell to shells that
are observed in the same way. -/
theorem Host.Keeps.respects {host : Host σ η} {observe : Shell σ → α} (h : host.Keeps observe) :
    host.Respects (Alike observe) where
  refl _ := rfl
  trans hfirst hsecond := hsecond.trans hfirst
  pipe := h.pipe
  openOutput := h.openOutput
  write := h.write
  close := h.close

/-- A report does not change what is observed. -/
theorem Host.Keeps.report {host : Host σ η} {observe : Shell σ → α} (h : host.Keeps observe)
    (message : String) (env : Environment) (s : σ) :
    observe ⟨env, host.report message s⟩ = observe ⟨env, s⟩ :=
  h.respects.report message env s

/-- A command does not change what is observed exactly if starting it leads to shells that are
observed in the same way. -/
theorem Command.keeps_iff_respects {command : Command σ η} {observe : Shell σ → α} :
    command.Keeps observe ↔ command.Respects (Alike observe) :=
  ⟨fun h streams env s => ⟨(h streams env s).shell, (h streams env s).child⟩,
    fun h streams env s => ⟨(h streams env s).shell, (h streams env s).child⟩⟩

/-! ## The commands of a full shell -/

section

variable {host : Host σ η} {observe : Shell σ → α}

/-- What is observed depends neither on the current directory nor on the request to leave. -/
def IgnoresMoves (observe : Shell σ → α) : Prop :=
  ∀ env directory request s,
    observe ⟨{ env with currentDirectory := directory, exitRequest := request }, s⟩ =
      observe ⟨env, s⟩

/-- A call changes no more of the environment than the current directory and the request to leave,
and refusing it changes nothing of it. -/
theorem BuiltinCall.respects_alike (h : host.Keeps observe) (hignores : IgnoresMoves observe)
    (call : BuiltinCall) : call.Respects host (Alike observe) := by
  by_cases hcall : ∃ operand, call = .cd operand
  · obtain ⟨operand, rfl⟩ := hcall
    refine respects_cd (fun env s found s' henters => ?_) fun env s s' hrefuses => ?_
    · have hkept := h.changeDirectory found env s
      rw [henters.moved] at hkept
      exact (hignores env found env.exitRequest s').trans hkept
    · cases hrefuses with
      | lost => rfl
      | noDirectory => rfl
      | @stuck found _ _ canonical isDirectory notMoved =>
        have hkept := h.changeDirectory found env s
        rw [notMoved] at hkept
        exact hkept
  · exact respects_of_ne_cd h.respects
      (fun env code s => hignores env env.currentDirectory (some code) s)
      fun operand h => hcall ⟨operand, h⟩

/-- The commands of the builtins. -/
theorem Builtin.keeps_factory (h : host.Keeps observe) (hignores : IgnoresMoves observe)
    (b : Builtin) : (Builtin.factory host b).Keeps observe := by
  intro env s name words command hcreate
  obtain ⟨-, hcommand⟩ := Option.ite_none_right_eq_some.mp hcreate
  obtain rfl := Option.some.inj hcommand
  exact Command.keeps_iff_respects.mpr
    (b.respects_command h.respects fun call _ => call.respects_alike h hignores)

/-- The commands that run programs. -/
theorem External.keeps_factory (h : host.Keeps observe) :
    (External.factory host).Keeps observe := by
  intro env s name args command hcreate
  obtain ⟨program, -, rfl⟩ := Option.map_eq_some_iff.mp hcreate
  intro streams env s
  let run : Launch := ⟨name, program, args, env.bindings, env.currentDirectory⟩
  have hspawned := h.spawn run streams env s
  have hchild := h.child run streams s
  simp only [command]
  rcases hspawn : host.spawn run streams s with ⟨result, after⟩
  rw [hspawn] at hspawned hchild
  cases result with
  | error e => exact ⟨hspawned, nofun⟩
  | ok child =>
    refine ⟨hspawned, fun other hother => ?_⟩
    cases hother
    exact hchild child rfl

/-- The commands of a full shell. -/
theorem keeps_standardFactories (h : host.Keeps observe) (hignores : IgnoresMoves observe) :
    ∀ factory ∈ standardFactories host, factory.Keeps observe := by
  intro factory hmem
  rcases List.mem_append.mp hmem with hbuiltin | hexternal
  · obtain ⟨b, -, rfl⟩ := List.mem_map.mp hbuiltin
    exact b.keeps_factory h hignores
  · obtain rfl := List.mem_singleton.mp hexternal
    exact External.keeps_factory h

/-- The makers of a full shell, and others of commands that do not change what is observed. -/
def LeaveAlone (host : Host σ η) (factories : List (Factory σ η)) (observe : Shell σ → α) : Prop :=
  ∀ factory ∈ factories, factory ∈ standardFactories host ∨ factory.Keeps observe

/-- Whichever maker creates a command, it is one of theirs or the stage for an unknown name. -/
theorem Command.keeps_create (h : host.Keeps observe) (hignores : IgnoresMoves observe)
    {factories : List (Factory σ η)} (hfactories : LeaveAlone host factories observe)
    (env : Environment) (s : σ) (name : String) (args : List String) :
    (Command.create host factories env s name args).Keeps observe := by
  rw [Command.create]
  cases hcommand : factories.findSome? fun factory => factory.create? env s name args with
  | none => exact Command.keeps_iff_respects.mpr (Command.respects_unresolved h.respects name)
  | some command =>
    obtain ⟨factory, hmem, hcreate⟩ := List.exists_of_findSome?_eq_some hcommand
    have hkeeps : factory.Keeps observe := by
      rcases hfactories factory hmem with hstandard | hkeeps
      · exact keeps_standardFactories h hignores factory hstandard
      · exact hkeeps
    exact hkeeps env s name args command hcreate

/-- A pipeline leaves alone what neither the operations of the system nor its commands change. -/
theorem executePipeline_keeps (h : host.Keeps observe) (hignores : IgnoresMoves observe)
    {factories : List (Factory σ η)} (hfactories : LeaveAlone host factories observe)
    (p : Pipeline) (sh : Shell σ) :
    observe (sh.executePipeline host factories p).2 = observe sh :=
  executePipeline_respects h.respects fun segment _ => Command.keeps_iff_respects.mp
    (Command.keeps_create h hignores hfactories sh.env sh.system segment.name segment.args)

end

end

end LineShell
