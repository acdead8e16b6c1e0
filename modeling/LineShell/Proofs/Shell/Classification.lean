import LineShell.Proofs.Shell.Tracing
import LineShell.External

/-!
# Names and what runs under them

Two lookups classify a command name: the one that a stage is created by, which asks the makers of
commands one after the other, and the one that only describes the name. They agree on every name,
so what is shown for a name is what runs under it.
-/

namespace LineShell

section

variable {σ η : Type}

/-- The first maker that claims a name, with the command that it creates. -/
def firstClaim? (factories : List (Factory σ η)) (env : Environment) (s : σ) (name : String)
    (args : List String) : Option (Factory σ η × Command σ η) :=
  factories.findSome? fun factory =>
    (factory.create? env s name args).map fun command => (factory, command)

/-- What the start of a stage asks of the system, where others can see it, when the stage is created
under a name by the makers of a full shell. -/
def startTrace (host : Host σ η) (env : Environment) (s : σ) (name : String) (args : List String)
    (streams : Streams η) : List (ShellEvent σ η) :=
  ((Command.create host.traced (standardFactories host.traced) env (s, []) name args).start
    streams env (s, [])).2.2.2

/-- A command runs a program under a name: its start spawns the program with the words, and with the
variables and the directory in which it is started. The shell goes on unchanged, whether or not the
program could be spawned. -/
structure Command.Runs (command : Command σ η) (host : Host σ η) (name : String) (program : Path)
    (args : List String) : Prop where
  spawned : ∀ {streams : Streams η} {env : Environment} {s after : σ} {child : Child σ},
    host.spawn ⟨name, program, args, env.bindings, env.currentDirectory⟩ streams s =
        (.ok child, after) →
      command.start streams env s = (.ok (.running child), env, after)
  refused : ∀ {streams : Streams η} {env : Environment} {s after : σ} {e : SystemError},
    host.spawn ⟨name, program, args, env.bindings, env.currentDirectory⟩ streams s =
        (.error e, after) →
      command.start streams env s = (.error (.cannotSpawn name e), env, after)

/-! ## The two lookups -/

/-- A stage runs the command of the first maker that claims its name. -/
theorem Command.create_eq_firstClaim? (host : Host σ η) (factories : List (Factory σ η))
    (env : Environment) (s : σ) (name : String) (args : List String) :
    Command.create host factories env s name args =
      ((firstClaim? factories env s name args).map Prod.snd).getD
        (Command.unresolved host name) := by
  unfold Command.create firstClaim?
  induction factories with
  | nil => rfl
  | cons factory rest ih =>
    cases hcreate : factory.create? env s name args with
    | none =>
      simp only [List.findSome?_cons, hcreate, Option.map_none]
      exact ih
    | some command =>
      simp only [List.findSome?_cons, hcreate, Option.map_some]
      rfl

/-- Of the makers of builtins, the one of the builtin with the given name claims it. -/
theorem firstClaim?_builtins (host : Host σ η) (builtins : List Builtin) (env : Environment) (s : σ)
    (name : String) (args : List String) :
    firstClaim? (builtins.map (Builtin.factory host)) env s name args =
      (builtins.find? fun b => b.name == name).map fun b =>
        (Builtin.factory host b, b.command host args) := by
  unfold firstClaim?
  induction builtins with
  | nil => rfl
  | cons b rest ih =>
    rw [List.map_cons, List.findSome?_cons, List.find?_cons]
    by_cases hname : name = b.name
    · have hsame : (b.name == name) = true := beq_iff_eq.mpr hname.symm
      simp only [Builtin.factory, if_pos hname, Option.map_some, hsame]
    · have hother : (b.name == name) = false := beq_eq_false_iff_ne.mpr (Ne.symm hname)
      simp only [Builtin.factory, if_neg hname, Option.map_none, hother]
      exact ih

/-- Of the makers of a full shell, the one claims a name that belongs to what the name refers to. -/
theorem firstClaim?_standardFactories (host : Host σ η) (env : Environment) (s : σ) (name : String)
    (args : List String) :
    firstClaim? (standardFactories host) env s name args =
      match resolve (host.isFile s) env name with
      | .builtin b => some (Builtin.factory host b, b.command host args)
      | .external program =>
        some (External.factory host, External.command host name program args)
      | .unresolved => none := by
  have hbuiltins := firstClaim?_builtins host Builtin.all env s name args
  have happend : firstClaim? (standardFactories host) env s name args =
      (firstClaim? (Builtin.all.map (Builtin.factory host)) env s name args).or
        (firstClaim? [External.factory host] env s name args) := List.findSome?_append
  rw [happend, hbuiltins]
  show (Option.map _ (Builtin.ofName? name)).or _ = _
  unfold resolve
  cases Builtin.ofName? name with
  | some b => rfl
  | none =>
    have hexternal : firstClaim? [External.factory host] env s name args =
        (findProgram (host.isFile s) env.searchPath env.currentDirectory ⟨name⟩).map fun program =>
          (External.factory host, External.command host name program args) := by
      simp only [firstClaim?, List.findSome?_cons, List.findSome?_nil, External.factory]
      cases findProgram (host.isFile s) env.searchPath env.currentDirectory ⟨name⟩ <;> rfl
    rw [hexternal]
    cases findProgram (host.isFile s) env.searchPath env.currentDirectory ⟨name⟩ <;> rfl

/-- Under the name of a builtin a stage runs the command of this builtin. -/
theorem Command.create_of_ofName? (host : Host σ η) {b : Builtin} {name : String}
    (h : Builtin.ofName? name = some b) (env : Environment) (s : σ) (args : List String) :
    Command.create host (standardFactories host) env s name args = b.command host args := by
  rw [create_eq_firstClaim?, firstClaim?_standardFactories, resolve, h]
  rfl

/-- A name refers to a builtin only when it is the name of this builtin. -/
theorem name_of_resolve_builtin {isFile : Path → Bool} {env : Environment} {name : String}
    {b : Builtin} (h : resolve isFile env name = .builtin b) : b.name = name := by
  unfold resolve at h
  cases hname : Builtin.ofName? name with
  | none =>
    rw [hname] at h
    cases hprogram : findProgram isFile env.searchPath env.currentDirectory ⟨name⟩ <;>
      simp [hprogram] at h
  | some other =>
    rw [hname] at h
    cases h
    have hfound := List.find?_some hname
    exact beq_iff_eq.mp hfound

/-- A call with one operand at most is a call of its builtin. -/
theorem BuiltinCall.builtin_of_singleOperand (make : Option String → BuiltinCall) {b : Builtin}
    (hmake : ∀ operand, (make operand).builtin = b) {words : List String} {call : BuiltinCall}
    (h : singleOperand make words = .ok call) : call.builtin = b := by
  match words with
  | [] =>
    cases h
    exact hmake none
  | [word] =>
    cases h
    exact hmake (some word)
  | _ :: _ :: _ => cases h

/-- The call that a builtin makes of its words is a call of this builtin. -/
theorem BuiltinCall.builtin_of_ofWords {b : Builtin} {words : List String} {call : BuiltinCall}
    (h : ofWords b words = .ok call) : call.builtin = b := by
  cases b with
  | exit => exact builtin_of_singleOperand exit (fun _ => rfl) h
  | type => exact builtin_of_singleOperand type (fun _ => rfl) h
  | cd => exact builtin_of_singleOperand cd (fun _ => rfl) h
  | history => exact builtin_of_singleOperand history (fun _ => rfl) h
  | echo =>
    cases h
    rfl
  | pwd =>
    cases words with
    | nil =>
      cases h
      rfl
    | cons surplus rest => cases h

/-- A builtin runs one of its own calls, or reports the first word that it does not take. -/
theorem Builtin.start_command (host : Host σ η) (b : Builtin) (words : List String) :
    (∃ call : BuiltinCall, call.builtin = b ∧ (b.command host words).start = call.run host) ∨
      ∃ surplus, (b.command host words).start =
        Command.endWith host usageError (surplusMessage surplus) := by
  unfold Builtin.command
  cases hcall : BuiltinCall.ofWords b words with
  | ok call => exact .inl ⟨call, BuiltinCall.builtin_of_ofWords hcall, rfl⟩
  | error surplus => exact .inr ⟨surplus, rfl⟩

/-- The command for a program runs it. -/
theorem External.command_runs (host : Host σ η) (name : String) (program : Path)
    (args : List String) : (External.command host name program args).Runs host name program args :=
  ⟨fun hspawn => by simp only [External.command, hspawn],
    fun hspawn => by simp only [External.command, hspawn]⟩

/-! ## What is shown for a name -/

namespace ShellEvent

/-- The write of a line and its line feed. -/
def wroteLine (stream : η) (line : String) : ShellEvent σ η :=
  wrote stream (line.push '\n').toUTF8

/-- Writes of lines differ when the lines do. -/
theorem wroteLine_ne {first second : η} {line other : String} (h : line ≠ other) :
    (wroteLine first line : ShellEvent σ η) ≠ wroteLine second other := by
  intro heq
  have hbytes : (line.push '\n').toUTF8 = (other.push '\n').toUTF8 := by
    injection heq
  have hlines := congrArg String.toList (String.toByteArray_inj.mp hbytes)
  rw [String.toList_push, String.toList_push] at hlines
  exact h (String.toList_injective (List.append_cancel_right hlines))

end ShellEvent

/-- The line that is shown for what a name refers to, on its stream. -/
def describedLine (streams : Streams η) (name : String) : Resolution → ShellEvent σ η
  | .builtin _ => .wroteLine streams.stdout (name ++ " is a shell builtin")
  | .external program => .wroteLine streams.stdout (name ++ " is " ++ program.text)
  | .unresolved => .wroteLine streams.stderr (name ++ ": not found")

/-- The write of a line is noted. -/
theorem writeLine_traced (host : Host σ η) (stream : η) (line : String) (s : σ)
    (trace : List (ShellEvent σ η)) :
    host.traced.writeLine stream line (s, trace) =
      withTrace (trace ++ [.wroteLine stream line]) (host.writeLine stream line s) := rfl

/-- The last line of a stage is noted, whether or not it can be written. -/
theorem trace_endWith (host : Host σ η) (code : ExitCode) (line : String) (streams : Streams η)
    (env : Environment) (s : σ) (trace : List (ShellEvent σ η)) :
    (Command.endWith host.traced code line streams env (s, trace)).2.2.2 =
      trace ++ [.wroteLine streams.stderr line] := by
  rw [Command.endWith, writeLine_traced]
  rcases host.writeLine streams.stderr line s with ⟨outcome, after⟩
  cases outcome <;> rfl

/-- A call that writes one line and has nothing else to do shows this line, and after it at most the
complaint that it could not be written. -/
theorem trace_writing (host : Host σ η) (b : Builtin) (stream : η) (line : String)
    (streams : Streams η) (env : Environment) (s : σ)
    (next : Traced σ η → StartResult (Traced σ η)) (hnext : ∀ now, (next now).2.2.2 = now.2) :
    ∃ complaints,
      (BuiltinCall.writing host.traced b stream [line] streams env (s, []) next).2.2.2 =
        .wroteLine stream line :: complaints ∧
      ∀ event ∈ complaints, ∃ e : SystemError,
        event = .wroteLine streams.stderr (b.name ++ ": " ++ e.message) := by
  have hwritten : host.traced.writeLines stream [line] (s, []) =
      withTrace [.wroteLine stream line] (host.writeLine stream line s) := by
    rw [Host.writeLines, writeLine_traced]
    rcases host.writeLine stream line s with ⟨outcome, after⟩
    cases outcome <;> rfl
  rw [BuiltinCall.writing, hwritten]
  rcases host.writeLine stream line s with ⟨outcome, after⟩
  match outcome with
  | .ok () =>
    refine ⟨[], ?_, fun _ h => absurd h List.not_mem_nil⟩
    exact hnext (after, [.wroteLine stream line])
  | .error .blocked => exact ⟨[], rfl, fun _ h => absurd h List.not_mem_nil⟩
  | .error (.failed e) =>
    refine ⟨[.wroteLine streams.stderr (b.name ++ ": " ++ e.message)], ?_, ?_⟩
    · exact trace_endWith host 1 _ streams env after [.wroteLine stream line]
    · intro event hevent
      exact ⟨e, List.mem_singleton.mp hevent⟩

/-- Describing a name shows one line, and after it at most the complaint that the line could not be
written. -/
theorem startTrace_type (host : Host σ η) (env : Environment) (s : σ) (name : String)
    (streams : Streams η) :
    ∃ complaints,
      startTrace host env s "type" [name] streams =
        describedLine streams name (resolve (host.isFile s) env name) :: complaints ∧
      ∀ event ∈ complaints, ∃ e : SystemError,
        event = .wroteLine streams.stderr ("type: " ++ e.message) := by
  have hcreate : Command.create host.traced (standardFactories host.traced) env (s, []) "type"
      [name] = Builtin.command host.traced .type [name] := rfl
  rw [startTrace, hcreate]
  show ∃ complaints, ((BuiltinCall.type (some name)).run host.traced streams env (s, [])).2.2.2 =
      _ ∧ _
  have hresolve : resolve (host.traced.isFile (s, [])) env name =
      resolve (host.isFile s) env name := rfl
  simp only [BuiltinCall.run, BuiltinCall.perform, hresolve]
  cases resolve (host.isFile s) env name with
  | builtin b => exact trace_writing host .type _ _ streams env s _ fun _ => rfl
  | external program => exact trace_writing host .type _ _ streams env s _ fun _ => rfl
  | unresolved => exact trace_writing host .type _ _ streams env s _ fun _ => rfl

/-- No cause of a failure is put in words that end like those for a name without a meaning. -/
theorem SystemError.exists_getLast?_message (e : SystemError) :
    ∃ c, e.message.toList.getLast? = some c ∧ c ≠ 'd' := by
  cases hnumber : e.number? with
  | some n =>
    refine ⟨')', ?_, by decide⟩
    simp only [message, hnumber, String.toList_append, List.getLast?_append]
    rfl
  | none =>
    cases e with
    | nulInName => exact ⟨'e', by decide +kernel, by decide⟩
    | nulInArgument => exact ⟨'a', by decide +kernel, by decide⟩
    | invalidUtf8 => exact ⟨'8', by decide +kernel, by decide⟩
    | _ => cases hnumber

/-- A complaint of the lookup is never the line for a name without a meaning. -/
theorem notFound_ne_complaint (name : String) (e : SystemError) :
    name ++ ": not found" ≠ "type: " ++ e.message := by
  obtain ⟨c, hlast, hc⟩ := e.exists_getLast?_message
  intro h
  have hends := congrArg (fun line => line.toList.getLast?) h
  simp only [String.toList_append, List.getLast?_append, hlast] at hends
  exact hc (Option.some.inj hends).symm

/-- What a name that means something is shown as is never the line for one that does not. -/
theorem notFound_eq_describedLine_iff (name : String) (resolution : Resolution)
    (streams : Streams η) :
    (ShellEvent.wroteLine streams.stderr (name ++ ": not found") : ShellEvent σ η) =
        describedLine streams name resolution ↔ resolution = .unresolved := by
  cases resolution with
  | unresolved => exact iff_of_true rfl rfl
  | builtin b =>
    refine iff_of_false (ShellEvent.wroteLine_ne fun h => ?_) nofun
    have hrest := congrArg String.toList h
    simp [String.toList_append] at hrest
  | external program =>
    refine iff_of_false (ShellEvent.wroteLine_ne fun h => ?_) nofun
    have hrest := congrArg String.toList h
    simp [String.toList_append] at hrest

/-- What is shown for a name is what runs under it. A name that refers to a builtin is claimed by
the maker of this builtin, whatever files there are, and its stage runs a call of the builtin or
reports a word that the builtin does not take. A name that refers to a program is claimed by the
maker of programs, and its stage spawns this program under this name with the words. Any other name
is claimed by no maker, its stage ends with the code 127, and these names are the ones that are
shown as not found. -/
theorem create_agrees_resolve (host : Host σ η) (env : Environment) (s : σ) (name : String)
    (args : List String) :
    (match resolve (host.isFile s) env name with
      | .builtin b =>
        b.name = name ∧
          firstClaim? (standardFactories host) env s name args =
            some (Builtin.factory host b, b.command host args) ∧
          Command.create host (standardFactories host) env s name args = b.command host args ∧
          ((∃ call : BuiltinCall, call.builtin = b ∧
              (b.command host args).start = call.run host) ∨
            ∃ surplus, (b.command host args).start =
              Command.endWith host Builtin.usageError (Builtin.surplusMessage surplus))
      | .external program =>
        firstClaim? (standardFactories host) env s name args =
            some (External.factory host, External.command host name program args) ∧
          Command.create host (standardFactories host) env s name args =
            External.command host name program args ∧
          (External.command host name program args).Runs host name program args
      | .unresolved =>
        firstClaim? (standardFactories host) env s name args = none ∧
          (Command.create host (standardFactories host) env s name args).start =
            Command.endWith host 127 (name ++ ": command not found")) ∧
      ∀ streams : Streams η,
        .wroteLine streams.stderr (name ++ ": not found") ∈
            startTrace host env s "type" [name] streams ↔
          firstClaim? (standardFactories host) env s name args = none := by
  have hclaim := firstClaim?_standardFactories host env s name args
  have hcreate := Command.create_eq_firstClaim? host (standardFactories host) env s name args
  rw [hclaim] at hcreate ⊢
  constructor
  · cases hresolve : resolve (host.isFile s) env name with
    | builtin b =>
      rw [hresolve] at hcreate
      exact ⟨name_of_resolve_builtin hresolve, rfl, hcreate, Builtin.start_command host b args⟩
    | external program =>
      rw [hresolve] at hcreate
      exact ⟨rfl, hcreate, External.command_runs host name program args⟩
    | unresolved =>
      rw [hresolve] at hcreate
      exact ⟨rfl, congrArg Command.start hcreate⟩
  · intro streams
    obtain ⟨complaints, htrace, hcomplaints⟩ := startTrace_type host env s name streams
    have hshown : .wroteLine streams.stderr (name ++ ": not found") ∈
        startTrace host env s "type" [name] streams ↔
          resolve (host.isFile s) env name = .unresolved := by
      rw [htrace, List.mem_cons, notFound_eq_describedLine_iff]
      refine or_iff_left fun hmem => ?_
      obtain ⟨e, he⟩ := hcomplaints _ hmem
      exact ShellEvent.wroteLine_ne (notFound_ne_complaint name e) he
    rw [hshown]
    cases resolve (host.isFile s) env name <;> simp

end

end LineShell
