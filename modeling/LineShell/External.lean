import LineShell.Builtin.Command
import LineShell.Command
import LineShell.Resolution

/-!
# Programs as commands

A name that leads to a file is run as a child process, with the variables and the current
directory that the shell has when the stage is started.
-/

namespace LineShell

namespace External

variable {σ η : Type}

/-- The command that runs a program under a name. -/
def command (host : Host σ η) (name : String) (program : Path) (args : List String) :
    Command σ η where
  start streams env s :=
    match host.spawn ⟨name, program, args, env.bindings, env.currentDirectory⟩ streams s with
    | (.ok child, s) => (.ok (.running child), env, s)
    | (.error e, s) => (.error (.cannotSpawn name e), env, s)

/-- The maker of commands that run programs. The program is looked up when the command is made. -/
def factory (host : Host σ η) : Factory σ η where
  create? env s name args :=
    (findProgram (host.isFile s) env.searchPath env.currentDirectory ⟨name⟩).map fun program =>
      command host name program args

end External

/-- The makers of a full shell: every builtin, then programs. -/
def standardFactories {σ η : Type} (host : Host σ η) : List (Factory σ η) :=
  Builtin.all.map (Builtin.factory host) ++ [External.factory host]

end LineShell
