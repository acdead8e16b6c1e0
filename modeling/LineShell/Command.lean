import LineShell.Environment
import LineShell.Host

/-!
# Commands

A command is known by what starting it does. Commands that the shell runs itself are finished
when they have been started; programs go on running and are waited for later.
-/

namespace LineShell

/-- A stage after its start. -/
inductive Started (σ : Type) where
  /-- The stage is done. -/
  | finished (code : ExitCode)
  /-- The stage is a child process. -/
  | running (child : Child σ)

namespace Started

/-- Waits for the end of a stage. -/
def wait {σ : Type} (stage : Started σ) (s : σ) : Except SystemError ExitCode × σ :=
  match stage with
  | finished code => (.ok code, s)
  | running child =>
    match child s with
    | (.ok status, s) => (.ok status.exitCode, s)
    | (.error e, s) => (.error e, s)

end Started

/-- Why a stage could not be started. -/
inductive StartError where
  /-- The stage could not write what it had to. -/
  | cannotWrite (cause : SystemError)
  /-- The program could not be run. -/
  | cannotSpawn (name : String) (cause : SystemError)
  /-- A reason that the command gives in its own words. -/
  | custom (text : String)
  /-- The stage waits for ever, and the shell with it. -/
  | blocked
  deriving DecidableEq, Repr

namespace StartError

/-- The failure of a stage that could not write. -/
def ofWrite : WriteError → StartError
  | .failed cause => cannotWrite cause
  | .blocked => blocked

/-- The text that the shell reports. -/
def message : StartError → String
  | cannotWrite cause => cause.message
  | cannotSpawn name cause => name ++ ": " ++ cause.message
  | custom text => text
  | blocked => "blocked"

end StartError

/-- The outcome of a start: the stage or the reason why there is none, the environment and the
state of the system afterwards. -/
abbrev StartResult (σ : Type) := Except StartError (Started σ) × Environment × σ

/-- A command that is ready to be started. -/
structure Command (σ η : Type) where
  start : Streams η → Environment → σ → StartResult σ

/-- A maker of commands. It knows the names that it claims. -/
structure Factory (σ η : Type) where
  create? : Environment → σ → String → List String → Option (Command σ η)

namespace Command

variable {σ η : Type}

/-- Ends a stage with a code once its last line is written to standard error. -/
def endWith (host : Host σ η) (code : ExitCode) (line : String) (streams : Streams η)
    (env : Environment) (s : σ) : StartResult σ :=
  match host.writeLine streams.stderr line s with
  | (.ok (), s) => (.ok (.finished code), env, s)
  | (.error e, s) => (.error (.ofWrite e), env, s)

/-- The stage for a name that nothing claims. It only says so. -/
def unresolved (host : Host σ η) (name : String) : Command σ η where
  start := endWith host .commandNotFound (name ++ ": command not found")

/-- The first command that one of the makers creates for a name, and the stage that reports an
unknown name when none does. -/
def create (host : Host σ η) (factories : List (Factory σ η)) (env : Environment) (s : σ)
    (name : String) (args : List String) : Command σ η :=
  match factories.findSome? fun factory => factory.create? env s name args with
  | some command => command
  | none => unresolved host name

end Command

end LineShell
