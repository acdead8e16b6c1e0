import LineShell.Builtin.Call
import LineShell.Command

/-!
# Builtins as commands

Running a call writes what it prescribes. A write that fails is reported on standard error under
the name of the builtin, and when that fails as well the stage has not been started.
-/

namespace LineShell

variable {σ η : Type}

namespace BuiltinCall

/-- Ends a call with a message under the name of its builtin. -/
def complain (host : Host σ η) (b : Builtin) (message : String) (streams : Streams η)
    (env : Environment) (s : σ) : StartResult σ :=
  Command.endWith host 1 (b.name ++ ": " ++ message) streams env s

/-- Writes lines for a call and goes on when all of them are written. -/
def writing (host : Host σ η) (b : Builtin) (stream : η) (lines : List String)
    (streams : Streams η) (env : Environment) (s : σ) (next : σ → StartResult σ) :
    StartResult σ :=
  match host.writeLines stream lines s with
  | (.ok (), s) => next s
  | (.error (.failed e), s) => complain host b e.message streams env s
  | (.error .blocked, s) => (.error .blocked, env, s)

/-- Carries out a call: its lines for standard output, then those for standard error. -/
def run (host : Host σ η) (call : BuiltinCall) (streams : Streams η) (env : Environment) (s : σ) :
    StartResult σ :=
  match call.perform host env s with
  | (.error e, s) => complain host call.builtin e.message streams env s
  | (.ok report, s) =>
    writing host call.builtin streams.stdout report.output streams report.environment s fun s =>
      writing host call.builtin streams.stderr report.complaints streams report.environment s
        fun s => (.ok (.finished report.code), report.environment, s)

end BuiltinCall

namespace Builtin

/-- The usage error for a word that a builtin does not take, without blanks at its end. -/
def surplusMessage (word : String) : String :=
  Text.trimEnd ("Unrecognized argument: " ++ word)

/-- The code of a builtin with words that it does not take. -/
def usageError : ExitCode := 2

/-- The command that a builtin makes of its words. -/
def command (host : Host σ η) (b : Builtin) (words : List String) : Command σ η where
  start :=
    match BuiltinCall.ofWords b words with
    | .ok call => call.run host
    | .error surplus => Command.endWith host usageError (surplusMessage surplus)

/-- The maker of one builtin's commands. -/
def factory (host : Host σ η) (b : Builtin) : Factory σ η where
  create? _ _ name words := if name = b.name then some (b.command host words) else none

end Builtin

end LineShell
