import LineShell.Command
import LineShell.Pipeline.Parser
import LineShell.Token.Lexer

/-!
# Running pipelines and lines

A pipeline runs in three phases: all commands are created, the redirections of the last stage are
opened, and the stages are started from left to right, each reading what the one before it
writes. The stages are waited for only when all of them have been started.
-/

namespace LineShell

/-- A shell between two lines: its environment and the system it runs on. -/
structure Shell (σ : Type) where
  env : Environment
  system : σ

/-- Why a line has no exit code. -/
inductive LineError where
  | lexing (e : LexError)
  | parsing (e : ParseError)
  /-- A stage waits for ever, and the shell with it. -/
  | blocked
  deriving DecidableEq, Repr

namespace LineError

/-- The text shown for a line without an exit code. -/
def message : LineError → String
  | lexing e => e.message
  | parsing e => e.message
  | blocked => "blocked"

end LineError

/-- The name under which the shell reports. -/
def shellName : String := "minish"

namespace Host

variable {σ η : Type}

/-- Reports a message of the shell itself on the terminal. A failure to do so is ignored. -/
def report (host : Host σ η) (message : String) (s : σ) : σ :=
  (host.writeLine host.terminal.stderr (shellName ++ ": " ++ message) s).2

end Host

/-- A command that is ready to be started, with its name. -/
structure Stage (σ η : Type) where
  name : String
  command : Command σ η

/-- The files that replace the output streams of the last stage. -/
structure OutputFiles (η : Type) where
  stdout : Option η
  stderr : Option η

namespace OutputFiles

variable {η : Type}

/-- No files. -/
def none : OutputFiles η := ⟨.none, .none⟩

/-- The file for a stream. -/
def get? (files : OutputFiles η) : OutputStream → Option η
  | .stdout => files.stdout
  | .stderr => files.stderr

/-- The files with one more for the given stream, which takes the place of an earlier one. -/
def replace (files : OutputFiles η) (stream : OutputStream) (file : η) : OutputFiles η :=
  match stream with
  | .stdout => { files with stdout := some file }
  | .stderr => { files with stderr := some file }

/-- All the files. -/
def toList (files : OutputFiles η) : List η := files.stdout.toList ++ files.stderr.toList

end OutputFiles

/-- How far the start of a pipeline came. -/
inductive LaunchResult (σ : Type) where
  /-- All stages have been started. -/
  | all (stages : List (String × Started σ))
  /-- A request to leave the shell was pending after a start. -/
  | exited (code : ExitCode)
  /-- A stage waits for ever. -/
  | blocked

namespace LaunchResult

/-- The result with one more stage started before the others. -/
def cons {σ : Type} (stage : String × Started σ) : LaunchResult σ → LaunchResult σ
  | all stages => all (stage :: stages)
  | exited code => exited code
  | blocked => blocked

end LaunchResult

section

variable {σ η : Type}

/-- The stages of a pipeline, created from the state of the shell before any of them runs. -/
def createStages (host : Host σ η) (factories : List (Factory σ η)) (sh : Shell σ)
    (segments : List Segment) : List (Stage σ η) :=
  segments.map fun segment =>
    ⟨segment.name,
      Command.create host factories sh.env sh.system segment.name segment.args⟩

/-- Opens the target of a redirection, as seen from a directory. -/
def openRedirection (host : Host σ η) (directory : Path) (redirection : Redirection) (s : σ) :
    Except SystemError η × σ :=
  host.openOutput redirection.mode (directory.join redirection.path) s

/-- Opens redirections in order until one fails, whose path and error are given. A file whose place
is taken is closed, and so are all files when one cannot be opened. -/
def openRedirections (host : Host σ η) (directory : Path) (files : OutputFiles η) :
    List Redirection → σ → Except (Path × SystemError) (OutputFiles η) × σ
  | [], s => (.ok files, s)
  | redirection :: rest, s =>
    match openRedirection host directory redirection s with
    | (.ok file, s) =>
      openRedirections host directory (files.replace redirection.stream file) rest
        (host.closeAll (files.get? redirection.stream).toList s)
    | (.error e, s) => (.error (redirection.path, e), host.closeAll files.toList s)

/-- How a stage is connected. -/
structure Connection (η : Type) where
  streams : Streams η
  /-- The streams that are closed when the stage has been started. -/
  own : List η
  /-- The stream that the next stage reads. -/
  next : Option η

/-- The connection of a stage that reads the given stream or the terminal. The last stage writes to
its files or to the terminal, the others write into a new pipe. -/
def connect (host : Host σ η) (files : OutputFiles η) (isLast : Bool) (input : Option η) (s : σ) :
    Connection η × σ :=
  let stdin := input.getD host.terminal.stdin
  if isLast then
    (⟨⟨stdin, files.stdout.getD host.terminal.stdout, files.stderr.getD host.terminal.stderr⟩,
      input.toList ++ files.toList, none⟩, s)
  else
    match host.pipe s with
    | ((reading, writing), s) =>
      (⟨⟨stdin, writing, host.terminal.stderr⟩, input.toList ++ [writing], some reading⟩, s)

/-- Starts stages from left to right, the first of them reading the given stream or the terminal. A
stage that cannot be started is reported and counts as finished. -/
def launch (host : Host σ η) (files : OutputFiles η) :
    List (Stage σ η) → Option η → Environment → σ → LaunchResult σ × Environment × σ
  | [], _, env, s => (.all [], env, s)
  | stage :: rest, input, env, s =>
    match connect host files rest.isEmpty input s with
    | (connection, s) =>
      let continueWith (started : Started σ) (env : Environment) (s : σ) :=
        match env.exitRequest with
        | some code =>
          let unused := connection.next.toList ++ if rest.isEmpty then [] else files.toList
          (.exited code, env, host.closeAll unused s)
        | none =>
          match launch host files rest connection.next env s with
          | (result, env, s) => (result.cons (stage.name, started), env, s)
      match stage.command.start connection.streams env s with
      | (.error .blocked, env, s) => (.blocked, env, s)
      | (.ok started, env, s) => continueWith started env (host.closeAll connection.own s)
      | (.error e, env, s) =>
        continueWith (.finished .cannotExecute) env
          (host.report e.message (host.closeAll connection.own s))

/-- Waits for stages in order. The code is that of the last one; a stage that cannot be waited for
is reported. -/
def waitAll (host : Host σ η) (code : ExitCode) : List (String × Started σ) → σ → ExitCode × σ
  | [], s => (code, s)
  | (name, stage) :: rest, s =>
    match stage.wait s with
    | (.ok code, s) => waitAll host code rest s
    | (.error e, s) =>
      waitAll host .cannotExecute rest (host.report (name ++ ": " ++ e.message) s)

/-- Starts the stages of a pipeline and waits for them. A request to leave the shell ends the
pipeline at once, and nothing is waited for. -/
def runStages (host : Host σ η) (files : OutputFiles η) (stages : List (Stage σ η))
    (sh : Shell σ) : Except LineError ExitCode × Shell σ :=
  match launch host files stages none sh.env sh.system with
  | (.exited code, env, s) => (.ok code, ⟨env, s⟩)
  | (.blocked, env, s) => (.error .blocked, ⟨env, s⟩)
  | (.all started, env, s) =>
    match waitAll host 0 started s with
    | (code, s) => (.ok code, ⟨env, s⟩)

/-- The code of a pipeline with a redirection that cannot be opened. -/
def redirectionFailed : ExitCode := 1

namespace Shell

/-- Reports a message of the shell itself. -/
def report (host : Host σ η) (message : String) (sh : Shell σ) : Shell σ :=
  { sh with system := host.report message sh.system }

/-- Runs a pipeline and gives the exit code of its last stage. -/
def executePipeline (host : Host σ η) (factories : List (Factory σ η)) (p : Pipeline)
    (sh : Shell σ) : Except LineError ExitCode × Shell σ :=
  match p.last? with
  | none => (.ok 0, sh)
  | some last =>
    let stages := createStages host factories sh p.segments
    match openRedirections host sh.env.currentDirectory .none last.redirections
        sh.system with
    | (.error (path, e), s) =>
      (.ok redirectionFailed,
        ⟨sh.env, host.report (path.text ++ ": " ++ e.message) s⟩)
    | (.ok files, s) => runStages host files stages ⟨sh.env, s⟩

/-- The shell after a line has been added to its history. -/
def remember (line : String) (sh : Shell σ) : Shell σ :=
  { sh with env := { sh.env with history := sh.env.history.push line } }

/-- Runs the command line that a text holds. Blank lines do nothing; any other line goes into the
history, trimmed, before it is read. -/
def executeLine (host : Host σ η) (factories : List (Factory σ η)) (text : String)
    (sh : Shell σ) : Except LineError ExitCode × Shell σ :=
  let line := Text.trim text
  if line.isEmpty then (.ok 0, sh)
  else
    let sh := sh.remember line
    match tokenize line with
    | .error e => (.error (.lexing e), sh)
    | .ok tokens =>
      match parsePipeline tokens with
      | .error e => (.error (.parsing e), sh)
      | .ok p => executePipeline host factories p sh

end Shell

end

end LineShell
