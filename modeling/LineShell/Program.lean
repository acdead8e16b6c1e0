import LineShell.CommandLine
import LineShell.External
import LineShell.Machine.Host
import LineShell.Machine.Terminal

/-!
# The program as a whole

From the words of its command line to its exit status: the program opens its log, loads the
history of earlier sessions, and runs one given line or all lines of its standard input.
-/

namespace LineShell

/-- The log of the program: how much it holds, and the file when there is one. -/
structure Log where
  level : LogLevel
  file : Option Handle

namespace Log

/-- Writes a record when the level asks for details. -/
def detail (log : Log) (message : String) (m : Machine) : Machine :=
  match log.file with
  | some file => if log.level.isDetailed then (m.put file (message.push '\n').toUTF8).2 else m
  | none => m

/-- Writes a warning unless the level is below that. -/
def warning (log : Log) (message : String) (m : Machine) : Machine :=
  match log.file, log.level with
  | none, _ | _, .off | _, .error => m
  | some file, _ => (m.put file (message.push '\n').toUTF8).2

end Log

namespace Program

/-- The status of a program that cannot go on. -/
def failure : ExitCode := 2

/-- The message about input that is not a text. -/
def unreadableInput : String :=
  "cannot read input: " ++ SystemError.message .invalidUtf8 ++ ": " ++
    SystemError.message .invalidUtf8

/-- Writes a text to a stream of the terminal. -/
def say (h : Handle) (text : String) (m : Machine) : Machine := (m.put h text.toUTF8).2

/-- Opens the log that the settings ask for. -/
def openLog (settings : Settings) (m : Machine) : Except (Path × SystemError) Log × Machine :=
  let level := settings.logLevel.getD .warn
  match settings.logFile with
  | none => (.ok ⟨level, none⟩, m)
  | some p =>
    match m.openAt m.workingDirectory .truncate p with
    | (.ok file, m) => (.ok ⟨level, some file⟩, m.hold file)
    | (.error e, m) => (.error (p, e), m)

/-- The environment with the history of the file that the variable HISTFILE names, when that can
be read. -/
def loadHistory (log : Log) (env : Environment) (m : Machine) : Environment × Machine :=
  match env.get? "HISTFILE" with
  | none => (env, m)
  | some file =>
    match m.readText ⟨file⟩ with
    | .ok text =>
      let history := History.ofText text
      let message := "loaded " ++ toString history.size ++ " history entries from " ++ file
      ({ env with history := history }, log.detail message m)
    | .error e => (env, log.warning ("cannot read history file " ++ file ++ ": " ++ e.message) m)

/-- Whether a line is split into tokens when it is run. -/
def isSplit (line : String) : Bool :=
  let line := Text.trim line
  !line.isEmpty && (tokenize line).isOk

/-- The terminals that cannot be told where to put the text of a line. -/
def plainTerminals : List String := ["dumb", "cons25", "emacs"]

/-- Whether the first entry for the kind of the terminal names one of the plain ones, in letters of
either case. Before every line such a terminal is shown a prompt. -/
def isPlainTerminal (entries : List String) : Bool :=
  let kinds := entries.filterMap fun entry =>
    match entry.toList with
    | 'T' :: 'E' :: 'R' :: 'M' :: '=' :: kind => some (String.ofList kind)
    | _ => none
  kinds.head?.any fun kind => plainTerminals.contains (kind.map Char.toLower)

/-- The prompt when no other one is asked for. -/
def defaultPrompt : String := "$ "

/-- Shows a prompt when there is one, and reads the next line. A shell that a signal has ended reads
no more lines. -/
def nextLine (terminal : Streams Handle) (prompt : Option String) (m : Machine) :
    LineRead × Machine :=
  if m.isKilled then (.endOfInput, m)
  else
    let m :=
      match prompt with
      | some text => say terminal.stdout text m
      | none => m
    m.nextLine terminal.stdin

/-- Runs one line, or all lines of standard input, and gives the exit code. -/
def runShell (terminal : Streams Handle) (log : Log) (command prompt : Option String)
    (sh : Shell Machine) : ExitCode × Machine :=
  let host := Machine.mortalHost terminal
  let factories := standardFactories host
  match command with
  | some line =>
    let sh :=
      if isSplit line then { sh with system := log.detail "line split into tokens" sh.system }
      else sh
    match sh.executeLine host factories line with
    | (.ok code, sh) => (code, sh.system)
    | (.error e, sh) => (failure, (sh.report host e.message).system)
  | none =>
    let sh := { sh with system := log.detail "standard input is no terminal" sh.system }
    let lines := sh.system.unread terminal.stdin + sh.system.readAhead.size + 1
    match sh.loop host factories (nextLine terminal prompt) lines with
    | (.exited code, sh) => (code, sh.system)
    | (.unreadable, sh) => (failure, (sh.report host unreadableInput).system)
    | (.blocked, sh) => (failure, sh.system)

/-- The status of a program with an exit code, or that of the signal that has ended it. -/
def status (code : ExitCode) (m : Machine) : Nat :=
  match m.fatal with
  | some signal => 128 + signal
  | none => code.toProcessStatus

/-- Ends the program: its streams are closed, and the processes that it leaves behind go on to
their ends. -/
def leave (m : Machine) : Machine := ({ m with held := [] } : Machine).settle

/-- Runs the program with the given words, entries for variables, and streams, and gives the status
of its process. -/
def run (words entries : List String) (terminal : Streams Handle) (m : Machine) : Nat × Machine :=
  match Invocation.ofWords words with
  | .error e => (1, say terminal.stderr e.text m)
  | .ok .showHelp => (0, say terminal.stdout usageText m)
  | .ok (.run settings) =>
    match openLog settings m with
    | (.error (p, e), m) =>
      (ExitCode.toProcessStatus failure,
        say terminal.stderr
          (shellName ++ ": cannot create log file " ++ p.text ++ ": " ++ e.message ++ "\n") m)
    | (.ok log, m) =>
      let bindings := Environment.bindingsOf entries
      match loadHistory log (.initial bindings m.workingDirectory.path) m with
      | (env, m) =>
        let prompt :=
          if isPlainTerminal entries then some (settings.prompt.getD defaultPrompt) else none
        match runShell terminal log settings.command prompt ⟨env, m⟩ with
        | (code, m) => (status code m, leave m)

end Program

end LineShell
