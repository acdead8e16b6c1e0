import LineShell.Path

/-!
# The command line of the program

The words behind the name of the program are handled from left to right, and the first error
wins. An option takes the next word as its value, whatever that is.
-/

namespace LineShell

/-- How much the program writes into its log. -/
inductive LogLevel where
  | off
  | error
  | warn
  | info
  | debug
  | trace
  deriving DecidableEq, Repr

namespace LogLevel

/-- The levels by name, from the quietest on. -/
def names : List (String × LogLevel) :=
  [("off", off), ("error", error), ("warn", warn), ("info", info), ("debug", debug),
    ("trace", trace)]

/-- The level with a name, in letters of either case. -/
def ofName? (name : String) : Option LogLevel := names.lookup (name.map Char.toLower)

/-- Whether the log holds what a command does. -/
def isDetailed : LogLevel → Bool
  | debug | trace => true
  | _ => false

end LogLevel

/-- The options of the program. -/
inductive ProgramOption where
  | command
  | prompt
  | logLevel
  | logFile
  deriving DecidableEq, Repr

namespace ProgramOption

/-- The option that a word names. -/
def ofWord? (word : String) : Option ProgramOption :=
  match word with
  | "-c" | "--command" => some command
  | "--prompt" => some prompt
  | "--log-level" => some logLevel
  | "--log-file" => some logFile
  | _ => none

end ProgramOption

/-- What the words of a command line ask for. -/
structure Settings where
  command : Option String
  prompt : Option String
  logLevel : Option LogLevel
  logFile : Option Path
  deriving DecidableEq, Repr

/-- Why a command line is refused. -/
inductive UsageError where
  | unrecognized (word : String)
  | missingValue (option : String)
  | duplicate (option value : String)
  | unknownLevel (option value : String)
  | afterHelp
  deriving DecidableEq, Repr

namespace UsageError

/-- The beginning of the message about the value of an option. -/
def aboutValue (option value : String) : String :=
  "Error parsing option \x27" ++ option ++ "\x27 with value \x27" ++ value ++ "\x27: "

/-- What is wrong with a command line. -/
def message : UsageError → String
  | unrecognized word => "Unrecognized argument: " ++ word ++ "\n"
  | missingValue option => "No value provided for option \x27" ++ option ++ "\x27.\n"
  | duplicate option value => aboutValue option value ++ "duplicate values provided\n"
  | unknownLevel option value =>
    aboutValue option value ++
      "attempted to convert a string that doesn\x27t match an existing log level\n"
  | afterHelp => "Trailing arguments are not allowed after `help`."

/-- The text shown for a refused command line. -/
def text (e : UsageError) : String :=
  e.message ++ "\nRun minish --help for more information.\n"

end UsageError

/-- What a command line asks the program to do. -/
inductive Invocation where
  | showHelp
  | run (settings : Settings)
  deriving DecidableEq, Repr

/-- The description of the command line. -/
def usageText : String :=
  "\n".intercalate
    ["Usage: minish [-c <command>] [--prompt <prompt>] [--log-level <log-level>] " ++
        "[--log-file <log-file>]",
      "",
      "A small interactive shell with pipes and output redirection.",
      "",
      "Options:",
      "  -c, --command     run this command line, then exit with its status.",
      "  --prompt          text shown before each input line.",
      "  --log-level       most verbose diagnostics to print: off, error, warn, info,",
      "                    debug or trace.",
      "  --log-file        write diagnostics to this file instead of standard error.",
      "  --help, help      display usage information",
      "", ""]

namespace Settings

/-- The settings before any word has been read. -/
def none : Settings := ⟨.none, .none, .none, .none⟩

/-- A value for a setting that has none yet. -/
def once {α : Type} (option value : String) (old : Option α) (new : α) :
    Except UsageError (Option α) :=
  match old with
  | some _ => .error (.duplicate option value)
  | .none => .ok (some new)

/-- The settings with the value of one more option. A second value for an option is refused
before the value is looked at. -/
def put (settings : Settings) (option : ProgramOption) (word value : String) :
    Except UsageError Settings :=
  match option with
  | .command =>
    (once word value settings.command value).map fun v => { settings with command := v }
  | .prompt =>
    (once word value settings.prompt value).map fun v => { settings with prompt := v }
  | .logFile =>
    (once word value settings.logFile ⟨value⟩).map fun v => { settings with logFile := v }
  | .logLevel =>
    match settings.logLevel with
    | some _ => .error (.duplicate word value)
    | .none =>
      match LogLevel.ofName? value with
      | some level => .ok { settings with logLevel := some level }
      | .none => .error (.unknownLevel word value)

end Settings

namespace Invocation

/-- Reads the words behind two dashes, where every word is an operand. The program takes no
operands, but help may have been asked for before. -/
def ofOperands (helpAsked : Bool) (settings : Settings) : List String → Except UsageError Invocation
  | [] => .ok (if helpAsked then showHelp else run settings)
  | word :: _ => .error (.unrecognized word)

/-- Reads words, after help may have been asked for and some options have been read. -/
def ofWordsFrom (helpAsked : Bool) (settings : Settings) :
    List String → Except UsageError Invocation
  | [] => .ok (if helpAsked then showHelp else run settings)
  | "--help" :: rest | "help" :: rest => ofWordsFrom true settings rest
  | "--" :: rest => ofOperands helpAsked settings rest
  | word :: rest =>
    if word.toList.head? = some '-' then
      if helpAsked then .error .afterHelp
      else
        match ProgramOption.ofWord? word with
        | none => .error (.unrecognized word)
        | some option =>
          match rest with
          | [] => .error (.missingValue word)
          | value :: rest =>
            match settings.put option word value with
            | .error e => .error e
            | .ok settings => ofWordsFrom helpAsked settings rest
    else .error (.unrecognized word)

/-- Reads the words behind the name of the program. -/
def ofWords (words : List String) : Except UsageError Invocation := ofWordsFrom false .none words

end Invocation

end LineShell
