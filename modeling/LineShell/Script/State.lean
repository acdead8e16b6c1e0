import LineShell.Process.Routine
import LineShell.Script.Alias
import LineShell.Script.Basic
import LineShell.Script.Job
import LineShell.Script.TrackedProgram
import LineShell.Text.Octets

/-!
# The state of a script

What a process that runs a script knows, and how it asks the system for the rest. The run of a
command can be cut short by a jump: out of a loop, a function or the whole script.
-/

namespace LineShell

/-- A variable of a script. -/
structure ScriptVariable where
  name : String
  /-- The value, which a variable can be without. -/
  value : Option String
  /-- Whether programs inherit the variable. -/
  isExported : Bool
  /-- Whether the variable must keep its value. -/
  isFixed : Bool
  deriving DecidableEq, Repr

/-- Where control goes instead of to the next command. -/
inductive Jump where
  /-- The process ends. -/
  | exit
  /-- An error has been reported. The process ends unless the command at fault is an ordinary
  one. -/
  | fault
  /-- So many loops end. -/
  | leaveLoops (count : Nat)
  /-- All but one of so many loops end, and that one goes on with its next round. -/
  | nextRound (count : Nat)
  /-- The function or the script that runs ends. -/
  | back
  deriving DecidableEq, Repr

/-- What a process that runs a script knows. -/
structure ScriptState where
  /-- The time that the process has computed since its last request. -/
  spent : Nat
  bindings : List ScriptVariable
  /-- For each function that runs, and each command with variables of its own, what its variables
  were before. -/
  frames : List (List (String × Option ScriptVariable))
  /-- The number of loops that run inside each other in the innermost function. -/
  loops : Nat
  name : String
  arguments : List String
  /-- The status of the last command. -/
  status : Nat
  /-- The status of the last commands whose output was used in the current command. -/
  outputStatus : Nat
  id : ProcessId
  parent : ProcessId
  /-- The process that was last started in the background. -/
  lastBackground : Option ProcessId
  /-- The jobs that the script remembers, the last one first. -/
  jobs : List Job
  functions : List (String × Script)
  /-- The names that stand for texts. -/
  aliases : List Alias
  /-- The programs that have been found. -/
  tracked : List TrackedProgram
  /-- The letters of the options that are set. -/
  options : List Char
  /-- What is to be done about signals, and at the end of the script under number zero. -/
  traps : List (Nat × String)
  /-- The signals that came in and have not been seen about. -/
  caught : List Nat
  /-- The path by which the directory of the process was reached. -/
  directory : String
  /-- The line of the command that runs. -/
  line : Nat
  /-- The line up to which the script has been read. -/
  reached : Nat
  /-- The name of the command that runs when the language brings it along. -/
  command : Option String
  /-- Whether output of that command was lost. -/
  hasLostOutput : Bool
  /-- The number of the word that is looked at next for options, and the letters of the one before
  that have been looked at. -/
  optionPosition : Nat × Nat
  /-- The status before the action for a signal that runs. -/
  interrupted : Option Nat

/-- A step of a script: it may change the state, ask the system, and end in a jump. -/
abbrev ScriptM := ExceptT Jump (StateT ScriptState Routine)

namespace ScriptM

/-- The position at which the first look for options begins. -/
def firstOption : Nat × Nat := (1, 0)

/-- Asks the system. -/
def ask (request : Request) : ScriptM request.Reply := fun st =>
  .ask st.spent request fun reply => .done (.ok reply, { st with spent := 0 })

/-- Lets some time pass. -/
def spend (ticks : Nat) : ScriptM Unit := modify fun st => { st with spent := st.spent + ticks }

/-- The longest time that a script computes before it lets the system know. -/
def quantum : Nat := 1000

/-- Takes note of the signals that have come in. -/
def collectSignals : ScriptM Unit := do
  let signals ← ask .rest
  unless signals.isEmpty do
    modify fun st => { st with caught := st.caught ++ signals }

/-- Lets some time pass, and the system know when much of it has passed. -/
def work (ticks : Nat) : ScriptM Unit := do
  spend ticks
  if quantum ≤ (← get).spent then collectSignals

/-- Sets the status of the last command. -/
def setStatus (status : Nat) : ScriptM Unit := modify fun st => { st with status := status }

/-- Writes a text to an open stream. -/
def put (d : Descriptor) (text : String) : ScriptM (Except SystemError Unit) := do
  if text.isEmpty then return .ok ()
  ask (.write d (Text.toOctets text))

/-- Writes the output of a command, and remembers when that is not possible. -/
def say (text : String) : ScriptM Unit := do
  match ← put 1 text with
  | .ok () => return
  | .error _ => modify fun st => { st with hasLostOutput := true }

/-- Writes a message under the name of the script, the line and the command that runs. -/
def complainAt (line : Nat) (message : String) : ScriptM Unit := do
  let st ← get
  let command :=
    match st.command with
    | some name => name ++ ": "
    | none => ""
  discard (put 2 (st.name ++ ": " ++ toString line ++ ": " ++ command ++ message ++ "\n"))

/-- Writes a message about the command that runs. -/
def complain (message : String) : ScriptM Unit := do complainAt (← get).line message

/-- The status of a command at fault. -/
def faultStatus : Nat := 2

/-- Reports an error. -/
def fail {α : Type} (message : String) : ScriptM α := do
  complain message
  setStatus faultStatus
  throw .fault

/-- The path that a row of bytes stands for. -/
def pathOf? (octets : String) : Option Path := (Text.textOfOctets? octets).map Path.mk

/-- Whether an option is set. -/
def hasOption (letter : Char) : ScriptM Bool := do return (← get).options.contains letter

/-! ## Variables -/

/-- The variable with a name. -/
def binding? (name : String) : ScriptM (Option ScriptVariable) := do
  return (← get).bindings.find? fun v => v.name == name

/-- The value of a variable. -/
def value? (name : String) : ScriptM (Option String) := do
  return (← binding? name).bind ScriptVariable.value

/-- Puts a variable in the place of the one with its name. -/
def putVariable (v : ScriptVariable) : List ScriptVariable → List ScriptVariable
  | [] => [v]
  | other :: rest => if other.name == v.name then v :: rest else other :: putVariable v rest

/-- The state when a variable has got a value, or has lost it. The next look for options begins at
the word that a variable tells, and programs are searched anew in other directories. -/
def noteChange (name : String) (value : Option String) (st : ScriptState) : ScriptState :=
  match name with
  | "OPTIND" =>
    let number := (value.bind fun text => Text.digits? text.toList).getD 0
    { st with optionPosition := (max number 1, 0) }
  | "PATH" => { st with tracked := [] }
  | _ => st

/-- Changes what is known of a variable, unless it must keep its value. -/
def changeVariable (name : String) (change : ScriptVariable → ScriptVariable) : ScriptM Unit := do
  let old := (← binding? name).getD ⟨name, none, false, false⟩
  if old.isFixed then fail (name ++ ": is read only")
  let new := change old
  modify fun st => noteChange name new.value { st with bindings := putVariable new st.bindings }

/-- Gives a variable a value. -/
def assign (name value : String) : ScriptM Unit := do
  let isExported ← hasOption 'a'
  changeVariable name fun v =>
    { v with value := some value, isExported := v.isExported || isExported }

/-- Gives a variable a value that programs inherit. -/
def assignExported (name value : String) : ScriptM Unit :=
  changeVariable name fun v => { v with value := some value, isExported := true }

/-- Forgets a variable. -/
def unassign (name : String) : ScriptM Unit := do
  changeVariable name id
  modify fun st => { st with bindings := st.bindings.filter fun v => v.name != name }

/-- Remembers what a variable is, to be restored at the end of the innermost frame. -/
def keepOld (name : String) : ScriptM Unit := do
  let old ← binding? name
  modify fun st =>
    match st.frames with
    | [] => st
    | frame :: rest => { st with frames := ((name, old) :: frame) :: rest }

/-- Restores variables to what they were. -/
def restoreVariables (frame : List (String × Option ScriptVariable)) (st : ScriptState) :
    ScriptState :=
  frame.foldl (fun st (name, old) =>
    noteChange name (old.bind ScriptVariable.value)
      (match old with
      | some v => { st with bindings := putVariable v st.bindings }
      | none => { st with bindings := st.bindings.filter fun v => v.name != name })) st

/-- Runs a step with variables of its own. -/
def withFrame {α : Type} (step : ScriptM α) : ScriptM α := do
  modify fun st => { st with frames := [] :: st.frames }
  let leave : ScriptM Unit := modify fun st =>
    match st.frames with
    | [] => st
    | frame :: rest => restoreVariables frame { st with frames := rest }
  try
    let result ← step
    leave
    return result
  catch jump =>
    leave
    throw jump

/-- The characters that separate fields. -/
def separators : ScriptM (List Char) := do
  match ← binding? "IFS" with
  | some v => return (v.value.getD " \t\n").toList
  | none => return " \t\n".toList

/-- The texts of the variables that programs inherit. -/
def entries : ScriptM (List String) := do
  return (← get).bindings.filterMap fun v =>
    if v.isExported then v.value.map fun value => v.name ++ "=" ++ value else none

/-! ## Processes -/

/-- Forgets what was to be done about signals. Those that are ignored stay so. -/
def forgetTraps : ScriptM Unit := do
  let traps := (← get).traps
  modify fun st => { st with traps := traps.filter fun trap => trap.2.isEmpty, caught := [] }
  for (signal, action) in traps do
    unless action.isEmpty || signal == 0 do ask (.react signal .standard)

/-- Ends the process. -/
def finish {α : Type} : ScriptM α := do
  nomatch ← ask (.finish (.exited (← get).status))

/-- Doubles the process. The new process runs a step and ends. -/
def inChild (step : ScriptM Unit) : ScriptM ProcessId := do
  match ← ask .fork with
  | some child => return child
  | none =>
    forgetTraps
    modify fun st => { st with jobs := [] }
    try step catch _ => pure ()
    finish

end ScriptM

end LineShell
