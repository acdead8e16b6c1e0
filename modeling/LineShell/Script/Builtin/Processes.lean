import LineShell.Script.Builtin.Jobs
import LineShell.Script.Builtin.Variables

/-!
# Commands on processes

The commands of the script language that send signals, and settle what is to be done about
signals.
-/

namespace LineShell

namespace ScriptM

/-! ## Sending signals -/

/-- How the command that sends signals is called. -/
def killUsage : String :=
  "Usage: kill [-s sigspec | -signum | -sigspec] [pid | job]... or\nkill -l [exitstatus]"

/-- What a call that sends signals asks for. -/
structure SignalCall where
  lists : Bool
  signal : Option Nat
  targets : List String

/-- The call that options ask for. -/
def signalCall (call : SignalCall) : List (Char × String) → ScriptM SignalCall
  | [] => return call
  | ('s', text) :: rest =>
    match Signal.ofWord? text with
    | some signal => signalCall { call with signal := some signal } rest
    | none => fail ("invalid signal number or name: " ++ text)
  | _ :: rest => signalCall { call with lists := true } rest

/-- The call that words ask for. -/
def signalCallOf (words : List String) : ScriptM SignalCall := do
  let first := (words.headD "").toList
  if first.head? != some '-' then return ⟨false, none, words⟩
  match Signal.ofWord? (String.ofList first.tail) with
  | some signal => return ⟨false, some signal, words.tail⟩
  | none =>
    let (options, targets) ← takeOptions "ls:" words
    signalCall ⟨false, none, targets⟩ options

/-- Writes the names of signals, or that of the signal that a status stands for. -/
def listSignals (words : List String) : ScriptM Unit := do
  match words with
  | [] => say ("0\n" ++ String.join (Signal.all.map fun signal => Signal.name signal ++ "\n"))
  | word :: _ =>
    let status ← numberOf word
    let signal := if 128 < status then status - 128 else status
    if Signal.all.contains signal then say (Signal.name signal ++ "\n")
    else fail ("invalid signal number or exit status: " ++ word)

/-- Sends a signal to the processes that words name, and tells whether all of them are there. -/
def sendTo (signal : Nat) : List String → ScriptM Bool
  | [] => return true
  | word :: rest => do
    let isGroup := word.toList.head? == some '-' || word.toList.head? == some '%'
    let sent ←
      if word.toList.head? == some '%' then do
        discard (jobNamed (some word))
        pure (.error .noProcess)
      else
        let target ← numberOf (if isGroup then String.ofList word.toList.tail else word)
        if isGroup then pure (.error .noProcess) else ask (.send signal target)
    let isThere ←
      match sent with
      | .ok () => pure true
      | .error e => do
        complain (SystemError.description e ++ "\n")
        pure false
    return (← sendTo signal rest) && isThere

/-- Sends signals, or lists them. -/
def killCommand (words : List String) : ScriptM Nat := do
  if words.isEmpty then fail killUsage
  let call ← signalCallOf words
  if call.lists then
    if call.signal.isSome && !call.targets.isEmpty then fail killUsage
    listSignals call.targets
    return 0
  else if call.targets.isEmpty then fail killUsage
  else return if ← sendTo (call.signal.getD Signal.termination) call.targets then 0 else 1

/-! ## Settling what to do about signals -/

/-- The name of the end of the script, which stands beside the signals under number zero. -/
def endName : String := "EXIT"

/-- The number of the signal that a word names, or zero for the end of the script. -/
def trapOf? (word : String) : Option Nat :=
  if word.map Char.toUpper == endName then some 0 else Signal.ofWord? word

/-- Settles what is to be done about a signal, or at the end of the script. -/
def settleTrap (action : Option String) (signal : Nat) : ScriptM Unit := do
  modify fun st =>
    let others := st.traps.filter fun trap => trap.1 != signal
    match action with
    | some text => { st with traps := (signal, text) :: others }
    | none => { st with traps := others }
  if signal != 0 then
    ask (.react signal
      (match action with
      | none => .standard
      | some "" => .ignored
      | some _ => .noted))

/-- Settles what is to be done about the signals that words name. -/
def settleTraps (action : Option String) : List String → ScriptM Nat
  | [] => return 0
  | word :: rest =>
    match trapOf? word with
    | some signal => do
      settleTrap action signal
      settleTraps action rest
    | none => do
      discard (put 2 ("trap: " ++ word ++ ": bad trap\n"))
      return 1

/-- Writes what is to be done about signals, in the order of their numbers. -/
def listTraps : ScriptM Unit := do
  let traps := (← get).traps.mergeSort fun a b => a.1 ≤ b.1
  say (String.join (traps.map fun (signal, action) =>
    "trap -- " ++ inQuotes action ++ " " ++
      (if signal = 0 then endName else Signal.name signal) ++ "\n"))

/-- Settles what is to be done about signals, or says what has been settled. -/
def trapCommand (words : List String) : ScriptM Nat := do
  let (_, words) ← takeOptions "" words
  match words with
  | [] =>
    listTraps
    return 0
  | [word] => settleTraps none [word]
  | first :: rest =>
    let isSignal := (Text.digits? first.toList).any fun n => n ≤ Signal.last
    if isSignal then settleTraps none (first :: rest)
    else settleTraps (if first == "-" then none else some first) rest

/-! ## Facts about the process -/

/-- Writes how long the process and its children have computed, which is too short to tell. -/
def timesCommand : ScriptM Nat := do
  let line := "0m0.000000s 0m0.000000s\n"
  say (line ++ line)
  return 0

end ScriptM

end LineShell
