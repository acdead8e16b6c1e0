import LineShell.Script.State

/-!
# Waiting for jobs

A script hears of the ends of its children whenever it waits, of those that it does not wait for
as well. How a signal has ended a process is said only when the job of the process is waited for.
-/

namespace LineShell

namespace ScriptM

/-- Begins a job, and gives its number. -/
def beginJob : ScriptM Nat := do
  let number := Job.freeNumber (← get).jobs
  modify fun st => { st with jobs := Job.addNew st.jobs }
  return number

/-- Starts a process that belongs to a job and runs a step. -/
def startMember (number : Nat) (step : ScriptM Unit) : ScriptM ProcessId := do
  let child ← inChild step
  modify fun st =>
    { st with jobs := Job.update number (fun job =>
      { job with members := job.members ++ [(child, none)] }) st.jobs }
  return child

/-- The job with a number. -/
def job? (number : Nat) : ScriptM (Option Job) := do
  return (← get).jobs.find? fun job => job.number == number

/-- Whether a process of a job has not been heard of. -/
def isRunning (number : Nat) : ScriptM Bool := do
  return (← job? number).any fun job => !job.isOver

/-- Says how a signal has ended a process. The terminal and the reader of a pipe end processes
quietly. -/
def announce (ending : WaitStatus) : ScriptM Unit := do
  match ending.signal? with
  | none => return
  | some signal =>
    if signal != Signal.brokenPipe && signal != Signal.interruption then
      discard (put 2 (Signal.obituary signal ++ "\n"))

/-- Takes note of the end of a process. -/
def noteEnd (awaited : Option Nat) (process : ProcessId) (ending : WaitStatus) : ScriptM Unit := do
  if let some job := Job.holding? process (← get).jobs then
    modify fun st =>
      { st with jobs := Job.update job.number (fun job => job.settle process ending) st.jobs }
    if awaited == some job.number then announce ending

/-- Hears of children that have ended, until the awaited job is over or, without one, the first of
them has been heard of, and then of the others that have ended. Tells whether no signal has ended
the wait. -/
def hearOf (awaited : Option Nat) : Nat → Patience → ScriptM Bool
  | 0, _ => return true
  | steps + 1, patience => do
    match ← ask (.wait patience) with
    | some (process, ending) =>
      noteEnd awaited process ending
      let isOver ←
        match awaited with
        | some number => do pure !(← isRunning number)
        | none => pure true
      hearOf awaited steps (if isOver then .none else patience)
    | none =>
      if patience == .untilSignal then collectSignals
      if patience == .untilSignal && !(← get).caught.isEmpty then
        discard (hearOf awaited steps .none)
        return false
      else return true

/-- The number of times that a script hears of children in one wait. -/
def maxEnds : Nat := 1000000000

/-- Waits for a job that is not over, or without one for any child. Tells whether no signal has
ended the wait. -/
def hear (awaited : Option Nat) (patience : Patience) : ScriptM Bool := do
  let isOver ←
    match awaited with
    | some number => do pure !(← isRunning number)
    | none => pure false
  hearOf awaited maxEnds (if isOver then .none else patience)

/-- Hears of the children that have ended, when some of them may have. -/
def hearMeanwhile : ScriptM Unit := do
  if (← get).jobs.any fun job => !job.isOver then discard (hear none .none)

/-- The status of a job: that of its last process. -/
def statusOfJob (number : Nat) : ScriptM Nat := do
  match (← job? number).bind Job.ending? with
  | some ending => return ending.exitCode.toNat
  | none => return 127

/-- Waits for a job, forgets it, and gives its status. -/
def finishJob (number : Nat) : ScriptM Nat := do
  discard (hear (some number) .untilEnd)
  let status ← statusOfJob number
  modify fun st => { st with jobs := Job.remove number st.jobs }
  return status

end ScriptM

end LineShell
