import LineShell.Script.Operands
import LineShell.Script.Waiting

/-!
# Commands on jobs

The commands of the script language that list jobs, wait for them, and would bring them to the
front if there were a terminal.
-/

namespace LineShell

namespace ScriptM

/-! ## Naming jobs -/

/-- What a word names a job by. -/
inductive JobName where
  /-- The job that was started last. -/
  | current
  /-- The job before that. -/
  | previous
  | number (n : Nat)
  /-- The start of a command; jobs have no commands, so only the empty one fits. -/
  | command (text : List Char)
  deriving DecidableEq, Repr

/-- What a word names a job by; none when it names no job. -/
def jobName? (word : String) : Option JobName :=
  match word.toList with
  | ['%'] | ['%', '+'] | ['%', '%'] => some .current
  | ['%', '-'] => some .previous
  | '%' :: '?' :: text => some (.command text)
  | '%' :: text =>
    match Text.digits? text with
    | some n => some (.number n)
    | none => some (.command text)
  | _ => none

/-- The job that a word names, or the current one without a word. -/
def jobNamed (word : Option String) : ScriptM Job := do
  let jobs := (← get).jobs
  let text := word.getD "(null)"
  let demand (job : Option Job) (message : String) : ScriptM Job :=
    match job with
    | some job => return job
    | none => fail message
  let unknown := "No such job: " ++ text
  match word.elim (some .current) jobName? with
  | none => fail unknown
  | some .current => demand jobs.head? "No current job"
  | some .previous => demand jobs.tail.head? "No previous job"
  | some (.number n) => demand (jobs.find? fun job => job.number == n) unknown
  | some (.command (_ :: _)) => fail unknown
  | some (.command []) =>
    match jobs with
    | _ :: _ :: _ => fail (text ++ ": ambiguous")
    | jobs => demand jobs.head? unknown

/-! ## Listing jobs -/

/-- What is told about a job. -/
inductive JobReport where
  | status
  /-- The status and the numbers of the processes. -/
  | detailed
  /-- The number of the first process alone. -/
  | leader
  deriving DecidableEq, Repr

/-- How a job has ended, or that it has not. -/
def endingText (job : Job) : String :=
  match if job.isOver then job.ending? else none with
  | none => "Running"
  | some ending =>
    match ending.signal?, ending.exitStatus? with
    | some signal, _ => Signal.obituary signal
    | none, some 0 | none, none => "Done"
    | none, some status => "Done(" ++ toString status ++ ")"

/-- The column behind the status of a job. -/
def commandColumn : Nat := 33

/-- A text and the gap up to the commands of a job. -/
def upToCommand (text : String) : String :=
  text ++ String.ofList (List.replicate (max 1 (commandColumn - text.length)) ' ')

/-- The lines about a job, which has a mark when it is the current or the previous one. -/
def jobLines (report : JobReport) (mark : String) (job : Job) : String :=
  let start := "[" ++ toString job.number ++ "] " ++ mark ++ " "
  let processes := job.members.map Prod.fst
  match report with
  | .leader => toString (processes.headD 0) ++ "\n"
  | .status =>
    let others := processes.tail.map fun _ => " | "
    upToCommand (start ++ endingText job) ++ String.join others ++ "\n"
  | .detailed =>
    let gap := String.ofList (List.replicate start.length ' ')
    let first := upToCommand (start ++ toString (processes.headD 0) ++ " " ++ endingText job)
    let others := processes.tail.map fun process =>
      " |\n" ++ upToCommand (gap ++ toString process ++ " ")
    first ++ String.join others ++ "\n"

/-- Tells about a job. One that is over is forgotten. -/
def reportJob (report : JobReport) (job : Job) : ScriptM Unit := do
  let jobs := (← get).jobs
  let isAt (place : Nat) : Bool := jobs[place]?.any fun other => other.number == job.number
  let mark := if isAt 0 then "+" else if isAt 1 then "-" else " "
  say (jobLines report mark job)
  if report != .leader && job.isOver then
    modify fun st => { st with jobs := Job.remove job.number st.jobs }

/-- Lists jobs, all of them or those that words name. -/
def jobsCommand (words : List String) : ScriptM Nat := do
  let (options, words) ← takeOptions "lp" words
  let report : JobReport :=
    match options.getLast?.map Prod.fst with
    | none => .status
    | some 'l' => .detailed
    | some _ => .leader
  if words.isEmpty then
    discard (hear none .none)
    for job in (← get).jobs do reportJob report job
  else
    for word in words do reportJob report (← jobNamed (some word))
  return 0

/-- Refuses to bring a job to the front or to the back, for which it lacks a terminal. -/
def shiftJobCommand (words : List String) : ScriptM Nat := do
  let (_, words) ← takeOptions "" words
  discard (jobNamed words.head?)
  fail ("job " ++ words.headD "(null)" ++ " not created under job control")

/-! ## Waiting -/

/-- The status of a wait that a signal has ended. -/
def signalStatus : ScriptM Nat := do return 128 + ((← get).caught.getLast?.getD 0)

/-- Takes note that the status of a job has been asked for. -/
def answer (job : Job) : ScriptM Unit :=
  modify fun st =>
    { st with jobs := Job.update job.number (fun job => { job with isAnswered := true }) st.jobs }

/-- Waits until all jobs are over, of which so many processes may still run. -/
def waitForAll : Nat → ScriptM Nat
  | 0 => return 0
  | steps + 1 => do
    let jobs := (← get).jobs
    for job in jobs.takeWhile Job.isOver do answer job
    if jobs.all Job.isOver then return 0
    else if ← hear none .untilSignal then waitForAll steps
    else signalStatus

/-- The job that a word names, by the job itself or by its last process. -/
def jobOfWord? (word : String) : ScriptM (Option Job) := do
  if word.toList.head? == some '%' then return some (← jobNamed (some word))
  else
    let process ← numberOf word
    return (← get).jobs.find? fun job => job.process? == some process

/-- Waits for the jobs that words name, and gives the status of the last one that is known. -/
def waitForEach (status : Nat) : List String → ScriptM Nat
  | [] => return status
  | word :: rest => do
    match ← jobOfWord? word with
    | none => waitForEach status rest
    | some job =>
      if ← hear (some job.number) .untilSignal then
        answer job
        waitForEach (← statusOfJob job.number) rest
      else signalStatus

/-- Waits for jobs, all of them or those that words name. -/
def waitCommand (words : List String) : ScriptM Nat := do
  let (_, words) ← takeOptions "" words
  if words.isEmpty then
    let running := (← get).jobs.flatMap Job.members
    waitForAll (running.length + 1)
  else waitForEach 127 words

end ScriptM

end LineShell
