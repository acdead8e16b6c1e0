import LineShell.ExitCode
import LineShell.Process.Request

/-!
# Jobs

A script remembers the processes that it has started together as a job with a number, and how
those of them have ended that it has heard of. A job that is over keeps its number until the
script has asked for its status and begins another one.
-/

namespace LineShell

/-- What a script knows of the processes that it has started together. -/
structure Job where
  number : Nat
  /-- The processes in the order in which they were started, and how they have ended. -/
  members : List (ProcessId × Option WaitStatus)
  /-- Whether the script has asked for the status of the job. -/
  isAnswered : Bool
  deriving DecidableEq, Repr

namespace Job

/-- Whether all processes of the job have ended. -/
def isOver (job : Job) : Bool := job.members.all fun member => member.2.isSome

/-- How the last process of the job has ended. -/
def ending? (job : Job) : Option WaitStatus := job.members.getLast?.bind Prod.snd

/-- The process by which the job is known: its last one. -/
def process? (job : Job) : Option ProcessId := job.members.getLast?.map Prod.fst

/-- The job when one of its processes has ended. -/
def settle (job : Job) (process : ProcessId) (ending : WaitStatus) : Job :=
  { job with members := job.members.map fun member =>
    if member.1 == process then (process, some ending) else member }

/-- Whether the number of the job can be taken by another one. -/
def isSpent (job : Job) : Bool := job.isOver && job.isAnswered

/-- The jobs with one of them changed. -/
def update (number : Nat) (change : Job → Job) (jobs : List Job) : List Job :=
  jobs.map fun job => if job.number == number then change job else job

/-- The jobs without one of them. -/
def remove (number : Nat) (jobs : List Job) : List Job :=
  jobs.filter fun job => job.number != number

/-- The least number that no job needs. -/
def freeNumber (jobs : List Job) : Nat :=
  let isFree (n : Nat) : Bool := jobs.all fun job => job.number != n || job.isSpent
  ((List.range' 1 (jobs.length + 1)).find? isFree).getD 1

/-- The jobs with a new one in front, which has no processes yet. -/
def addNew (jobs : List Job) : List Job :=
  let number := freeNumber jobs
  ⟨number, [], false⟩ :: remove number jobs

/-- The job to which a process belongs that has not been heard of. -/
def holding? (process : ProcessId) (jobs : List Job) : Option Job :=
  jobs.find? fun job => job.members.any fun member => member.1 == process && member.2.isNone

end Job

end LineShell
