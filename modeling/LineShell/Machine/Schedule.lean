import LineShell.Machine.Service

/-!
# The course of time

All processes go on at once. The machine always serves the process whose next request is due
first, among those whose request can be granted; a process that has to wait goes on as soon as it
can. The shell lets time pass until it is as late as it wants, or until a child has ended.
-/

namespace LineShell

namespace Machine

/-- The earlier one of two processes, the first when neither is. -/
def earlier (first : Option Process) (p : Process) : Option Process :=
  match first with
  | none => some p
  | some first => if p.nextTime < first.nextTime then some p else some first

/-- The process that is served next. -/
def next? (m : Machine) : Option Process := (m.processes.filter m.isReady).foldl earlier none

/-- The machine after the next request, unless that is due later than allowed or all processes
wait. -/
def step? (m : Machine) (latest : Option Nat) : Option Machine :=
  match m.next? with
  | none => none
  | some p =>
    if latest.any fun time => time < p.nextTime then none
    else some (({ m with time := max m.time p.nextTime } : Machine).serve p)

/-- The number of requests that the machine serves at most before it goes on with the shell. -/
def maxRequests : Nat := 1000000000

/-- Serves processes until one of them is due later than allowed, all of them wait, or the goal is
reached. -/
def runUntil (latest : Option Nat) (isReached : Machine → Bool) : Nat → Machine → Machine
  | 0, m => m
  | requests + 1, m =>
    if isReached m then m
    else
      match m.step? latest with
      | none => m
      | some m => runUntil latest isReached requests m

/-- Lets some time pass. -/
def pass (ticks : Nat) (m : Machine) : Machine :=
  let stop := m.time + ticks
  { runUntil (some stop) (fun _ => false) maxRequests m with time := stop }

/-- Lets time pass until no process can go on. -/
def settle (m : Machine) : Machine := runUntil none (fun _ => false) maxRequests m

/-- Whether a child of the shell has ended. -/
def hasEnded (m : Machine) (child : ProcessId) : Bool :=
  m.ended.any fun e => e.parent == shellProcess && e.id == child

/-- Whether a signal has ended the shell. -/
def isKilled (m : Machine) : Bool := m.fatal.isSome

/-- Waits for a child of the shell, as long as the shell lives. -/
def await (child : ProcessId) (m : Machine) : Except SystemError WaitStatus × Machine :=
  let m := runUntil none (fun m => m.hasEnded child || m.isKilled) maxRequests m
  match m.ended.find? fun e => e.parent == shellProcess && e.id == child with
  | some e => (.ok e.status, { m with ended := m.ended.filter fun f => f.id != child })
  | none => (.error .noChild, m)

/-- Whether no child of the shell runs. -/
def hasNoChildren (m : Machine) : Bool := !m.processes.any fun p => p.parent == shellProcess

/-- Waits for all children of the shell, and forgets how they ended. -/
def awaitChildren (m : Machine) : Machine :=
  let m := runUntil none hasNoChildren maxRequests m
  { m with ended := m.ended.filter fun e => e.parent != shellProcess }

/-! ## Programs of the shell -/

/-- Whether a text holds the character NUL, which ends arguments and variables. -/
def hasNul (text : String) : Bool := text.toList.contains '\x00'

/-- Whether some text of a launch holds the character NUL. -/
def launchHasNul (launch : Launch) : Bool :=
  hasNul launch.name || hasNul launch.program.text || hasNul launch.directory.text ||
    launch.args.any hasNul ||
    launch.bindings.any fun v => hasNul v.1 || hasNul v.2

/-- A binding in the order of the names. -/
def insertBinding (binding : String × String) :
    List (String × String) → List (String × String)
  | [] => [binding]
  | other :: rest =>
    if other.1 < binding.1 then other :: insertBinding binding rest else binding :: other :: rest

/-- The entries for variables that a program inherits, in the order of their names. -/
def entriesOf (bindings : List (String × String)) : List String :=
  (bindings.foldl (fun found binding => insertBinding binding found) []).map fun (name, value) =>
    Text.octetsOfText (name ++ "=" ++ value)

/-- The time that it takes the shell to start a program. -/
def launchCost : Nat := 6000

/-- The time that it takes the shell to do anything else. -/
def actionCost : Nat := 50

/-- The rights that the files of a process lack unless it has settled others: others may not
write. -/
def usualMask : Nat := 0o22

/-- The streams that a program of the shell begins with. -/
def standardStreams (streams : Streams Handle) : List OpenStream :=
  [⟨0, streams.stdin, false⟩, ⟨1, streams.stdout, false⟩, ⟨2, streams.stderr, false⟩]

/-- Starts a program as a child process of the shell. -/
def spawn (launch : Launch) (streams : Streams Handle) (m : Machine) :
    Except SystemError ProcessId × Machine :=
  if launchHasNul launch then (.error .nulInArgument, m)
  else
    match m.directoryAt m.workingDirectory launch.directory with
    | .error e => (.error e, m.pass launchCost)
    | .ok directory =>
      let words := (launch.name :: launch.args).map Text.octetsOfText
      let entries := entriesOf launch.bindings
      match m.imageOf directory launch.program words entries with
      | .error e => (.error e, m.pass launchCost)
      | .ok (program, words) =>
        let id := m.nextProcess
        let child : Process :=
          { id := id
            parent := shellProcess
            clock := m.time + launchCost + Request.cost (.execute launch.program [] [])
            directory := directory
            opened := standardStreams streams
            reactions := []
            caught := []
            mask := usualMask
            limits := []
            routine := routineOf program id shellProcess words entries }
        let m := { m with nextProcess := id + 1 }
        (.ok id, (m.addProcess child).pass launchCost)

end Machine

end LineShell
