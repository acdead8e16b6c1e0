import LineShell.Machine.Schedule

/-!
# A machine as the host of a shell

Everything that the shell does takes some time, in which its children go on.
-/

namespace LineShell

namespace Machine

/-- A result of the shell, after the time that it takes. -/
def timed {α : Type} (result : α × Machine) : α × Machine := (result.1, result.2.pass actionCost)

/-- Lets time pass until something of so many bytes can be written to a stream. The shell waits in
vain when no process can go on, or when a signal ends it. -/
def awaitRoom (h : Handle) (size : Nat) (m : Machine) : Machine :=
  runUntil none (fun m => m.canWrite h size || m.isKilled) maxRequests m

/-- How many of so many bytes can be written to a stream at once. A few bytes are written together
or not at all. -/
def writable (m : Machine) (h : Handle) (size : Nat) : Nat :=
  match m.room h with
  | none => size
  | some room => if size ≤ min atomicSize m.pipeCapacity && room < size then 0 else min room size

/-- Writes bytes for the shell itself. Where a pipe has no room for all of them, the shell waits for
a process that reads the pipe. -/
def write (h : Handle) (bytes : ByteArray) (m : Machine) : Except WriteError Unit × Machine :=
  let ready := m.awaitRoom h bytes.size
  let size := ready.writable h bytes.size
  if ready.isBroken h then (.error (.failed .brokenPipe), ready)
  else if bytes.size ≤ size then
    match ready.put h bytes with
    | (.ok (), after) => (.ok (), after)
    | (.error e, after) => (.error (.failed e), after)
  else if 0 < size then
    write h (bytes.extract size bytes.size) (ready.put h (bytes.extract 0 size)).2
  else (.error .blocked, ready)
termination_by bytes.size
decreasing_by
  simp +zetaDelta only [ByteArray.size_extract, Nat.min_self] at *
  omega

/-- Opens a file for the output of a command. -/
def openOutput (mode : RedirectMode) (p : Path) (m : Machine) :
    Except SystemError Handle × Machine :=
  let mode : OpenMode :=
    match mode with
    | .truncate => .truncate
    | .append => .append
  match m.openAt m.workingDirectory mode p with
  | (.ok h, m) => (.ok h, m.hold h)
  | (.error e, m) => (.error e, m)

/-- Makes a pipe of which the shell has both ends. -/
def openHeldPipe (m : Machine) : (Handle × Handle) × Machine :=
  match m.openPipe with
  | ((reading, writing), m) => ((reading, writing), (m.hold reading).hold writing)

/-- The machine as the host of a shell with the given terminal. -/
def host (terminal : Streams Handle) : Host Machine Handle where
  terminal := terminal
  pipe m := m.openHeldPipe
  openOutput mode p m := timed (openOutput mode p m)
  write h bytes m := timed (write h bytes m)
  close := close
  isFile := isFile
  isDirectory := isDirectory
  canonicalPath := canonicalPath
  changeDirectory p m := timed (m.changeDirectory p)
  spawn launch streams m :=
    match Machine.spawn launch streams m with
    | (.ok child, m) => (.ok fun m => m.await child, m)
    | (.error e, m) => (.error e, m)

/-- The result of an operation, unless a signal ends the shell before it is there. Nothing changes
when the signal has come in earlier. -/
def unlessKilled {α : Type} (otherwise : α) (operation : Machine → α × Machine) (m : Machine) :
    α × Machine :=
  if m.isKilled then (otherwise, m)
  else
    match operation m with
    | (result, m) => (if m.isKilled then otherwise else result, m)

/-- The machine as the host of a shell that a signal may end. What the shell does afterwards has no
effect. -/
def mortalHost (terminal : Streams Handle) : Host Machine Handle :=
  let immortal := host terminal
  { immortal with
    pipe := unlessKilled (0, 0) immortal.pipe
    openOutput := fun mode p => unlessKilled (.error .interrupted) (immortal.openOutput mode p)
    write := fun h bytes => unlessKilled (.error .blocked) (immortal.write h bytes)
    changeDirectory := fun p => unlessKilled (.error .interrupted) (immortal.changeDirectory p)
    spawn := fun launch streams =>
      unlessKilled (.error .interrupted) (immortal.spawn launch streams) }

end Machine

end LineShell
