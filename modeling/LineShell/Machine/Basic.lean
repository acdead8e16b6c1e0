import LineShell.Completion
import LineShell.FileSystem.Change
import LineShell.Host
import LineShell.Process.Routine

/-!
# The machine that a shell runs on

A file system, the streams that are open on it, the pipes between streams, and the processes. The
shell is a process of its own kind: it is not among the others, and the machine goes on while the
shell lets time pass.
-/

namespace LineShell

/-- What an open stream reads from and writes to. -/
inductive Stream where
  /-- A regular file, at a position. A stream that appends always writes at the end. -/
  | file (id : NodeId) (position : Nat) (mode : OpenMode)
  | device (d : Device) (mode : OpenMode)
  /-- A directory, which can be opened for reading but not read. -/
  | directory
  /-- The end of a pipe that is read. -/
  | readingEnd (pipe : Nat)
  /-- The end of a pipe that is written. -/
  | writingEnd (pipe : Nat)
  deriving DecidableEq, Repr, Inhabited

/-- The number of an open stream. Streams of different processes may be the same one. -/
abbrev Handle := Nat

/-- A pipe: the bytes that were written, and how many of them have been read. -/
structure PipeBuffer where
  bytes : ByteArray
  taken : Nat
  deriving Inhabited

/-- A stream that a process has open. -/
structure OpenStream where
  descriptor : Descriptor
  handle : Handle
  /-- Whether the programs that the process becomes do not inherit the stream. -/
  closesOnExecute : Bool
  deriving DecidableEq, Repr

/-- A process that runs. -/
structure Process where
  id : ProcessId
  parent : ProcessId
  /-- The time at which the process has gone on last. -/
  clock : Nat
  directory : Trail
  opened : List OpenStream
  /-- What the process has settled about signals. -/
  reactions : List (Nat × Signal.Reaction)
  /-- The signals that came in and that the process has not been told of. -/
  caught : List Nat
  /-- The rights that the files which the process makes lack. -/
  mask : Nat
  /-- The limits that have been settled for the process. -/
  limits : List (Resource × Limit)
  /-- What the process still does. -/
  routine : Routine Unit

/-- A process that has ended and has not been waited for. -/
structure EndedProcess where
  id : ProcessId
  parent : ProcessId
  status : WaitStatus
  deriving DecidableEq, Repr

/-- The state of the machine. -/
structure Machine where
  files : FileSystem
  streams : Array Stream
  pipes : Array PipeBuffer
  /-- The directory of the shell's process, from which relative paths are looked up. -/
  workingDirectory : Trail
  /-- The streams that the shell has open, besides those of its terminal. -/
  held : List Handle
  /-- The number of unread bytes that a pipe holds. -/
  pipeCapacity : Nat
  /-- The bytes that the shell has read ahead from its terminal. -/
  readAhead : ByteArray
  /-- The time, in tenths of a microsecond. -/
  time : Nat
  processes : List Process
  ended : List EndedProcess
  /-- The number of the next process. -/
  nextProcess : ProcessId
  /-- The signal that has ended the shell, once one has. -/
  fatal : Option Nat

namespace Machine

/-- The capacity of a pipe unless the machine says otherwise. -/
def defaultPipeCapacity : Nat := 65536

/-- The number of the shell's own process. -/
def shellProcess : ProcessId := 1000

/-- The number of the process that takes over the children of those that have ended. -/
def firstProcess : ProcessId := 1

/-- A machine with some files, without open streams. -/
def ofFiles (files : FileSystem) (workingDirectory : Trail) : Machine where
  files := files
  streams := #[]
  pipes := #[]
  workingDirectory := workingDirectory
  held := []
  pipeCapacity := defaultPipeCapacity
  readAhead := .empty
  time := 0
  processes := []
  ended := []
  nextProcess := shellProcess + 1
  fatal := none

/-! ## Streams -/

/-- Opens one more stream. -/
def addStream (m : Machine) (stream : Stream) : Handle × Machine :=
  match m with
  | { files, streams, pipes, workingDirectory, held, pipeCapacity, readAhead, time, processes,
      ended, nextProcess, fatal } =>
    (streams.size,
      { files, streams := streams.push stream, pipes, workingDirectory, held, pipeCapacity,
        readAhead, time, processes, ended, nextProcess, fatal })

/-- The stream with a number. -/
def stream? (m : Machine) (h : Handle) : Option Stream := m.streams[h]?

/-- Changes the files of the machine. -/
def mapFiles (m : Machine) (change : FileSystem → FileSystem) : Machine :=
  match m with
  | { files, streams, pipes, workingDirectory, held, pipeCapacity, readAhead, time, processes,
      ended, nextProcess, fatal } =>
    { files := change files, streams, pipes, workingDirectory, held, pipeCapacity, readAhead,
      time, processes, ended, nextProcess, fatal }

/-- Changes a stream of the machine. -/
def setStream (m : Machine) (h : Handle) (stream : Stream) : Machine :=
  match m with
  | { files, streams, pipes, workingDirectory, held, pipeCapacity, readAhead, time, processes,
      ended, nextProcess, fatal } =>
    { files, streams := streams.setIfInBounds h stream, pipes, workingDirectory, held,
      pipeCapacity, readAhead, time, processes, ended, nextProcess, fatal }

/-- Changes a pipe of the machine. -/
def modifyPipe (m : Machine) (index : Nat) (change : PipeBuffer → PipeBuffer) : Machine :=
  match m with
  | { files, streams, pipes, workingDirectory, held, pipeCapacity, readAhead, time, processes,
      ended, nextProcess, fatal } =>
    { files, streams, pipes := pipes.modify index change, workingDirectory, held, pipeCapacity,
      readAhead, time, processes, ended, nextProcess, fatal }

/-- Lets the shell have a stream open. -/
def hold (m : Machine) (h : Handle) : Machine := { m with held := h :: m.held }

/-- Closes a stream of the shell. -/
def close (h : Handle) (m : Machine) : Machine := { m with held := m.held.erase h }

/-- Whether somebody has a stream open that has a property. -/
def anyOpen (m : Machine) (property : Stream → Bool) : Bool :=
  let isMeant (h : Handle) : Bool := (m.stream? h).any property
  m.held.any isMeant || m.processes.any fun p => p.opened.any fun s => isMeant s.handle

/-- Whether somebody has a file open for writing. -/
def isWritten (m : Machine) (id : NodeId) : Bool :=
  m.anyOpen fun
    | .file other _ mode => other == id && mode.writes
    | _ => false

/-- The stream of a node that has just been opened. -/
def streamFor (mode : OpenMode) (id : NodeId) : Node → Stream
  | .device d => .device d mode
  | .directory _ => .directory
  | _ => .file id 0 mode

/-- Opens a file, as seen from a directory. -/
def openAt (m : Machine) (directory : Trail) (mode : OpenMode) (p : Path) :
    Except SystemError Handle × Machine :=
  let add (m : Machine) (stream : Stream) : Except SystemError Handle × Machine :=
    match m.addStream stream with
    | (h, m) => (.ok h, m)
  if mode == .read then
    match m.files.lookup directory p with
    | .error e => (.error e, m)
    | .ok (id, node) => add m (streamFor mode id node)
  else
    match m.files.openForWriting directory p with
    | .error e => (.error e, m)
    | .ok (id, files) =>
      let m := { m with files := files }
      match m.files.node? id with
      | some (.program _) => (.error .textBusy, m)
      | some node =>
        let m := if mode == .truncate then m.mapFiles fun fs => fs.truncate id else m
        add m (streamFor mode id node)
      | none => (.error .notFound, m)

/-- Makes a pipe; one stream reads it and another writes it. -/
def openPipe (m : Machine) : (Handle × Handle) × Machine :=
  let index := m.pipes.size
  let m := { m with pipes := m.pipes.push ⟨.empty, 0⟩ }
  match m.addStream (.readingEnd index) with
  | (reading, m) =>
    match m.addStream (.writingEnd index) with
    | (writing, m) => ((reading, writing), m)

/-- The bytes behind a stream and the position in them from which it reads on. -/
def source (m : Machine) (h : Handle) : ByteArray × Nat :=
  match m.stream? h with
  | some (.file id position _) => (m.files.contents id, position)
  | some (.readingEnd index) =>
    match m.pipes[index]? with
    | some buffer => (buffer.bytes, buffer.taken)
    | none => (.empty, 0)
  | _ => (.empty, 0)

/-- Moves the position from which a stream reads on. A pipe forgets its bytes when all of them have
been read. -/
def advance (m : Machine) (h : Handle) (position : Nat) : Machine :=
  match m.stream? h with
  | some (.file id _ mode) => m.setStream h (.file id position mode)
  | some (.readingEnd index) =>
    m.modifyPipe index fun ⟨bytes, _⟩ =>
      if bytes.size ≤ position then ⟨.empty, 0⟩ else ⟨bytes, position⟩
  | _ => m

/-- Reads at most the given number of bytes; fewer only when no more are there. -/
def readUpTo (m : Machine) (h : Handle) (count : Nat) : ByteArray × Machine :=
  match m.source h with
  | (bytes, position) =>
    let stop := min bytes.size (position + count)
    (bytes.extract position stop, m.advance h (max position stop))

/-- Reads everything that is there. -/
def readAll (m : Machine) (h : Handle) : ByteArray × Machine :=
  match m.source h with
  | (bytes, position) => (bytes.extract position bytes.size, m.advance h (max position bytes.size))

/-- The position after the next line feed from a position on, or the end of the bytes. -/
def lineEnd (bytes : ByteArray) (position : Nat) : Nat :=
  if h : position < bytes.size then
    if bytes[position] = 10 then position + 1 else lineEnd bytes (position + 1)
  else position
termination_by bytes.size - position

/-- Reads up to and with the next line feed, or everything that is there. -/
def readLine (m : Machine) (h : Handle) : ByteArray × Machine :=
  match m.source h with
  | (bytes, position) =>
    let stop := lineEnd bytes position
    (bytes.extract position stop, m.advance h stop)

/-- Writes bytes to a stream, whatever the capacity of a pipe is. -/
def put (m : Machine) (h : Handle) (bytes : ByteArray) : Except SystemError Unit × Machine :=
  match m.stream? h with
  | some (.file id position mode) =>
    match mode with
    | .read => (.error .badHandle, m)
    | .append => (.ok (), m.mapFiles fun fs => fs.append id bytes)
    | mode =>
      (.ok (), (m.mapFiles fun fs => fs.writeAt id bytes position).setStream h
        (.file id (position + bytes.size) mode))
  | some (.writingEnd index) =>
    (.ok (), m.modifyPipe index fun ⟨written, taken⟩ => ⟨written ++ bytes, taken⟩)
  | some (.device .null mode) => (if mode.writes then .ok () else .error .badHandle, m)
  | some (.device .full mode) =>
    (if !mode.writes then .error .badHandle else if bytes.isEmpty then .ok () else .error .noSpace,
      m)
  | some (.readingEnd _) | some .directory | none => (.error .badHandle, m)

/-- The number of bytes that a pipe still takes; none for streams that are no pipes. -/
def room (m : Machine) (h : Handle) : Option Nat :=
  match m.stream? h with
  | some (.writingEnd index) =>
    match m.pipes[index]? with
    | some buffer => some (m.pipeCapacity - (buffer.bytes.size - buffer.taken))
    | none => none
  | _ => none

/-! ## Files -/

/-- Whether a path leads to a regular file. -/
def isFile (m : Machine) (p : Path) : Bool := m.files.isFile m.workingDirectory p

/-- Whether a path leads to a directory. -/
def isDirectory (m : Machine) (p : Path) : Bool := m.files.isDirectory m.workingDirectory p

/-- The absolute path without links that leads to the same file. -/
def canonicalPath (m : Machine) (p : Path) : Except SystemError Path :=
  m.files.canonical m.workingDirectory p

/-- The text of a file. -/
def readText (m : Machine) (p : Path) : Except SystemError String :=
  m.files.readText m.workingDirectory p

/-- The entries of a directory, when it can be listed. -/
def listDirectory (m : Machine) (p : Path) : Option (List DirectoryEntry) :=
  match m.files.list m.workingDirectory p with
  | .error _ => none
  | .ok entries => some (entries.map fun (name, node) => ⟨name.toUTF8, node.isDirectory⟩)

/-- The way to the directory that a path leads to, as seen from another directory. -/
def directoryAt (m : Machine) (base : Trail) (p : Path) : Except SystemError Trail :=
  match m.files.locate base p with
  | .error e => .error e
  | .ok trail => if (m.files.entries? trail.node).isSome then .ok trail else .error .notADirectory

/-- Moves the process of the shell to a directory. -/
def changeDirectory (m : Machine) (p : Path) : Except SystemError Unit × Machine :=
  match m.directoryAt m.workingDirectory p with
  | .error e => (.error e, m)
  | .ok trail => (.ok (), { m with workingDirectory := trail })

end Machine

end LineShell
