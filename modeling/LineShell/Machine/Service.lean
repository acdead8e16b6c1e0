import LineShell.Machine.Execution

/-!
# Serving processes

The machine grants the request of a process when it can be granted: something is there to be read,
there is room for what is written, or the child that is waited for has ended. Every request takes
time.
-/

namespace LineShell

namespace Request

/-- The time that it takes to grant a request. -/
def cost : Request → Nat
  | rest | finish _ | wait .none => 0
  | openFile _ _ | list _ | removeDirectory _ => 50
  | makePipe | move _ | wait _ => 20
  | write _ _ | whereabouts | send _ _ => 10
  | duplicate _ _ | setAside _ | read _ _ | look _ _ | react _ _ | mask _ | limit _ _ => 5
  | close _ => 3
  | readLine _ => 4
  | fork => 1500
  | execute _ _ _ => 5000

end Request

namespace Process

/-- The stream that a process knows by a number. -/
def handle? (p : Process) (d : Descriptor) : Option Handle :=
  (p.opened.find? fun s => s.descriptor == d).map OpenStream.handle

/-- The process without the stream that it knows by a number. -/
def without (p : Process) (d : Descriptor) : Process :=
  { p with opened := p.opened.filter fun s => s.descriptor != d }

/-- The process with a stream under a number, whatever it was before. -/
def withStream (p : Process) (d : Descriptor) (h : Handle) (closesOnExecute : Bool) : Process :=
  { p with opened := ⟨d, h, closesOnExecute⟩ :: (p.without d).opened }

/-- The lowest number from a given one on that stands for no stream. -/
def freeFrom (p : Process) (least : Nat) : Descriptor :=
  ((List.range' least (p.opened.length + 1)).find? fun d => (p.handle? d).isNone).getD least

/-- What a process has settled about a signal. -/
def reactionTo (p : Process) (signal : Nat) : Signal.Reaction :=
  if Signal.unavoidable.contains signal then .standard
  else (p.reactions.lookup signal).getD .standard

/-- The process with another reaction to a signal. -/
def reacting (p : Process) (signal : Nat) (reaction : Signal.Reaction) : Process :=
  { p with reactions := (signal, reaction) :: p.reactions.filter fun r => r.1 != signal }

/-- How much of something the process may use. -/
def limitOf (p : Process) (resource : Resource) : Limit :=
  (p.limits.lookup resource).getD resource.usual

/-- The process with another limit. -/
def limiting (p : Process) (resource : Resource) (limit : Limit) : Process :=
  { p with limits := (resource, limit) :: p.limits.filter fun l => l.1 != resource }

/-- The time at which the process makes its next request. -/
def nextTime (p : Process) : Nat := p.clock + p.routine.delay

end Process

/-- What becomes of a process whose request has been granted, and of the machine. -/
inductive Outcome where
  | goesOn (p : Process) (m : Machine)
  /-- The process goes on, and so does a new one. -/
  | doubled (p child : Process) (m : Machine)
  | ends (status : WaitStatus) (m : Machine)

namespace Machine

/-- The child of a process that has ended and that it learns of first: the one that was started
first. -/
def endedChild? (m : Machine) (parent : ProcessId) : Option EndedProcess :=
  (m.ended.filter fun e => e.parent == parent).foldl (fun first e =>
    match first with
    | none => some e
    | some f => if e.id < f.id then some e else some f) none

/-- Whether a process has children that have not ended. -/
def hasRunningChild (m : Machine) (parent : ProcessId) : Bool :=
  m.processes.any fun q => q.parent == parent

/-- The number of bytes that are written to a pipe at once or not at all. -/
def atomicSize : Nat := 4096

/-- Whether reading from a stream gives something, or its end. -/
def canRead (m : Machine) (h : Handle) : Bool :=
  match m.stream? h with
  | some (.readingEnd index) =>
    let isEmpty := m.pipes[index]?.all fun buffer => buffer.bytes.size ≤ buffer.taken
    !isEmpty || !m.anyOpen fun stream => stream == .writingEnd index
  | _ => true

/-- Whether nobody reads what is written to a stream. -/
def isBroken (m : Machine) (h : Handle) : Bool :=
  match m.stream? h with
  | some (.writingEnd index) => !m.anyOpen fun stream => stream == .readingEnd index
  | _ => false

/-- Whether so many bytes can be written to a stream, or some of them when they are many. -/
def canWrite (m : Machine) (h : Handle) (size : Nat) : Bool :=
  match m.room h with
  | none => true
  | some room =>
    (if size ≤ min atomicSize m.pipeCapacity then size ≤ room else 0 < room) || m.isBroken h

/-- Whether the request of a process can be granted. -/
def isReady (m : Machine) (p : Process) : Bool :=
  match p.routine with
  | .done _ => true
  | .ask _ request _ =>
    match request with
    | .read d _ => (p.handle? d).all fun h => m.canRead h
    | .readLine d => !p.caught.isEmpty || (p.handle? d).all fun h => m.canRead h
    | .write d bytes => (p.handle? d).all fun h => m.canWrite h bytes.size
    | .wait patience =>
      let isImpatient :=
        match patience with
        | .none => true
        | .untilSignal => !p.caught.isEmpty
        | .untilEnd => false
      isImpatient || (m.endedChild? p.id).isSome || !m.hasRunningChild p.id
    | _ => true

/-- Puts a process into the place of the one with its number. -/
def putProcess (m : Machine) (p : Process) : Machine :=
  { m with processes := m.processes.map fun q => if q.id == p.id then p else q }

/-- Adds a process. -/
def addProcess (m : Machine) (p : Process) : Machine := { m with processes := m.processes ++ [p] }

/-- What a signal does to a process: it may take note of it, or end with a status. -/
def affected (p : Process) (signal : Nat) : Except WaitStatus Process :=
  match p.reactionTo signal with
  | .ignored => .ok p
  | .noted => .ok { p with caught := p.caught ++ [signal] }
  | .standard =>
    match Signal.fate? signal with
    | some status => .error status
    | none => .ok p

/-- A process when another one has ended, which its parent hears of and its children survive. -/
def afterEnd (ended p : Process) : Process :=
  if p.id == ended.parent then ((affected p Signal.childEnded).toOption).getD p
  else if p.parent == ended.id then { p with parent := firstProcess }
  else p

/-- Ends a process. Its children are taken over, and its parent can learn its status. -/
def endProcess (m : Machine) (p : Process) (status : WaitStatus) : Machine :=
  let others := m.processes.filter fun q => q.id != p.id
  let isAwaited := p.parent == shellProcess || others.any fun q => q.id == p.parent
  let ended := m.ended.filter fun e => e.parent != p.id
  { m with
    processes := others.map (afterEnd p)
    ended := if isAwaited then ended ++ [⟨p.id, p.parent, status⟩] else ended }

/-- Lets a signal reach the shell. The shell ignores the signal for a writer whom nobody reads, and
any other signal that ends a process ends the shell. -/
def signalShell (m : Machine) (signal : Nat) : Machine :=
  if signal != Signal.brokenPipe && (Signal.fate? signal).isSome then
    { m with fatal := m.fatal.or (some signal) }
  else m

/-- Sends a signal to another process. -/
def signalOther (m : Machine) (signal : Nat) (target : ProcessId) :
    Except SystemError Unit × Machine :=
  match m.processes.find? fun q => q.id == target with
  | some q =>
    match affected q signal with
    | .ok q => (.ok (), m.putProcess q)
    | .error status => (.ok (), m.endProcess q status)
  | none =>
    if target == shellProcess then (.ok (), m.signalShell signal)
    else
      let isKnown := target == firstProcess || m.ended.any fun e => e.id == target
      (if isKnown then .ok () else .error .noProcess, m)

/-- The number of bytes that a process may still write to a stream; none when there is no bound. -/
def allowance (m : Machine) (p : Process) (h : Handle) : Option Nat :=
  match m.stream? h, (p.limitOf .fileSize).soft with
  | some (.file id position mode), some bound =>
    some (bound - if mode == .append then (m.files.contents id).size else position)
  | _, _ => none

/-- The number of bytes that can be written to a stream for a process at once; none when there is
no bound. -/
def capacity (m : Machine) (p : Process) (h : Handle) : Option Nat :=
  match m.room h with
  | some room => some room
  | none => m.allowance p h

/-- Writes for a process, as much as there is room for. -/
def writeFor (p : Process) (m : Machine) (d : Descriptor) (bytes : ByteArray)
    (next : Except SystemError Unit → Routine Unit) : Outcome :=
  let goOn (p : Process) (routine : Routine Unit) (m : Machine) : Outcome :=
    .goesOn { p with routine := routine, clock := m.time + Request.cost (.write d .empty) } m
  match p.handle? d with
  | none => goOn p (next (.error .badHandle)) m
  | some h =>
    let refuse (signal : Nat) (cause : SystemError) : Outcome :=
      match affected p signal with
      | .ok p => goOn p (next (.error cause)) m
      | .error status => .ends status m
    if m.isBroken h then refuse Signal.brokenPipe .brokenPipe
    else if m.allowance p h == some 0 && !bytes.isEmpty then
      refuse Signal.fileTooLarge .fileTooLarge
    else
      match m.capacity p h with
      | some room =>
        if bytes.size ≤ room then
          match m.put h bytes with
          | (result, m) => goOn p (next result) m
        else
          match m.put h (bytes.extract 0 room) with
          | (.ok (), m) => goOn p (.ask 0 (.write d (bytes.extract room bytes.size)) next) m
          | (.error e, m) => goOn p (next (.error e)) m
      | none =>
        match m.put h bytes with
        | (result, m) => goOn p (next result) m

/-- The time that it takes to find that a file cannot be executed. -/
def refusalCost : Nat := 20

/-- Lets a process become the program in a file, with the streams that it does not keep for
itself. -/
def executeFor (p : Process) (m : Machine) (path : Path) (words entries : List String)
    (next : SystemError → Routine Unit) : Outcome :=
  match m.imageOf p.directory path words entries with
  | .error e => .goesOn { p with routine := next e, clock := m.time + refusalCost } m
  | .ok (program, words) =>
    .goesOn
      { p with
        routine := routineOf program p.id p.parent words entries
        clock := m.time + Request.cost (.execute path [] [])
        opened := p.opened.filter fun s => !s.closesOnExecute
        reactions := p.reactions.filter fun r => r.2 == .ignored } m

/-- Reads for a process with the given reader. -/
def readFor (p : Process) (m : Machine) (d : Descriptor)
    (reader : Machine → Handle → ByteArray × Machine) : Except SystemError ByteArray × Machine :=
  match p.handle? d with
  | none => (.error .badHandle, m)
  | some h =>
    match m.stream? h with
    | some (.file _ _ mode) | some (.device _ mode) =>
      if mode.reads then
        match reader m h with
        | (bytes, m) => (.ok bytes, m)
      else (.error .badHandle, m)
    | some (.readingEnd _) =>
      match reader m h with
      | (bytes, m) => (.ok bytes, m)
    | some .directory => (.error .isADirectory, m)
    | some (.writingEnd _) | none => (.error .badHandle, m)

/-- The time until a new process goes on behind the one that it is a double of. -/
def birthDelay : Nat := 2000

/-- Grants a request of a process, which goes on with the reply. -/
def grant (p : Process) (m : Machine) :
    (request : Request) → (request.Reply → Routine Unit) → Outcome := fun request next =>
  let goOn (p : Process) (m : Machine) (routine : Routine Unit) : Outcome :=
    .goesOn { p with routine := routine, clock := m.time + request.cost } m
  match request with
  | .rest => goOn { p with caught := [] } m (next p.caught)
  | .openFile mode path =>
    match m.openAt p.directory mode path with
    | (.ok h, m) =>
      let d := p.freeFrom 0
      goOn (p.withStream d h false) m (next (.ok d))
    | (.error e, m) => goOn p m (next (.error e))
  | .makePipe =>
    match m.openPipe with
    | ((reading, writing), m) =>
      let source := p.freeFrom 0
      let p := p.withStream source reading false
      let sink := p.freeFrom 0
      goOn (p.withStream sink writing false) m (next (source, sink))
  | .duplicate source target =>
    match p.handle? source with
    | some h => goOn (p.withStream target h false) m (next (.ok ()))
    | none => goOn p m (next (.error .badHandle))
  | .setAside source =>
    match p.handle? source with
    | some h =>
      let d := p.freeFrom 10
      goOn (p.withStream d h true) m (next (.ok d))
    | none => goOn p m (next (.error .badHandle))
  | .close d => goOn (p.without d) m (next ())
  | .read d limit =>
    match readFor p m d fun m h => m.readUpTo h limit with
    | (result, m) => goOn p m (next result)
  | .readLine d =>
    if (p.handle? d).all fun h => m.canRead h then
      match readFor p m d readLine with
      | (result, m) =>
        let size := (result.toOption.map ByteArray.size).getD 0
        .goesOn { p with routine := next result, clock := m.time + request.cost * (size + 1) } m
    else goOn p m (next (.error .interrupted))
  | .write d bytes => writeFor p m d bytes next
  | .look path followsLink =>
    goOn p m (next (if followsLink then m.files.lookup p.directory path
      else m.files.lookupName p.directory path))
  | .list path =>
    goOn p m (next ((m.files.list p.directory path).toOption.map fun entries =>
      entries.map Prod.fst))
  | .removeDirectory path =>
    match m.files.removeDirectory p.directory path with
    | .ok files => goOn p { m with files := files } (next (.ok ()))
    | .error e => goOn p m (next (.error e))
  | .move path =>
    match m.directoryAt p.directory path with
    | .ok trail => goOn { p with directory := trail } m (next (.ok ()))
    | .error e => goOn p m (next (.error e))
  | .whereabouts =>
    goOn p m (next (if m.files.stillHolds p.directory then .ok p.directory.path
      else .error .notFound))
  | .fork =>
    let id := m.nextProcess
    let child : Process :=
      { p with
        id := id
        parent := p.id
        clock := m.time + Request.cost .fork + birthDelay
        caught := []
        routine := next none }
    .doubled { p with routine := next (some id), clock := m.time + Request.cost .fork } child
      { m with nextProcess := id + 1 }
  | .finish ending => .ends ending m
  | .execute path words entries => executeFor p m path words entries next
  | .wait _ =>
    match m.endedChild? p.id with
    | some e => goOn p { m with ended := m.ended.filter fun f => f.id != e.id }
      (next (some (e.id, e.status)))
    | none => goOn p m (next none)
  | .send signal target =>
    if target == p.id then
      match affected p signal with
      | .ok p => goOn p m (next (.ok ()))
      | .error status => .ends status m
    else
      match m.signalOther signal target with
      | (result, m) => goOn p m (next result)
  | .react signal reaction => goOn (p.reacting signal reaction) m (next ())
  | .mask rights => goOn { p with mask := rights.getD p.mask } m (next p.mask)
  | .limit resource limit =>
    match limit with
    | none => goOn p m (next (.ok (p.limitOf resource)))
    | some limit =>
      if limit.isOrdered then goOn (p.limiting resource limit) m (next (.ok limit))
      else goOn p m (next (.error .invalidArgument))

/-- Serves a process whose request can be granted. -/
def serve (m : Machine) (p : Process) : Machine :=
  match p.routine with
  | .done _ => m.endProcess p (.exited 0)
  | .ask _ request next =>
    match grant p m request next with
    | .goesOn p m => m.putProcess p
    | .doubled p child m => (m.putProcess p).addProcess child
    | .ends status m => m.endProcess p status

end Machine

end LineShell
