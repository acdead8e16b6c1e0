import LineShell.Machine.Host
import LineShell.Proofs.Machine.Ownership
import LineShell.Proofs.Shell.BoundedPipes

/-!
# The pipes of a machine

A machine lets the shell wait until it can write, and its pipes hold no more than their capacity. As
long as nobody but the shell has a pipe open, no process makes room in it. So the machine is a
system with bounded pipes: a write of the shell to such a pipe comes to its end exactly when there
is room for all of it.
-/

namespace LineShell

namespace Machine

/-- Whether a stream is open and no pipe is written through it. -/
def Steady (m : Machine) (h : Handle) : Prop :=
  h < m.streams.size ∧ ∀ i, m.stream? h ≠ some (.writingEnd i)

/-- Whether a shell with the given terminal can run on a machine with pipes of the given capacity:
there are the streams of the terminal and of the processes, and the pipes of all streams. -/
structure Hosts (terminal : Streams Handle) (capacity : Nat) (m : Machine) : Prop where
  capacity_eq : m.pipeCapacity = capacity
  stdin_lt : terminal.stdin < m.streams.size
  stdout : m.Steady terminal.stdout
  stderr : m.Steady terminal.stderr
  owned_lt : ∀ h, m.Owned h → h < m.streams.size
  pipe_lt : ∀ h i, m.pipeOf? h = some i → i < m.pipes.size

/-- The shell alone has a pipe open, whose writing end is the given stream and in which so many
bytes have not been read. -/
structure KeepsPipe (m : Machine) (h : Handle) (count : Nat) (pipe : Nat) : Prop where
  writes : m.stream? h = some (.writingEnd pipe)
  reads : ∃ reading ∈ m.held, m.stream? reading = some (.readingEnd pipe)
  buffer : ∃ buffer, m.pipes[pipe]? = some buffer ∧ buffer.taken + count = buffer.bytes.size
  not_owned : ∀ other, m.Owned other → m.pipeOf? other ≠ some pipe
  fits : count ≤ m.pipeCapacity

/-- A machine can host a shell, and what was open earlier still is. -/
structure Later (terminal : Streams Handle) (capacity : Nat) (m m' : Machine) : Prop where
  hosts : m'.Hosts terminal capacity
  streams_le : m.streams.size ≤ m'.streams.size
  steady : ∀ h, m.Steady h → m'.Steady h

section

variable {terminal : Streams Handle} {capacity : Nat} {used : Handle → Prop} {m m' m'' : Machine}

/-! ## Later states -/

/-- Streams stay steady when nothing but pipes is touched. -/
theorem TouchesOnly.steady (htouches : TouchesOnly used m m') {h : Handle} (hsteady : m.Steady h) :
    m'.Steady h := by
  obtain ⟨hlt, hwrites⟩ := hsteady
  refine ⟨Nat.lt_of_lt_of_le hlt htouches.streams_le, fun i hnew => hwrites i ?_⟩
  exact (htouches.end_iff h _ hlt rfl).mp hnew

/-- A machine goes on to host a shell when processes come only to new streams. -/
theorem Hosts.later (hhosts : m.Hosts terminal capacity) (htouches : TouchesOnly used m m')
    (howned : ∀ h, m'.Owned h → m.Owned h ∨ h < m'.streams.size) :
    Later terminal capacity m m' := by
  have hsteady (h : Handle) : m.Steady h → m'.Steady h := htouches.steady
  refine ⟨⟨htouches.capacity_eq.trans hhosts.capacity_eq, ?_, hsteady _ hhosts.stdout,
    hsteady _ hhosts.stderr, fun h hopen => ?_, fun h i hpipe => ?_⟩, htouches.streams_le, hsteady⟩
  · exact Nat.lt_of_lt_of_le hhosts.stdin_lt htouches.streams_le
  · rcases howned h hopen with hold | hnew
    · exact Nat.lt_of_lt_of_le (hhosts.owned_lt h hold) htouches.streams_le
    · exact hnew
  · by_cases hlt : h < m.streams.size
    · rw [htouches.pipeOf?_eq hlt] at hpipe
      exact Nat.lt_of_lt_of_le (hhosts.pipe_lt h i hpipe) htouches.pipes_le
    · exact (htouches.new_end h i (Nat.le_of_not_lt hlt) hpipe).2

/-- A machine goes on to host a shell while its processes go on. -/
theorem Hosts.later_of_goesOn (hhosts : m.Hosts terminal capacity) (h : m.GoesOn m') :
    Later terminal capacity m m' :=
  hhosts.later h.touchesOnly fun handle howned => (h.owned handle howned).imp_right And.right

/-- A machine goes on to host a shell when nothing is opened for the processes. -/
theorem Hosts.later_of_processes (hhosts : m.Hosts terminal capacity)
    (htouches : TouchesOnly used m m') (hprocesses : m'.processes = m.processes) :
    Later terminal capacity m m' := by
  refine hhosts.later htouches fun h howned => .inl ?_
  rw [Owned, hprocesses] at howned
  exact howned

/-- Nothing happens. -/
theorem Hosts.later_self (hhosts : m.Hosts terminal capacity) : Later terminal capacity m m :=
  hhosts.later_of_goesOn .refl

/-- One later state comes after the other. -/
theorem Later.trans (h : Later terminal capacity m m') (h' : Later terminal capacity m' m'') :
    Later terminal capacity m m'' :=
  ⟨h'.hosts, Nat.le_trans h.streams_le h'.streams_le, fun handle hsteady =>
    h'.steady handle (h.steady handle hsteady)⟩

/-- Time passes after a state. -/
theorem Later.pass (h : Later terminal capacity m m') (ticks : Nat) :
    Later terminal capacity m (m'.pass ticks) :=
  h.trans (h.hosts.later_of_goesOn (goesOn_pass ticks m'))

/-- It does not matter which streams the shell has open. -/
theorem Later.holding (h : Later terminal capacity m m') (held : List Handle) :
    Later terminal capacity m { m' with held := held } :=
  ⟨⟨h.hosts.capacity_eq, h.hosts.stdin_lt, h.hosts.stdout, h.hosts.stderr, h.hosts.owned_lt,
    h.hosts.pipe_lt⟩, h.streams_le, h.steady⟩

/-- A machine without processes and without pipes can host a shell whose terminal is open. -/
theorem Hosts.of_fresh (hprocesses : m.processes = [])
    (hstreams : ∀ stream ∈ m.streams, stream.pipe? = none)
    (hstdin : terminal.stdin < m.streams.size) (hstdout : terminal.stdout < m.streams.size)
    (hstderr : terminal.stderr < m.streams.size) : m.Hosts terminal m.pipeCapacity := by
  have hpipe (h : Handle) {stream : Stream} (hstream : m.stream? h = some stream) :
      stream.pipe? = none := hstreams stream (Array.mem_of_getElem? hstream)
  have hsteady (h : Handle) (hlt : h < m.streams.size) : m.Steady h := by
    refine ⟨hlt, fun i hwrites => ?_⟩
    cases hpipe h hwrites
  refine ⟨rfl, hstdin, hsteady _ hstdout, hsteady _ hstderr, ?_, fun h i hend => ?_⟩
  · rintro h ⟨p, hmem, -⟩
    rw [hprocesses] at hmem
    cases hmem
  · obtain ⟨stream, hstream, hi⟩ := (pipeOf?_eq_some_iff m h i).mp hend
    rw [hpipe h hstream] at hi
    cases hi

/-! ## Pipes of the shell alone -/

/-- No process makes room in a pipe that only the shell has open. -/
theorem KeepsPipe.goesOn {h : Handle} {count pipe : Nat} (hkeeps : m.KeepsPipe h count pipe)
    (hgoesOn : m.GoesOn m') : m'.KeepsPipe h count pipe := by
  obtain ⟨hwrites, ⟨reading, hheld, hreads⟩, ⟨buffer, hbuffer, hcount⟩, howned, hfits⟩ := hkeeps
  have htouches := hgoesOn.touchesOnly
  have hopen {other : Handle} {stream : Stream} (hstream : m.stream? other = some stream) :
      other < m.streams.size := (Array.getElem?_eq_some_iff.mp hstream).1
  have hpipe : pipe < m.pipes.size := (Array.getElem?_eq_some_iff.mp hbuffer).1
  refine ⟨(htouches.end_iff h _ (hopen hwrites) rfl).mpr hwrites, ⟨reading, ?_, ?_⟩,
    ⟨buffer, ?_, hcount⟩, fun other hother => ?_, ?_⟩
  · rw [htouches.held_eq]
    exact hheld
  · exact (htouches.end_iff reading _ (hopen hreads) rfl).mpr hreads
  · rw [htouches.pipe_eq pipe hpipe howned]
    exact hbuffer
  · rcases hgoesOn.owned other hother with hold | ⟨hnew, -⟩
    · exact htouches.pipeOf?_ne hpipe (howned other hold)
    · refine htouches.pipeOf?_ne hpipe ?_
      simp [pipeOf?_of_le hnew]
  · rw [htouches.capacity_eq]
    exact hfits

/-- The room in a pipe that only the shell has open. -/
theorem KeepsPipe.room_eq {h : Handle} {count pipe : Nat} (hkeeps : m.KeepsPipe h count pipe) :
    m.room h = some (m.pipeCapacity - count) := by
  obtain ⟨buffer, hbuffer, hcount⟩ := hkeeps.buffer
  have hsize : buffer.bytes.size - buffer.taken = count := by omega
  simp only [room, hkeeps.writes, hbuffer, hsize]

/-- The shell itself may still read a pipe that only the shell has open. -/
theorem KeepsPipe.isBroken_eq {h : Handle} {count pipe : Nat}
    (hkeeps : m.KeepsPipe h count pipe) : m.isBroken h = false := by
  obtain ⟨reading, hheld, hreads⟩ := hkeeps.reads
  have hopen : m.anyOpen (fun stream => stream == .readingEnd pipe) = true := by
    simp only [anyOpen, Bool.or_eq_true, List.any_eq_true]
    refine .inl ⟨reading, hheld, ?_⟩
    rw [hreads]
    exact beq_self_eq_true _
  simp only [isBroken, hkeeps.writes, hopen, Bool.not_true]

/-- What is written to a pipe that only the shell has open stays in it. -/
theorem KeepsPipe.put {h : Handle} {count pipe : Nat} (hkeeps : m.KeepsPipe h count pipe)
    (bytes : ByteArray) (hroom : count + bytes.size ≤ m.pipeCapacity) :
    (m.put h bytes).1 = .ok () ∧ (m.put h bytes).2.KeepsPipe h (count + bytes.size) pipe := by
  obtain ⟨buffer, hbuffer, hcount⟩ := hkeeps.buffer
  have hput : m.put h bytes =
      (.ok (), m.modifyPipe pipe fun buffer => ⟨buffer.bytes ++ bytes, buffer.taken⟩) := by
    simp only [Machine.put, hkeeps.writes]
  rw [hput]
  refine ⟨rfl, hkeeps.writes, hkeeps.reads, ⟨⟨buffer.bytes ++ bytes, buffer.taken⟩, ?_, ?_⟩,
    hkeeps.not_owned, hroom⟩
  · have hpipes (change : PipeBuffer → PipeBuffer) :
        (m.modifyPipe pipe change).pipes = m.pipes.modify pipe change := rfl
    rw [hpipes, Array.getElem?_modify, if_pos rfl, hbuffer]
    rfl
  · show buffer.taken + (count + bytes.size) = (buffer.bytes ++ bytes).size
    rw [ByteArray.size_append]
    omega

/-- Nobody but the shell has a new pipe open. -/
theorem keepsPipe_openHeldPipe (hhosts : m.Hosts terminal capacity) :
    m.openHeldPipe.2.KeepsPipe m.openHeldPipe.1.2 0 m.pipes.size := by
  have htouches := openPipe_touchesOnly (fun _ => False) m
  have hpipes : m.openHeldPipe.2.pipes = m.pipes.push ⟨.empty, 0⟩ := rfl
  have hstreams : m.openHeldPipe.2.streams =
      (m.streams.push (.readingEnd m.pipes.size)).push (.writingEnd m.pipes.size) := rfl
  refine ⟨?_, ⟨m.streams.size, ?_, ?_⟩, ⟨⟨.empty, 0⟩, ?_, rfl⟩, fun other hother => ?_,
    Nat.zero_le _⟩
  · rw [stream?, hstreams]
    exact Array.getElem?_push_size
  · exact List.mem_cons_of_mem _ List.mem_cons_self
  · rw [stream?, hstreams, Array.getElem?_push_lt (by rw [Array.size_push]; omega),
      Array.getElem_push_eq]
  · rw [hpipes]
    exact Array.getElem?_push_size
  · have hpipe : m.openPipe.2.pipeOf? other = m.pipeOf? other :=
      htouches.pipeOf?_eq (hhosts.owned_lt other hother)
    intro hnew
    have hlt := hhosts.pipe_lt other _ (hpipe.symm.trans hnew)
    omega

/-! ## Writing -/

/-- Waiting for room lets the processes go on. -/
theorem goesOn_awaitRoom (h : Handle) (size : Nat) (m : Machine) : m.GoesOn (m.awaitRoom h size) :=
  goesOn_runUntil ..

/-- A steady stream is no pipe. -/
theorem Steady.room_eq {h : Handle} (hsteady : m.Steady h) :
    m.room h = none ∧ m.isBroken h = false := by
  obtain ⟨hlt, hwrites⟩ := hsteady
  unfold room isBroken
  cases hstream : m.stream? h with
  | none => exact ⟨rfl, rfl⟩
  | some stream =>
    cases stream with
    | writingEnd pipe => exact absurd hstream (hwrites pipe)
    | _ => exact ⟨rfl, rfl⟩

/-- Writing to a steady stream never blocks the shell. -/
theorem later_write_steady {h : Handle} (bytes : ByteArray) (hhosts : m.Hosts terminal capacity)
    (hsteady : m.Steady h) :
    Later terminal capacity m (m.write h bytes).2 ∧ (m.write h bytes).1 ≠ .error .blocked := by
  have hready := hhosts.later_of_goesOn (goesOn_awaitRoom h bytes.size m)
  obtain ⟨hroom, hintact⟩ := (hready.steady h hsteady).room_eq
  have hput := hready.hosts.later_of_processes (put_touchesOnly _ h bytes) (processes_put _ h bytes)
  have hwritable : (m.awaitRoom h bytes.size).writable h bytes.size = bytes.size := by
    simp only [writable, hroom]
  rw [write]
  simp only [hwritable, hintact, Bool.false_eq_true, if_false, Nat.le_refl, if_true]
  rcases hresult : (m.awaitRoom h bytes.size).put h bytes with ⟨result, after⟩
  rw [hresult] at hput
  cases result with
  | ok => exact ⟨hready.trans hput, by simp⟩
  | error e => exact ⟨hready.trans hput, by simp⟩

/-- What fits into a pipe that only the shell has open is written. -/
theorem write_fitting {h : Handle} {count pipe : Nat} (bytes : ByteArray)
    (hhosts : m.Hosts terminal capacity) (hkeeps : m.KeepsPipe h count pipe)
    (hfits : count + bytes.size ≤ m.pipeCapacity) :
    (m.write h bytes).1 = .ok () ∧ Later terminal capacity m (m.write h bytes).2 ∧
      (m.write h bytes).2.KeepsPipe h (count + bytes.size) pipe := by
  have hgoesOn := goesOn_awaitRoom h bytes.size m
  have hready := hhosts.later_of_goesOn hgoesOn
  have hwaited := hkeeps.goesOn hgoesOn
  rw [← hgoesOn.touchesOnly.capacity_eq] at hfits
  have hput := hready.hosts.later_of_processes (put_touchesOnly _ h bytes) (processes_put _ h bytes)
  have hwritable : (m.awaitRoom h bytes.size).writable h bytes.size = bytes.size := by
    have hsmall : ¬(m.awaitRoom h bytes.size).pipeCapacity - count < bytes.size := by omega
    simp only [writable, hwaited.room_eq, hsmall, decide_false, Bool.and_false, Bool.false_eq_true,
      if_false]
    omega
  obtain ⟨hok, hwritten⟩ := hwaited.put bytes hfits
  rw [write]
  simp only [hwritable, hwaited.isBroken_eq, Bool.false_eq_true, if_false, Nat.le_refl, if_true]
  rcases hresult : (m.awaitRoom h bytes.size).put h bytes with ⟨result, after⟩
  rw [hresult] at hput hok hwritten
  obtain rfl : result = .ok () := hok
  exact ⟨rfl, hready.trans hput, hwritten⟩

/-- What does not fit into a pipe that only the shell has open blocks the shell. -/
theorem write_surplus {h : Handle} {count pipe : Nat} (bytes : ByteArray)
    (hkeeps : m.KeepsPipe h count pipe) (hsurplus : m.pipeCapacity < count + bytes.size) :
    (m.write h bytes).1 = .error .blocked := by
  -- The induction is on what is left to be written: what fits is written, then the pipe is full.
  induction hsize : bytes.size using Nat.strongRecOn generalizing bytes m count with
  | ind size ih =>
    have hgoesOn := goesOn_awaitRoom h bytes.size m
    have hwaited := hkeeps.goesOn hgoesOn
    rw [← hgoesOn.touchesOnly.capacity_eq] at hsurplus
    have hcount := hwaited.fits
    have hwritable : (m.awaitRoom h bytes.size).writable h bytes.size = 0 ∨
        (m.awaitRoom h bytes.size).writable h bytes.size =
          (m.awaitRoom h bytes.size).pipeCapacity - count := by
      simp only [writable, hwaited.room_eq]
      by_cases hatomic : (decide (bytes.size ≤
          min atomicSize (m.awaitRoom h bytes.size).pipeCapacity) &&
            decide ((m.awaitRoom h bytes.size).pipeCapacity - count < bytes.size)) = true
      · rw [if_pos hatomic]
        exact .inl rfl
      · rw [if_neg hatomic]
        exact .inr (by omega)
    rw [write]
    simp only [hwaited.isBroken_eq, Bool.false_eq_true, if_false]
    generalize m.awaitRoom h bytes.size = ready at hsurplus hwaited hcount hwritable ⊢
    generalize ready.writable h bytes.size = part at hwritable ⊢
    have hpart : part < bytes.size := by omega
    rw [if_neg (Nat.not_le_of_lt hpart)]
    by_cases hsome : 0 < part
    · rw [if_pos hsome]
      have htaken : (bytes.extract 0 part).size = part := by
        rw [ByteArray.size_extract]
        omega
      have hleft : (bytes.extract part bytes.size).size = bytes.size - part := by
        rw [ByteArray.size_extract]
        omega
      obtain ⟨-, hfull⟩ := hwaited.put (bytes.extract 0 part) (by omega)
      have hcapacity := (put_touchesOnly ready h (bytes.extract 0 part)).capacity_eq
      exact ih _ (by omega) _ hfull (by omega) hleft
    · rw [if_neg hsome]

/-! ## The machine as a system with bounded pipes -/

/-- A program of the shell is started with streams that there are. -/
theorem later_spawn (launch : Launch) {streams : Streams Handle}
    (hhosts : m.Hosts terminal capacity) (hstdin : streams.stdin < m.streams.size)
    (hstdout : streams.stdout < m.streams.size) (hstderr : streams.stderr < m.streams.size) :
    Later terminal capacity m (Machine.spawn launch streams m).2 := by
  have hself := hhosts.later_self
  unfold Machine.spawn
  by_cases hnul : launchHasNul launch = true
  · rw [if_pos hnul]
    exact hself
  · rw [if_neg hnul]
    cases m.directoryAt m.workingDirectory launch.directory with
    | error e => exact hself.pass launchCost
    | ok directory =>
      dsimp only
      rcases m.imageOf directory launch.program _ _ with e | ⟨program, words⟩
      · exact hself.pass launchCost
      · have htouches (child : Process) : TouchesOnly (fun _ => False) m
            ({ m with nextProcess := m.nextProcess + 1 }.addProcess child) :=
          .of_eq rfl rfl rfl rfl
        refine (hhosts.later (htouches _) fun h howned => ?_).pass launchCost
        · rcases owned_of_addProcess howned with ⟨s, hmem, hs⟩ | hold
          · right
            have hstandard : ∀ s ∈ standardStreams streams, s.handle < m.streams.size := by
              simp [standardStreams, hstdin, hstdout, hstderr]
            rw [← hs]
            exact hstandard s hmem
          · exact .inl hold

/-- How a file is opened for the output of a command: when it succeeds, the shell has one more
stream open, which is no end of a pipe. -/
theorem openOutput_cases (m : Machine) (mode : RedirectMode) (path : Path) :
    ∃ files : FileSystem, let base : Machine := { m with files := files }
      (∃ e, openOutput mode path m = (.error e, base)) ∨
        ∃ stream, stream.pipe? = none ∧ openOutput mode path m =
          (.ok m.streams.size, (base.addStream stream).2.hold m.streams.size) := by
  unfold openOutput
  cases mode with
  | truncate =>
    obtain ⟨files, ⟨e, hopen⟩ | ⟨stream, hstream, hopen⟩⟩ :=
      m.openAt_cases m.workingDirectory .truncate path
    · exact ⟨files, .inl ⟨e, by simp only [hopen]⟩⟩
    · exact ⟨files, .inr ⟨stream, hstream, by simp only [hopen]⟩⟩
  | append =>
    obtain ⟨files, ⟨e, hopen⟩ | ⟨stream, hstream, hopen⟩⟩ :=
      m.openAt_cases m.workingDirectory .append path
    · exact ⟨files, .inl ⟨e, by simp only [hopen]⟩⟩
    · exact ⟨files, .inr ⟨stream, hstream, by simp only [hopen]⟩⟩

/-- The file that is opened for the output of a command is a steady stream. -/
theorem later_openOutput (mode : RedirectMode) (path : Path)
    (hhosts : m.Hosts terminal capacity) :
    Later terminal capacity m (openOutput mode path m).2 ∧
      ∀ h, (openOutput mode path m).1 = .ok h → (openOutput mode path m).2.Steady h := by
  obtain ⟨files, hopen⟩ := m.openOutput_cases mode path
  have hbase : TouchesOnly (fun _ => False) m { m with files := files } := .of_eq rfl rfl rfl rfl
  obtain ⟨e, hopen⟩ | ⟨stream, hstream, hopen⟩ := hopen
  · rw [hopen]
    refine ⟨hhosts.later_of_processes hbase rfl, fun h hok => ?_⟩
    cases hok
  · rw [hopen]
    have htouches := hbase.addStream_of_none hstream
    refine ⟨(hhosts.later_of_processes htouches rfl).holding _, ?_⟩
    rintro h ⟨⟩
    refine ⟨Nat.lt_of_lt_of_eq (Nat.lt_succ_self _) (Array.size_push ..).symm, fun i hwrites => ?_⟩
    have hlast : (m.streams.push stream)[m.streams.size]? = some (.writingEnd i) := hwrites
    rw [Array.getElem?_push_size] at hlast
    cases hlast
    cases hstream

/-- A machine is a system with bounded pipes for the shell that it hosts. -/
def boundedPipes (terminal : Streams Handle) (capacity : Nat) :
    (host terminal).BoundedPipes capacity where
  valid := Hosts terminal capacity
  known m h := h < m.streams.size
  steady := Steady
  unread m h count := ∃ pipe, m.KeepsPipe h count pipe
  later := Later terminal capacity
  valid_of_later h := h.hosts
  known_of_later h hlt := Nat.lt_of_lt_of_le hlt h.streams_le
  steady_of_later h := h.steady _
  known_of_steady h := h.1
  later_self h := h.later_self
  later_trans h h' := h.trans h'
  terminal_known h := h.stdin_lt
  terminal_steady h := ⟨h.stdout, h.stderr⟩
  pipe {m} h := by
    have htouches := openPipe_touchesOnly (fun _ => False) m
    have hsize : m.openHeldPipe.2.streams.size = m.openHeldPipe.1.2 + 1 := Array.size_push ..
    have hnext : m.openHeldPipe.1.2 = m.openHeldPipe.1.1 + 1 := Array.size_push ..
    have hwriting : m.openHeldPipe.1.2 < m.openHeldPipe.2.streams.size := by
      rw [hsize]
      exact Nat.lt_succ_self _
    have hreading : m.openHeldPipe.1.1 < m.openHeldPipe.2.streams.size := by
      rw [hsize, hnext]
      exact Nat.lt_add_of_pos_right Nat.two_pos
    exact ⟨(h.later_of_processes htouches rfl).holding _, hreading, hwriting, _,
      keepsPipe_openHeldPipe h⟩
  openOutput mode path h := by
    obtain ⟨hlater, hopened⟩ := later_openOutput mode path h
    refine ⟨hlater.pass actionCost, fun stream hstream => ?_⟩
    exact (goesOn_pass actionCost _).touchesOnly.steady (hopened stream hstream)
  write_steady bytes h hsteady := by
    obtain ⟨hlater, hunblocked⟩ := later_write_steady bytes h hsteady
    exact ⟨hlater.pass actionCost, hunblocked⟩
  write_fitting {m stream count} bytes h := by
    rintro ⟨pipe, hkeeps⟩ hfits
    rw [← h.capacity_eq] at hfits
    obtain ⟨hok, hlater, hwritten⟩ := write_fitting bytes h hkeeps hfits
    exact ⟨hok, hlater.pass actionCost, pipe, hwritten.goesOn (goesOn_pass ..)⟩
  write_surplus {m stream count} bytes h := by
    rintro ⟨pipe, hkeeps⟩ hsurplus
    rw [← h.capacity_eq] at hsurplus
    exact write_surplus bytes hkeeps hsurplus
  close stream h := h.later_self.holding _
  changeDirectory {m} path h := by
    refine Later.pass ?_ actionCost
    unfold Machine.changeDirectory
    cases m.directoryAt m.workingDirectory path with
    | error e => exact h.later_self
    | ok trail =>
      have htouches : TouchesOnly (fun _ => False) m { m with workingDirectory := trail } :=
        .of_eq rfl rfl rfl rfl
      exact h.later_of_processes htouches rfl
  spawn {m} launch streams h hstdin hstdout hstderr := by
    have hlater := later_spawn launch h hstdin hstdout hstderr
    simp only [host]
    generalize Machine.spawn launch streams m = spawned at hlater ⊢
    obtain ⟨e | child, after⟩ := spawned
    · exact hlater
    · exact hlater

end

end Machine

end LineShell
