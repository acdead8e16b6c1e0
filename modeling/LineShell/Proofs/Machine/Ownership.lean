import LineShell.Machine.Schedule

/-!
# Who has which stream open

A process comes to a stream by opening it or by taking it over from the process that it is a double
of. It reads and writes no other streams. So whatever the processes do while time passes, they leave
alone every pipe that none of them has open, and none of them comes to have it open. This file
proves it request by request, then for a process that is served, and then for the whole time.
-/

namespace LineShell

/-- The pipe of which a stream is an end. -/
def Stream.pipe? : Stream → Option Nat
  | .readingEnd pipe | .writingEnd pipe => some pipe
  | _ => none

/-- Whether a process has a stream open. -/
def Process.Has (p : Process) (h : Handle) : Prop := ∃ s ∈ p.opened, s.handle = h

namespace Machine

/-- The pipe of which an open stream is an end. -/
def pipeOf? (m : Machine) (h : Handle) : Option Nat := (m.stream? h).bind Stream.pipe?

/-- Whether some process has a stream open. -/
def Owned (m : Machine) (h : Handle) : Prop := ∃ p ∈ m.processes, p.Has h

/-- Whether a stream has been opened between two states of the machine. -/
def Opens (m m' : Machine) (h : Handle) : Prop := m.streams.size ≤ h ∧ h < m'.streams.size

/-- Between two states of the machine no pipes change but those of the given streams, and ends are
only added for new pipes. -/
structure TouchesOnly (used : Handle → Prop) (m m' : Machine) : Prop where
  held_eq : m'.held = m.held
  capacity_eq : m'.pipeCapacity = m.pipeCapacity
  streams_le : m.streams.size ≤ m'.streams.size
  pipes_le : m.pipes.size ≤ m'.pipes.size
  end_iff : ∀ h stream, h < m.streams.size → stream.pipe?.isSome →
    (m'.stream? h = some stream ↔ m.stream? h = some stream)
  new_end : ∀ h i, m.streams.size ≤ h → m'.pipeOf? h = some i →
    m.pipes.size ≤ i ∧ i < m'.pipes.size
  pipe_eq : ∀ i, i < m.pipes.size → (∀ h, used h → m.pipeOf? h ≠ some i) →
    m'.pipes[i]? = m.pipes[i]?

/-- Between two states of the machine the processes have done what they do: they have touched only
pipes that they have open, and the streams that they have open are old ones or new ones. -/
structure GoesOn (m m' : Machine) : Prop where
  touchesOnly : TouchesOnly m.Owned m m'
  owned : ∀ h, m'.Owned h → m.Owned h ∨ m.Opens m' h

/-! ## Streams and pipes between two states -/

/-- A stream is the end of a pipe when it is one of its two ends. -/
theorem pipeOf?_eq_some_iff (m : Machine) (h : Handle) (i : Nat) :
    m.pipeOf? h = some i ↔ ∃ stream, m.stream? h = some stream ∧ stream.pipe? = some i :=
  Option.bind_eq_some_iff

/-- There are no ends beyond the streams. -/
theorem pipeOf?_of_le {m : Machine} {h : Handle} (hle : m.streams.size ≤ h) :
    m.pipeOf? h = none := by
  rw [pipeOf?, stream?, Array.getElem?_eq_none hle, Option.bind_none]

namespace TouchesOnly

variable {used used' : Handle → Prop} {m m' m'' : Machine}

/-- A state with the same streams and the same pipes. -/
theorem of_eq (hstreams : m'.streams = m.streams) (hpipes : m'.pipes = m.pipes)
    (hheld : m'.held = m.held) (hcapacity : m'.pipeCapacity = m.pipeCapacity) :
    TouchesOnly used m m' := by
  have hstream (h : Handle) : m'.stream? h = m.stream? h := by rw [stream?, hstreams, stream?]
  refine ⟨hheld, hcapacity, Nat.le_of_eq (by rw [hstreams]), Nat.le_of_eq (by rw [hpipes]), ?_, ?_,
    ?_⟩
  · intro h stream _ _
    rw [hstream]
  · intro h i hle hpipe
    rw [pipeOf?, hstream, ← pipeOf?, pipeOf?_of_le hle] at hpipe
    cases hpipe
  · intro i _ _
    rw [hpipes]

/-- Nothing is touched when nothing happens. -/
theorem refl : TouchesOnly used m m := of_eq rfl rfl rfl rfl

/-- More streams may be said to be used. -/
theorem mono (h : TouchesOnly used m m') (hsub : ∀ handle, used handle → used' handle) :
    TouchesOnly used' m m' :=
  { h with pipe_eq := fun i hi hused => h.pipe_eq i hi fun handle huse =>
      hused handle (hsub handle huse) }

/-- An old stream stays the end of its pipe. -/
theorem pipeOf?_eq (h : TouchesOnly used m m') {handle : Handle}
    (hlt : handle < m.streams.size) : m'.pipeOf? handle = m.pipeOf? handle := by
  refine Option.ext fun i => ?_
  rw [pipeOf?_eq_some_iff, pipeOf?_eq_some_iff]
  constructor
  · rintro ⟨stream, hstream, hpipe⟩
    exact ⟨stream, (h.end_iff handle stream hlt (by rw [hpipe]; rfl)).mp hstream, hpipe⟩
  · rintro ⟨stream, hstream, hpipe⟩
    exact ⟨stream, (h.end_iff handle stream hlt (by rw [hpipe]; rfl)).mpr hstream, hpipe⟩

/-- A stream that is no end of a pipe does not become one, unless it is new and so is the pipe. -/
theorem pipeOf?_ne (h : TouchesOnly used m m') {handle : Handle} {i : Nat}
    (hi : i < m.pipes.size) (hpipe : m.pipeOf? handle ≠ some i) : m'.pipeOf? handle ≠ some i := by
  by_cases hlt : handle < m.streams.size
  · rw [h.pipeOf?_eq hlt]
    exact hpipe
  · intro hnew
    obtain ⟨hle, -⟩ := h.new_end handle i (Nat.le_of_not_lt hlt) hnew
    omega

/-- One thing happens after the other, and uses the streams of the first or new ones. -/
theorem trans (h : TouchesOnly used m m') (h' : TouchesOnly used' m' m'')
    (hused : ∀ handle, used' handle → used handle ∨ m.streams.size ≤ handle) :
    TouchesOnly used m m'' := by
  have hstreams := h.streams_le
  have hpipes := h.pipes_le
  refine ⟨h'.held_eq.trans h.held_eq, h'.capacity_eq.trans h.capacity_eq,
    Nat.le_trans hstreams h'.streams_le, Nat.le_trans hpipes h'.pipes_le, ?_, ?_, ?_⟩
  · intro handle stream hlt hend
    rw [h'.end_iff handle stream (by omega) hend, h.end_iff handle stream hlt hend]
  · intro handle i hle hpipe
    by_cases hlt : handle < m'.streams.size
    · rw [h'.pipeOf?_eq hlt] at hpipe
      obtain ⟨hold, hnew⟩ := h.new_end handle i hle hpipe
      exact ⟨hold, Nat.lt_of_lt_of_le hnew h'.pipes_le⟩
    · obtain ⟨hold, hnew⟩ := h'.new_end handle i (Nat.le_of_not_lt hlt) hpipe
      exact ⟨Nat.le_trans hpipes hold, hnew⟩
  · intro i hi hspared
    rw [h'.pipe_eq i (by omega), h.pipe_eq i hi hspared]
    intro handle huse
    rcases hused handle huse with hold | hnew
    · exact h.pipeOf?_ne hi (hspared handle hold)
    · refine h.pipeOf?_ne hi ?_
      simp [pipeOf?_of_le hnew]

end TouchesOnly

/-! ## Operations on streams -/

/-- One more stream is opened, which may only be the end of a new pipe. -/
theorem TouchesOnly.addStream {used : Handle → Prop} {m m' : Machine}
    (h : TouchesOnly used m m') {stream : Stream}
    (hstream : ∀ i, stream.pipe? = some i → m.pipes.size ≤ i ∧ i < m'.pipes.size) :
    TouchesOnly used m (m'.addStream stream).2 := by
  have hstreams : (m'.addStream stream).2.streams = m'.streams.push stream := rfl
  have hold (handle : Handle) (hlt : handle < m'.streams.size) :
      (m'.addStream stream).2.stream? handle = m'.stream? handle := by
    rw [stream?, hstreams, Array.getElem?_push_lt hlt, stream?, Array.getElem?_eq_getElem hlt]
  have hsize := h.streams_le
  refine ⟨h.held_eq, h.capacity_eq, ?_, h.pipes_le, ?_, ?_, h.pipe_eq⟩
  · rw [hstreams, Array.size_push]
    omega
  · intro handle other hlt hend
    rw [hold handle (Nat.lt_of_lt_of_le hlt hsize)]
    exact h.end_iff handle other hlt hend
  · intro handle i hle hpipe
    rcases Nat.lt_trichotomy handle m'.streams.size with hlt | rfl | hgt
    · rw [pipeOf?, hold handle hlt] at hpipe
      exact h.new_end handle i hle hpipe
    · rw [pipeOf?, stream?, hstreams, Array.getElem?_push_size] at hpipe
      exact hstream i hpipe
    · rw [pipeOf?_of_le (by rw [hstreams, Array.size_push]; omega)] at hpipe
      cases hpipe

/-- One more stream is opened that is no end of a pipe. -/
theorem TouchesOnly.addStream_of_none {used : Handle → Prop} {m m' : Machine}
    (h : TouchesOnly used m m') {stream : Stream} (hstream : stream.pipe? = none) :
    TouchesOnly used m (m'.addStream stream).2 := by
  refine h.addStream fun i hi => ?_
  rw [hstream] at hi
  cases hi

/-- A new pipe has two new ends. -/
theorem openPipe_touchesOnly (used : Handle → Prop) (m : Machine) :
    TouchesOnly used m m.openPipe.2 := by
  let grown : Machine := { m with pipes := m.pipes.push ⟨.empty, 0⟩ }
  have hsize : grown.pipes.size = m.pipes.size + 1 := Array.size_push ..
  have hgrown : TouchesOnly used m grown := by
    refine ⟨rfl, rfl, Nat.le_refl _, by omega, fun _ _ _ _ => Iff.rfl, ?_, ?_⟩
    · intro h i hle hpipe
      have hnone : grown.pipeOf? h = none := pipeOf?_of_le hle
      rw [hnone] at hpipe
      cases hpipe
    · intro i hi _
      exact (Array.getElem?_push_lt hi).trans (Array.getElem?_eq_getElem hi).symm
  have hnew (i : Nat) (hi : some m.pipes.size = some i) :
      m.pipes.size ≤ i ∧ i < grown.pipes.size := by
    cases hi
    omega
  have hreading : TouchesOnly used m (grown.addStream (.readingEnd m.pipes.size)).2 :=
    hgrown.addStream hnew
  have hwriting : TouchesOnly used m ((grown.addStream (.readingEnd m.pipes.size)).2.addStream
      (.writingEnd m.pipes.size)).2 := hreading.addStream hnew
  exact hwriting

/-- A stream that is no end of a pipe is replaced by another one. -/
theorem setStream_touchesOnly (used : Handle → Prop) (m : Machine) {h : Handle} {stream : Stream}
    (hold : m.pipeOf? h = none) (hnew : stream.pipe? = none) :
    TouchesOnly used m (m.setStream h stream) := by
  have hstreams : (m.setStream h stream).streams = m.streams.setIfInBounds h stream := rfl
  have hother (other : Handle) (hne : h ≠ other) :
      (m.setStream h stream).stream? other = m.stream? other := by
    rw [stream?, hstreams, Array.getElem?_setIfInBounds_ne hne, stream?]
  refine ⟨rfl, rfl, ?_, Nat.le_refl _, ?_, ?_, fun _ _ _ => rfl⟩
  · exact Nat.le_of_eq (by rw [hstreams, Array.size_setIfInBounds])
  · intro other result hlt hend
    by_cases hne : h = other
    · subst hne
      have hset : (m.setStream h stream).stream? h = some stream := by
        rw [stream?, hstreams, Array.getElem?_setIfInBounds_self_of_lt hlt]
      constructor
      · intro hresult
        rw [hset] at hresult
        cases hresult
        rw [hnew] at hend
        cases hend
      · intro hresult
        rw [pipeOf?, hresult, Option.bind_some] at hold
        rw [hold] at hend
        cases hend
    · rw [hother other hne]
  · intro other i hle hpipe
    rw [pipeOf?_of_le (by rw [hstreams, Array.size_setIfInBounds]; exact hle)] at hpipe
    cases hpipe

/-- The pipe of a stream changes. -/
theorem modifyPipe_touchesOnly (m : Machine) {h : Handle} {i : Nat}
    (hpipe : m.pipeOf? h = some i) (change : PipeBuffer → PipeBuffer) :
    TouchesOnly (· = h) m (m.modifyPipe i change) := by
  have hpipes : (m.modifyPipe i change).pipes = m.pipes.modify i change := rfl
  refine ⟨rfl, rfl, Nat.le_refl _, ?_, fun _ _ _ _ => Iff.rfl, ?_, ?_⟩
  · exact Nat.le_of_eq (by rw [hpipes, Array.size_modify])
  · intro other j hle hother
    have hnone : (m.modifyPipe i change).pipeOf? other = none := pipeOf?_of_le hle
    rw [hnone] at hother
    cases hother
  · intro j _ hspared
    have hne : i ≠ j := by
      rintro rfl
      exact hspared h rfl hpipe
    rw [hpipes, Array.getElem?_modify, if_neg hne]

/-- Writing to a stream touches its pipe at most. -/
theorem put_touchesOnly (m : Machine) (h : Handle) (bytes : ByteArray) :
    TouchesOnly (· = h) m (m.put h bytes).2 := by
  have hfile {id : NodeId} {position : Nat} {mode : OpenMode}
      (hstream : m.stream? h = some (.file id position mode)) (files : FileSystem → FileSystem)
      (position' : Nat) :
      TouchesOnly (· = h) m ((m.mapFiles files).setStream h (.file id position' mode)) := by
    have hnone : (m.mapFiles files).pipeOf? h = none := by
      have hsame : (m.mapFiles files).stream? h = m.stream? h := rfl
      rw [pipeOf?, hsame, hstream]
      rfl
    have hfiles : TouchesOnly (· = h) m (m.mapFiles files) := .of_eq rfl rfl rfl rfl
    exact hfiles.trans (setStream_touchesOnly (· = h) _ hnone rfl) fun _ huse => .inl huse
  unfold put
  cases hstream : m.stream? h with
  | none => exact .refl
  | some stream =>
    cases stream with
    | file id position mode =>
      cases mode with
      | read => exact .refl
      | append => exact .of_eq rfl rfl rfl rfl
      | truncate => exact hfile hstream (fun fs => fs.writeAt id bytes position) _
      | update => exact hfile hstream (fun fs => fs.writeAt id bytes position) _
    | device d mode => cases d <;> exact .refl
    | directory => exact .refl
    | readingEnd pipe => exact .refl
    | writingEnd pipe =>
      exact modifyPipe_touchesOnly m (by rw [pipeOf?, hstream]; rfl) _

/-- Reading on touches the pipe of the stream at most. -/
theorem advance_touchesOnly (m : Machine) (h : Handle) (position : Nat) :
    TouchesOnly (· = h) m (m.advance h position) := by
  unfold advance
  cases hstream : m.stream? h with
  | none => exact .refl
  | some stream =>
    cases stream with
    | file id _ mode =>
      exact setStream_touchesOnly (· = h) m (by rw [pipeOf?, hstream]; rfl) rfl
    | device d mode => exact .refl
    | directory => exact .refl
    | readingEnd pipe => exact modifyPipe_touchesOnly m (by rw [pipeOf?, hstream]; rfl) _
    | writingEnd pipe => exact .refl

/-- The stream of a node that has just been opened is no end of a pipe. -/
theorem pipe?_streamFor (mode : OpenMode) (id : NodeId) (node : Node) :
    (streamFor mode id node).pipe? = none := by
  cases node <;> rfl

/-- How a file is opened: the files may change, and when it succeeds there is one more stream, which
is no end of a pipe. -/
theorem openAt_cases (m : Machine) (directory : Trail) (mode : OpenMode) (p : Path) :
    ∃ files : FileSystem, let base : Machine := { m with files := files }
      (∃ e, m.openAt directory mode p = (.error e, base)) ∨
        ∃ stream, stream.pipe? = none ∧
          m.openAt directory mode p = (.ok m.streams.size, (base.addStream stream).2) := by
  rw [openAt]
  by_cases hread : (mode == .read) = true
  · rw [if_pos hread]
    refine ⟨m.files, ?_⟩
    rcases m.files.lookup directory p with e | ⟨id, node⟩
    · exact .inl ⟨e, rfl⟩
    · exact .inr ⟨_, pipe?_streamFor mode id node, rfl⟩
  · rw [if_neg hread]
    rcases m.files.openForWriting directory p with e | ⟨id, files⟩
    · exact ⟨m.files, .inl ⟨e, rfl⟩⟩
    · dsimp only
      cases files.node? id with
      | none => exact ⟨files, .inl ⟨.notFound, rfl⟩⟩
      | some node =>
        by_cases hprogram : ∃ program, node = .program program
        · obtain ⟨program, rfl⟩ := hprogram
          exact ⟨files, .inl ⟨.textBusy, rfl⟩⟩
        · refine ⟨if mode == .truncate then files.truncate id else files, .inr
            ⟨_, pipe?_streamFor mode id node, ?_⟩⟩
          by_cases htruncate : (mode == .truncate) = true
          · rw [if_pos htruncate, if_pos htruncate]
            cases node with
            | program program => exact absurd ⟨program, rfl⟩ hprogram
            | _ => rfl
          · rw [if_neg htruncate, if_neg htruncate]
            cases node with
            | program program => exact absurd ⟨program, rfl⟩ hprogram
            | _ => rfl

end Machine

/-! ## The streams of processes -/

namespace Process

variable {p : Process} {d : Descriptor} {h other : Handle}

/-- A process has the streams open that it knows by a number. -/
theorem has_of_handle? (hhandle : p.handle? d = some h) : p.Has h := by
  obtain ⟨s, hfind, hs⟩ := Option.map_eq_some_iff.mp hhandle
  exact ⟨s, List.mem_of_find?_eq_some hfind, hs⟩

/-- Giving up a stream does not open any. -/
theorem has_of_without (hhas : (p.without d).Has other) : p.Has other := by
  obtain ⟨s, hmem, hs⟩ := hhas
  exact ⟨s, (List.mem_filter.mp hmem).1, hs⟩

/-- A process that knows one more stream by a number has no other new one. -/
theorem has_of_withStream {closesOnExecute : Bool}
    (hhas : (p.withStream d h closesOnExecute).Has other) : other = h ∨ p.Has other := by
  obtain ⟨s, hmem, hs⟩ := hhas
  rcases List.mem_cons.mp hmem with rfl | hmem
  · exact .inl hs.symm
  · exact .inr (has_of_without ⟨s, hmem, hs⟩)

/-- Processes with the same streams have the same streams open. -/
theorem Has.congr {q : Process} (hopened : q.opened = p.opened) (hhas : q.Has h) : p.Has h := by
  rw [Has, hopened] at hhas
  exact hhas

end Process

namespace Machine

/-- A signal changes nothing about the streams of a process that survives it. -/
theorem opened_of_affected {p q : Process} {signal : Nat} (h : affected p signal = .ok q) :
    q.opened = p.opened := by
  unfold affected at h
  cases hreaction : p.reactionTo signal with
  | ignored =>
    simp only [hreaction] at h
    cases h
    rfl
  | noted =>
    simp only [hreaction] at h
    cases h
    rfl
  | standard =>
    simp only [hreaction] at h
    cases hfate : Signal.fate? signal with
    | none =>
      simp only [hfate] at h
      cases h
      rfl
    | some status =>
      simp only [hfate] at h
      cases h

/-- The end of a process changes nothing about the streams of the others. -/
theorem opened_afterEnd (ended p : Process) : (afterEnd ended p).opened = p.opened := by
  unfold afterEnd
  by_cases hparent : (p.id == ended.parent) = true
  · rw [if_pos hparent]
    cases haffected : affected p Signal.childEnded with
    | error status => rfl
    | ok q => exact opened_of_affected haffected
  · rw [if_neg hparent]
    by_cases hchild : (p.parent == ended.id) = true
    · rw [if_pos hchild]
    · rw [if_neg hchild]

/-- The streams of a machine in which a process has been replaced. -/
theorem owned_of_putProcess {m : Machine} {p : Process} {h : Handle}
    (howned : (m.putProcess p).Owned h) : p.Has h ∨ m.Owned h := by
  obtain ⟨q, hmem, hhas⟩ := howned
  obtain ⟨old, hold, rfl⟩ := List.mem_map.mp hmem
  by_cases hid : (old.id == p.id) = true
  · rw [if_pos hid] at hhas
    exact .inl hhas
  · rw [if_neg hid] at hhas
    exact .inr ⟨old, hold, hhas⟩

/-- The streams of a machine with one more process. -/
theorem owned_of_addProcess {m : Machine} {p : Process} {h : Handle}
    (howned : (m.addProcess p).Owned h) : p.Has h ∨ m.Owned h := by
  obtain ⟨q, hmem, hhas⟩ := howned
  rcases List.mem_append.mp hmem with hold | hnew
  · exact .inr ⟨q, hold, hhas⟩
  · obtain rfl := List.mem_singleton.mp hnew
    exact .inl hhas

/-- The end of a process opens no stream. -/
theorem owned_of_endProcess {m : Machine} {p : Process} {status : WaitStatus} {h : Handle}
    (howned : (m.endProcess p status).Owned h) : m.Owned h := by
  obtain ⟨q, hmem, hhas⟩ := howned
  obtain ⟨old, hold, rfl⟩ := List.mem_map.mp hmem
  exact ⟨old, (List.mem_filter.mp hold).1, hhas.congr (opened_afterEnd p old)⟩

/-- A signal for another process touches no pipe and opens no stream. -/
theorem signalOther_goesOn (used : Handle → Prop) (m : Machine) (signal : Nat)
    (target : ProcessId) :
    TouchesOnly used m (m.signalOther signal target).2 ∧
      ∀ h, (m.signalOther signal target).2.Owned h → m.Owned h := by
  unfold signalOther
  cases hfind : m.processes.find? fun q => q.id == target with
  | some q =>
    dsimp only
    cases haffected : affected q signal with
    | ok q' =>
      refine ⟨.of_eq rfl rfl rfl rfl, fun h howned => ?_⟩
      rcases owned_of_putProcess howned with hhas | hold
      · exact ⟨q, List.mem_of_find?_eq_some hfind, hhas.congr (opened_of_affected haffected)⟩
      · exact hold
    | error status => exact ⟨.of_eq rfl rfl rfl rfl, fun h => owned_of_endProcess⟩
  | none =>
    dsimp only
    by_cases hshell : (target == shellProcess) = true
    · rw [if_pos hshell]
      unfold signalShell
      by_cases hfatal : (signal != Signal.brokenPipe && (Signal.fate? signal).isSome) = true
      · rw [if_pos hfatal]
        exact ⟨.of_eq rfl rfl rfl rfl, fun h => id⟩
      · rw [if_neg hfatal]
        exact ⟨.refl, fun h => id⟩
    · rw [if_neg hshell]
      exact ⟨.refl, fun h => id⟩

end Machine

/-! ## Requests that are granted -/

namespace Outcome

/-- The machine after a request has been granted. -/
def machine : Outcome → Machine
  | goesOn _ m => m
  | doubled _ _ m => m
  | ends _ m => m

/-- Whether the process that made the request has a stream open afterwards, or its double. -/
def Has : Outcome → Handle → Prop
  | goesOn p _, h => p.Has h
  | doubled p child _, h => p.Has h ∨ child.Has h
  | ends _ _, _ => False

/-- A request of a process has been granted: nothing but the pipes of the process was touched, the
other processes have opened no stream, and what the process has open are streams of before or new
ones. -/
structure Grants (outcome : Outcome) (p : Process) (m : Machine) : Prop where
  touchesOnly : Machine.TouchesOnly p.Has m outcome.machine
  owned : ∀ h, outcome.machine.Owned h → m.Owned h
  has : ∀ h, outcome.Has h → p.Has h ∨ m.Opens outcome.machine h

namespace Grants

variable {p p' : Process} {m m' : Machine}

/-- A process goes on with its streams. -/
theorem goesOn (htouches : Machine.TouchesOnly p.Has m m')
    (hprocesses : m'.processes = m.processes) (hopened : p'.opened = p.opened) :
    (Outcome.goesOn p' m').Grants p m := by
  refine ⟨htouches, fun h howned => ?_, fun h hhas => .inl (hhas.congr hopened)⟩
  rw [Machine.Owned, machine, hprocesses] at howned
  exact howned

/-- A process goes on with some of its streams, on the same machine. -/
theorem stays (hhas : ∀ h, p'.Has h → p.Has h) : (Outcome.goesOn p' m).Grants p m :=
  ⟨.refl, fun _ => id, fun h h' => .inl (hhas h h')⟩

/-- A process goes on with the streams that it had, on the same machine. -/
theorem same (hopened : p'.opened = p.opened) : (Outcome.goesOn p' m).Grants p m :=
  stays fun _ hhas => hhas.congr hopened

/-- A process goes on after a signal that it survives. -/
theorem survives {q : Process} {signal : Nat} (haffected : Machine.affected p signal = .ok q)
    (hopened : p'.opened = q.opened) : (Outcome.goesOn p' m).Grants p m :=
  same (hopened.trans (Machine.opened_of_affected haffected))

/-- A process ends. -/
theorem ends (status : WaitStatus) : (Outcome.ends status m).Grants p m :=
  ⟨.refl, fun _ => id, fun _ => False.elim⟩

end Grants

end Outcome

namespace Machine

/-- A process opens a file. -/
theorem grants_openFile (p : Process) (m : Machine) (mode : OpenMode) (path : Path)
    (next : Except SystemError Descriptor → Routine Unit) :
    (grant p m (.openFile mode path) next).Grants p m := by
  obtain ⟨files, ⟨e, hopen⟩ | ⟨stream, hstream, hopen⟩⟩ := m.openAt_cases p.directory mode path
  · unfold grant
    simp only [hopen]
    exact .goesOn (.of_eq rfl rfl rfl rfl) rfl rfl
  · unfold grant
    simp only [hopen]
    have hbase : TouchesOnly p.Has m { m with files := files } := .of_eq rfl rfl rfl rfl
    have htouches := hbase.addStream_of_none hstream
    refine ⟨htouches, fun h => id, fun h hhas => ?_⟩
    rcases Process.has_of_withStream hhas with rfl | hold
    · exact .inr ⟨Nat.le_refl _, Nat.lt_of_lt_of_eq (Nat.lt_succ_self _) (Array.size_push ..).symm⟩
    · exact .inl hold

/-- A process makes a pipe. -/
theorem grants_makePipe (p : Process) (m : Machine)
    (next : Descriptor × Descriptor → Routine Unit) :
    (grant p m .makePipe next).Grants p m := by
  have htouches := m.openPipe_touchesOnly p.Has
  have hsize : m.openPipe.2.streams.size = m.streams.size + 2 := by
    simp [openPipe, addStream]
  have hends : m.openPipe.1 = (m.streams.size, m.streams.size + 1) := by
    simp [openPipe, addStream]
  rcases hopen : m.openPipe with ⟨⟨reading, writing⟩, after⟩
  rw [hopen] at htouches hsize hends
  cases hends
  unfold grant
  simp only [hopen]
  refine ⟨htouches, fun h howned => ?_, fun h hhas => ?_⟩
  · have hprocesses : after.processes = m.processes := congrArg (·.2.processes) hopen.symm
    rw [Owned, Outcome.machine, hprocesses] at howned
    exact howned
  · rcases Process.has_of_withStream hhas with rfl | hmore
    · exact .inr ⟨Nat.le_succ _, Nat.lt_of_lt_of_eq (Nat.lt_succ_self _) hsize.symm⟩
    · rcases Process.has_of_withStream hmore with rfl | hold
      · have hlt := Nat.lt_of_lt_of_eq (Nat.lt_add_of_pos_right Nat.two_pos) hsize.symm
        exact .inr ⟨Nat.le_refl _, hlt⟩
      · exact .inl hold

/-- Moving the position of a stream opens no stream. -/
theorem processes_advance (m : Machine) (h : Handle) (position : Nat) :
    (m.advance h position).processes = m.processes := by
  unfold advance
  cases m.stream? h with
  | none => rfl
  | some stream => cases stream <;> rfl

/-- Writing to a stream opens none. -/
theorem processes_put (m : Machine) (h : Handle) (bytes : ByteArray) :
    (m.put h bytes).2.processes = m.processes := by
  unfold put
  cases m.stream? h with
  | none => rfl
  | some stream =>
    cases stream with
    | file id position mode => cases mode <;> rfl
    | device d mode => cases d <;> rfl
    | _ => rfl

/-- A process touches no pipes but its own when it uses a stream that it knows by a number. -/
theorem TouchesOnly.of_handle? {p : Process} {d : Descriptor} {h : Handle} {m m' : Machine}
    (htouches : TouchesOnly (· = h) m m') (hhandle : p.handle? d = some h) :
    TouchesOnly p.Has m m' := by
  refine htouches.mono fun other hother => ?_
  rw [hother]
  exact Process.has_of_handle? hhandle

/-- A process reads in a way that moves the position of the stream. -/
theorem grants_readFor (p : Process) (m : Machine) (d : Descriptor)
    (reader : Machine → Handle → ByteArray × Machine)
    (hreader : ∀ h, ∃ position, (reader m h).2 = m.advance h position) (p' : Process)
    (hopened : p'.opened = p.opened) :
    (Outcome.goesOn p' (readFor p m d reader).2).Grants p m := by
  unfold readFor
  cases hhandle : p.handle? d with
  | none => exact .same hopened
  | some h =>
    have hread : (Outcome.goesOn p' (reader m h).2).Grants p m := by
      obtain ⟨position, hposition⟩ := hreader h
      rw [hposition]
      have htouches := (advance_touchesOnly m h position).of_handle? hhandle
      exact .goesOn htouches (processes_advance m h position) hopened
    have hmode (b : Bool) : (Outcome.goesOn p' (if b then
        ((Except.ok (reader m h).1 : Except SystemError ByteArray), (reader m h).2)
        else (Except.error SystemError.badHandle, m)).2).Grants p m := by
      cases b with
      | false => exact .same hopened
      | true => exact hread
    dsimp only
    cases m.stream? h with
    | none => exact .same hopened
    | some stream =>
      cases stream with
      | file id position mode => exact hmode mode.reads
      | device device mode => exact hmode mode.reads
      | directory => exact .same hopened
      | readingEnd pipe => exact hread
      | writingEnd pipe => exact .same hopened

/-- A process writes. -/
theorem grants_write (p : Process) (m : Machine) (d : Descriptor) (bytes : ByteArray)
    (next : Except SystemError Unit → Routine Unit) :
    (grant p m (.write d bytes) next).Grants p m := by
  unfold grant writeFor
  dsimp only
  cases hhandle : p.handle? d with
  | none => exact .same rfl
  | some h =>
    have hput (written : ByteArray) (p' : Process) (hopened : p'.opened = p.opened) :
        (Outcome.goesOn p' (m.put h written).2).Grants p m := by
      have htouches := (put_touchesOnly m h written).of_handle? hhandle
      exact .goesOn htouches (processes_put m h written) hopened
    dsimp only
    by_cases hbroken : m.isBroken h = true
    · rw [if_pos hbroken]
      cases haffected : affected p Signal.brokenPipe with
      | ok q => exact .survives haffected rfl
      | error status => exact .ends status
    · rw [if_neg hbroken]
      by_cases hlimit : (m.allowance p h == some 0 && !bytes.isEmpty) = true
      · rw [if_pos hlimit]
        cases haffected : affected p Signal.fileTooLarge with
        | ok q => exact .survives haffected rfl
        | error status => exact .ends status
      · rw [if_neg hlimit]
        cases m.capacity p h with
        | none => exact hput bytes _ rfl
        | some room =>
          dsimp only
          by_cases hroom : bytes.size ≤ room
          · rw [if_pos hroom]
            exact hput bytes _ rfl
          · rw [if_neg hroom]
            have hpart := hput (bytes.extract 0 room)
            generalize m.put h (bytes.extract 0 room) = written at hpart ⊢
            obtain ⟨⟨⟩ | ⟨⟨⟩⟩, after⟩ := written
            · exact hpart _ rfl
            · exact hpart _ rfl

/-- A process becomes another program, or fails to do so. -/
theorem grants_execute (p : Process) (m : Machine) (path : Path) (words entries : List String)
    (next : SystemError → Routine Unit) :
    (grant p m (.execute path words entries) next).Grants p m := by
  unfold grant executeFor
  dsimp only
  rcases m.imageOf p.directory path words entries with e | ⟨program, words⟩
  · exact .same rfl
  · refine .stays fun h hhas => ?_
    obtain ⟨s, hmem, hs⟩ := hhas
    exact ⟨s, (List.mem_filter.mp hmem).1, hs⟩

/-- A process sends a signal, to itself or to another one. -/
theorem grants_send (p : Process) (m : Machine) (signal : Nat) (target : ProcessId)
    (next : Except SystemError Unit → Routine Unit) :
    (grant p m (.send signal target) next).Grants p m := by
  unfold grant
  dsimp only
  by_cases hself : (target == p.id) = true
  · rw [if_pos hself]
    cases haffected : affected p signal with
    | ok q => exact .survives haffected rfl
    | error status => exact .ends status
  · rw [if_neg hself]
    obtain ⟨htouches, howned⟩ := m.signalOther_goesOn p.Has signal target
    exact ⟨htouches, howned, fun h hhas => .inl hhas⟩

/-- Whatever a process asks for, nothing but its own pipes is touched. -/
theorem grants_grant (p : Process) (m : Machine) (request : Request)
    (next : request.Reply → Routine Unit) : (grant p m request next).Grants p m := by
  cases request with
  | openFile mode path => exact grants_openFile p m mode path next
  | makePipe => exact grants_makePipe p m next
  | write d bytes => exact grants_write p m d bytes next
  | execute path words entries => exact grants_execute p m path words entries next
  | send signal target => exact grants_send p m signal target next
  | read d limit =>
    exact grants_readFor p m d (fun m h => m.readUpTo h limit) (fun h => ⟨_, rfl⟩) _ rfl
  | readLine d =>
    unfold grant
    dsimp only
    by_cases hready : ((p.handle? d).all fun h => m.canRead h) = true
    · rw [if_pos hready]
      exact grants_readFor p m d readLine (fun h => ⟨_, rfl⟩) _ rfl
    · rw [if_neg hready]
      exact .same rfl
  | rest => exact .same rfl
  | duplicate source target =>
    unfold grant
    dsimp only
    cases hhandle : p.handle? source with
    | none => exact .same rfl
    | some h =>
      refine .stays fun other hhas => ?_
      rcases Process.has_of_withStream hhas with rfl | hold
      · exact Process.has_of_handle? hhandle
      · exact hold
  | setAside source =>
    unfold grant
    dsimp only
    cases hhandle : p.handle? source with
    | none => exact .same rfl
    | some h =>
      refine .stays fun other hhas => ?_
      rcases Process.has_of_withStream hhas with rfl | hold
      · exact Process.has_of_handle? hhandle
      · exact hold
  | close d => exact .stays fun _ => Process.has_of_without
  | look path followsLink => exact .same rfl
  | list path => exact .same rfl
  | removeDirectory path =>
    unfold grant
    dsimp only
    cases m.files.removeDirectory p.directory path with
    | ok files => exact .goesOn (.of_eq rfl rfl rfl rfl) rfl rfl
    | error e => exact .same rfl
  | move path =>
    unfold grant
    dsimp only
    cases m.directoryAt p.directory path <;> exact .same rfl
  | whereabouts => exact .same rfl
  | fork => exact ⟨.of_eq rfl rfl rfl rfl, fun h => id, fun h hhas => .inl (hhas.elim id id)⟩
  | finish ending => exact .ends ending
  | wait patience =>
    unfold grant
    dsimp only
    cases m.endedChild? p.id with
    | some e => exact .goesOn (.of_eq rfl rfl rfl rfl) rfl rfl
    | none => exact .same rfl
  | react signal reaction => exact .same rfl
  | mask rights => exact .same rfl
  | limit resource limit =>
    unfold grant
    dsimp only
    cases limit with
    | none => exact .same rfl
    | some limit =>
      dsimp only
      by_cases hordered : limit.isOrdered = true
      · rw [if_pos hordered]
        exact .same rfl
      · rw [if_neg hordered]
        exact .same rfl

/-! ## Processes that are served, and the whole time -/

namespace GoesOn

variable {m m' m'' : Machine}

/-- A state with the same streams, pipes and processes. -/
theorem of_eq (htouches : TouchesOnly m.Owned m m') (hprocesses : m'.processes = m.processes) :
    m.GoesOn m' := by
  refine ⟨htouches, fun h howned => .inl ?_⟩
  rw [Owned, hprocesses] at howned
  exact howned

/-- Nothing happens. -/
theorem refl : m.GoesOn m := of_eq .refl rfl

/-- The processes go on, and then they go on. -/
theorem trans (h : m.GoesOn m') (h' : m'.GoesOn m'') : m.GoesOn m'' := by
  refine ⟨h.touchesOnly.trans h'.touchesOnly fun handle howned => ?_, fun handle howned => ?_⟩
  · exact (h.owned handle howned).imp_right And.left
  · rcases h'.owned handle howned with hold | ⟨hle, hlt⟩
    · refine (h.owned handle hold).imp_right fun hopens => ⟨hopens.1, ?_⟩
      exact Nat.lt_of_lt_of_le hopens.2 h'.touchesOnly.streams_le
    · exact .inr ⟨Nat.le_trans h.touchesOnly.streams_le hle, hlt⟩

end GoesOn

/-- A process that is served does what it does. -/
theorem goesOn_serve {m : Machine} {p : Process} (hmem : p ∈ m.processes) :
    m.GoesOn (m.serve p) := by
  have hend (m' : Machine) (status : WaitStatus) (htouches : TouchesOnly p.Has m m')
      (howned : ∀ h, m'.Owned h → m.Owned h) : m.GoesOn (m'.endProcess p status) := by
    have hended : TouchesOnly p.Has m' (m'.endProcess p status) := .of_eq rfl rfl rfl rfl
    refine ⟨?_, fun h hhas => .inl (howned h (owned_of_endProcess hhas))⟩
    exact (htouches.trans hended fun h => .inl).mono fun h hhas => ⟨p, hmem, hhas⟩
  unfold serve
  cases hroutine : p.routine with
  | done result => exact hend m (.exited 0) .refl fun h => id
  | ask ticks request next =>
    have hgrants := grants_grant p m request next
    dsimp only
    generalize grant p m request next = outcome at hgrants ⊢
    obtain ⟨htouches, howned, hhas⟩ := hgrants
    -- What somebody has open in the end the process has, or another one had it before.
    have hgoesOn (m' : Machine) (hsame : TouchesOnly p.Has outcome.machine m')
        (hsize : m'.streams = outcome.machine.streams)
        (hopen : ∀ h, m'.Owned h → outcome.Has h ∨ outcome.machine.Owned h) : m.GoesOn m' := by
      refine ⟨(htouches.trans hsame fun h => .inl).mono fun h hown => ⟨p, hmem, hown⟩, ?_⟩
      intro h hopened
      rw [Opens, hsize]
      rcases hopen h hopened with hown | hother
      · exact (hhas h hown).imp_left fun hold => ⟨p, hmem, hold⟩
      · exact .inl (howned h hother)
    cases outcome with
    | goesOn p' m' =>
      exact hgoesOn _ (.of_eq rfl rfl rfl rfl) rfl fun h => owned_of_putProcess
    | doubled p' child m' =>
      refine hgoesOn _ (.of_eq rfl rfl rfl rfl) rfl fun h hopened => ?_
      rcases owned_of_addProcess hopened with hchild | hput
      · exact .inl (.inr hchild)
      · exact (owned_of_putProcess hput).imp_left .inl
    | ends status m' => exact hend m' status htouches howned

/-- The earlier one of two processes is one of them. -/
theorem earlier_mem {p q : Process} {first : Option Process} (h : earlier first p = some q) :
    first = some q ∨ p = q := by
  cases first with
  | none => exact .inr (Option.some.inj h)
  | some other =>
    rw [earlier] at h
    by_cases htime : p.nextTime < other.nextTime
    · rw [if_pos htime] at h
      exact .inr (Option.some.inj h)
    · rw [if_neg htime] at h
      exact .inl h

/-- The earliest of some processes is one of them. -/
theorem foldl_earlier_mem {processes : List Process} {first : Option Process} {q : Process}
    (h : processes.foldl earlier first = some q) : first = some q ∨ q ∈ processes := by
  induction processes generalizing first with
  | nil => exact .inl h
  | cons p rest ih =>
    rcases ih h with hfirst | hmem
    · refine (earlier_mem hfirst).imp_right fun hp => ?_
      rw [hp]
      exact List.mem_cons_self
    · exact .inr (List.mem_cons_of_mem p hmem)

/-- The process that is served next is a process of the machine. -/
theorem next?_mem {m : Machine} {p : Process} (h : m.next? = some p) : p ∈ m.processes := by
  rcases foldl_earlier_mem h with hnone | hmem
  · cases hnone
  · exact (List.mem_filter.mp hmem).1

/-- A step of the machine is what the process does that is served. -/
theorem goesOn_step? {m m' : Machine} {latest : Option Nat} (h : m.step? latest = some m') :
    m.GoesOn m' := by
  unfold step? at h
  cases hnext : m.next? with
  | none =>
    rw [hnext] at h
    cases h
  | some p =>
    rw [hnext] at h
    dsimp only at h
    by_cases hlate : latest.any (fun time => time < p.nextTime) = true
    · rw [if_pos hlate] at h
      cases h
    · rw [if_neg hlate] at h
      obtain rfl := Option.some.inj h
      have hclock : m.GoesOn { m with time := max m.time p.nextTime } :=
        .of_eq (.of_eq rfl rfl rfl rfl) rfl
      have hmem : p ∈ ({ m with time := max m.time p.nextTime } : Machine).processes :=
        next?_mem hnext
      exact hclock.trans (goesOn_serve hmem)

/-- However long the machine runs, its processes do what they do. -/
theorem goesOn_runUntil (latest : Option Nat) (isReached : Machine → Bool) (requests : Nat)
    (m : Machine) : m.GoesOn (runUntil latest isReached requests m) := by
  induction requests generalizing m with
  | zero => exact .refl
  | succ requests ih =>
    rw [runUntil]
    by_cases hreached : isReached m = true
    · rw [if_pos hreached]
      exact .refl
    · rw [if_neg hreached]
      cases hstep : m.step? latest with
      | none => exact .refl
      | some m' => exact (goesOn_step? hstep).trans (ih m')

/-- While time passes, the processes do what they do. -/
theorem goesOn_pass (ticks : Nat) (m : Machine) : m.GoesOn (m.pass ticks) :=
  (goesOn_runUntil ..).trans (.of_eq (.of_eq rfl rfl rfl rfl) rfl)

end Machine

end LineShell
