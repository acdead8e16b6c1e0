import LineShell.Machine.Host
import LineShell.Proofs.FileSystem.Opening
import LineShell.Proofs.Shell.StoredFiles

/-!
# The files of a machine

On a machine on which no process runs, nothing but the shell itself changes files. A stream that the
shell has opened for output writes at the end of its file, so the machine is a system that stores
files.
-/

namespace LineShell

namespace Machine

variable {m : Machine}

/-! ## A machine without processes -/

/-- Without processes the machine has nothing to serve. -/
theorem step?_of_alone (h : m.processes = []) (latest : Option Nat) : m.step? latest = none := by
  simp [step?, next?, h]

/-- Without processes nothing happens while the shell waits. -/
theorem runUntil_of_alone (h : m.processes = []) (latest : Option Nat) (isReached : Machine → Bool)
    (requests : Nat) : runUntil latest isReached requests m = m := by
  cases requests with
  | zero => rfl
  | succ requests =>
    rw [runUntil, step?_of_alone h]
    split <;> rfl

/-- Without processes time passes and nothing else changes. -/
theorem pass_of_alone (h : m.processes = []) (ticks : Nat) :
    m.pass ticks = { m with time := m.time + ticks } := by
  rw [pass, runUntil_of_alone h]

/-- Without processes bytes are written at once to a stream that is no pipe. -/
theorem write_of_alone (h : m.processes = []) {stream : Handle} (hroom : m.room stream = none)
    (hintact : m.isBroken stream = false) {bytes : ByteArray} {m' : Machine}
    (hput : m.put stream bytes = (.ok (), m')) : m.write stream bytes = (.ok (), m') := by
  rw [write]
  simp only [awaitRoom, runUntil_of_alone h, writable, hroom, hintact, Bool.false_eq_true, if_false,
    Nat.le_refl, if_true, hput]

/-! ## Streams at the end of a file -/

/-- Whether a stream writes at the end of a regular file. -/
def AppendsTo (m : Machine) (h : Handle) (id : NodeId) : Prop :=
  ∃ position mode contents, m.stream? h = some (.file id position mode) ∧
    m.files.data? id = some contents ∧
    (mode = .append ∨ mode = .truncate ∧ position = contents.size)

/-- A stream still writes at the end of its file when neither of them changes. -/
theorem AppendsTo.of_eq {m' : Machine} {h : Handle} {id : NodeId} (happends : m.AppendsTo h id)
    (hstream : m'.stream? h = m.stream? h) (hdata : m'.files.data? id = m.files.data? id) :
    m'.AppendsTo h id := by
  rw [AppendsTo, hstream, hdata]
  exact happends

/-- A stream to the end of a file is open, and it is no pipe. -/
theorem AppendsTo.room_eq {h : Handle} {id : NodeId} (happends : m.AppendsTo h id) :
    h < m.streams.size ∧ m.room h = none ∧ m.isBroken h = false := by
  obtain ⟨position, mode, contents, hstream, -, -⟩ := happends
  refine ⟨(Array.getElem?_eq_some_iff.mp hstream).1, ?_, ?_⟩
  · simp only [room, hstream]
  · simp only [isBroken, hstream]

/-- What is written to a stream to the end of a file is added to the file. Afterwards the stream is
at the end of the file again, and so are the streams to other files. -/
theorem AppendsTo.put {h : Handle} {id : NodeId} (happends : m.AppendsTo h id)
    (bytes : ByteArray) :
    ∃ m', m.put h bytes = (.ok (), m') ∧
      m'.files = m.files.mapData id (fun contents => contents ++ bytes) ∧
      m'.processes = m.processes ∧ m'.workingDirectory = m.workingDirectory ∧
      ∀ other otherId, m.AppendsTo other otherId → other = h ∨ otherId ≠ id →
        m'.AppendsTo other otherId := by
  obtain ⟨position, mode, contents, hstream, hdata, hend⟩ := happends
  have hgrown : (m.files.mapData id fun contents => contents ++ bytes).data? id =
      some (contents ++ bytes) := by
    rw [FileSystem.data?_mapData, if_pos rfl, hdata, Option.map_some]
  have hkept {otherId : NodeId} (hne : otherId ≠ id) :
      (m.files.mapData id fun contents => contents ++ bytes).data? otherId =
        m.files.data? otherId := by
    rw [FileSystem.data?_mapData, if_neg hne]
  rcases hend with rfl | ⟨rfl, rfl⟩
  · refine ⟨m.mapFiles fun fs => fs.mapData id fun contents => contents ++ bytes, ?_, rfl, rfl, rfl,
      fun other otherId hother hcase => ?_⟩
    · simp only [Machine.put, hstream, FileSystem.append_eq_mapData]
    · rcases hcase with rfl | hne
      · obtain ⟨otherPosition, otherMode, otherContents, hsame, -, -⟩ := hother
        cases hstream.symm.trans hsame
        exact ⟨position, .append, _, hstream, hgrown, .inl rfl⟩
      · exact hother.of_eq rfl (hkept hne)
  · have hlt : h < m.streams.size := (Array.getElem?_eq_some_iff.mp hstream).1
    have hwritten : m.files.writeAt id bytes contents.size =
        m.files.mapData id fun contents => contents ++ bytes := by
      rw [FileSystem.writeAt_eq_mapData]
      refine FileSystem.mapData_congr hdata ?_
      simp only [FileSystem.overwrite, if_true]
    refine ⟨(m.mapFiles fun fs => fs.mapData id fun contents => contents ++ bytes).setStream h
      (.file id (contents.size + bytes.size) .truncate), ?_, rfl, rfl, rfl,
      fun other otherId hother hcase => ?_⟩
    · simp only [Machine.put, hstream, mapFiles, hwritten]
    · by_cases hsame : other = h
      · subst hsame
        obtain ⟨otherPosition, otherMode, otherContents, hfile, -, -⟩ := hother
        cases hstream.symm.trans hfile
        refine ⟨_, .truncate, _, ?_, hgrown, .inr ⟨rfl, (ByteArray.size_append ..).symm⟩⟩
        exact Array.getElem?_setIfInBounds_self_of_lt hlt
      · refine hother.of_eq ?_ (hkept (hcase.resolve_left hsame))
        exact Array.getElem?_setIfInBounds_ne (Ne.symm hsame)

/-! ## Files for output -/

/-- Whether a shell with the given terminal can leave output at places: no process runs, and the
output of the terminal goes to the end of its file. -/
structure Keeps (terminal : Streams Handle) (places : FileSystem.OutputPlaces) (m : Machine) :
    Prop where
  processes : m.processes = []
  holds : m.files.Holds m.workingDirectory places
  stdout : m.AppendsTo terminal.stdout places.terminal

/-- What all files of the machine hold, and the file that stands for the terminal. -/
def ledger (places : FileSystem.OutputPlaces) (m : Machine) : Ledger (NodeId × String) :=
  ⟨m.files.dataAt?, (m.files.data? places.terminal).getD .empty⟩

section

variable {terminal : Streams Handle} {places : FileSystem.OutputPlaces}

/-- It does not matter what time it is. -/
theorem Keeps.at_time (h : m.Keeps terminal places) (time : Nat) :
    ({ m with time := time } : Machine).Keeps terminal places := ⟨h.processes, h.holds, h.stdout⟩

/-- The shell can leave output at the places when a stream has been opened and the file of the
terminal is as it was. -/
theorem Keeps.addStream (h : m.Keeps terminal places) {files : FileSystem}
    (hfiles : files.Holds m.workingDirectory places)
    (hterminal : files.data? places.terminal = m.files.data? places.terminal) (stream : Stream) :
    ((({ m with files := files } : Machine).addStream stream).2.hold m.streams.size).Keeps terminal
      places := by
  refine ⟨h.processes, hfiles, h.stdout.of_eq ?_ hterminal⟩
  have hlt := h.stdout.room_eq.1
  exact (Array.getElem?_push_lt hlt).trans (Array.getElem?_eq_getElem hlt).symm

/-- A file of the directory is opened for output as the ledger says, and what is written to the new
stream goes to its end. -/
theorem Keeps.openOutput (h : m.Keeps terminal places) (mode : RedirectMode) {name : String}
    (hname : FileSystem.FileName places.directory name) (hmem : places.names name) :
    ∃ m', openOutput mode (places.directory.join ⟨name⟩) m = (.ok m.streams.size, m') ∧
      m'.Keeps terminal places ∧
      ledger places m' = (ledger places m).opened mode (places.node, name) ∧
      ∃ id, m'.files.child? places.node name = some id ∧ m'.AppendsTo m.streams.size id := by
  obtain ⟨id, files, hopen, hholds, hchild, hplaces, hothers⟩ :=
    h.holds.openForWriting hname hmem
  have hterminal := hothers _ h.holds.isSome_terminal
  have hdata : files.data? id = some ((m.files.dataAt? (places.node, name)).getD .empty) := by
    have hplace := congrFun hplaces (places.node, name)
    rw [Function.update_self, FileSystem.dataAt?, hchild] at hplace
    exact hplace
  obtain ⟨executable, hnode⟩ := FileSystem.data?_eq_some_iff.mp hdata
  have hlast (m : Machine) (stream : Stream) :
      ((m.addStream stream).2.hold m.streams.size).stream? m.streams.size = some stream :=
    Array.getElem?_push_size
  cases mode with
  | append =>
    refine ⟨_, ?_, h.addStream hholds hterminal (.file id 0 .append), ?_, id, hchild, ?_⟩
    · simp only [Machine.openOutput, openAt, hopen, hnode]
      rfl
    · show Ledger.mk files.dataAt? ((files.data? places.terminal).getD .empty) = _
      rw [hplaces, hterminal]
      rfl
    · exact ⟨0, .append, _, hlast _ _, hdata, .inl rfl⟩
  | truncate =>
    obtain ⟨hstays, hthere, hemptied, hkept, hplaces'⟩ := hholds.truncate hchild hdata
    rw [hterminal] at hkept
    rw [hplaces, Function.update_idem] at hplaces'
    refine ⟨_, ?_, h.addStream hstays hkept (.file id 0 .truncate), ?_, id, hthere, ?_⟩
    · simp only [Machine.openOutput, openAt, hopen, hnode]
      rfl
    · show Ledger.mk (files.truncate id).dataAt?
          (((files.truncate id).data? places.terminal).getD .empty) = _
      rw [hplaces', hkept]
      rfl
    · exact ⟨0, .truncate, .empty, hlast _ _, hemptied, .inr ⟨rfl, rfl⟩⟩

/-- What is written to a stream to the end of a file is added to what the file holds. -/
theorem Keeps.write (h : m.Keeps terminal places) {stream : Handle} {place : NodeId × String}
    {id : NodeId} (hchild : m.files.child? place.1 place.2 = some id)
    (happends : m.AppendsTo stream id) (bytes : ByteArray) :
    ∃ m', m.write stream bytes = (.ok (), m') ∧ m'.Keeps terminal places ∧
      ledger places m' = (ledger places m).written (some place) bytes := by
  obtain ⟨m', hput, hfiles, hprocesses, hdirectory, hstreams⟩ := happends.put bytes
  obtain ⟨-, hroom, hintact⟩ := happends.room_eq
  obtain ⟨-, -, contents, -, hdata, -⟩ := happends
  have hne : places.terminal ≠ id := by
    rintro rfl
    exact h.holds.hidden _ _ hchild
  have hplace : m.files.dataAt? place = some contents := by
    rw [FileSystem.dataAt?, hchild, Option.bind_some, hdata]
  refine ⟨m', write_of_alone h.processes hroom hintact hput,
    ⟨hprocesses.trans h.processes, ?_, hstreams _ _ h.stdout (.inr hne)⟩, ?_⟩
  · rw [hfiles, hdirectory]
    exact h.holds.mapData id _
  · rw [ledger, hfiles, h.holds.separate.dataAt?_mapData hchild hdata, FileSystem.data?_mapData,
      if_neg hne]
    simp only [Ledger.written, ledger, hplace, Option.getD_some]

/-- What is written to the terminal is added to what it has been shown. -/
theorem Keeps.write_terminal (h : m.Keeps terminal places) (bytes : ByteArray) :
    ∃ m', m.write terminal.stdout bytes = (.ok (), m') ∧ m'.Keeps terminal places ∧
      ledger places m' = (ledger places m).written none bytes := by
  obtain ⟨m', hput, hfiles, hprocesses, hdirectory, hstreams⟩ := h.stdout.put bytes
  obtain ⟨-, hroom, hintact⟩ := h.stdout.room_eq
  obtain ⟨contents, hdata⟩ := Option.isSome_iff_exists.mp h.holds.isSome_terminal
  refine ⟨m', write_of_alone h.processes hroom hintact hput,
    ⟨hprocesses.trans h.processes, ?_, hstreams _ _ h.stdout (.inl rfl)⟩, ?_⟩
  · rw [hfiles, hdirectory]
    exact h.holds.mapData _ _
  · rw [ledger, hfiles, FileSystem.dataAt?_mapData_of_hidden h.holds.hidden,
      FileSystem.data?_mapData, if_pos rfl, hdata]
    simp only [Ledger.written, ledger, hdata, Option.map_some, Option.getD_some]

end

/-- A machine without processes is a system that stores files. -/
def stores (terminal : Streams Handle) (places : FileSystem.OutputPlaces) :
    (host terminal).Stores places.directory (NodeId × String) where
  valid := Keeps terminal places
  ledger := ledger places
  plain name := FileSystem.FileName places.directory name ∧ places.names name
  file name := (places.node, name)
  appends m stream place :=
    ∃ id, m.files.child? place.1 place.2 = some id ∧ m.AppendsTo stream id
  openOutput {m} mode name h := by
    rintro ⟨hname, hmem⟩
    obtain ⟨m', hopen, hkeeps, hledger, id, hchild, happends⟩ := h.openOutput mode hname hmem
    simp only [host, timed, hopen, pass_of_alone hkeeps.processes]
    refine ⟨m.streams.size, rfl, hkeeps.at_time _, hledger, ⟨id, hchild, happends⟩, ?_⟩
    rintro other place ⟨otherId, -, hother⟩
    exact Nat.ne_of_lt hother.room_eq.1
  write {m stream place} bytes h := by
    rintro ⟨id, hchild, happends⟩
    obtain ⟨m', hwrite, hkeeps, hledger⟩ := h.write hchild happends bytes
    simp only [host, timed, hwrite, pass_of_alone hkeeps.processes]
    exact ⟨trivial, hkeeps.at_time _, hledger⟩
  writeTerminal {m} bytes h := by
    obtain ⟨m', hwrite, hkeeps, hledger⟩ := h.write_terminal bytes
    simp only [host, timed, hwrite, pass_of_alone hkeeps.processes]
    exact ⟨trivial, hkeeps.at_time _, hledger⟩
  close stream h := ⟨⟨h.processes, h.holds, h.stdout⟩, rfl, fun _ _ happends _ => happends⟩

end Machine

end LineShell
