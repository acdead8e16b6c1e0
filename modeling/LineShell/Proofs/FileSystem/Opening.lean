import LineShell.Proofs.FileSystem.Growth

/-!
# Files for output

Output is left in the files of one directory, and what goes to the terminal is left in a file of its
own that is in no directory. As long as nothing but regular files is under the names that are
opened, each of these files can be opened for writing, and it is made if it is not there.
-/

namespace LineShell

namespace FileSystem

/-- Whether a name can be that of a file in a directory. -/
structure FileName (directory : Path) (name : String) : Prop where
  ne_empty : name ≠ ""
  slash_notMem : '/' ∉ name.toList
  ne_dot : name ≠ "."
  ne_dots : name ≠ ".."
  size_le : name.utf8ByteSize ≤ maxName
  pathFault? : pathFault? (directory.join ⟨name⟩) = none

/-- Where output is left. -/
structure OutputPlaces where
  /-- The path of the directory whose files are opened. -/
  directory : Path
  /-- The node of this directory. -/
  node : NodeId
  /-- The names by which files are opened. -/
  names : String → Prop
  /-- The node of the file that stands for the terminal. -/
  terminal : NodeId

/-- Whether output can be left at places, as seen from a directory. -/
structure Holds (fs : FileSystem) (base : Trail) (places : OutputPlaces) : Prop where
  separate : fs.Separate
  reached : ∃ trail left,
    fs.walk maxLinks (if places.directory.isAbsolute then [] else base) places.directory.names =
        .ok (trail, left) ∧
      trail.node = places.node ∧ fs.stillHolds trail = true
  isSome_entries : (fs.entries? places.node).isSome
  regular : ∀ {name id}, places.names name → fs.child? places.node name = some id →
    (fs.data? id).isSome
  isSome_terminal : (fs.data? places.terminal).isSome
  hidden : ∀ directory name, fs.child? directory name ≠ some places.terminal

section

variable {fs fs' : FileSystem} {base : Trail} {places : OutputPlaces} {name : String}

/-- The directory of the places is still reached when the file system grows. -/
theorem Holds.reached_of_extends (h : fs.Holds base places) (hextends : fs.Extends fs') :
    ∃ trail left,
      fs'.walk maxLinks (if places.directory.isAbsolute then [] else base)
          places.directory.names = .ok (trail, left) ∧
        trail.node = places.node ∧ fs'.stillHolds trail = true := by
  obtain ⟨trail, left, hwalk, hnode, hholds⟩ := h.reached
  exact ⟨trail, left, hextends.walk hwalk, hnode, hextends.stillHolds hholds⟩

/-- The places are as they were when a file has been written to. -/
theorem Holds.mapData (h : fs.Holds base places) (id : NodeId) (change : ByteArray → ByteArray) :
    (fs.mapData id change).Holds base places where
  separate := h.separate.mapData id change
  reached := h.reached_of_extends (fs.extends_mapData id change)
  isSome_entries := by
    rw [entries?_mapData]
    exact h.isSome_entries
  regular := by
    intro name other hname hchild
    rw [child?_mapData] at hchild
    rw [isSome_data?_mapData]
    exact h.regular hname hchild
  isSome_terminal := by
    rw [isSome_data?_mapData]
    exact h.isSome_terminal
  hidden := fun directory name => by
    rw [child?_mapData]
    exact h.hidden directory name

/-- The places are as they were when a file has been added under a name that was not there. -/
theorem Holds.addInto (h : fs.Holds base places) (hmissing : fs.child? places.node name = none)
    (contents : ByteArray) (executable : Bool) :
    (fs.addInto places.node name (.file contents executable)).2.Holds base places := by
  obtain ⟨entries, hentries⟩ := Option.isSome_iff_exists.mp h.isSome_entries
  have hlookup : entries.lookup name = none := by
    rw [child?, hentries] at hmissing
    exact hmissing
  refine ⟨h.separate.addInto hentries rfl,
    h.reached_of_extends (extends_addInto hentries hlookup contents executable), ?_, ?_, ?_, ?_⟩
  · rw [entries?_addInto hentries rfl, if_pos rfl]
    rfl
  · intro other id hother hchild
    rw [child?_addInto hentries rfl] at hchild
    rw [data?_addInto hentries]
    split at hchild
    · rw [if_pos (Option.some.inj hchild).symm]
      rfl
    · rw [if_neg (Nat.ne_of_lt (h.separate.child_lt hchild))]
      exact h.regular hother hchild
  · rw [data?_addInto hentries]
    split
    · rfl
    · exact h.isSome_terminal
  · intro directory other hchild
    rw [child?_addInto hentries rfl] at hchild
    split at hchild
    · -- the new node has a number that no file had
      exact absurd (Option.some.inj hchild) (Nat.ne_of_gt (lt_size_of_data? h.isSome_terminal))
    · exact h.hidden directory other hchild

/-- The path of a name in the directory leads to the file of this name, or to where it is made. -/
theorem Holds.findWriteTarget (h : fs.Holds base places) (hname : FileName places.directory name)
    (hmem : places.names name) :
    fs.findWriteTarget maxLinks base (places.directory.join ⟨name⟩) =
      match fs.child? places.node name with
      | some id => .ok (.existing id)
      | none => .ok (.missing places.node name) := by
  obtain ⟨trail, left, hwalk, hnode, hholds⟩ := h.reached
  obtain ⟨entries, hentries⟩ := Option.isSome_iff_exists.mp h.isSome_entries
  have hdots : ¬(name = "." ∨ name = ".." ∨
      (places.directory.join ⟨name⟩).endsWithSlash = true) := by
    rw [Path.endsWithSlash_join _ hname.slash_notMem hname.ne_empty]
    simp [hname.ne_dot, hname.ne_dots]
  have hchild : fs.child? places.node name = entries.lookup name := by
    rw [child?, hentries, Option.bind_some]
  unfold FileSystem.findWriteTarget
  rw [Path.names_join _ hname.slash_notMem hname.ne_empty,
    Path.isAbsolute_join _ hname.slash_notMem, List.getLast?_concat]
  simp only [List.dropLast_concat, hwalk, hnode, hentries, if_neg hdots,
    if_neg (Nat.not_lt.mpr hname.size_le), hchild]
  cases hlookup : entries.lookup name with
  | none => simp only [hholds, if_true]
  | some id =>
    obtain ⟨contents, hcontents⟩ :=
      Option.isSome_iff_exists.mp (h.regular hmem (hchild.trans hlookup))
    obtain ⟨executable, hfile⟩ := data?_eq_some_iff.mp hcontents
    simp only [hfile]

/-- A file of the directory can be opened for writing. Its contents stay as they are, and it is
empty when it has not been there; no other file changes. -/
theorem Holds.openForWriting (h : fs.Holds base places) (hname : FileName places.directory name)
    (hmem : places.names name) :
    ∃ id fs', fs.openForWriting base (places.directory.join ⟨name⟩) = .ok (id, fs') ∧
      fs'.Holds base places ∧ fs'.child? places.node name = some id ∧
      fs'.dataAt? = Function.update fs.dataAt? (places.node, name)
        (some ((fs.dataAt? (places.node, name)).getD .empty)) ∧
      ∀ other, (fs.data? other).isSome → fs'.data? other = fs.data? other := by
  have htarget := h.findWriteTarget hname hmem
  unfold FileSystem.openForWriting
  rw [hname.pathFault?]
  cases hchild : fs.child? places.node name with
  | some id =>
    rw [hchild] at htarget
    simp only [htarget]
    refine ⟨id, fs, rfl, h, hchild, ?_, fun _ _ => rfl⟩
    obtain ⟨contents, hcontents⟩ := Option.isSome_iff_exists.mp (h.regular hmem hchild)
    have hplace : fs.dataAt? (places.node, name) = some contents := by
      rw [dataAt?, hchild, Option.bind_some, hcontents]
    rw [hplace, Option.getD_some, ← hplace, Function.update_eq_self]
  | none =>
    rw [hchild] at htarget
    simp only [htarget]
    obtain ⟨entries, hentries⟩ := Option.isSome_iff_exists.mp h.isSome_entries
    have hplace : fs.dataAt? (places.node, name) = none := by
      rw [dataAt?, hchild, Option.bind_none]
    refine ⟨_, _, rfl, h.addInto hchild .empty false, ?_, ?_, fun other hother => ?_⟩
    · exact (child?_addInto hentries rfl _ _).trans (if_pos rfl)
    · rw [hplace, Option.getD_none]
      exact h.separate.dataAt?_addInto hentries .empty false
    · exact (data?_addInto hentries .empty false other).trans
        (if_neg (Nat.ne_of_lt (lt_size_of_data? hother)))

/-- The file under a name of the directory can be emptied, and no other file changes. -/
theorem Holds.truncate (h : fs.Holds base places) {id : NodeId} {contents : ByteArray}
    (hchild : fs.child? places.node name = some id) (hdata : fs.data? id = some contents) :
    (fs.truncate id).Holds base places ∧ (fs.truncate id).child? places.node name = some id ∧
      (fs.truncate id).data? id = some .empty ∧
      (fs.truncate id).data? places.terminal = fs.data? places.terminal ∧
      (fs.truncate id).dataAt? =
        Function.update fs.dataAt? (places.node, name) (some .empty) := by
  have hne : places.terminal ≠ id := by
    rintro rfl
    exact h.hidden _ _ hchild
  have hplace : fs.child? (places.node, name).1 (places.node, name).2 = some id := hchild
  rw [truncate_eq_mapData]
  refine ⟨h.mapData id _, (child?_mapData ..).trans hchild, ?_, ?_,
    h.separate.dataAt?_mapData hplace hdata _⟩
  · rw [data?_mapData, if_pos rfl, hdata, Option.map_some]
  · rw [data?_mapData, if_neg hne]

end

end FileSystem

end LineShell
