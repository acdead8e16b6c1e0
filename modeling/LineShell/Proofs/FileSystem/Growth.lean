import LineShell.Proofs.FileSystem.Walk
import Mathlib.Data.List.Nodup
import Mathlib.Logic.Function.Basic

/-!
# Files that are written and added

Writing to a file changes the contents of this file and of no other, and a file that is added is
found under its name and nowhere else. As no directory loses a name and no link comes or goes, a
path that led somewhere still leads there.
-/

namespace LineShell

/-- The node with other bytes, if it is a regular file. -/
def Node.mapData (change : ByteArray → ByteArray) : Node → Node
  | file contents executable => file (change contents) executable
  | other => other

namespace FileSystem

variable {fs fs' : FileSystem}

/-- The node under a name in a directory. -/
def child? (fs : FileSystem) (directory : NodeId) (name : String) : Option NodeId :=
  (fs.entries? directory).bind fun entries => entries.lookup name

/-- The bytes of a regular file that has no program in it. -/
def data? (fs : FileSystem) (id : NodeId) : Option ByteArray :=
  match fs.node? id with
  | some (.file contents _) => some contents
  | _ => none

/-- The bytes of the file under a name in a directory. -/
def dataAt? (fs : FileSystem) (place : NodeId × String) : Option ByteArray :=
  (fs.child? place.1 place.2).bind fs.data?

/-- Changes the bytes of a regular file. -/
def mapData (fs : FileSystem) (id : NodeId) (change : ByteArray → ByteArray) : FileSystem :=
  fs.modify id (Node.mapData change)

/-- Whether no node is under two names, and all nodes under names are there. -/
structure Separate (fs : FileSystem) : Prop where
  place_eq : ∀ {directory other name otherName id}, fs.child? directory name = some id →
    fs.child? other otherName = some id → (other, otherName) = (directory, name)
  child_lt : ∀ {directory name id}, fs.child? directory name = some id → id < fs.nodes.size

/-- The entries of all directories, each with its directory. -/
def allEntries (fs : FileSystem) : List (NodeId × String × NodeId) :=
  (List.range fs.nodes.size).flatMap fun id =>
    ((fs.entries? id).getD []).map fun entry => (id, entry)

/-- Whether a file system has the names and links of another one, and maybe more names. -/
structure Extends (fs fs' : FileSystem) : Prop where
  entries : ∀ {id entries}, fs.entries? id = some entries →
    ∃ entries', fs'.entries? id = some entries' ∧
      ∀ name child, entries.lookup name = some child → entries'.lookup name = some child
  link : ∀ {id target}, fs'.node? id = some (.link target) ↔ fs.node? id = some (.link target)

/-! ## Names -/

/-- A directory is there. -/
theorem lt_size_of_entries? {id : NodeId} {entries : List (String × NodeId)}
    (h : fs.entries? id = some entries) : id < fs.nodes.size :=
  (Array.getElem?_eq_some_iff.mp (entries?_eq_some_iff.mp h)).1

/-- There is no node behind the last one. -/
theorem node?_size (fs : FileSystem) : fs.node? fs.nodes.size = none := Array.getElem?_size

/-- What is under a name is an entry. -/
theorem mem_allEntries {directory : NodeId} {name : String} {id : NodeId}
    (h : fs.child? directory name = some id) : (directory, name, id) ∈ fs.allEntries := by
  obtain ⟨entries, hentries, hlookup⟩ := Option.bind_eq_some_iff.mp h
  refine List.mem_flatMap.mpr ⟨directory, List.mem_range.mpr (lt_size_of_entries? hentries), ?_⟩
  rw [hentries, Option.getD_some]
  exact List.mem_map.mpr ⟨(name, id), mem_of_lookup hlookup, rfl⟩

/-- No node is under two names when the entries of all directories are different nodes. -/
theorem separate_of_nodup (h : (fs.allEntries.map fun entry => entry.2.2).Nodup)
    (hlt : ∀ entry ∈ fs.allEntries, entry.2.2 < fs.nodes.size) : fs.Separate where
  place_eq := by
    intro directory other name otherName id hchild hother
    have hsame := List.inj_on_of_nodup_map h (mem_allEntries hother) (mem_allEntries hchild) rfl
    cases hsame
    rfl
  child_lt := fun hchild => hlt _ (mem_allEntries hchild)

/-! ## Paths in a file system that grows -/

/-- A walk up to the first link ends where it ended. -/
theorem Extends.walkToLink (h : fs.Extends fs') {trail : Trail} {steps : List String} {stop : Stop}
    (hstop : fs.walkToLink trail steps = .ok stop) : fs'.walkToLink trail steps = .ok stop := by
  fun_induction FileSystem.walkToLink fs trail steps with
  | case1 trail => exact hstop
  | case2 | case5 | case6 => cases hstop
  | case3 trail rest entries hentries ih =>
    obtain ⟨entries', hentries', -⟩ := h.entries hentries
    simp only [FileSystem.walkToLink, hentries', if_true]
    exact ih hstop
  | case4 trail rest entries hentries hdot ih =>
    obtain ⟨entries', hentries', -⟩ := h.entries hentries
    simp only [FileSystem.walkToLink, hentries', if_neg hdot, if_true]
    exact ih hstop
  | case7 trail name rest entries hentries hdot hdots hlong id hlookup target hnode =>
    obtain ⟨entries', hentries', hnames⟩ := h.entries hentries
    simp only [FileSystem.walkToLink, hentries', if_neg hdot, if_neg hdots, if_neg hlong,
      hnames name id hlookup, h.link.mpr hnode]
    exact hstop
  | case8 trail name rest entries hentries hdot hdots hlong id hlookup hnode ih =>
    obtain ⟨entries', hentries', hnames⟩ := h.entries hentries
    have hnode' : ∀ target, fs'.node? id = some (.link target) → False := fun target hlink =>
      hnode target (h.link.mp hlink)
    simp only [FileSystem.walkToLink, hentries', if_neg hdot, if_neg hdots, if_neg hlong,
      hnames name id hlookup]
    exact ih hstop

/-- A walk ends where it ended. -/
theorem Extends.walk (h : fs.Extends fs') {links : Nat} {trail : Trail} {steps : List String}
    {result : Trail × Nat} (hwalk : fs.walk links trail steps = .ok result) :
    fs'.walk links trail steps = .ok result := by
  fun_induction FileSystem.walk fs links trail steps with
  | case1 | case3 => cases hwalk
  | case2 links trail steps reached harrived =>
    unfold FileSystem.walk
    rw [h.walkToLink harrived]
    exact hwalk
  | case4 trail steps target reached rest hlink links ih =>
    rw [walk_of_atLink links (h.walkToLink hlink)]
    exact ih hwalk

/-- A directory that has not been removed is still there. -/
theorem Extends.stillHolds (h : fs.Extends fs') {trail : Trail}
    (hholds : fs.stillHolds trail = true) : fs'.stillHolds trail = true := by
  cases trail with
  | nil => rfl
  | cons step parent =>
    obtain ⟨name, id⟩ := step
    simp only [FileSystem.stillHolds] at hholds ⊢
    cases hentries : fs.entries? (Trail.node parent) with
    | none => simp [hentries] at hholds
    | some entries =>
      obtain ⟨entries', hentries', hnames⟩ := h.entries hentries
      simp only [hentries, beq_iff_eq] at hholds
      simp only [hentries', beq_iff_eq]
      exact hnames name id hholds

/-! ## Writing to a file -/

/-- A regular file is what has bytes. -/
theorem data?_eq_some_iff {id : NodeId} {contents : ByteArray} :
    fs.data? id = some contents ↔ ∃ executable, fs.node? id = some (.file contents executable) := by
  unfold data?
  constructor
  · intro h
    split at h
    · rename_i executable hnode
      obtain rfl := Option.some.inj h
      exact ⟨executable, hnode⟩
    · cases h
  · rintro ⟨executable, hnode⟩
    rw [hnode]

/-- A file that has bytes is there. -/
theorem lt_size_of_data? {id : NodeId} (h : (fs.data? id).isSome) : id < fs.nodes.size := by
  obtain ⟨contents, hcontents⟩ := Option.isSome_iff_exists.mp h
  obtain ⟨executable, hnode⟩ := data?_eq_some_iff.mp hcontents
  exact (Array.getElem?_eq_some_iff.mp hnode).1

/-- A changed node is what it was, but for the bytes of a regular file. -/
theorem node?_mapData (fs : FileSystem) (id : NodeId) (change : ByteArray → ByteArray)
    (other : NodeId) :
    (fs.mapData id change).node? other =
      if other = id then (fs.node? other).map (Node.mapData change) else fs.node? other := by
  simp only [mapData, modify, node?, Array.getElem?_modify, eq_comm]

/-- Writing to a file leaves the directories as they are. -/
@[simp]
theorem entries?_mapData (fs : FileSystem) (id : NodeId) (change : ByteArray → ByteArray)
    (other : NodeId) : (fs.mapData id change).entries? other = fs.entries? other := by
  unfold entries?
  rw [node?_mapData]
  by_cases hid : other = id
  · rw [if_pos hid]
    cases fs.node? other with
    | none => rfl
    | some node => cases node <;> rfl
  · rw [if_neg hid]

/-- Writing to a file leaves the names as they are. -/
@[simp]
theorem child?_mapData (fs : FileSystem) (id : NodeId) (change : ByteArray → ByteArray)
    (directory : NodeId) (name : String) :
    (fs.mapData id change).child? directory name = fs.child? directory name := by
  rw [child?, child?, entries?_mapData]

/-- Writing to a file changes its bytes and those of no other. -/
theorem data?_mapData (fs : FileSystem) (id : NodeId) (change : ByteArray → ByteArray)
    (other : NodeId) :
    (fs.mapData id change).data? other =
      if other = id then (fs.data? other).map change else fs.data? other := by
  unfold data?
  rw [node?_mapData]
  by_cases hid : other = id
  · rw [if_pos hid, if_pos hid]
    cases fs.node? other with
    | none => rfl
    | some node => cases node <;> rfl
  · rw [if_neg hid, if_neg hid]

/-- Writing to a file leaves the regular files regular. -/
theorem isSome_data?_mapData (fs : FileSystem) (id : NodeId) (change : ByteArray → ByteArray)
    (other : NodeId) : ((fs.mapData id change).data? other).isSome = (fs.data? other).isSome := by
  rw [data?_mapData]
  split
  · exact Option.isSome_map ..
  · rfl

/-- Emptying a file is a change of its bytes. -/
theorem truncate_eq_mapData (fs : FileSystem) (id : NodeId) :
    fs.truncate id = fs.mapData id fun _ => .empty :=
  congrArg (fs.modify id) (funext fun node => by cases node <;> rfl)

/-- Writing at the end of a file is a change of its bytes. -/
theorem append_eq_mapData (fs : FileSystem) (id : NodeId) (bytes : ByteArray) :
    fs.append id bytes = fs.mapData id fun contents => contents ++ bytes :=
  congrArg (fs.modify id) (funext fun node => by cases node <;> rfl)

/-- Writing into a file is a change of its bytes. -/
theorem writeAt_eq_mapData (fs : FileSystem) (id : NodeId) (bytes : ByteArray) (position : Nat) :
    fs.writeAt id bytes position =
      fs.mapData id fun contents => overwrite contents bytes position :=
  congrArg (fs.modify id) (funext fun node => by cases node <;> rfl)

/-- It only matters what becomes of the bytes that are in the file. -/
theorem mapData_congr {id : NodeId} {contents : ByteArray} (h : fs.data? id = some contents)
    {change other : ByteArray → ByteArray} (hchange : change contents = other contents) :
    fs.mapData id change = fs.mapData id other := by
  refine congrArg FileSystem.mk (Array.ext_getElem? fun i => ?_)
  have hnode (change : ByteArray → ByteArray) := node?_mapData fs id change i
  refine (hnode change).trans (Eq.trans ?_ (hnode other).symm)
  by_cases hi : i = id
  · subst hi
    rw [if_pos rfl, if_pos rfl]
    obtain ⟨executable, hfile⟩ := data?_eq_some_iff.mp h
    simp only [hfile, Option.map_some, Node.mapData, hchange]
  · rw [if_neg hi, if_neg hi]

/-- Writing to the file under a name changes what is under this name, and nothing else. -/
theorem Separate.dataAt?_mapData (h : fs.Separate) {place : NodeId × String} {id : NodeId}
    {contents : ByteArray} (hchild : fs.child? place.1 place.2 = some id)
    (hdata : fs.data? id = some contents) (change : ByteArray → ByteArray) :
    (fs.mapData id change).dataAt? = Function.update fs.dataAt? place (some (change contents)) := by
  funext other
  by_cases hother : other = place
  · subst hother
    rw [Function.update_self, dataAt?, child?_mapData, hchild, Option.bind_some, data?_mapData,
      if_pos rfl, hdata, Option.map_some]
  · rw [Function.update_of_ne hother, dataAt?, dataAt?, child?_mapData]
    cases hnode : fs.child? other.1 other.2 with
    | none => rfl
    | some node =>
      have hne : node ≠ id := by
        rintro rfl
        exact hother (h.place_eq hchild hnode)
      rw [Option.bind_some, Option.bind_some, data?_mapData, if_neg hne]

/-- Writing to a file that is under no name changes nothing under names. -/
theorem dataAt?_mapData_of_hidden {id : NodeId}
    (h : ∀ directory name, fs.child? directory name ≠ some id)
    (change : ByteArray → ByteArray) : (fs.mapData id change).dataAt? = fs.dataAt? := by
  funext place
  rw [dataAt?, dataAt?, child?_mapData]
  cases hnode : fs.child? place.1 place.2 with
  | none => rfl
  | some node =>
    have hne : node ≠ id := by
      rintro rfl
      exact h _ _ hnode
    rw [Option.bind_some, Option.bind_some, data?_mapData, if_neg hne]

/-- Writing to a file makes no links. -/
theorem extends_mapData (fs : FileSystem) (id : NodeId) (change : ByteArray → ByteArray) :
    fs.Extends (fs.mapData id change) where
  entries := fun {other entries} hentries =>
    ⟨entries, by rw [entries?_mapData, hentries], fun _ _ hchild => hchild⟩
  link := by
    intro other target
    rw [node?_mapData]
    split
    · cases fs.node? other with
      | none => rfl
      | some node => cases node <;> simp [Node.mapData]
    · rfl

/-- Writing to a file keeps the names apart. -/
theorem Separate.mapData (h : fs.Separate) (id : NodeId) (change : ByteArray → ByteArray) :
    (fs.mapData id change).Separate where
  place_eq := fun hchild hother => by
    rw [child?_mapData] at hchild hother
    exact h.place_eq hchild hother
  child_lt := fun hchild => by
    rw [child?_mapData] at hchild
    have hsize : (fs.mapData id change).nodes.size = fs.nodes.size := Array.size_modify
    rw [hsize]
    exact h.child_lt hchild

/-! ## Adding a file -/

/-- A name that is left out of entries is not found, and any other is found as before. -/
theorem lookup_filter_ne (name : String) (entries : List (String × NodeId)) (other : String) :
    (entries.filter fun entry => entry.1 != name).lookup other =
      if other = name then none else entries.lookup other := by
  induction entries with
  | nil => simp
  | cons entry rest ih =>
    obtain ⟨first, id⟩ := entry
    by_cases hfirst : first = name
    · subst hfirst
      have hskip : (((first, id) :: rest).filter fun entry => entry.1 != first) =
          rest.filter fun entry => entry.1 != first := by simp
      rw [hskip, ih]
      by_cases hother : other = first
      · rw [if_pos hother, if_pos hother]
      · rw [if_neg hother, if_neg hother, List.lookup_cons, beq_false_of_ne hother]
    · have hkeep : (((first, id) :: rest).filter fun entry => entry.1 != name) =
          (first, id) :: rest.filter fun entry => entry.1 != name := by simp [hfirst]
      rw [hkeep, List.lookup_cons, List.lookup_cons, ih]
      by_cases hother : other = first
      · subst hother
        simp [hfirst]
      · rw [beq_false_of_ne hother]

/-- Under the name of an added entry is its node, and under any other name what was there. -/
theorem lookup_putEntry (name : String) (id : NodeId) (entries : List (String × NodeId))
    (other : String) :
    (putEntry name id entries).lookup other =
      if other = name then some id else entries.lookup other := by
  rw [putEntry, List.lookup_append, lookup_filter_ne]
  by_cases hother : other = name
  · subst hother
    simp
  · rw [if_neg hother, if_neg hother, List.lookup_cons, beq_false_of_ne hother, List.lookup_nil,
      Option.or_none]

section

variable {directory : NodeId} {name : String} {entries : List (String × NodeId)} {node : Node}

/-- The nodes when a file has been added to a directory. -/
theorem node?_addInto (hentries : fs.entries? directory = some entries) (other : NodeId) :
    (fs.addInto directory name node).2.node? other =
      if other = directory then some (.directory (putEntry name fs.nodes.size entries))
      else if other = fs.nodes.size then some node
      else fs.node? other := by
  have hnode := entries?_eq_some_iff.mp hentries
  have hlt := lt_size_of_entries? hentries
  simp only [addInto, add, putInto, modify, node?, Array.getElem?_modify, Array.getElem?_push]
  by_cases hdirectory : other = directory
  · subst hdirectory
    have hold : fs.nodes[other]? = some (.directory entries) := hnode
    rw [if_pos rfl, if_pos rfl, if_neg (Nat.ne_of_lt hlt), hold]
    rfl
  · rw [if_neg (Ne.symm hdirectory), if_neg hdirectory]

/-- The directories when a file has been added: one of them has one more name. -/
theorem entries?_addInto (hentries : fs.entries? directory = some entries)
    (hfile : node.isDirectory = false) (other : NodeId) :
    (fs.addInto directory name node).2.entries? other =
      if other = directory then some (putEntry name fs.nodes.size entries)
      else fs.entries? other := by
  unfold entries?
  rw [node?_addInto hentries]
  by_cases hdirectory : other = directory
  · rw [if_pos hdirectory, if_pos hdirectory]
  · rw [if_neg hdirectory, if_neg hdirectory]
    by_cases hnew : other = fs.nodes.size
    · rw [if_pos hnew, hnew, node?_size]
      cases node with
      | directory => cases hfile
      | _ => rfl
    · rw [if_neg hnew]

/-- The new node is under the name of the added file, and under any other name is what was there. -/
theorem child?_addInto (hentries : fs.entries? directory = some entries)
    (hfile : node.isDirectory = false) (other : NodeId) (otherName : String) :
    (fs.addInto directory name node).2.child? other otherName =
      if (other, otherName) = (directory, name) then some fs.nodes.size
      else fs.child? other otherName := by
  rw [child?, child?, entries?_addInto hentries hfile]
  by_cases hdirectory : other = directory
  · subst hdirectory
    rw [if_pos rfl, hentries, Option.bind_some, Option.bind_some, lookup_putEntry]
    simp only [Prod.mk.injEq, true_and]
  · rw [if_neg hdirectory, if_neg fun h => hdirectory (Prod.ext_iff.mp h).1]

/-- Adding a file changes the bytes of no other. -/
theorem data?_addInto (hentries : fs.entries? directory = some entries) (contents : ByteArray)
    (executable : Bool) (other : NodeId) :
    (fs.addInto directory name (.file contents executable)).2.data? other =
      if other = fs.nodes.size then some contents else fs.data? other := by
  have hnode := entries?_eq_some_iff.mp hentries
  have hlt := lt_size_of_entries? hentries
  unfold data?
  rw [node?_addInto hentries]
  by_cases hdirectory : other = directory
  · subst hdirectory
    rw [if_pos rfl, if_neg (Nat.ne_of_lt hlt), hnode]
  · rw [if_neg hdirectory]
    by_cases hnew : other = fs.nodes.size
    · rw [if_pos hnew, if_pos hnew]
    · rw [if_neg hnew, if_neg hnew]

/-- An added file is under its name, and under every other name is what was there. -/
theorem Separate.dataAt?_addInto (h : fs.Separate) (hentries : fs.entries? directory = some entries)
    (contents : ByteArray) (executable : Bool) :
    (fs.addInto directory name (.file contents executable)).2.dataAt? =
      Function.update fs.dataAt? (directory, name) (some contents) := by
  funext place
  rw [dataAt?, child?_addInto hentries rfl]
  by_cases hplace : place = (directory, name)
  · subst hplace
    rw [if_pos rfl, Option.bind_some, data?_addInto hentries, if_pos rfl, Function.update_self]
  · rw [if_neg hplace, Function.update_of_ne hplace, dataAt?]
    cases hnode : fs.child? place.1 place.2 with
    | none => rfl
    | some node =>
      rw [Option.bind_some, Option.bind_some, data?_addInto hentries,
        if_neg (Nat.ne_of_lt (h.child_lt hnode))]

/-- A file that is added under a new name makes the file system grow. -/
theorem extends_addInto (hentries : fs.entries? directory = some entries)
    (hmissing : entries.lookup name = none) (contents : ByteArray) (executable : Bool) :
    fs.Extends (fs.addInto directory name (.file contents executable)).2 where
  entries := by
    intro other others hothers
    rw [entries?_addInto hentries rfl]
    by_cases hdirectory : other = directory
    · subst hdirectory
      obtain rfl : entries = others := Option.some.inj (hentries.symm.trans hothers)
      refine ⟨_, if_pos rfl, fun otherName child hchild => ?_⟩
      have hne : otherName ≠ name := by
        rintro rfl
        rw [hmissing] at hchild
        cases hchild
      rw [lookup_putEntry, if_neg hne]
      exact hchild
    · exact ⟨others, by rw [if_neg hdirectory, hothers], fun _ _ hchild => hchild⟩
  link := by
    intro other target
    rw [node?_addInto hentries]
    have hnode := entries?_eq_some_iff.mp hentries
    by_cases hdirectory : other = directory
    · subst hdirectory
      rw [if_pos rfl, hnode]
      simp
    · rw [if_neg hdirectory]
      by_cases hnew : other = fs.nodes.size
      · rw [if_pos hnew, hnew, node?_size]
        simp
      · rw [if_neg hnew]

/-- A file that is added is under one name only. -/
theorem Separate.addInto (h : fs.Separate) (hentries : fs.entries? directory = some entries)
    (hfile : node.isDirectory = false) : (fs.addInto directory name node).2.Separate where
  place_eq := by
    intro first second firstName secondName id hfirst hsecond
    rw [child?_addInto hentries hfile] at hfirst hsecond
    by_cases hplace : (first, firstName) = (directory, name)
    · by_cases hother : (second, secondName) = (directory, name)
      · rw [hplace, hother]
      · rw [if_pos hplace] at hfirst
        rw [if_neg hother] at hsecond
        have hlt := h.child_lt hsecond
        rw [← Option.some.inj hfirst] at hlt
        exact absurd hlt (Nat.lt_irrefl _)
    · rw [if_neg hplace] at hfirst
      by_cases hother : (second, secondName) = (directory, name)
      · rw [if_pos hother] at hsecond
        have hlt := h.child_lt hfirst
        rw [← Option.some.inj hsecond] at hlt
        exact absurd hlt (Nat.lt_irrefl _)
      · rw [if_neg hother] at hsecond
        exact h.place_eq hfirst hsecond
  child_lt := by
    intro other otherName id hchild
    have hsize : (fs.addInto directory name node).2.nodes.size = fs.nodes.size + 1 := by
      show ((fs.nodes.push node).modify directory _).size = _
      rw [Array.size_modify, Array.size_push]
    rw [child?_addInto hentries hfile] at hchild
    rw [hsize]
    by_cases hplace : (other, otherName) = (directory, name)
    · rw [if_pos hplace] at hchild
      cases hchild
      exact Nat.lt_succ_self _
    · rw [if_neg hplace] at hchild
      exact Nat.lt_succ_of_lt (h.child_lt hchild)

end

end FileSystem

end LineShell
