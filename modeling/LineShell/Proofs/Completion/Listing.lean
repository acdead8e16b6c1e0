import LineShell.Machine.Basic
import LineShell.Proofs.FileSystem.Walk

/-!
# What the listing of a directory shows

Completion sees the entries of a directory; the search for a command asks for one path after the
other. On a machine the two agree as far as they can: a name by which a directory leads to a
regular file is an entry of the directory, and not one that is a directory itself.
-/

namespace LineShell

/-- Whether the listing of a directory shows a name, as that of an entry which is no directory
itself. -/
def Listed (listDirectory : Path → Option (List DirectoryEntry)) (dir : Path) (name : String) :
    Prop :=
  ∃ entries, listDirectory dir = some entries ∧ ⟨name.toUTF8, false⟩ ∈ entries

/-- Whether the listing of a directory shows the names of all regular files in it and of all links
to regular files. -/
def ShowsFiles (listDirectory : Path → Option (List DirectoryEntry)) (isFile : Path → Bool)
    (dir : Path) : Prop :=
  ∀ name, name ≠ "" → '/' ∉ name.toList → isFile (dir.join ⟨name⟩) = true →
    Listed listDirectory dir name

namespace FileSystem

variable {fs : FileSystem}

/-- A directory can be looked up when a name in it can. -/
theorem pathFault?_of_join {dir : Path} {name : String} (hdir : dir.text ≠ "")
    (hslash : '/' ∉ name.toList) (h : pathFault? (dir.join ⟨name⟩) = none) :
    pathFault? dir = none := by
  have hsize : dir.text.utf8ByteSize ≤ (dir.join ⟨name⟩).text.utf8ByteSize := by
    rcases Path.text_join dir hslash with hjoin | hjoin <;>
      (rw [hjoin, String.utf8ByteSize_append]; try rw [String.utf8ByteSize_append]) <;> omega
  have hchars (c : Char) : c ∈ dir.text.toList → c ∈ (dir.join ⟨name⟩).text.toList := by
    intro hmem
    rcases Path.text_join dir hslash with hjoin | hjoin <;> simp [hjoin, hmem]
  have hnul : '\x00' ∉ dir.text.toList := by
    intro hmem
    simp [pathFault?, textFault?, hchars _ hmem] at h
  have hshort : ¬maxPath ≤ dir.text.utf8ByteSize := by
    intro hlong
    simp only [pathFault?] at h
    split at h
    · cases h
    · rw [if_pos (Nat.le_trans hlong hsize)] at h
      cases h
  simp [pathFault?, textFault?, hnul, hshort, hdir]

/-- A name in a directory leads to a regular file only when the directory can be walked to and the
name is that of an entry in it which is no directory. -/
theorem exists_entry_of_isFile {base : Trail} (hbase : fs.LeadsThroughDirectories base)
    {dir : Path} {name : String} (hdir : dir.text ≠ "") (hname : name ≠ "")
    (hslash : '/' ∉ name.toList) (hfile : fs.isFile base (dir.join ⟨name⟩) = true) :
    ∃ way entries id entry, fs.locate base dir = .ok way ∧ fs.entries? way.node = some entries ∧
      (name, id) ∈ entries ∧ fs.node? id = some entry ∧ entry.isDirectory = false := by
  obtain ⟨reached, node, hlocated, hnode, hregular⟩ := isFile_eq_true_iff.mp hfile
  obtain ⟨hfault, left, hwalk⟩ := locate_eq_ok_iff.mp hlocated
  rw [Path.isAbsolute_join dir hslash, Path.steps_join dir hslash hname] at hwalk
  obtain ⟨way, left', hnames, hlast⟩ := walk_append_eq_ok_iff.mp hwalk
  have hstart : fs.LeadsThroughDirectories (if dir.isAbsolute then [] else base) := by
    split
    · exact trivial
    · exact hbase
  have hdirectory : node.isDirectory = false := by
    cases node <;> first | rfl | cases hregular
  obtain ⟨entries, id, entry, hentries, hmem, hentry, hother⟩ :=
    exists_entry_of_walk (hstart.walk hnames) hlast hnode hdirectory
  have hlocate : fs.locate base dir = .ok way :=
    locate_eq_ok_iff.mpr ⟨pathFault?_of_join hdir hslash hfault, left',
      walk_steps hnames (Option.isSome_of_eq_some hentries)⟩
  exact ⟨way, entries, id, entry, hlocate, hentries, hmem, hentry, hother⟩

end FileSystem

/-- On a machine the listing of a directory shows all regular files in it, and all links to them. -/
theorem Machine.showsFiles {m : Machine} (h : m.files.LeadsThroughDirectories m.workingDirectory)
    {dir : Path} (hdir : dir.text ≠ "") : ShowsFiles m.listDirectory m.isFile dir := by
  intro name hname hslash hfile
  obtain ⟨way, entries, id, entry, hway, hentries, hmem, hentry, hdirectory⟩ :=
    FileSystem.exists_entry_of_isFile h hdir hname hslash hfile
  have hlookup : m.files.lookup m.workingDirectory dir = .ok (way.node, .directory entries) := by
    simp only [FileSystem.lookup, hway, FileSystem.entries?_eq_some_iff.mp hentries]
  simp only [Listed, listDirectory, FileSystem.list, hlookup, Option.some.injEq, exists_eq_left']
  have hshown : (name, entry) ∈ entries.filterMap fun listed =>
      (m.files.node? listed.2).map fun node => (listed.1, node) :=
    List.mem_filterMap.mpr ⟨(name, id), hmem, by simp only [hentry, Option.map_some]⟩
  exact List.mem_map.mpr ⟨(name, entry), hshown, by rw [hdirectory]⟩

end LineShell
