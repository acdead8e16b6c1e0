import LineShell.Proofs.Completion.Listing
import LineShell.Resolution
import Mathlib.Data.String.Basic

/-!
# Which commands completion offers

Completion reads the entries of the directories in the search path, the shell asks these directories
for one name after the other. What the shell would run under a bare name is always offered. What is
offered can be run unless the search finds no regular file under the name: completion goes by the
entries and does not see where a link leads.
-/

namespace LineShell

namespace Completion

/-! ## Names in order -/

/-- Putting a name into its place adds just this name. -/
theorem mem_insertName {name other : String} {sorted : List String} :
    other ∈ insertName name sorted ↔ other = name ∨ other ∈ sorted := by
  induction sorted with
  | nil => simp [insertName]
  | cons first rest ih =>
    unfold insertName
    split
    · exact List.mem_cons
    · split
      · rename_i hfirst
        rw [hfirst, List.mem_cons, or_self_left]
      · rw [List.mem_cons, ih, List.mem_cons, or_left_comm]

/-- Putting a name into its place keeps the order strictly increasing. -/
theorem pairwise_insertName (name : String) {sorted : List String}
    (h : sorted.Pairwise (· < ·)) : (insertName name sorted).Pairwise (· < ·) := by
  induction h with
  | nil => exact List.pairwise_singleton _ _
  | @cons first rest hfirst hrest ih =>
    unfold insertName
    split
    · rename_i hname
      refine .cons (fun other hother => ?_) (.cons hfirst hrest)
      rcases List.mem_cons.mp hother with rfl | hother
      · exact hname
      · exact lt_trans hname (hfirst other hother)
    · split
      · exact .cons hfirst hrest
      · rename_i hle hne
        refine .cons (fun other hother => ?_) ih
        rcases mem_insertName.mp hother with rfl | hother
        · exact lt_of_le_of_ne (not_lt.mp hle) (Ne.symm hne)
        · exact hfirst other hother

/-- The names that have been put in order, one after the other, are the given ones. -/
theorem mem_sortedNames {name : String} {names : List String} :
    name ∈ sortedNames names ↔ name ∈ names := by
  suffices h : ∀ sorted, name ∈ names.foldl (fun sorted name => insertName name sorted) sorted ↔
      name ∈ names ∨ name ∈ sorted from (h []).trans (or_iff_left List.not_mem_nil)
  induction names with
  | nil => simp
  | cons first rest ih =>
    intro sorted
    rw [List.foldl_cons, ih, mem_insertName, List.mem_cons, or_left_comm, or_assoc]

/-- The names are in strictly increasing order, so none of them occurs twice. -/
theorem pairwise_sortedNames (names : List String) : (sortedNames names).Pairwise (· < ·) := by
  suffices h : ∀ sorted : List String, sorted.Pairwise (· < ·) →
      (names.foldl (fun sorted name => insertName name sorted) sorted).Pairwise (· < ·) from
    h [] .nil
  induction names with
  | nil => exact fun _ h => h
  | cons first rest ih => exact fun sorted h => ih _ (pairwise_insertName first h)

/-! ## The names that are offered -/

/-- An entry offers a name when it has this name and is no directory. -/
theorem offered?_eq_some_iff {entry : DirectoryEntry} {name : String} :
    offered? entry = some name ↔ entry = ⟨name.toUTF8, false⟩ := by
  obtain ⟨bytes, isDirectory⟩ := entry
  cases isDirectory <;> simp [offered?, Text.fromUTF8?_eq_some_iff]

variable {listDirectory : Path → Option (List DirectoryEntry)} {searchPath : List Path}

/-- The directories of a search path offer the names that they list. -/
theorem mem_fileNames {name : String} :
    name ∈ fileNames listDirectory searchPath ↔
      ∃ dir ∈ searchPath, Listed listDirectory dir name := by
  simp only [fileNames, List.mem_flatMap, List.mem_filterMap, offered?_eq_some_iff, Listed]
  refine exists_congr fun dir => and_congr_right fun _ => ?_
  cases listDirectory dir <;> simp

/-- Completion offers the builtins and the listed files whose names start with the word. -/
theorem mem_commandsStartingWith {word name : String} :
    name ∈ commandsStartingWith listDirectory searchPath word ↔
      word.toList <+: name.toList ∧
        ((∃ b : Builtin, b.name = name) ∨ ∃ dir ∈ searchPath, Listed listDirectory dir name) := by
  have hbuiltin : name ∈ Builtin.all.map Builtin.name ↔ ∃ b : Builtin, b.name = name := by
    rw [List.mem_map]
    exact exists_congr fun b => and_iff_right (by cases b <;> decide)
  rw [commandsStartingWith, mem_sortedNames, List.mem_filter, List.mem_append, hbuiltin,
    mem_fileNames, startsWith, List.isPrefixOf_iff_prefix, and_comm]

end Completion

/-! ## What a bare name refers to -/

/-- No builtin is called by a word exactly when no builtin has the word as its name. -/
theorem Builtin.ofName?_eq_none_iff {word : String} :
    ofName? word = none ↔ ∀ b : Builtin, b.name ≠ word := by
  rw [ofName?, List.find?_eq_none]
  constructor
  · intro h b
    have hb : b ∈ all := by cases b <;> decide
    simpa using h b hb
  · intro h b _
    simpa using h b

/-- A bare name is searched in all directories of the search path but the empty ones. -/
theorem findProgram_eq_none_iff {isFile : Path → Bool} {searchPath : List Path}
    {currentDirectory : Path} {name : String} (hname : name ≠ "") (hslash : '/' ∉ name.toList) :
    findProgram isFile searchPath currentDirectory ⟨name⟩ = none ↔
      ∀ dir ∈ searchPath, dir.text ≠ "" → isFile (dir.join ⟨name⟩) = false := by
  have hbare : Path.hasSlash ⟨name⟩ = false := by simpa [Path.hasSlash] using hslash
  simp [findProgram, Path.isAbsolute_of_notMem hslash, hname, hbare, fileAt?]

/-- A bare name refers to nothing when no builtin has it and no directory that is searched leads to
a regular file by it. -/
theorem resolve_eq_unresolved_iff {isFile : Path → Bool} {env : Environment} {name : String}
    (hname : name ≠ "") (hslash : '/' ∉ name.toList) :
    resolve isFile env name = .unresolved ↔
      (∀ b : Builtin, b.name ≠ name) ∧
        ∀ dir ∈ env.searchPath, dir.text ≠ "" → isFile (dir.join ⟨name⟩) = false := by
  rw [← @findProgram_eq_none_iff isFile env.searchPath env.currentDirectory name hname hslash,
    ← Builtin.ofName?_eq_none_iff]
  unfold resolve
  cases Builtin.ofName? name with
  | some b => simp
  | none => cases findProgram isFile env.searchPath env.currentDirectory ⟨name⟩ <;> simp

/-! ## Completion and search -/

section

variable {listDirectory : Path → Option (List DirectoryEntry)} {isFile : Path → Bool}

/-- A name that begins like the word and refers to something is a builtin, or a listed file if the
listings show the files of their directories. -/
theorem named_or_listed_of_resolve {env : Environment} {name : String} (hslash : '/' ∉ name.toList)
    (hshows : ∀ dir ∈ env.searchPath, dir.text ≠ "" → ShowsFiles listDirectory isFile dir)
    (hresolve : resolve isFile env name ≠ .unresolved) :
    (∃ b : Builtin, b.name = name) ∨ ∃ dir ∈ env.searchPath, Listed listDirectory dir name := by
  by_cases hname : name = ""
  · -- the empty name is neither a builtin nor searched
    subst hname
    exact absurd rfl hresolve
  rw [ne_eq, resolve_eq_unresolved_iff hname hslash, not_and_or] at hresolve
  push Not at hresolve
  rcases hresolve with hbuiltin | ⟨dir, hdir, htext, hfile⟩
  · exact .inl hbuiltin
  · exact .inr ⟨dir, hdir,
      hshows dir hdir htext name hname hslash (Bool.eq_true_of_not_eq_false hfile)⟩

/-- Completion misses no command. The names that it offers for a word are in strictly increasing
order, each begins with the word, and each is a builtin or the name of an entry in a directory of
the search path that is no directory. If the directories list the regular files in them and the
links to such files, then every bare name that begins with the word and refers to a builtin or a
program is offered. -/
theorem commandsStartingWith_covers (env : Environment) (word : String)
    (hshows : ∀ dir ∈ env.searchPath, dir.text ≠ "" → ShowsFiles listDirectory isFile dir) :
    (Completion.commandsStartingWith listDirectory env.searchPath word).Pairwise (· < ·) ∧
      (∀ name ∈ Completion.commandsStartingWith listDirectory env.searchPath word,
        word.toList <+: name.toList ∧
          ((∃ b : Builtin, b.name = name) ∨
            ∃ dir ∈ env.searchPath, Listed listDirectory dir name)) ∧
      ∀ name, word.toList <+: name.toList → '/' ∉ name.toList →
        resolve isFile env name ≠ .unresolved →
        name ∈ Completion.commandsStartingWith listDirectory env.searchPath word := by
  refine ⟨Completion.pairwise_sortedNames _, fun name hname => ?_, fun name hword hslash h => ?_⟩
  · exact Completion.mem_commandsStartingWith.mp hname
  · exact Completion.mem_commandsStartingWith.mpr
      ⟨hword, named_or_listed_of_resolve hslash hshows h⟩

/-- A machine whose directory bin holds a directory, a regular file, and links to this file, to a
directory and to nothing. -/
def linkedCommands : Machine :=
  .ofFiles ⟨#[.directory [("bin", 1), ("lib", 2)],
    .directory [("tome", 2), ("tool", 3), ("tooth", 4), ("topic", 5), ("torn", 6)],
    .directory [], .file .empty true, .link ⟨"tool"⟩, .link ⟨"../lib"⟩, .link ⟨"missing"⟩]⟩ []

/-- An environment in which commands are searched in bin, under the empty path, and in lib. -/
def linkedEnvironment : Environment := .initial [("PATH", "/bin::/lib")] ⟨"/"⟩

/-- The link to a regular file refers to a program, and it is offered. -/
theorem commandsStartingWith_covers_link :
    (∀ dir ∈ linkedEnvironment.searchPath, dir.text ≠ "" →
        ShowsFiles linkedCommands.listDirectory linkedCommands.isFile dir) ∧
      resolve linkedCommands.isFile linkedEnvironment "tooth" ≠ .unresolved ∧
      "tooth" ∈ Completion.commandsStartingWith linkedCommands.listDirectory
        linkedEnvironment.searchPath "to" := by
  have hshows : ∀ dir ∈ linkedEnvironment.searchPath, dir.text ≠ "" →
      ShowsFiles linkedCommands.listDirectory linkedCommands.isFile dir :=
    fun _ _ hdir => Machine.showsFiles (m := linkedCommands) trivial hdir
  have hresolve : resolve linkedCommands.isFile linkedEnvironment "tooth" ≠ .unresolved := by
    decide +kernel
  exact ⟨hshows, hresolve, (commandsStartingWith_covers linkedEnvironment "to" hshows).2.2 "tooth"
    (by decide) (by decide) hresolve⟩

/-- The names that are offered although they refer to nothing: those that begin with the word,
belong to no builtin, and are listed by some directory of the search path, while none of the
directories that are searched leads to a regular file by them. -/
theorem unresolved_offered_iff (env : Environment) (word name : String)
    (hnames : ∀ name ∈ Completion.fileNames listDirectory env.searchPath,
      name ≠ "" ∧ '/' ∉ name.toList) :
    (name ∈ Completion.commandsStartingWith listDirectory env.searchPath word ∧
        resolve isFile env name = .unresolved) ↔
      word.toList <+: name.toList ∧ (∀ b : Builtin, b.name ≠ name) ∧
        (∃ dir ∈ env.searchPath, Listed listDirectory dir name) ∧
        ∀ dir ∈ env.searchPath, dir.text ≠ "" → isFile (dir.join ⟨name⟩) = false := by
  rw [Completion.mem_commandsStartingWith]
  constructor
  · rintro ⟨⟨hword, hbuiltin | hlisted⟩, hresolve⟩
    · -- the name of a builtin always refers to the builtin
      obtain ⟨b, rfl⟩ := hbuiltin
      cases b <;> cases hresolve
    · obtain ⟨hname, hslash⟩ := hnames name (Completion.mem_fileNames.mpr hlisted)
      obtain ⟨hbuiltin, hfiles⟩ := (resolve_eq_unresolved_iff hname hslash).mp hresolve
      exact ⟨hword, hbuiltin, hlisted, hfiles⟩
  · rintro ⟨hword, hbuiltin, hlisted, hfiles⟩
    obtain ⟨hname, hslash⟩ := hnames name (Completion.mem_fileNames.mpr hlisted)
    exact ⟨⟨hword, .inr hlisted⟩, (resolve_eq_unresolved_iff hname hslash).mpr ⟨hbuiltin, hfiles⟩⟩

/-- The link to nothing is offered, and no directory leads to a regular file by its name. -/
theorem unresolved_offered_dangling_link :
    (∀ name ∈ Completion.fileNames linkedCommands.listDirectory linkedEnvironment.searchPath,
        name ≠ "" ∧ '/' ∉ name.toList) ∧
      "torn" ∈ Completion.commandsStartingWith linkedCommands.listDirectory
        linkedEnvironment.searchPath "to" ∧
      ∀ dir ∈ linkedEnvironment.searchPath, dir.text ≠ "" →
        linkedCommands.isFile (dir.join ⟨"torn"⟩) = false := by
  have hnames : ∀ name ∈ Completion.fileNames linkedCommands.listDirectory
      linkedEnvironment.searchPath, name ≠ "" ∧ '/' ∉ name.toList := by
    decide +kernel
  have hoffered : "torn" ∈ Completion.commandsStartingWith linkedCommands.listDirectory
      linkedEnvironment.searchPath "to" := by
    decide +kernel
  have hresolve : resolve linkedCommands.isFile linkedEnvironment "torn" = .unresolved := by
    decide +kernel
  obtain ⟨-, -, -, hfiles⟩ :=
    (unresolved_offered_iff linkedEnvironment "to" "torn" hnames).mp ⟨hoffered, hresolve⟩
  exact ⟨hnames, hoffered, hfiles⟩

/-- Not every name that is offered refers to something. -/
theorem exists_offered_unresolved :
    ¬∀ name ∈ Completion.commandsStartingWith linkedCommands.listDirectory
        linkedEnvironment.searchPath "to",
      resolve linkedCommands.isFile linkedEnvironment name ≠ .unresolved := by
  intro h
  exact h "torn" (by decide +kernel) (by decide +kernel)

end

end LineShell
