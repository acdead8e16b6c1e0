import LineShell.Proofs.FileSystem.Components
import Mathlib.Data.List.Basic

/-!
# Where a program is found

A name that begins with a slash is a path of its own, any other name with a slash is a path from the
current directory, and a bare name is searched in the directories of the variable PATH. Only the
first directory counts that leads to a file, so nothing changes when others are added that lead to
none or come later.
-/

namespace LineShell

/-! ## The directories of the variable PATH -/

/-- The elements of a list of directories: the texts between its colons, empty ones included. -/
def pathElements (path : String) : List String := (path.toList.splitOn ':').map String.ofList

/-- Elements without colons are the elements of the list that they make up with colons between. -/
theorem pathElements_intercalate {elements : List String}
    (h : ∀ element ∈ elements, ':' ∉ element.toList) (hne : elements ≠ []) :
    pathElements (":".intercalate elements) = elements := by
  have hcolons : ∀ piece ∈ elements.map String.toList, ':' ∉ piece := by simpa using h
  have htext : ":".toList = [':'] := rfl
  rw [pathElements, String.toList_intercalate, htext,
    List.splitOn_intercalate ':' hcolons (by simpa using hne)]
  simp

namespace Environment

/-- The value of a variable that was set is the one that it was given. -/
theorem get?_set (env : Environment) (name value : String) :
    (env.set name value).get? name = some value := by
  show (assign name value env.bindings).lookup name = some value
  induction env.bindings with
  | nil => simp [assign]
  | cons binding rest ih =>
    rw [assign]
    split
    · simp
    · rename_i hother
      rw [List.lookup_cons, beq_eq_false_iff_ne.mpr (Ne.symm hother)]
      exact ih

/-- Commands are searched in the elements of the variable PATH. -/
theorem searchPath_eq {env : Environment} {path : String} (h : env.get? "PATH" = some path) :
    env.searchPath = (pathElements path).map Path.mk := by
  simp only [searchPath, h, pathElements, Text.pieces_eq_splitOn, List.map_map]
  rfl

end Environment

/-! ## The kinds of names -/

/-- Whether a directory of a search path leads to a file by a name. The empty path does not. -/
def leadsTo (isFile : Path → Bool) (name element : String) : Bool :=
  !element.isEmpty && isFile (Path.join ⟨element⟩ ⟨name⟩)

/-- A directory leads to a file when its path is not empty and the path to the name is a file. -/
theorem leadsTo_eq_true_iff {isFile : Path → Bool} {name element : String} :
    leadsTo isFile name element = true ↔
      element ≠ "" ∧ isFile (Path.join ⟨element⟩ ⟨name⟩) = true := by
  simp [leadsTo]

/-- A directory leads to no file when its path is empty or the path to the name is no file. -/
theorem leadsTo_eq_false_iff {isFile : Path → Bool} {name element : String} :
    leadsTo isFile name element = false ↔
      element = "" ∨ isFile (Path.join ⟨element⟩ ⟨name⟩) = false := by
  cases hfile : isFile (Path.join ⟨element⟩ ⟨name⟩) <;> simp [leadsTo, hfile]

/-- A name that begins with a slash stands for the file of this path. -/
theorem findProgram_of_absolute (isFile : Path → Bool) (searchPath : List Path)
    (currentDirectory : Path) {name : String} (hstart : name.toList.head? = some '/') :
    findProgram isFile searchPath currentDirectory ⟨name⟩ = fileAt? isFile ⟨name⟩ := by
  have habsolute : Path.isAbsolute ⟨name⟩ = true := by simpa [Path.isAbsolute] using hstart
  rw [findProgram, if_pos habsolute]

/-- Any other name with a slash stands for a file from the current directory. -/
theorem findProgram_of_relative (isFile : Path → Bool) (searchPath : List Path)
    (currentDirectory : Path) {name : String} (hstart : name.toList.head? ≠ some '/')
    (hslash : '/' ∈ name.toList) :
    findProgram isFile searchPath currentDirectory ⟨name⟩ =
      fileAt? isFile (currentDirectory.join ⟨name⟩) := by
  have hrelative : ¬Path.isAbsolute ⟨name⟩ = true := by simpa [Path.isAbsolute] using hstart
  have hname : ¬name.isEmpty = true := by
    rw [String.isEmpty_iff]
    rintro rfl
    exact absurd hslash (by simp)
  rw [findProgram, if_neg hrelative, if_neg hname, if_pos (Path.hasSlash_eq_true_iff.mpr hslash)]

/-- A bare name stands for the file in the first directory that leads to one. -/
theorem findProgram_of_bare (isFile : Path → Bool) (elements : List String)
    (currentDirectory : Path) {name : String} (hname : name ≠ "") (hbare : '/' ∉ name.toList) :
    findProgram isFile (elements.map Path.mk) currentDirectory ⟨name⟩ =
      (elements.find? (leadsTo isFile name)).map fun dir => Path.join ⟨dir⟩ ⟨name⟩ := by
  rw [findProgram, Path.isAbsolute_of_notMem hbare, if_neg Bool.false_ne_true,
    if_neg (mt String.isEmpty_iff.mp hname), if_neg (mt Path.hasSlash_eq_true_iff.mp hbare)]
  induction elements with
  | nil => rfl
  | cons element rest ih =>
    rw [List.map_cons, List.filter_cons, List.find?_cons, leadsTo]
    cases element.isEmpty with
    | true => simpa using ih
    | false =>
      cases hfile : isFile (Path.join ⟨element⟩ ⟨name⟩) with
      | true => simp [fileAt?, hfile]
      | false => simpa [fileAt?, hfile] using ih

/-- A name with a slash stands for the same program whatever the variable PATH is. -/
theorem findProgram_of_hasSlash (isFile : Path → Bool) (searchPath other : List Path)
    (currentDirectory : Path) {name : String} (hslash : '/' ∈ name.toList) :
    findProgram isFile searchPath currentDirectory ⟨name⟩ =
      findProgram isFile other currentDirectory ⟨name⟩ := by
  by_cases hstart : name.toList.head? = some '/'
  · rw [findProgram_of_absolute isFile _ _ hstart, findProgram_of_absolute isFile _ _ hstart]
  · rw [findProgram_of_relative isFile _ _ hstart hslash,
      findProgram_of_relative isFile _ _ hstart hslash]

/-! ## The rule -/

/-- The program that a name stands for, with the reason. -/
inductive FoundAt (isFile : Path → Bool) (path : String) (currentDirectory : Path)
    (name : String) : Path → Prop where
  /-- The name is the path of a file from the root. -/
  | absolute (hstart : name.toList.head? = some '/') (hfile : isFile ⟨name⟩ = true) :
    FoundAt isFile path currentDirectory name ⟨name⟩
  /-- The name has a slash behind its start and is the path of a file from the current directory. -/
  | relative (hstart : name.toList.head? ≠ some '/') (hslash : '/' ∈ name.toList)
    (hfile : isFile (currentDirectory.join ⟨name⟩) = true) :
    FoundAt isFile path currentDirectory name (currentDirectory.join ⟨name⟩)
  /-- The name has no slash, and this directory is the first that leads to a file by it. -/
  | searched {before after : List String} {dir : String} (hname : name ≠ "")
    (hbare : '/' ∉ name.toList) (hpath : pathElements path = before ++ dir :: after)
    (hdir : dir ≠ "") (hfile : isFile (Path.join ⟨dir⟩ ⟨name⟩) = true)
    (hfirst : ∀ earlier ∈ before,
      earlier = "" ∨ isFile (Path.join ⟨earlier⟩ ⟨name⟩) = false) :
    FoundAt isFile path currentDirectory name (Path.join ⟨dir⟩ ⟨name⟩)

/-- A program that is found is a file. -/
theorem FoundAt.isFile {isFile : Path → Bool} {path name : String} {currentDirectory p : Path}
    (h : FoundAt isFile path currentDirectory name p) : isFile p = true := by
  cases h <;> assumption

/-- A program is found by the rule and by nothing else. -/
theorem findProgram_eq_some_iff {isFile : Path → Bool} {path name : String}
    {currentDirectory p : Path} :
    findProgram isFile ((pathElements path).map Path.mk) currentDirectory ⟨name⟩ = some p ↔
      FoundAt isFile path currentDirectory name p := by
  by_cases hslash : '/' ∈ name.toList
  · by_cases hstart : name.toList.head? = some '/'
    · rw [findProgram_of_absolute isFile _ _ hstart, fileAt?, Option.ite_none_right_eq_some]
      constructor
      · rintro ⟨hfile, heq⟩
        obtain rfl := Option.some.inj heq
        exact .absolute hstart hfile
      · intro hfound
        cases hfound with
        | absolute _ hfile => exact ⟨hfile, rfl⟩
        | relative hother => exact absurd hstart hother
        | searched _ hbare => exact absurd hslash hbare
    · rw [findProgram_of_relative isFile _ _ hstart hslash, fileAt?,
        Option.ite_none_right_eq_some]
      constructor
      · rintro ⟨hfile, heq⟩
        obtain rfl := Option.some.inj heq
        exact .relative hstart hslash hfile
      · intro hfound
        cases hfound with
        | absolute hother => exact absurd hother hstart
        | relative _ _ hfile => exact ⟨hfile, rfl⟩
        | searched _ hbare => exact absurd hslash hbare
  · by_cases hname : name = ""
    · subst hname
      refine iff_of_false (fun h => by cases h) fun hfound => ?_
      cases hfound with
      | absolute hstart => cases hstart
      | relative _ hother => exact hslash hother
      | searched hname => exact hname rfl
    · rw [findProgram_of_bare isFile _ currentDirectory hname hslash, Option.map_eq_some_iff]
      constructor
      · rintro ⟨dir, hfind, rfl⟩
        obtain ⟨hleads, before, after, hpath, hbefore⟩ := List.find?_eq_some_iff_append.mp hfind
        obtain ⟨hdir, hfile⟩ := leadsTo_eq_true_iff.mp hleads
        exact .searched hname hslash hpath hdir hfile fun earlier hearlier =>
          leadsTo_eq_false_iff.mp (by simpa using hbefore earlier hearlier)
      · intro hfound
        cases hfound with
        | absolute hstart => exact absurd (List.mem_of_mem_head? hstart) hslash
        | relative _ hother => exact absurd hother hslash
        | @searched before after dir _ _ hpath hdir hfile hfirst =>
          refine ⟨dir, List.find?_eq_some_iff_append.mpr
            ⟨leadsTo_eq_true_iff.mpr ⟨hdir, hfile⟩, before, after, hpath, ?_⟩, rfl⟩
          intro earlier hearlier
          simpa using leadsTo_eq_false_iff.mpr (hfirst earlier hearlier)

/-- In a list with elements that lead to no file or come behind one that does, the first element
that leads to a file is the one without them. -/
theorem find?_leadsTo_insert {isFile : Path → Bool} {name : String}
    {front added : List String} (back : List String)
    (hadded : ∀ element ∈ added, element = "" ∨ isFile (Path.join ⟨element⟩ ⟨name⟩) = false ∨
      ∃ dir ∈ front, dir ≠ "" ∧ isFile (Path.join ⟨dir⟩ ⟨name⟩) = true) :
    (front ++ added ++ back).find? (leadsTo isFile name) =
      (front ++ back).find? (leadsTo isFile name) := by
  rw [List.append_assoc, List.find?_append, List.find?_append, List.find?_append]
  cases hfront : front.find? (leadsTo isFile name) with
  | some dir => rfl
  | none =>
    have hnone : added.find? (leadsTo isFile name) = none := by
      refine List.find?_eq_none.mpr fun element helement => ?_
      rw [Bool.not_eq_true, leadsTo_eq_false_iff]
      rcases hadded element helement with hempty | hfile | ⟨dir, hdir, hleads⟩
      · exact .inl hempty
      · exact .inr hfile
      · exact absurd (leadsTo_eq_true_iff.mpr hleads) (List.find?_eq_none.mp hfront dir hdir)
    rw [hnone, Option.none_or]

/-- Of a list of elements the same one is searched first whether or not the list is written out. -/
theorem find?_pathElements_intercalate {isFile : Path → Bool} {name : String}
    {elements : List String} (h : ∀ element ∈ elements, ':' ∉ element.toList) :
    (pathElements (":".intercalate elements)).find? (leadsTo isFile name) =
      elements.find? (leadsTo isFile name) := by
  by_cases hne : elements = []
  · -- The list without elements is written as the empty text, which has one empty element.
    subst hne
    rfl
  · rw [pathElements_intercalate h hne]

/-- A name stands for the program that the rule gives and for nothing else. A name that begins with
a slash is looked up as it is, and any other name with a slash from the current directory; a bare
name is looked up in the elements of the variable PATH, of which the first that is not empty and
leads to a file counts, and then the current directory plays no part. The same programs are found
when names are taken apart into components. What is found is a file. It stays the same when elements
are added to the variable that are empty, lead to no file by this name, or come behind one that
does. -/
theorem findProgram_eq_some_iff_foundAt (isFile : Path → Bool) {env : Environment} {path : String}
    (hpath : env.get? "PATH" = some path) (name : String) :
    let found := findProgram isFile env.searchPath env.currentDirectory ⟨name⟩
    (∀ p, found = some p ↔ FoundAt isFile path env.currentDirectory name p) ∧
      findProgramByComponents isFile env.searchPath env.currentDirectory ⟨name⟩ = found ∧
      ('/' ∉ name.toList → ∀ directory,
        findProgram isFile env.searchPath directory ⟨name⟩ = found) ∧
      (∀ p, found = some p → isFile p = true) ∧
      ∀ front added back : List String,
        (∀ element ∈ front ++ added ++ back, ':' ∉ element.toList) →
        path = ":".intercalate (front ++ back) →
        (∀ element ∈ added, element = "" ∨ isFile (Path.join ⟨element⟩ ⟨name⟩) = false ∨
          ∃ dir ∈ front, dir ≠ "" ∧ isFile (Path.join ⟨dir⟩ ⟨name⟩) = true) →
        findProgram isFile (env.set "PATH" (":".intercalate (front ++ added ++ back))).searchPath
          env.currentDirectory ⟨name⟩ = found := by
  intro found
  have hsearch := Environment.searchPath_eq hpath
  have hfound : ∀ p, found = some p ↔ FoundAt isFile path env.currentDirectory name p := by
    intro p
    rw [← findProgram_eq_some_iff, ← hsearch]
  refine ⟨hfound, findProgramByComponents_eq isFile env.searchPath env.currentDirectory ⟨name⟩,
    fun hbare directory => ?_, fun p hp => ((hfound p).mp hp).isFile,
    fun front added back hcolons hwritten hadded => ?_⟩
  · by_cases hname : name = ""
    · subst hname
      rfl
    · simp only [found, hsearch, findProgram_of_bare isFile _ _ hname hbare]
  · by_cases hslash : '/' ∈ name.toList
    · exact findProgram_of_hasSlash isFile _ _ _ hslash
    · by_cases hname : name = ""
      · subst hname
        rfl
      have hold : ∀ element ∈ front ++ back, ':' ∉ element.toList := by
        intro element helement
        refine hcolons element ?_
        simp only [List.mem_append] at helement ⊢
        tauto
      simp only [found, hsearch, Environment.searchPath_eq (env.get?_set "PATH" _),
        findProgram_of_bare isFile _ _ hname hslash, hwritten,
        find?_pathElements_intercalate hcolons, find?_pathElements_intercalate hold,
        find?_leadsTo_insert back hadded]

/-- The tool in the second directory is found when the first one, between two empty elements, has
none, and it stays the one that is found when a directory with another tool is added behind. -/
theorem findProgram_eq_some_iff_foundAt_second :
    let env : Environment := .initial [("PATH", ":/a::/b")] ⟨"/home"⟩
    let isFile (p : Path) : Bool := ["/b/tool", "/c/tool", "tool", "/home/tool"].contains p.text
    env.get? "PATH" = some ":/a::/b" ∧
      FoundAt isFile ":/a::/b" ⟨"/home"⟩ "tool" ⟨"/b/tool"⟩ ∧
      findProgram isFile (env.set "PATH" ":/a::/b:/c").searchPath env.currentDirectory ⟨"tool"⟩ =
        some ⟨"/b/tool"⟩ := by
  intro env isFile
  have hpath : env.get? "PATH" = some ":/a::/b" := by decide
  have hfound : findProgram isFile env.searchPath env.currentDirectory ⟨"tool"⟩ =
      some ⟨"/b/tool"⟩ := by
    decide +kernel
  obtain ⟨hrule, -, -, -, hextend⟩ := findProgram_eq_some_iff_foundAt isFile hpath "tool"
  refine ⟨hpath, (hrule _).mp hfound, ?_⟩
  rw [← hfound]
  refine hextend ["", "/a", "", "/b"] ["/c"] [] (by decide) (by decide +kernel)
    fun element helement => .inr (.inr ⟨"/b", by decide, by decide, by decide +kernel⟩)

end LineShell
