import LineShell.Proofs.FileSystem.Walk
import LineShell.Resolution

/-!
# The components of a path

A path has components: the root, names, and the dots that lead somewhere. Repeated slashes and
slashes at the end give none, and a single dot gives one only where a path starts with it. Programs
may as well be searched by the components of a name as by the place of its slashes. The components
say less than the text, but they always tell a bare name from the others.
-/

namespace LineShell

/-- A component of a path. -/
inductive PathComponent where
  | root
  | here
  | parent
  | name (text : String)
  deriving DecidableEq, Repr

namespace PathComponent

/-- The component as it is written. -/
def text : PathComponent → String
  | root => "/"
  | here => "."
  | parent => ".."
  | name text => text

/-- The component that a piece between slashes gives. -/
def ofPiece? (piece : List Char) : Option PathComponent :=
  if piece = [] then none
  else if piece = ['.'] then none
  else if piece = ['.', '.'] then some parent
  else some (name (String.ofList piece))

end PathComponent

namespace Path

/-- The components of a path. -/
def components (p : Path) : List PathComponent :=
  let pieces := Text.pieces '/' p.text.toList
  let start :=
    if p.isAbsolute then [PathComponent.root]
    else if pieces.head? = some ['.'] then [PathComponent.here]
    else []
  start ++ pieces.filterMap PathComponent.ofPiece?

end Path

/-- The program that a name stands for, found by the components of the name: a single component of a
name without a slash is searched, and several components are a path. -/
def findProgramByComponents (isFile : Path → Bool) (searchPath : List Path)
    (currentDirectory name : Path) : Option Path :=
  if name.isAbsolute then fileAt? isFile name
  else
    match name.components with
    | [] => none
    | [component] =>
      if name.hasSlash then fileAt? isFile (currentDirectory.join name)
      else (searchPath.filter fun dir => !dir.text.isEmpty).findSome? fun dir =>
        fileAt? isFile (dir.join ⟨component.text⟩)
    | _ :: _ :: _ => fileAt? isFile (currentDirectory.join name)

/-- The first piece of a text goes up to its first separator. -/
theorem Text.head?_pieces_cons {separator c : Char} (hc : c ≠ separator) (rest : List Char) :
    ∃ more, (pieces separator (c :: rest)).head? = some (c :: more) := by
  obtain ⟨first, others, hpieces⟩ := List.exists_cons_of_ne_nil (pieces_ne_nil separator rest)
  refine ⟨first, ?_⟩
  simp only [pieces, List.foldr_cons] at hpieces ⊢
  rw [hpieces, if_neg hc]
  rfl

namespace Path

/-- A path has a slash when one of its characters is a slash. -/
theorem hasSlash_eq_true_iff {p : Path} : p.hasSlash = true ↔ '/' ∈ p.text.toList := by
  simp [hasSlash]

/-- Only the empty path has no components. -/
theorem components_eq_nil_iff {p : Path} : p.components = [] ↔ p.text = "" := by
  constructor
  · intro hnone
    by_contra hne
    obtain ⟨c, rest, hchars⟩ :=
      List.exists_cons_of_ne_nil fun h => hne (String.toList_eq_nil_iff.mp h)
    obtain ⟨hstart, hpieces⟩ := List.append_eq_nil_iff.mp hnone
    by_cases hc : c = '/'
    · have habsolute : p.isAbsolute = true := by simp [isAbsolute, hchars, hc]
      rw [if_pos habsolute] at hstart
      cases hstart
    · -- The first piece is not empty, so it gives a component or is the dot at the start.
      obtain ⟨more, hfirst⟩ := Text.head?_pieces_cons hc rest
      rw [← hchars] at hfirst
      have hpiece := List.filterMap_eq_nil_iff.mp hpieces _ (List.mem_of_mem_head? hfirst)
      have hrelative : p.isAbsolute = false := by simpa [isAbsolute, hchars] using hc
      rw [hrelative, hfirst, if_neg Bool.false_ne_true] at hstart
      by_cases hdot : c :: more = ['.']
      · rw [if_pos (congrArg some hdot)] at hstart
        cases hstart
      · rw [PathComponent.ofPiece?, if_neg (List.cons_ne_nil _ _), if_neg hdot] at hpiece
        split at hpiece <;> cases hpiece
  · intro hempty
    simp [components, isAbsolute, hempty, Text.pieces, PathComponent.ofPiece?]

/-- A name without a slash is its only component. -/
theorem components_of_bare {name : String} (hname : name ≠ "") (hslash : '/' ∉ name.toList) :
    ∃ component, components ⟨name⟩ = [component] ∧ component.text = name := by
  have hchars : name.toList ≠ [] := fun h => hname (String.toList_eq_nil_iff.mp h)
  have hcomponents : components ⟨name⟩ =
      (if name.toList = ['.'] then [.here] else []) ++
        [name.toList].filterMap PathComponent.ofPiece? := by
    simp [components, isAbsolute_of_notMem hslash, Text.pieces_of_notMem hslash]
  by_cases hdot : name.toList = ['.']
  · refine ⟨.here, ?_, String.toList_injective hdot.symm⟩
    rw [hcomponents, if_pos hdot, hdot]
    rfl
  · by_cases hdots : name.toList = ['.', '.']
    · refine ⟨.parent, ?_, String.toList_injective hdots.symm⟩
      rw [hcomponents, if_neg hdot, hdots]
      rfl
    · refine ⟨.name name, ?_, rfl⟩
      simp [hcomponents, hdot, PathComponent.ofPiece?, hchars, hdots]

end Path

/-- The components of a name lead to the same program as the place of its slashes. -/
theorem findProgramByComponents_eq (isFile : Path → Bool) (searchPath : List Path)
    (currentDirectory name : Path) :
    findProgramByComponents isFile searchPath currentDirectory name =
      findProgram isFile searchPath currentDirectory name := by
  obtain ⟨text⟩ := name
  unfold findProgramByComponents findProgram
  by_cases habsolute : Path.isAbsolute ⟨text⟩
  · rw [if_pos habsolute, if_pos habsolute]
  rw [if_neg habsolute, if_neg habsolute]
  by_cases hempty : text = ""
  · rw [Path.components_eq_nil_iff.mpr hempty, if_pos (String.isEmpty_iff.mpr hempty)]
  rw [if_neg (mt String.isEmpty_iff.mp hempty)]
  by_cases hslash : Path.hasSlash ⟨text⟩
  · rw [if_pos hslash]
    split
    · rename_i hnone
      exact absurd (Path.components_eq_nil_iff.mp hnone) hempty
    · exact if_pos hslash
    · rfl
  · obtain ⟨component, hcomponents, htext⟩ :=
      Path.components_of_bare hempty (mt Path.hasSlash_eq_true_iff.mpr hslash)
    simp only [hcomponents, htext, if_neg hslash]

end LineShell
