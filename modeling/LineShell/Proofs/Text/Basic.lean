import LineShell.Text.Blank
import Mathlib.Data.List.TakeWhile

/-!
# Bytes, pieces and blanks

The bytes of a text are read as this text. A text falls into pieces at the occurrences of a
separator. What is left of it when the blanks at its ends are removed is trimmed for good, and
further blanks around the text make no difference to it.
-/

namespace LineShell.Text

/-! ## Bytes -/

/-- Bytes are read as the text whose bytes they are. -/
theorem fromUTF8?_eq_some_iff {bytes : ByteArray} {text : String} :
    String.fromUTF8? bytes = some text ↔ bytes = text.toUTF8 := by
  unfold String.fromUTF8?
  split
  · rename_i hvalid
    rw [Option.some_inj]
    exact ⟨fun h => h ▸ rfl, fun h => String.toByteArray_inj.mp h⟩
  · rename_i hvalid
    exact iff_of_false nofun fun h => hvalid (h ▸ text.isValidUTF8)

/-! ## Pieces -/

/-- The pieces of a text are what the library splits it into. -/
theorem pieces_eq_splitOn (separator : Char) (cs : List Char) :
    pieces separator cs = cs.splitOn separator := by
  induction cs with
  | nil => rfl
  | cons c rest ih =>
    obtain ⟨first, others, hsplit⟩ :=
      List.exists_cons_of_ne_nil (List.splitOn_ne_nil separator rest)
    rw [List.splitOn_cons_eq_if_modifyHead, pieces, List.foldr_cons, ← pieces, ih, hsplit]
    simp only [beq_iff_eq]
    rfl

/-- A row of pieces is never empty. -/
theorem pieces_ne_nil (separator : Char) (cs : List Char) : pieces separator cs ≠ [] := by
  rw [pieces_eq_splitOn]
  exact List.splitOn_ne_nil separator cs

/-- A separator divides the pieces before it from those after it. -/
theorem pieces_append_separator (separator : Char) (first second : List Char) :
    pieces separator (first ++ separator :: second) =
      pieces separator first ++ pieces separator second := by
  simp only [pieces_eq_splitOn, List.splitOn_append_cons_self]

/-- A text without a separator is one piece. -/
theorem pieces_of_notMem {separator : Char} {cs : List Char} (h : separator ∉ cs) :
    pieces separator cs = [cs] := by
  rw [pieces_eq_splitOn, List.splitOn_eq_singleton h]

/-! ## Blanks -/

/-- All characters are blank. -/
def AllBlank (text : String) : Prop := ∀ c ∈ text.toList, isBlank c = true

/-- A text neither begins nor ends with a blank character. -/
structure IsTrimmed (text : String) : Prop where
  head : ∀ c ∈ text.toList.head?, isBlank c = false
  last : ∀ c ∈ text.toList.getLast?, isBlank c = false

/-- What is left begins with no blank. -/
theorem isBlank_head?_dropBlanks {cs : List Char} {c : Char} (h : c ∈ (dropBlanks cs).head?) :
    isBlank c = false := by
  have hhead := List.head?_dropWhile_not isBlank cs
  rw [dropBlanks, Option.mem_def] at h
  rwa [h] at hhead

/-- Nothing is removed before a character that is not blank. -/
theorem dropBlanks_eq_self {cs : List Char} (h : ∀ c ∈ cs.head?, isBlank c = false) :
    dropBlanks cs = cs := by
  cases cs with
  | nil => rfl
  | cons c rest =>
    have hc : isBlank c = false := h c rfl
    rw [dropBlanks, List.dropWhile_cons_of_neg (by simp [hc])]

/-- Behind the blanks in front, a text is its trimmed form and the blanks at its end. -/
theorem dropBlanks_eq_trim_append (text : String) :
    dropBlanks text.toList =
      (trim text).toList ++ ((dropBlanks text.toList).reverse.takeWhile isBlank).reverse := by
  rw [trim, String.toList_ofList, dropBlanksEnd, ← List.reverse_append,
    List.takeWhile_append_dropWhile, List.reverse_reverse]

/-- What is left of a text is trimmed. -/
theorem isTrimmed_trim (text : String) : IsTrimmed (trim text) := by
  refine ⟨fun c hc => ?_, fun c hc => ?_⟩
  · have hhead : c ∈ (dropBlanks text.toList).head? := by
      rw [dropBlanks_eq_trim_append, List.head?_append, Option.mem_def.mp hc]
      rfl
    exact isBlank_head?_dropBlanks hhead
  · rw [trim, String.toList_ofList, dropBlanksEnd, List.getLast?_reverse] at hc
    exact isBlank_head?_dropBlanks hc

/-- A trimmed text is left as it is. -/
theorem IsTrimmed.trim_eq {text : String} (h : IsTrimmed text) : trim text = text := by
  have hlast : ∀ c ∈ text.toList.reverse.head?, isBlank c = false := by
    rw [List.head?_reverse]
    exact h.last
  rw [trim, dropBlanks_eq_self h.head, dropBlanksEnd, ← dropBlanks, dropBlanks_eq_self hlast,
    List.reverse_reverse, String.ofList_toList]

/-- A text that consists of blanks has nothing left. -/
theorem AllBlank.trim_eq {text : String} (h : AllBlank text) : trim text = "" := by
  rw [trim, dropBlanks, List.dropWhile_eq_nil_iff.mpr h]
  rfl

/-- A text is what is left of it, between blanks. -/
theorem exists_padding (text : String) :
    ∃ before after, AllBlank before ∧ AllBlank after ∧ text = before ++ trim text ++ after := by
  refine ⟨String.ofList (text.toList.takeWhile isBlank),
    String.ofList ((dropBlanks text.toList).reverse.takeWhile isBlank).reverse, ?_, ?_, ?_⟩
  · intro c hc
    rw [String.toList_ofList] at hc
    exact List.mem_takeWhile_imp hc
  · intro c hc
    rw [String.toList_ofList, List.mem_reverse] at hc
    exact List.mem_takeWhile_imp hc
  · apply String.toList_injective
    rw [String.toList_append, String.toList_append, String.toList_ofList, String.toList_ofList,
      List.append_assoc, ← dropBlanks_eq_trim_append, dropBlanks, List.takeWhile_append_dropWhile]

/-- Blanks around a text make no difference to what is left of it. -/
theorem trim_padded {before after : String} (hbefore : AllBlank before) (hafter : AllBlank after)
    (text : String) : trim (before ++ text ++ after) = trim text := by
  simp only [trim, String.toList_append, dropBlanks]
  rw [List.append_assoc, List.dropWhile_append_of_pos hbefore, List.dropWhile_append]
  split
  next hempty =>
    rw [List.isEmpty_iff.mp hempty, List.dropWhile_eq_nil_iff.mpr hafter]
  next =>
    have hreverse : ∀ c ∈ after.toList.reverse, isBlank c = true :=
      fun c hc => hafter c (List.mem_reverse.mp hc)
    rw [dropBlanksEnd, dropBlanksEnd, List.reverse_append, List.dropWhile_append_of_pos hreverse]

end LineShell.Text
