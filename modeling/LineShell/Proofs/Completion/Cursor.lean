import LineShell.Completion
import Mathlib.Data.List.Basic
import Mathlib.Data.List.TakeWhile

/-!
# The word before the cursor

The place of the cursor is a number of bytes, and so is the start of the word that is completed.
When the cursor stands between two characters, the line falls into three texts: what comes before
the word, the word itself, and what stands behind the cursor. Completion looks at the word alone,
and putting another word in its place divides the new line in the same way.
-/

namespace LineShell

namespace Completion

/-! ## Bytes and characters -/

/-- Characters take up the bytes of the text that they make up. -/
theorem byteCount_toList (text : String) : byteCount text.toList = text.utf8ByteSize := by
  suffices h : ∀ cs, byteCount cs = (String.ofList cs).utf8ByteSize by
    rw [h, String.ofList_toList]
  intro cs
  induction cs with
  | nil => rfl
  | cons c rest ih =>
    rw [byteCount, ih, String.ofList_cons, String.utf8ByteSize_append,
      String.utf8ByteSize_singleton]

/-- No bytes hold no characters. -/
theorem takeBytes_zero (cs : List Char) : takeBytes 0 cs = [] := by
  cases cs with
  | nil => rfl
  | cons c rest => rw [takeBytes, if_neg (Nat.not_le.mpr c.utf8Size_pos)]

/-- The bytes of the first characters hold these characters, whatever follows them. -/
theorem takeBytes_append (front rest : List Char) :
    takeBytes (byteCount front) (front ++ rest) = front := by
  induction front with
  | nil => exact takeBytes_zero rest
  | cons c more ih =>
    rw [byteCount, List.cons_append, takeBytes, if_pos (Nat.le_add_right _ _),
      Nat.add_sub_cancel_left, ih]

/-- The bytes of the first part of a text hold the characters of this part. -/
theorem takeBytes_text_append (front rest : String) :
    takeBytes front.utf8ByteSize (front ++ rest).toList = front.toList := by
  rw [← byteCount_toList, String.toList_append, takeBytes_append]

/-- A text takes up fewer bytes than another one that it begins when it is not all of it. -/
theorem utf8ByteSize_lt_of_isPrefix {start text : String} (h : start.toList <+: text.toList)
    (hne : start ≠ text) : start.utf8ByteSize < text.utf8ByteSize := by
  obtain ⟨rest, hrest⟩ := h
  have htext : text = start ++ String.ofList rest := String.toList_injective (by simp [hrest])
  have hmore : String.ofList rest ≠ "" := by
    intro hempty
    rw [hempty, String.append_empty] at htext
    exact hne htext.symm
  have hsize : (String.ofList rest).utf8ByteSize ≠ 0 := mt String.utf8ByteSize_eq_zero_iff.mp hmore
  rw [htext, String.utf8ByteSize_append]
  omega

/-! ## The parts of a line -/

/-- A line with its cursor at the end of a word. The word is as long as it can be, and the cursor is
given by the bytes before it. -/
structure WordAt (line : String) (cursor : Nat) (before word rest : String) : Prop where
  line_eq : line = before ++ word ++ rest
  cursor_eq : cursor = before.utf8ByteSize + word.utf8ByteSize
  word_inside : ∀ c ∈ word.toList, Text.isBlank c = false ∧ c ≠ '|'
  before_ends : ∀ c ∈ before.toList.getLast?, Text.isBlank c = true ∨ c = '|'

/-- Characters of a word are neither blank nor pipes. -/
theorem inWord_eq_true_iff {c : Char} : inWord c = true ↔ Text.isBlank c = false ∧ c ≠ '|' := by
  simp [inWord]

/-- Blank characters and pipes end a word. -/
theorem inWord_eq_false_iff {c : Char} : inWord c = false ↔ Text.isBlank c = true ∨ c = '|' := by
  cases hblank : Text.isBlank c <;> simp [inWord, hblank]

/-- A text consists of its last word and what stands before it. -/
theorem beforeLastWord_append_lastWord (cs : List Char) :
    beforeLastWord cs ++ lastWord cs = cs := by
  rw [beforeLastWord, lastWord, ← List.reverse_append, List.takeWhile_append_dropWhile,
    List.reverse_reverse]

/-- The last word of a text holds nothing that ends a word. -/
theorem inWord_of_mem_lastWord {cs : List Char} {c : Char} (h : c ∈ lastWord cs) :
    inWord c = true :=
  List.mem_takeWhile_imp (List.mem_reverse.mp h)

/-- What stands before the last word ends with something that ends a word. -/
theorem inWord_getLast?_beforeLastWord {cs : List Char} {c : Char}
    (h : c ∈ (beforeLastWord cs).getLast?) : inWord c = false := by
  have hhead := List.head?_dropWhile_not inWord cs.reverse
  rw [beforeLastWord, List.getLast?_reverse] at h
  rwa [Option.mem_def.mp h] at hhead

/-- Behind something that ends a word, or at the start of a text, a word begins. -/
theorem lastWord_append {before word : List Char} (hword : ∀ c ∈ word, inWord c = true)
    (hbefore : ∀ c ∈ before.getLast?, inWord c = false) :
    lastWord (before ++ word) = word ∧ beforeLastWord (before ++ word) = before := by
  have hreverse : ∀ c ∈ word.reverse, inWord c = true := by simpa using hword
  have hstop : before.reverse.takeWhile inWord = [] ∧
      before.reverse.dropWhile inWord = before.reverse := by
    cases hchars : before.reverse with
    | nil => exact ⟨rfl, rfl⟩
    | cons c more =>
      have hc : inWord c = false := hbefore c (by simp [← List.head?_reverse, hchars])
      simp [hc]
  rw [lastWord, beforeLastWord, List.reverse_append, List.takeWhile_append_of_pos hreverse,
    List.dropWhile_append_of_pos hreverse, hstop.1, hstop.2]
  simp

/-- A cursor between two characters stands at the end of a word, which may be empty. -/
theorem exists_wordAt {line : String} {cursor : Nat}
    (hcursor : String.Pos.Raw.IsValid line ⟨cursor⟩) :
    ∃ before word rest, WordAt line cursor before word rest := by
  obtain ⟨front, rest, hline, hbytes⟩ := String.Pos.Raw.isValid_iff_exists_append.mp hcursor
  have hfront : String.ofList (beforeLastWord front.toList) ++
      String.ofList (lastWord front.toList) = front :=
    String.toList_injective (by simp [beforeLastWord_append_lastWord])
  refine ⟨String.ofList (beforeLastWord front.toList), String.ofList (lastWord front.toList), rest,
    ?_, ?_, fun c hc => ?_, fun c hc => ?_⟩
  · rw [hfront, hline]
  · rw [← String.utf8ByteSize_append, hfront]
    exact congrArg String.Pos.Raw.byteIdx hbytes
  · rw [String.toList_ofList] at hc
    exact inWord_eq_true_iff.mp (inWord_of_mem_lastWord hc)
  · rw [String.toList_ofList] at hc
    exact inWord_eq_false_iff.mp (inWord_getLast?_beforeLastWord hc)

namespace WordAt

variable {line before word rest : String} {cursor : Nat}

/-- The cursor stands behind the word and what is before it. -/
theorem takeBytes_cursor (h : WordAt line cursor before word rest) :
    takeBytes cursor line.toList = (before ++ word).toList := by
  rw [h.cursor_eq, ← String.utf8ByteSize_append, h.line_eq, takeBytes_text_append]

/-- The word before the cursor is completed, and it starts behind all that is before it. -/
theorem complete_eq (h : WordAt line cursor before word rest)
    (listDirectory : Path → Option (List DirectoryEntry)) (searchPath : List Path) :
    complete listDirectory searchPath line cursor =
      ⟨before.utf8ByteSize,
        candidatesFor word (commandsStartingWith listDirectory searchPath word)⟩ := by
  obtain ⟨hlast, hbefore⟩ := lastWord_append
    (fun c hc => inWord_eq_true_iff.mpr (h.word_inside c hc))
    (fun c hc => inWord_eq_false_iff.mpr (h.before_ends c hc))
  simp only [complete, h.takeBytes_cursor, String.toList_append, hlast, hbefore,
    String.ofList_toList, byteCount_toList]

/-- The start of the word is a place between two characters. -/
theorem isValid_start (h : WordAt line cursor before word rest) :
    String.Pos.Raw.IsValid line ⟨before.utf8ByteSize⟩ := by
  refine String.Pos.Raw.isValid_iff_exists_append.mpr ⟨before, word ++ rest, ?_, rfl⟩
  rw [h.line_eq, String.append_assoc]

/-- Another word in the place of the word makes up a line that is divided in the same way. -/
theorem replace (h : WordAt line cursor before word rest) {other : String}
    (hother : ∀ c ∈ other.toList, Text.isBlank c = false ∧ c ≠ '|') :
    WordAt (before ++ other ++ rest) (before.utf8ByteSize + other.utf8ByteSize) before other rest :=
  ⟨rfl, rfl, hother, h.before_ends⟩

end WordAt

end Completion

end LineShell
