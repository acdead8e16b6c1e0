import LineShell.Builtin.Call

/-!
# The numbers of history entries

An entry is listed behind its number, which is its position in the whole history, counted from one.
A listing with a limit shows the last of these lines. So a number depends neither on the limit nor
on what is added to the history later.
-/

namespace LineShell

/-- Entries as they are listed, each behind its position, counted from one. -/
def numbered (entries : List String) : List String :=
  entries.mapIdx fun i entry => toString (i + 1) ++ " " ++ entry

/-- The lines that list entries up to a limit: the last ones of all lines, as many as the limit
allows. Without a limit they are all lines. -/
structure Lists (entries : List String) (limit : Option Nat) (lines : List String) : Prop where
  isSuffix : lines <:+ numbered entries
  length_eq : lines.length = limit.elim entries.length (min entries.length)

/-- There is a line for each entry. -/
@[simp] theorem length_numbered (entries : List String) :
    (numbered entries).length = entries.length := List.length_mapIdx

/-- The line for an entry at the end is added at the end. -/
theorem numbered_concat (entries : List String) (entry : String) :
    numbered (entries ++ [entry]) =
      numbered entries ++ [toString (entries.length + 1) ++ " " ++ entry] :=
  List.mapIdx_concat

/-- A number does not change when entries are added. -/
theorem numbered_append (entries more : List String) :
    numbered entries <+: numbered (entries ++ more) := by
  rw [numbered, numbered, List.mapIdx_append]
  exact List.prefix_append _ _

/-- The line for an entry begins with its position. -/
theorem getElem?_numbered (entries : List String) (i : Nat) :
    (numbered entries)[i]? = entries[i]?.map fun entry => toString (i + 1) ++ " " ++ entry :=
  List.getElem?_mapIdx

/-- The end of all lines from the place where the limit begins is the listing. -/
theorem lists_drop (entries : List String) (limit : Option Nat) :
    Lists entries limit ((numbered entries).drop (entries.length - limit.getD entries.length)) := by
  refine ⟨List.drop_suffix _ _, ?_⟩
  rw [List.length_drop, length_numbered]
  cases limit with
  | none => simp
  | some k =>
    simp only [Option.getD_some, Option.elim_some]
    omega

/-- There is one listing for each limit. -/
theorem Lists.unique {entries lines others : List String} {limit : Option Nat}
    (h : Lists entries limit lines) (hothers : Lists entries limit others) : others = lines := by
  have hlength : others.length = lines.length := by rw [hothers.length_eq, h.length_eq]
  exact (List.suffix_of_suffix_length_le hothers.isSuffix h.isSuffix
    (Nat.le_of_eq hlength)).eq_of_length hlength

/-- The lines of a listing show the last entries, each with its position. -/
theorem Lists.getElem?_eq {entries lines : List String} {limit : Option Nat}
    (h : Lists entries limit lines) (i : Nat) :
    lines[i]? = entries[entries.length - lines.length + i]?.map fun entry =>
      toString (entries.length - lines.length + i + 1) ++ " " ++ entry := by
  obtain ⟨front, hfront⟩ := h.isSuffix
  have hlength : front.length = entries.length - lines.length := by
    have hsum := congrArg List.length hfront
    rw [List.length_append, length_numbered] at hsum
    omega
  rw [← hlength, ← getElem?_numbered, ← hfront, List.getElem?_append_right (Nat.le_add_right _ _),
    Nat.add_sub_cancel_left]

/-- A limit allows no more entries than another one. -/
def LimitLE (limit other : Option Nat) : Prop :=
  ∀ k, other = some k → ∃ j, limit = some j ∧ j ≤ k

/-- When each of two limits is lowered by one, the smaller one stays the smaller one. -/
theorem LimitLE.pred {limit other : Option Nat} (h : LimitLE limit other) :
    LimitLE (limit.map (· - 1)) (other.map (· - 1)) := by
  intro k hk
  obtain ⟨above, rfl, rfl⟩ := Option.map_eq_some_iff.mp hk
  obtain ⟨j, rfl, hle⟩ := h above rfl
  exact ⟨j - 1, rfl, Nat.sub_le_sub_right hle 1⟩

/-- The listing for a smaller limit is the end of the one for a larger limit. -/
theorem Lists.isSuffix_of_limitLE {entries lines others : List String}
    {limit otherLimit : Option Nat} (h : Lists entries limit lines)
    (hothers : Lists entries otherLimit others) (hle : LimitLE limit otherLimit) :
    lines <:+ others := by
  refine List.suffix_of_suffix_length_le h.isSuffix hothers.isSuffix ?_
  rw [h.length_eq, hothers.length_eq]
  cases otherLimit with
  | none =>
    cases limit with
    | none => exact Nat.le_refl _
    | some j => exact Nat.min_le_left _ _
  | some k =>
    obtain ⟨j, rfl, hjk⟩ := hle k rfl
    exact Nat.le_min_of_le_of_le (Nat.min_le_left _ _) (Nat.le_trans (Nat.min_le_right _ _) hjk)

/-- A listing without its last line lists the entries without the last one, up to a limit that is
lower by one. -/
theorem Lists.dropLast {entries lines : List String} {entry : String} {limit : Option Nat}
    (h : Lists (entries ++ [entry]) limit lines) :
    Lists entries (limit.map (· - 1)) lines.dropLast := by
  refine ⟨?_, ?_⟩
  · obtain ⟨front, hfront⟩ := h.isSuffix
    rw [numbered_concat] at hfront
    by_cases hne : lines = []
    · rw [hne]
      exact List.nil_suffix
    · refine ⟨front, ?_⟩
      rw [← List.dropLast_append_of_ne_nil hne, hfront, List.dropLast_concat]
  · rw [List.length_dropLast, h.length_eq, List.length_append, List.length_singleton]
    cases limit with
    | none => rfl
    | some k =>
      simp only [Option.elim_some, Option.map_some]
      omega

/-- The last line of a listing is that of the last entry, whose number is that of all entries. -/
theorem Lists.getLast?_eq {entries lines : List String} {limit : Option Nat}
    (h : Lists entries limit lines) (hne : lines ≠ []) :
    lines.getLast? = entries.getLast?.map fun entry => toString entries.length ++ " " ++ entry := by
  obtain ⟨front, hfront⟩ := h.isSuffix
  have hlast : (numbered entries).getLast? = lines.getLast? := by
    rw [← hfront, List.getLast?_append, Option.or_of_isSome (List.getLast?_isSome.mpr hne)]
  rw [← hlast, numbered, List.getLast?_mapIdx]
  cases entries with
  | nil => rfl
  | cons entry rest => simp

/-- The end of a history up to a limit is listed. -/
theorem lists_tail (h : History) (limit : Option Nat) :
    Lists h.toList limit ((h.tail limit).map BuiltinCall.historyLine) := by
  have hlines : (h.tail limit).map BuiltinCall.historyLine =
      (numbered h.toList).drop (h.toList.length - limit.getD h.toList.length) := by
    rw [numbered, List.mapIdx_eq_zipIdx_map, ← List.map_drop, History.tail, History.size,
      ← Array.length_toList, ← History.toList, List.zipIdx_succ, ← List.map_drop, List.map_map,
      List.map_map]
    rfl
  rw [hlines]
  exact lists_drop h.toList limit

end LineShell
