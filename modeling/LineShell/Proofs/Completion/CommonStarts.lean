import LineShell.Proofs.Completion.Candidates

/-!
# What names agree in

Where several names agree can be found by counting bytes of the first name: each other name agrees
with it up to some byte, and the least of these bytes is where all of them agree. This byte is the
end of a character, and what stands before it is the greatest common start of the names. A greatest
lower bound depends neither on the order of the names nor on how often each of them is given, and
can be found for parts of the list first.
-/

namespace LineShell

namespace Completion

/-! ## Counting bytes -/

/-- Characters, each with the byte at which it begins. -/
def withOffsets (offset : Nat) : List Char → List (Nat × Char)
  | [] => []
  | c :: rest => (offset, c) :: withOffsets (offset + c.utf8Size) rest

/-- The byte behind the last of the characters in which the first name agrees with another one
before they differ. -/
def agreedBytes (first name : String) : Nat :=
  let agreed := ((withOffsets 0 first.toList).zip name.toList).takeWhile fun pair =>
    pair.1.2 == pair.2
  (agreed.map fun pair => pair.1.1 + pair.1.2.utf8Size).getLast?.getD 0

/-- The least byte up to which the first name agrees with all others. -/
def commonBytes (first : String) (rest : List String) : Nat :=
  rest.foldl (fun least name => min (agreedBytes first name) least) first.utf8ByteSize

/-- The byte behind the last agreeing character is that behind all agreeing characters. -/
theorem getLast?_agreed (offset : Nat) (first name : List Char) :
    ((((withOffsets offset first).zip name).takeWhile fun pair => pair.1.2 == pair.2).map
        fun pair => pair.1.1 + pair.1.2.utf8Size).getLast?.getD offset =
      offset + byteCount (commonStart first name) := by
  induction first generalizing offset name with
  | nil => simp [withOffsets, commonStart, byteCount]
  | cons c rest ih =>
    cases name with
    | nil => simp [commonStart, byteCount]
    | cons d more =>
      rw [withOffsets, List.zip_cons_cons, commonStart]
      by_cases hagree : c = d
      · rw [List.takeWhile_cons_of_pos (by simpa using hagree), if_pos hagree, List.map_cons,
          List.getLast?_cons, Option.getD_some, ih, byteCount, Nat.add_assoc]
      · rw [List.takeWhile_cons_of_neg (by simpa using hagree), if_neg hagree]
        rfl

/-- Two names agree in as many bytes as their common start takes up. -/
theorem agreedBytes_eq (first name : String) :
    agreedBytes first name = byteCount (commonStart first.toList name.toList) := by
  rw [agreedBytes, getLast?_agreed, Nat.zero_add]

/-- A beginning takes up no more bytes than the whole. -/
theorem byteCount_le_of_isPrefix {start cs : List Char} (h : start <+: cs) :
    byteCount start ≤ byteCount cs := by
  have htext (cs : List Char) : byteCount cs = (String.ofList cs).utf8ByteSize := by
    rw [← byteCount_toList, String.toList_ofList]
  obtain ⟨rest, rfl⟩ := h
  rw [htext, htext, String.ofList_append, String.utf8ByteSize_append]
  exact Nat.le_add_right _ _

/-- One more name leaves the least of the bytes so far and of those in which the name agrees with
the first one. -/
theorem byteCount_commonStart {agreed first : List Char} (h : agreed <+: first)
    (name : List Char) :
    byteCount (commonStart agreed name) =
      min (byteCount (commonStart first name)) (byteCount agreed) := by
  obtain ⟨hagreed, hname⟩ :=
    isPrefix_commonStart_iff.mp (List.prefix_refl (commonStart agreed name))
  obtain ⟨hfirst, hother⟩ :=
    isPrefix_commonStart_iff.mp (List.prefix_refl (commonStart first name))
  apply le_antisymm
  · exact le_min
      (byteCount_le_of_isPrefix (isPrefix_commonStart_iff.mpr ⟨hagreed.trans h, hname⟩))
      (byteCount_le_of_isPrefix hagreed)
  · -- Both are beginnings of the first name, so the shorter one begins the longer one.
    rcases List.prefix_or_prefix_of_prefix hfirst h with hshort | hlong
    · exact (min_le_left _ _).trans
        (byteCount_le_of_isPrefix (isPrefix_commonStart_iff.mpr ⟨hshort, hother⟩))
    · exact (min_le_right _ _).trans
        (byteCount_le_of_isPrefix
          (isPrefix_commonStart_iff.mpr ⟨List.prefix_rfl, hlong.trans hother⟩))

/-- The bytes that are counted for all names are those of the longest common start. -/
theorem commonBytes_eq (first : String) (rest : List String) :
    commonBytes first rest = (longestCommonStart (first :: rest)).utf8ByteSize := by
  -- The induction is on the names, with a beginning of the first one as what they agree in so far.
  suffices h : ∀ agreed : List Char, agreed <+: first.toList →
      rest.foldl (fun least name => min (agreedBytes first name) least) (byteCount agreed) =
        byteCount (rest.foldl (fun start name => commonStart start name.toList) agreed) by
    rw [commonBytes, longestCommonStart, ← byteCount_toList, ← byteCount_toList,
      String.toList_ofList]
    exact h first.toList List.prefix_rfl
  induction rest with
  | nil => exact fun agreed _ => rfl
  | cons name more ih =>
    intro agreed hagreed
    have hnext : commonStart agreed name.toList <+: first.toList :=
      (isPrefix_commonStart_iff.mp List.prefix_rfl).1.trans hagreed
    rw [List.foldl_cons, List.foldl_cons, agreedBytes_eq, ← byteCount_commonStart hagreed,
      ih _ hnext]

/-- The byte that is counted lies between two characters of the first name, and the bytes before it
are the longest common start. -/
theorem slice_commonBytes (first : String) (rest : List String) :
    String.Pos.Raw.IsValid first ⟨commonBytes first rest⟩ ∧
      (longestCommonStart (first :: rest)).toUTF8 =
        first.toUTF8.extract 0 (commonBytes first rest) := by
  have hgreatest := greatestCommonStart_longestCommonStart (List.cons_ne_nil first rest)
  have hbytes := commonBytes_eq first rest
  obtain ⟨tail, htail⟩ := hgreatest.common first List.mem_cons_self
  have hfirst : first = longestCommonStart (first :: rest) ++ String.ofList tail :=
    String.toList_injective (by rw [String.toList_append, String.toList_ofList, htail])
  have hsplit : first.toUTF8 =
      (longestCommonStart (first :: rest)).toUTF8 ++ (String.ofList tail).toUTF8 :=
    (congrArg String.toUTF8 hfirst).trans String.toByteArray_append
  constructor
  · exact String.Pos.Raw.isValid_iff_exists_append.mpr
      ⟨_, _, hfirst, congrArg String.Pos.Raw.mk hbytes⟩
  · rw [hsplit]
    exact (ByteArray.extract_append_eq_left hbytes).symm

/-! ## A greatest lower bound -/

/-- Texts with the same beginnings are the same. -/
theorem eq_of_isPrefix_iff {text other : String}
    (h : ∀ start : List Char, start <+: text.toList ↔ start <+: other.toList) : text = other := by
  have htext := (h text.toList).mp List.prefix_rfl
  have hother := (h other.toList).mpr List.prefix_rfl
  exact String.toList_injective (htext.eq_of_length_le hother.length_le)

/-- The same names agree in the same, in whatever order and however often each is given. -/
theorem longestCommonStart_congr {names others : List String}
    (h : ∀ name, name ∈ names ↔ name ∈ others) :
    longestCommonStart names = longestCommonStart others := by
  by_cases hnone : names = []
  · have hothers : others = [] := by
      rw [List.eq_nil_iff_forall_not_mem]
      exact fun name hname => by simpa [hnone] using (h name).mpr hname
    rw [hnone, hothers]
  · have hothers : others ≠ [] := by
      obtain ⟨name, hname⟩ := List.exists_mem_of_ne_nil names hnone
      exact List.ne_nil_of_mem ((h name).mp hname)
    refine eq_of_isPrefix_iff fun start => ?_
    rw [isPrefix_longestCommonStart_iff hnone, isPrefix_longestCommonStart_iff hothers]
    exact forall_congr' fun name => by rw [h]

/-- Two rows of names agree in what the starts agree in that the names of each row have in
common. -/
theorem longestCommonStart_append {names others : List String} (hnames : names ≠ [])
    (hothers : others ≠ []) :
    longestCommonStart (names ++ others) =
      longestCommonStart [longestCommonStart names, longestCommonStart others] := by
  refine eq_of_isPrefix_iff fun start => ?_
  rw [isPrefix_longestCommonStart_iff (List.append_ne_nil_of_left_ne_nil hnames _),
    isPrefix_longestCommonStart_iff (List.cons_ne_nil _ _), List.forall_mem_append,
    List.forall_mem_cons, List.forall_mem_singleton, isPrefix_longestCommonStart_iff hnames,
    isPrefix_longestCommonStart_iff hothers]

/-- The longest common start of names is what stands in the first one before the least byte up to
which another one agrees with it. This byte lies between two characters. All names begin with the
longest common start, and it begins with every text with which all names begin. So it makes no
difference in which order the names are given and how often each of them is, and the names of two
rows have in common what the longest common starts of the rows have. Without names it is empty. -/
theorem longestCommonStart_lowerBound :
    (∀ first rest,
      String.Pos.Raw.IsValid first ⟨commonBytes first rest⟩ ∧
        (longestCommonStart (first :: rest)).toUTF8 =
          first.toUTF8.extract 0 (commonBytes first rest) ∧
        GreatestCommonStart (longestCommonStart (first :: rest)) (first :: rest)) ∧
      longestCommonStart [] = "" ∧
      (∀ names others : List String, (∀ name, name ∈ names ↔ name ∈ others) →
        longestCommonStart names = longestCommonStart others) ∧
      ∀ names others : List String, names ≠ [] → others ≠ [] →
        longestCommonStart (names ++ others) =
          longestCommonStart [longestCommonStart names, longestCommonStart others] := by
  refine ⟨fun first rest => ?_, rfl, fun names others => longestCommonStart_congr,
    fun names others => longestCommonStart_append⟩
  obtain ⟨hvalid, hslice⟩ := slice_commonBytes first rest
  exact ⟨hvalid, hslice, greatestCommonStart_longestCommonStart (List.cons_ne_nil first rest)⟩

/-- Names that agree in a character of two bytes, in two orders and one of them twice. -/
theorem longestCommonStart_lowerBound_accented :
    commonBytes "étang" ["été"] = 3 ∧
      (longestCommonStart ["étang", "été"]).toUTF8 = "étang".toUTF8.extract 0 3 ∧
      longestCommonStart ["étang", "été"] = longestCommonStart ["été", "étang", "été"] ∧
      longestCommonStart (["étang", "été"] ++ ["écu"]) =
        longestCommonStart [longestCommonStart ["étang", "été"], longestCommonStart ["écu"]] := by
  obtain ⟨hslice, -, horder, hrows⟩ := longestCommonStart_lowerBound
  obtain ⟨-, hbytes, -⟩ := hslice "étang" ["été"]
  have hcount : commonBytes "étang" ["été"] = 3 := by decide +kernel
  rw [hcount] at hbytes
  exact ⟨hcount, hbytes, horder _ _ (by grind), hrows _ _ (by decide) (by decide)⟩

end Completion

end LineShell
