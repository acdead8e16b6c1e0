import LineShell.FileSystem.Lookup
import LineShell.Proofs.Text.Basic

/-!
# Walking a path in parts

A path is walked name by name, so a walk along two rows of names goes on from where the first row
leads. The way that a walk goes leads through directories only, whatever dots and links are on it.
From both facts follows what a name in a directory is: the path to it leads to a regular file only
when the directory can be listed and has an entry of this name that is no directory.
-/

namespace LineShell

/-! ## The names of a path -/

namespace Path

/-- A name without a slash is a path that does not start at the root. -/
theorem isAbsolute_of_notMem {name : String} (h : '/' ∉ name.toList) :
    isAbsolute ⟨name⟩ = false := by
  cases hname : name.toList with
  | nil => simp [isAbsolute, hname]
  | cons c rest =>
    have hc : c ≠ '/' := fun heq => h (hname ▸ heq ▸ List.mem_cons_self)
    simpa [isAbsolute, hname] using hc

/-- The empty path has no names. -/
@[simp]
theorem names_empty : names ⟨""⟩ = [] := by simp [names, Text.pieces]

/-- A slash divides the names before it from those after it. -/
theorem names_append_slash (first second : String) :
    names ⟨first ++ "/" ++ second⟩ = names ⟨first⟩ ++ names ⟨second⟩ := by
  have htext : (first ++ "/" ++ second).toList = first.toList ++ '/' :: second.toList := by simp
  simp only [names, htext, Text.pieces_append_separator, List.filter_append, List.map_append]

/-- A name without a slash is the only name of its path. -/
theorem names_of_notMem {name : String} (hslash : '/' ∉ name.toList) (hname : name ≠ "") :
    names ⟨name⟩ = [name] := by
  have hne : name.toList ≠ [] := fun h => hname (String.toList_eq_nil_iff.mp h)
  simp [names, Text.pieces_of_notMem hslash, hne]

/-- A name behind a directory is the last name of the path to it. -/
theorem names_join (dir : Path) {name : String} (hslash : '/' ∉ name.toList) (hname : name ≠ "") :
    (dir.join ⟨name⟩).names = dir.names ++ [name] := by
  obtain ⟨text⟩ := dir
  rw [join, isAbsolute_of_notMem hslash, if_neg Bool.false_ne_true, ← names_of_notMem hslash hname]
  split
  · rename_i hends
    rcases (Bool.or_eq_true _ _).mp hends with hempty | hends
    · have htext : text = "" := String.isEmpty_iff.mp hempty
      rw [htext, names_empty, List.nil_append, String.empty_append]
    · -- the slash that the directory brings along ends its last piece
      obtain ⟨start, hstart⟩ : ∃ start, text.toList = start ++ ['/'] :=
        List.getLast?_eq_some_iff.mp (by simpa [endsWithSlash] using hends)
      have htext : text = String.ofList start ++ "/" ++ "" :=
        String.toList_injective (by simp [hstart])
      have hjoined : text ++ name = String.ofList start ++ "/" ++ name :=
        String.toList_injective (by simp [hstart])
      rw [hjoined, htext, names_append_slash, names_append_slash, names_empty, List.append_nil]
  · exact names_append_slash text name

/-- A name behind a directory is written after the directory, or after a slash behind it. -/
theorem text_join (dir : Path) {name : String} (hslash : '/' ∉ name.toList) :
    (dir.join ⟨name⟩).text = dir.text ++ name ∨
      (dir.join ⟨name⟩).text = dir.text ++ "/" ++ name := by
  rw [join, isAbsolute_of_notMem hslash, if_neg Bool.false_ne_true]
  split
  · exact .inl rfl
  · exact .inr rfl

/-- The path to a name in a directory starts where the path to the directory does. -/
theorem isAbsolute_join (dir : Path) {name : String} (hslash : '/' ∉ name.toList) :
    (dir.join ⟨name⟩).isAbsolute = dir.isAbsolute := by
  by_cases hdir : dir.text = ""
  · have hjoin : dir.join ⟨name⟩ = ⟨name⟩ := by
      simp [join, isAbsolute_of_notMem hslash, hdir]
    rw [hjoin, isAbsolute_of_notMem hslash, isAbsolute, hdir]
    rfl
  · obtain ⟨c, rest, htext⟩ :=
      List.exists_cons_of_ne_nil fun h => hdir (String.toList_eq_nil_iff.mp h)
    rcases text_join dir hslash with hjoin | hjoin <;> simp [isAbsolute, hjoin, htext]

/-- The path to a name in a directory does not end with a slash. -/
theorem endsWithSlash_join (dir : Path) {name : String} (hslash : '/' ∉ name.toList)
    (hname : name ≠ "") : (dir.join ⟨name⟩).endsWithSlash = false := by
  have hne : name.toList ≠ [] := fun h => hname (String.toList_eq_nil_iff.mp h)
  obtain ⟨start, c, hchars⟩ := List.eq_nil_or_concat name.toList |>.resolve_left hne
  have hc : c ≠ '/' := fun h => hslash (by simp [hchars, h])
  have hjoined : ∃ before, (dir.join ⟨name⟩).text.toList = before ++ [c] := by
    rcases text_join dir hslash with hjoin | hjoin
    · exact ⟨dir.text.toList ++ start, by simp [hjoin, hchars]⟩
    · exact ⟨dir.text.toList ++ '/' :: start, by simp [hjoin, hchars]⟩
  obtain ⟨before, hbefore⟩ := hjoined
  simpa [endsWithSlash, hbefore] using hc

/-- The lookup of a name in a directory walks the names of the directory and then this name. -/
theorem steps_join (dir : Path) {name : String} (hslash : '/' ∉ name.toList) (hname : name ≠ "") :
    (dir.join ⟨name⟩).steps = dir.names ++ [name] := by
  rw [steps, endsWithSlash_join dir hslash hname, if_neg Bool.false_ne_true,
    names_join dir hslash hname]

end Path

namespace FileSystem

variable {fs : FileSystem}

/-! ## Walks in parts -/

/-- A walk up to the first link goes on along further names where the first ones lead, unless they
end at a link or fail. -/
theorem walkToLink_append (trail : Trail) (first second : List String) :
    fs.walkToLink trail (first ++ second) =
      match fs.walkToLink trail first with
      | .error e => .error e
      | .ok (.arrived trail) => fs.walkToLink trail second
      | .ok (.atLink target trail rest) => .ok (.atLink target trail (rest ++ second)) := by
  fun_induction walkToLink fs trail first with
  | case1 trail => rfl
  | case2 trail name rest hentries => simp only [List.cons_append, walkToLink, hentries]
  | case3 trail rest entries hentries ih =>
    simp only [List.cons_append, walkToLink, hentries, if_true]
    exact ih
  | case4 trail rest entries hentries hdot ih =>
    simp only [List.cons_append, walkToLink, hentries, if_neg hdot, if_true]
    exact ih
  | case5 trail name rest entries hentries hdot hdots hlong =>
    simp only [List.cons_append, walkToLink, hentries, if_neg hdot, if_neg hdots, if_pos hlong]
  | case6 trail name rest entries hentries hdot hdots hlong hlookup =>
    simp only [List.cons_append, walkToLink, hentries, if_neg hdot, if_neg hdots, if_neg hlong,
      hlookup]
  | case7 trail name rest entries hentries hdot hdots hlong id hlookup target hnode =>
    simp only [List.cons_append, walkToLink, hentries, if_neg hdot, if_neg hdots, if_neg hlong,
      hlookup, hnode]
  | case8 trail name rest entries hentries hdot hdots hlong id hlookup hnode ih =>
    simp only [List.cons_append, walkToLink, hentries, if_neg hdot, if_neg hdots, if_neg hlong,
      hlookup]
    exact ih

/-- A walk depends only on where it comes to its first link. -/
theorem walk_congr {trail other : Trail} {steps otherSteps : List String} (links : Nat)
    (h : fs.walkToLink trail steps = fs.walkToLink other otherSteps) :
    fs.walk links trail steps = fs.walk links other otherSteps := by
  unfold walk
  rw [h]

/-- A walk goes on along the target of its first link. -/
theorem walk_of_atLink {trail reached : Trail} {steps rest : List String} {target : Path}
    (links : Nat) (h : fs.walkToLink trail steps = .ok (.atLink target reached rest)) :
    fs.walk (links + 1) trail steps =
      fs.walk links (if target.isAbsolute then [] else reached) (target.steps ++ rest) := by
  rw [walk, h]

/-- A walk goes on along further names where the first ones lead, with the links that are left. -/
theorem walk_append (links : Nat) (trail : Trail) (first second : List String) :
    fs.walk links trail (first ++ second) =
      match fs.walk links trail first with
      | .error e => .error e
      | .ok (trail, links) => fs.walk links trail second := by
  fun_induction walk fs links trail first with
  | case1 links trail first e herror =>
    unfold walk
    rw [walkToLink_append, herror]
  | case2 links trail first reached harrived =>
    exact walk_congr links (by rw [walkToLink_append, harrived])
  | case3 trail first target reached rest hlink =>
    unfold walk
    rw [walkToLink_append, hlink]
  | case4 trail first target reached rest hlink links ih =>
    rw [walk_of_atLink links (by rw [walkToLink_append, hlink]), ← List.append_assoc]
    exact ih

/-- A walk along further names arrives when the walk along the first ones does and the further names
lead on from there. -/
theorem walk_append_eq_ok_iff {links : Nat} {trail : Trail} {first second : List String}
    {result : Trail × Nat} :
    fs.walk links trail (first ++ second) = .ok result ↔
      ∃ way left, fs.walk links trail first = .ok (way, left) ∧
        fs.walk left way second = .ok result := by
  rw [walk_append]
  cases fs.walk links trail first with
  | error e => exact ⟨nofun, fun ⟨_, _, h, _⟩ => nomatch h⟩
  | ok found =>
    constructor
    · intro h
      exact ⟨found.1, found.2, rfl, h⟩
    · rintro ⟨way, left, hfound, h⟩
      cases hfound
      exact h

/-- A dot at the end of a walk changes nothing when the walk leads to a directory. -/
theorem walk_steps {links left : Nat} {trail reached : Trail} {p : Path}
    (h : fs.walk links trail p.names = .ok (reached, left))
    (hdirectory : (fs.entries? reached.node).isSome) :
    fs.walk links trail p.steps = .ok (reached, left) := by
  obtain ⟨entries, hentries⟩ := Option.isSome_iff_exists.mp hdirectory
  unfold Path.steps
  split
  · rw [walk_append, h]
    unfold walk
    simp [walkToLink, hentries]
  · exact h

/-! ## Looking a path up -/

/-- A path leads somewhere when it has no fault and its names can be walked. -/
theorem locate_eq_ok_iff {base way : Trail} {p : Path} :
    fs.locate base p = .ok way ↔
      pathFault? p = none ∧
        ∃ left, fs.walk maxLinks (if p.isAbsolute then [] else base) p.steps = .ok (way, left) := by
  unfold locate
  cases pathFault? p with
  | some e => exact ⟨nofun, fun ⟨h, _⟩ => nomatch h⟩
  | none =>
    cases fs.walk maxLinks (if p.isAbsolute then [] else base) p.steps with
    | error e => exact ⟨nofun, fun ⟨_, _, h⟩ => nomatch h⟩
    | ok found =>
      constructor
      · intro h
        exact ⟨rfl, found.2, congrArg Except.ok (Prod.ext (Except.ok.inj h) rfl)⟩
      · rintro ⟨-, left, h⟩
        cases h
        rfl

/-- A path leads to a regular file when it leads to a node that is one. -/
theorem isFile_eq_true_iff {base : Trail} {p : Path} :
    fs.isFile base p = true ↔
      ∃ way node, fs.locate base p = .ok way ∧ fs.node? way.node = some node ∧
        node.isRegular = true := by
  unfold isFile lookup
  cases fs.locate base p with
  | error e => simp
  | ok way => cases hnode : fs.node? way.node <;> simp [hnode]

/-! ## The way of a walk -/

/-- Whether a way leads through directories: all that is on it before its end is one. -/
def LeadsThroughDirectories (fs : FileSystem) : Trail → Prop
  | [] => True
  | _ :: rest => (fs.entries? (Trail.node rest)).isSome ∧ fs.LeadsThroughDirectories rest

/-- Walking back from the end of a way leads through directories again. -/
theorem LeadsThroughDirectories.tail {trail : Trail} (h : fs.LeadsThroughDirectories trail) :
    fs.LeadsThroughDirectories trail.tail := by
  cases trail with
  | nil => exact h
  | cons step rest => exact h.2

/-- The way to where a walk stands at its first link, or where it ends without one. -/
def Stop.trail : Stop → Trail
  | arrived trail | atLink _ trail _ => trail

/-- A walk up to the first link leads through directories, as each name is looked up in one. -/
theorem LeadsThroughDirectories.walkToLink {trail : Trail} (h : fs.LeadsThroughDirectories trail)
    {steps : List String} {stop : Stop} (hstop : fs.walkToLink trail steps = .ok stop) :
    fs.LeadsThroughDirectories stop.trail := by
  fun_induction FileSystem.walkToLink fs trail steps with
  | case1 trail =>
    cases hstop
    exact h
  | case2 | case5 | case6 => cases hstop
  | case3 trail rest entries hentries ih => exact ih h hstop
  | case4 trail rest entries hentries hdot ih => exact ih h.tail hstop
  | case7 =>
    cases hstop
    exact h
  | case8 trail name rest entries hentries hdot hdots hlong id hlookup hnode ih =>
    exact ih ⟨Option.isSome_of_eq_some hentries, h⟩ hstop

/-- A walk leads through directories, whatever links it follows. -/
theorem LeadsThroughDirectories.walk {links left : Nat} {trail reached : Trail}
    (h : fs.LeadsThroughDirectories trail) {steps : List String}
    (hwalk : fs.walk links trail steps = .ok (reached, left)) :
    fs.LeadsThroughDirectories reached := by
  fun_induction FileSystem.walk fs links trail steps with
  | case1 | case3 => cases hwalk
  | case2 links trail steps stop harrived =>
    cases hwalk
    exact h.walkToLink harrived
  | case4 trail steps target stop rest hlink links ih =>
    refine ih ?_ hwalk
    split
    · exact trivial
    · exact h.walkToLink hlink

/-! ## The last name of a path -/

/-- A name that is found among entries is that of one of them. -/
theorem mem_of_lookup {entries : List (String × NodeId)} {name : String} {id : NodeId}
    (h : entries.lookup name = some id) : (name, id) ∈ entries := by
  obtain ⟨before, after, hsplit, -⟩ := List.lookup_eq_some_iff.mp h
  simp [hsplit]

/-- A node has entries exactly when it is a directory. -/
theorem entries?_eq_some_iff {id : NodeId} {entries : List (String × NodeId)} :
    fs.entries? id = some entries ↔ fs.node? id = some (.directory entries) := by
  unfold entries?
  constructor
  · intro h
    split at h
    · rename_i hnode
      rw [hnode, Option.some.inj h]
    · cases h
  · intro h
    rw [h]

/-- What a single name leads to: the same directory, the one before it, or a node under this name in
the directory, which may be a link. -/
theorem walkToLink_singleton {trail : Trail} {name : String} {stop : Stop}
    (h : fs.walkToLink trail [name] = .ok stop) :
    ∃ entries, fs.entries? trail.node = some entries ∧
      ((name = "." ∧ stop = .arrived trail) ∨ (name = ".." ∧ stop = .arrived trail.tail) ∨
        ∃ id, entries.lookup name = some id ∧
          ((∃ target, fs.node? id = some (.link target) ∧ stop = .atLink target trail []) ∨
            stop = .arrived ((name, id) :: trail))) := by
  unfold walkToLink at h
  cases hentries : fs.entries? trail.node with
  | none => simp [hentries] at h
  | some entries =>
    refine ⟨entries, rfl, ?_⟩
    simp only [hentries] at h
    by_cases hdot : name = "."
    · rw [if_pos hdot] at h
      exact .inl ⟨hdot, (Except.ok.inj h).symm⟩
    rw [if_neg hdot] at h
    by_cases hdots : name = ".."
    · rw [if_pos hdots] at h
      exact .inr (.inl ⟨hdots, (Except.ok.inj h).symm⟩)
    rw [if_neg hdots] at h
    split at h
    · cases h
    · cases hlookup : entries.lookup name with
      | none => simp [hlookup] at h
      | some id =>
        refine .inr (.inr ⟨id, rfl, ?_⟩)
        simp only [hlookup] at h
        split at h
        · rename_i target hnode
          exact .inl ⟨target, hnode, (Except.ok.inj h).symm⟩
        · exact .inr (Except.ok.inj h).symm

/-- Where the last name of a path leads to something other than a directory, it is a name in the
directory before it, and not that of a directory. -/
theorem exists_entry_of_walk {links left : Nat} {trail reached : Trail} {name : String}
    {node : Node} (h : fs.LeadsThroughDirectories trail)
    (hwalk : fs.walk links trail [name] = .ok (reached, left))
    (hnode : fs.node? reached.node = some node) (hdirectory : node.isDirectory = false) :
    ∃ entries id entry, fs.entries? trail.node = some entries ∧ (name, id) ∈ entries ∧
      fs.node? id = some entry ∧ entry.isDirectory = false := by
  have hends {way : Trail} {entries : List (String × NodeId)}
      (hentries : fs.entries? way.node = some entries) (hreached : reached = way) : False := by
    rw [hreached, entries?_eq_some_iff.mp hentries] at hnode
    cases hnode
    cases hdirectory
  cases hstop : fs.walkToLink trail [name] with
  | error e =>
    unfold walk at hwalk
    simp [hstop] at hwalk
  | ok stop =>
    have harrived {way : Trail} (hway : stop = .arrived way) : reached = way := by
      unfold walk at hwalk
      rw [hstop, hway] at hwalk
      cases hwalk
      rfl
    obtain ⟨entries, hentries, ⟨-, hsame⟩ | ⟨-, hback⟩ | ⟨id, hid, hentry⟩⟩ :=
      walkToLink_singleton hstop
    · exact (hends hentries (harrived hsame)).elim
    · cases trail with
      | nil => exact (hends hentries (harrived hback)).elim
      | cons step rest =>
        obtain ⟨others, hothers⟩ := Option.isSome_iff_exists.mp h.1
        exact (hends hothers (harrived hback)).elim
    · have hmem := mem_of_lookup hid
      rcases hentry with ⟨target, hlink, -⟩ | hthere
      · exact ⟨entries, id, .link target, hentries, hmem, hlink, rfl⟩
      · have hid' : fs.node? id = some node := by
          rw [harrived hthere] at hnode
          exact hnode
        exact ⟨entries, id, node, hentries, hmem, hid', hdirectory⟩

end FileSystem

end LineShell
