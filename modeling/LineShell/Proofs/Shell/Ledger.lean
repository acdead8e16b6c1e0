import LineShell.Proofs.Shell.EchoLine
import Mathlib.Logic.Function.Basic

/-!
# What lines leave in files

A ledger says what every file holds and what the terminal has been shown. A line that calls echo
opens the files of its redirections in order and then adds its output at the end of the last one, or
to the terminal when it has none. So the contents of a file are the outputs directed to it since
a line has last emptied it, in order.
-/

namespace LineShell

/-- What every file holds, which is nothing for a file that does not exist, and what the terminal
has been shown. -/
structure Ledger (κ : Type) where
  files : κ → Option ByteArray
  terminal : ByteArray

section

variable {κ : Type} [DecidableEq κ] (file : String → κ)

namespace Ledger

/-- The ledger when a file has been opened: the file is there, and it is empty when it is opened to
be truncated. -/
def opened (mode : RedirectMode) (k : κ) (ledger : Ledger κ) : Ledger κ :=
  let contents : ByteArray :=
    match mode with
    | .truncate => .empty
    | .append => (ledger.files k).getD .empty
  { ledger with files := Function.update ledger.files k (some contents) }

/-- The ledger when bytes have been added at the end of a file, or shown on the terminal. -/
def written (target : Option κ) (bytes : ByteArray) (ledger : Ledger κ) : Ledger κ :=
  match target with
  | none => { ledger with terminal := ledger.terminal ++ bytes }
  | some k =>
    { ledger with
      files := Function.update ledger.files k (some ((ledger.files k).getD .empty ++ bytes)) }

/-- The ledger when the files of redirections have been opened in order. -/
def openedAll (redirections : List (RedirectMode × String)) (ledger : Ledger κ) : Ledger κ :=
  redirections.foldl (fun ledger redirection => ledger.opened redirection.1 (file redirection.2))
    ledger

end Ledger

namespace EchoLine

/-- The file of the last redirection. -/
def target? (line : EchoLine) : Option κ :=
  line.redirections.getLast?.map fun redirection => file redirection.2

/-- Whether a file is one of those that the line opens. -/
def Names (line : EchoLine) (k : κ) : Prop := ∃ r ∈ line.redirections, file r.2 = k

/-- Whether the line empties a file. -/
def Truncates (line : EchoLine) (k : κ) : Prop :=
  ∃ r ∈ line.redirections, r.1 = .truncate ∧ file r.2 = k

/-- What the line makes of a ledger. -/
def applyTo (line : EchoLine) (ledger : Ledger κ) : Ledger κ :=
  (ledger.openedAll file line.redirections).written (line.target? file) line.output

/-- What lines make of a ledger, one after the other. -/
def applyAll (lines : List EchoLine) (ledger : Ledger κ) : Ledger κ :=
  lines.foldl (fun ledger line => line.applyTo file ledger) ledger

/-- The outputs that lines direct to a file, or to the terminal, in order. -/
def outputsTo (target : Option κ) : List EchoLine → ByteArray
  | [] => .empty
  | line :: rest =>
    (if line.target? file = target then line.output else .empty) ++ outputsTo target rest

end EchoLine

variable {file}

namespace Ledger

/-! ## Opening files -/

/-- Opening a file leaves the others as they are. -/
theorem opened_of_ne {k other : κ} (hne : other ≠ k) (mode : RedirectMode) (ledger : Ledger κ) :
    (ledger.opened mode k).files other = ledger.files other := Function.update_of_ne hne _ _

/-- An opened file is there. -/
theorem opened_self (mode : RedirectMode) (k : κ) (ledger : Ledger κ) :
    (ledger.opened mode k).files k =
      some (match mode with
        | .truncate => .empty
        | .append => (ledger.files k).getD .empty) := Function.update_self ..

/-- Opening files does not show anything on the terminal. -/
theorem terminal_openedAll (redirections : List (RedirectMode × String)) (ledger : Ledger κ) :
    (ledger.openedAll file redirections).terminal = ledger.terminal := by
  induction redirections generalizing ledger with
  | nil => rfl
  | cons redirection rest ih => exact ih (ledger.opened redirection.1 (file redirection.2))

/-- Files that are not named stay as they are. -/
theorem openedAll_of_forall_ne {redirections : List (RedirectMode × String)} {k : κ}
    (h : ∀ r ∈ redirections, file r.2 ≠ k) (ledger : Ledger κ) :
    (ledger.openedAll file redirections).files k = ledger.files k := by
  induction redirections generalizing ledger with
  | nil => rfl
  | cons redirection rest ih =>
    obtain ⟨hfirst, hrest⟩ := List.forall_mem_cons.mp h
    exact (ih hrest _).trans (opened_of_ne (Ne.symm hfirst) _ ledger)

/-- A file is there when redirections have been opened if it was there before or is named. -/
theorem isSome_openedAll (redirections : List (RedirectMode × String)) (k : κ)
    (ledger : Ledger κ) :
    ((ledger.openedAll file redirections).files k).isSome ↔
      (ledger.files k).isSome ∨ ∃ r ∈ redirections, file r.2 = k := by
  induction redirections generalizing ledger with
  | nil => simp [openedAll]
  | cons redirection rest ih =>
    refine (ih (ledger.opened redirection.1 (file redirection.2))).trans ?_
    by_cases hfile : file redirection.2 = k
    · subst hfile
      simp [opened_self]
    · simp [opened_of_ne (Ne.symm hfile), hfile]

/-- A file that is not truncated keeps what it holds when redirections are opened. -/
theorem getD_openedAll {redirections : List (RedirectMode × String)} {k : κ}
    (h : ∀ r ∈ redirections, r.1 = .truncate → file r.2 ≠ k) (ledger : Ledger κ) :
    ((ledger.openedAll file redirections).files k).getD .empty =
      (ledger.files k).getD .empty := by
  induction redirections generalizing ledger with
  | nil => rfl
  | cons redirection rest ih =>
    obtain ⟨hfirst, hrest⟩ := List.forall_mem_cons.mp h
    refine (ih hrest _).trans ?_
    by_cases hfile : file redirection.2 = k
    · subst hfile
      obtain ⟨mode, name⟩ := redirection
      cases mode with
      | truncate => exact absurd rfl (hfirst rfl)
      | append => rw [opened_self, Option.getD_some]
    · rw [opened_of_ne (Ne.symm hfile)]

/-- A file that is truncated is empty when all redirections have been opened, also when it is opened
again after that. -/
theorem openedAll_of_truncate {redirections : List (RedirectMode × String)} {k : κ}
    (h : ∃ r ∈ redirections, r.1 = .truncate ∧ file r.2 = k) (ledger : Ledger κ) :
    (ledger.openedAll file redirections).files k = some .empty := by
  induction redirections generalizing ledger with
  | nil =>
    obtain ⟨r, hr, -⟩ := h
    exact absurd hr List.not_mem_nil
  | cons redirection rest ih =>
    by_cases hrest : ∃ r ∈ rest, r.1 = .truncate ∧ file r.2 = k
    · exact ih hrest (ledger.opened redirection.1 (file redirection.2))
    · -- the first redirection truncates the file, and no later one does
      obtain ⟨r, hr, hmode, hfile⟩ := h
      obtain rfl : r = redirection :=
        (List.mem_cons.mp hr).resolve_right fun hr => hrest ⟨r, hr, hmode, hfile⟩
      have hlater : ∀ other ∈ rest, other.1 = .truncate → file other.2 ≠ k :=
        fun other hother hmode hfile => hrest ⟨other, hother, hmode, hfile⟩
      have hempty : (ledger.opened r.1 (file r.2)).files k = some .empty := by
        rw [hmode, hfile, opened_self]
      have hthere : (((ledger.opened r.1 (file r.2)).openedAll file rest).files k).isSome :=
        (isSome_openedAll rest k _).mpr (.inl (by rw [hempty]; rfl))
      have hcontents := getD_openedAll hlater (ledger.opened r.1 (file r.2))
      rw [hempty, Option.getD_some] at hcontents
      obtain ⟨contents, hsome⟩ := Option.isSome_iff_exists.mp hthere
      show ((ledger.opened r.1 (file r.2)).openedAll file rest).files k = some .empty
      rw [hsome, Option.getD_some] at hcontents
      rw [hsome, hcontents]

/-! ## Adding output -/

/-- A file gets the bytes that are written to it, and no others. -/
theorem getD_written (target : Option κ) (bytes : ByteArray) (k : κ) (ledger : Ledger κ) :
    ((ledger.written target bytes).files k).getD .empty =
      (ledger.files k).getD .empty ++ if target = some k then bytes else .empty := by
  cases target with
  | none => simp [written]
  | some other =>
    by_cases hk : other = k
    · subst hk
      simp [written]
    · simp [written, Function.update_of_ne (Ne.symm hk), hk]

/-- The terminal is shown the bytes that are written to it, and no others. -/
theorem terminal_written (target : Option κ) (bytes : ByteArray) (ledger : Ledger κ) :
    (ledger.written target bytes).terminal =
      ledger.terminal ++ if target = none then bytes else .empty := by
  cases target with
  | none => rfl
  | some k => simp [written]

/-- A file is there when bytes have been written if it was there before or is written to. -/
theorem isSome_written (target : Option κ) (bytes : ByteArray) (k : κ) (ledger : Ledger κ) :
    ((ledger.written target bytes).files k).isSome ↔
      (ledger.files k).isSome ∨ target = some k := by
  cases target with
  | none => simp [written]
  | some other =>
    by_cases hk : other = k
    · subst hk
      simp [written]
    · simp [written, Function.update_of_ne (Ne.symm hk), hk]

end Ledger

namespace EchoLine

/-! ## One line -/

omit [DecidableEq κ] in
/-- The file that gets the output is one of those that the line opens. -/
theorem names_of_target? {line : EchoLine} {k : κ} (h : line.target? file = some k) :
    line.Names file k := by
  obtain ⟨r, hlast, hfile⟩ := Option.map_eq_some_iff.mp h
  exact ⟨r, List.mem_of_getLast? hlast, hfile⟩

/-- A file that a line does not name stays as it is. -/
theorem applyTo_of_not_names {line : EchoLine} {k : κ} (h : ¬line.Names file k)
    (ledger : Ledger κ) : (line.applyTo file ledger).files k = ledger.files k := by
  have hopened : (ledger.openedAll file line.redirections).files k = ledger.files k :=
    Ledger.openedAll_of_forall_ne (fun r hr hfile => h ⟨r, hr, hfile⟩) ledger
  have htarget : line.target? file ≠ some k := fun htarget => h (names_of_target? htarget)
  rw [applyTo, ← hopened]
  cases hline : line.target? file with
  | none => rfl
  | some other =>
    exact Function.update_of_ne (fun hk => htarget (by rw [hline, hk])) _ _

/-- A file is there after a line if it was there before or the line names it. -/
theorem isSome_applyTo (line : EchoLine) (k : κ) (ledger : Ledger κ) :
    ((line.applyTo file ledger).files k).isSome ↔
      (ledger.files k).isSome ∨ line.Names file k := by
  rw [applyTo, Ledger.isSome_written, Ledger.isSome_openedAll, or_assoc]
  exact or_congr_right (or_iff_left_of_imp names_of_target?)

/-- The terminal is shown the output of a line without redirections. -/
theorem terminal_applyTo (line : EchoLine) (ledger : Ledger κ) :
    (line.applyTo file ledger).terminal = ledger.terminal ++ outputsTo file none [line] := by
  rw [applyTo, Ledger.terminal_written, Ledger.terminal_openedAll, outputsTo, outputsTo,
    ByteArray.append_empty]

/-- A line that does not empty a file adds the output that it directs to the file. -/
theorem getD_applyTo {line : EchoLine} {k : κ} (h : ¬line.Truncates file k) (ledger : Ledger κ) :
    ((line.applyTo file ledger).files k).getD .empty =
      (ledger.files k).getD .empty ++ outputsTo file (some k) [line] := by
  rw [applyTo, Ledger.getD_written,
    Ledger.getD_openedAll fun r hr hmode hfile => h ⟨r, hr, hmode, hfile⟩, outputsTo, outputsTo,
    ByteArray.append_empty]

/-- A line that empties a file leaves in it the output that it directs to the file. -/
theorem applyTo_of_truncates {line : EchoLine} {k : κ} (h : line.Truncates file k)
    (ledger : Ledger κ) :
    (line.applyTo file ledger).files k = some (outputsTo file (some k) [line]) := by
  have hnames : line.Names file k := by
    obtain ⟨r, hr, -, hfile⟩ := h
    exact ⟨r, hr, hfile⟩
  obtain ⟨contents, hcontents⟩ :=
    Option.isSome_iff_exists.mp ((isSome_applyTo line k ledger).mpr (.inr hnames))
  have hwritten : ((line.applyTo file ledger).files k).getD .empty =
      outputsTo file (some k) [line] := by
    rw [applyTo, Ledger.getD_written, Ledger.openedAll_of_truncate h, Option.getD_some,
      outputsTo, outputsTo, ByteArray.append_empty, ByteArray.empty_append]
  rw [hcontents, Option.getD_some] at hwritten
  rw [hcontents, hwritten]

/-! ## Many lines -/

/-- What lines direct to a target is what the first of them directs to it, and then what the others
do. -/
theorem outputsTo_cons (target : Option κ) (line : EchoLine) (rest : List EchoLine) :
    outputsTo file target (line :: rest) =
      outputsTo file target [line] ++ outputsTo file target rest := by
  simp only [outputsTo, ByteArray.append_empty]

/-- Lines are applied one after the other. -/
theorem applyAll_cons (line : EchoLine) (rest : List EchoLine) (ledger : Ledger κ) :
    applyAll file (line :: rest) ledger = applyAll file rest (line.applyTo file ledger) := rfl

/-- The terminal is shown the outputs of the lines without redirections, in order. -/
theorem terminal_applyAll (lines : List EchoLine) (ledger : Ledger κ) :
    (applyAll file lines ledger).terminal = ledger.terminal ++ outputsTo file none lines := by
  induction lines generalizing ledger with
  | nil => exact (ByteArray.append_empty).symm
  | cons line rest ih =>
    rw [applyAll_cons, ih, terminal_applyTo, ByteArray.append_assoc, ← outputsTo_cons]

/-- A file that no line names stays as it is. -/
theorem applyAll_of_not_names {lines : List EchoLine} {k : κ}
    (h : ∀ line ∈ lines, ¬line.Names file k) (ledger : Ledger κ) :
    (applyAll file lines ledger).files k = ledger.files k := by
  induction lines generalizing ledger with
  | nil => rfl
  | cons line rest ih =>
    obtain ⟨hline, hrest⟩ := List.forall_mem_cons.mp h
    rw [applyAll_cons, ih hrest, applyTo_of_not_names hline]

/-- A file is there after lines if it was there before or one of them names it. -/
theorem isSome_applyAll (lines : List EchoLine) (k : κ) (ledger : Ledger κ) :
    ((applyAll file lines ledger).files k).isSome ↔
      (ledger.files k).isSome ∨ ∃ line ∈ lines, line.Names file k := by
  induction lines generalizing ledger with
  | nil => simp [applyAll]
  | cons line rest ih =>
    rw [applyAll_cons, ih, isSome_applyTo, or_assoc]
    simp only [List.mem_cons, exists_eq_or_imp]

/-- Lines that do not empty a file add the outputs that they direct to it, in order. -/
theorem getD_applyAll {lines : List EchoLine} {k : κ} (h : ∀ line ∈ lines, ¬line.Truncates file k)
    (ledger : Ledger κ) :
    ((applyAll file lines ledger).files k).getD .empty =
      (ledger.files k).getD .empty ++ outputsTo file (some k) lines := by
  induction lines generalizing ledger with
  | nil => exact (ByteArray.append_empty).symm
  | cons line rest ih =>
    obtain ⟨hline, hrest⟩ := List.forall_mem_cons.mp h
    rw [applyAll_cons, ih hrest, getD_applyTo hline, ByteArray.append_assoc, ← outputsTo_cons]

/-- A file holds the outputs that have been directed to it since a line last emptied it. -/
theorem applyAll_of_truncates {before after : List EchoLine} {line : EchoLine} {k : κ}
    (hline : line.Truncates file k) (hafter : ∀ other ∈ after, ¬other.Truncates file k)
    (ledger : Ledger κ) :
    (applyAll file (before ++ line :: after) ledger).files k =
      some (outputsTo file (some k) (line :: after)) := by
  have hsplit : applyAll file (before ++ line :: after) ledger =
      applyAll file after (line.applyTo file (applyAll file before ledger)) := by
    rw [applyAll, List.foldl_append]
    rfl
  have hfirst := applyTo_of_truncates hline (applyAll file before ledger)
  have hthere : ((applyAll file (before ++ line :: after) ledger).files k).isSome := by
    rw [hsplit, isSome_applyAll, hfirst]
    exact .inl rfl
  have hcontents : ((applyAll file (before ++ line :: after) ledger).files k).getD .empty =
      outputsTo file (some k) (line :: after) := by
    rw [hsplit, getD_applyAll hafter, hfirst, Option.getD_some, ← outputsTo_cons]
  obtain ⟨contents, hsome⟩ := Option.isSome_iff_exists.mp hthere
  rw [hsome, Option.getD_some] at hcontents
  rw [hsome, hcontents]

end EchoLine

end

end LineShell
