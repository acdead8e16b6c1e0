import LineShell.Host
import LineShell.Proofs.Shell.Ledger
import LineShell.Shell

/-!
# Systems that store files

On a system that stores files as one expects, a ledger says what is in them. The redirections of a
command are opened in order, only the last of them is still open when the command runs, and all
that the command writes goes to its end.
-/

namespace LineShell

section

variable {σ η κ : Type} [DecidableEq κ]

/-- A system that stores files under names in a directory. Opening a file for output makes it, and
empties it when it is to be truncated; what is written to the new stream is added at the end of
this file, and what is written to the terminal is added to what the terminal has been shown. None
of these operations fails. -/
structure Host.Stores (host : Host σ η) (directory : Path) (κ : Type) [DecidableEq κ] where
  /-- The states in which the system can be. -/
  valid : σ → Prop
  /-- What the files hold and what the terminal has been shown. -/
  ledger : σ → Ledger κ
  /-- The names under which files can be opened. -/
  plain : String → Prop
  /-- The file of a name. -/
  file : String → κ
  /-- The streams that write at the end of a file. -/
  appends : σ → η → κ → Prop
  openOutput : ∀ {s} mode name, valid s → plain name →
    ∃ stream, (host.openOutput mode (directory.join ⟨name⟩) s).1 = .ok stream ∧
      valid (host.openOutput mode (directory.join ⟨name⟩) s).2 ∧
      ledger (host.openOutput mode (directory.join ⟨name⟩) s).2 =
        (ledger s).opened mode (file name) ∧
      appends (host.openOutput mode (directory.join ⟨name⟩) s).2 stream (file name) ∧
      ∀ other k, appends s other k → other ≠ stream
  write : ∀ {s stream k} bytes, valid s → appends s stream k →
    (host.write stream bytes s).1 = .ok () ∧ valid (host.write stream bytes s).2 ∧
      ledger (host.write stream bytes s).2 = (ledger s).written (some k) bytes
  writeTerminal : ∀ {s} bytes, valid s →
    (host.write host.terminal.stdout bytes s).1 = .ok () ∧
      valid (host.write host.terminal.stdout bytes s).2 ∧
      ledger (host.write host.terminal.stdout bytes s).2 = (ledger s).written none bytes
  close : ∀ {s} stream, valid s → valid (host.close stream s) ∧
    ledger (host.close stream s) = ledger s ∧
    ∀ other k, appends s other k → other ≠ stream → appends (host.close stream s) other k

namespace Host.Stores

variable {host : Host σ η} {directory : Path} (stores : host.Stores directory κ)

/-- Whether output files lead where the last redirection does: there is none for standard error, and
the one for standard output, if any, appends to the given file. -/
def LeadsTo (s : σ) (files : OutputFiles η) (target : Option κ) : Prop :=
  files.stderr = none ∧
    match files.stdout, target with
    | none, none => True
    | some stream, some k => stores.appends s stream k
    | _, _ => False

/-- A stream that takes the place of another one still appends to its file when the other one has
been closed. -/
theorem closeAll_replaced {s s' : σ} {files : OutputFiles η} {target : Option κ}
    (hfiles : stores.LeadsTo s files target) (hvalid : stores.valid s') {stream : η} {k : κ}
    (happends : stores.appends s' stream k) (hfresh : ∀ other k, stores.appends s other k →
      other ≠ stream) :
    stores.valid (host.closeAll (files.get? .stdout).toList s') ∧
      stores.ledger (host.closeAll (files.get? .stdout).toList s') = stores.ledger s' ∧
      stores.appends (host.closeAll (files.get? .stdout).toList s') stream k := by
  obtain ⟨-, hstdout⟩ := hfiles
  cases hold : files.stdout with
  | none =>
    have hclose : host.closeAll (files.get? .stdout).toList s' = s' := by
      simp [OutputFiles.get?, hold, Host.closeAll]
    rw [hclose]
    exact ⟨hvalid, rfl, happends⟩
  | some old =>
    have hclose : host.closeAll (files.get? .stdout).toList s' = host.close old s' := by
      simp [OutputFiles.get?, hold, Host.closeAll]
    rw [hold] at hstdout
    cases target with
    | none => exact hstdout.elim
    | some before =>
      rw [hclose]
      obtain ⟨hclosed, hledger, hkeeps⟩ := stores.close old hvalid
      exact ⟨hclosed, hledger, hkeeps stream k happends (hfresh old before hstdout).symm⟩

/-- Redirections of standard output are opened one after the other, and what is written afterwards
goes to the last of them. -/
theorem openRedirections_leadsTo {redirections : List (RedirectMode × String)}
    (hplain : ∀ r ∈ redirections, stores.plain r.2) {s : σ} (hvalid : stores.valid s)
    {files : OutputFiles η} {target : Option κ} (hfiles : stores.LeadsTo s files target) :
    ∃ opened s',
      openRedirections host directory files
          (redirections.map fun r => ⟨r.1, .stdout, ⟨r.2⟩⟩) s = (.ok opened, s') ∧
        stores.valid s' ∧
        stores.ledger s' = (stores.ledger s).openedAll stores.file redirections ∧
        stores.LeadsTo s' opened
          ((redirections.getLast?.map fun r => stores.file r.2).or target) := by
  induction redirections generalizing s files target with
  | nil => exact ⟨files, s, rfl, hvalid, rfl, hfiles⟩
  | cons redirection rest ih =>
    obtain ⟨hname, hrest⟩ := List.forall_mem_cons.mp hplain
    obtain ⟨stream, hok, hopened, hledger, happends, hfresh⟩ :=
      stores.openOutput redirection.1 redirection.2 hvalid hname
    obtain ⟨hclosed, hkept, happends⟩ :=
      stores.closeAll_replaced hfiles hopened happends hfresh
    have hreplaced : stores.LeadsTo
        (host.closeAll (files.get? .stdout).toList
          (host.openOutput redirection.1 (directory.join ⟨redirection.2⟩) s).2)
        (files.replace .stdout stream) (some (stores.file redirection.2)) :=
      ⟨hfiles.1, happends⟩
    obtain ⟨opened, s', hopen, hvalid', hledger', hleads⟩ := ih hrest hclosed hreplaced
    refine ⟨opened, s', ?_, hvalid', ?_, ?_⟩
    · rcases hfirst : host.openOutput redirection.1 (directory.join ⟨redirection.2⟩) s with
        ⟨result, after⟩
      rw [hfirst] at hok hopen
      obtain rfl : result = .ok stream := hok
      simp only [List.map_cons, openRedirections, openRedirection, hfirst]
      exact hopen
    · rw [hledger', hkept, hledger]
      rfl
    · have hlast : ((redirection :: rest).getLast?.map fun r => stores.file r.2).or target =
          (rest.getLast?.map fun r => stores.file r.2).or (some (stores.file redirection.2)) := by
        rw [List.getLast?_cons]
        cases rest.getLast? <;> rfl
      rw [hlast]
      exact hleads

/-- What is written to the standard output of the last stage goes to the file to which its output
files lead, or to the terminal. -/
theorem write_leadsTo {s : σ} {files : OutputFiles η} {target : Option κ}
    (hvalid : stores.valid s) (hleads : stores.LeadsTo s files target) (bytes : ByteArray) :
    ∃ s', host.write (files.stdout.getD host.terminal.stdout) bytes s = (.ok (), s') ∧
      stores.valid s' ∧ stores.ledger s' = (stores.ledger s).written target bytes := by
  obtain ⟨-, hstdout⟩ := hleads
  cases hfile : files.stdout with
  | none =>
    rw [hfile] at hstdout
    cases target with
    | some k => exact hstdout.elim
    | none =>
      obtain ⟨hok, hwritten, hledger⟩ := stores.writeTerminal bytes hvalid
      exact ⟨_, Prod.ext hok rfl, hwritten, hledger⟩
  | some stream =>
    rw [hfile] at hstdout
    cases target with
    | none => exact hstdout.elim
    | some k =>
      obtain ⟨hok, hwritten, hledger⟩ := stores.write bytes hvalid hstdout
      exact ⟨_, Prod.ext hok rfl, hwritten, hledger⟩

/-- Closing streams changes no file. -/
theorem valid_closeAll {s : σ} (hvalid : stores.valid s) (streams : List η) :
    stores.valid (host.closeAll streams s) ∧
      stores.ledger (host.closeAll streams s) = stores.ledger s := by
  induction streams generalizing s with
  | nil => exact ⟨hvalid, rfl⟩
  | cons stream rest ih =>
    obtain ⟨hclosed, hledger, -⟩ := stores.close stream hvalid
    obtain ⟨hrest, hkept⟩ := ih hclosed
    exact ⟨hrest, hkept.trans hledger⟩

end Host.Stores

end

end LineShell
