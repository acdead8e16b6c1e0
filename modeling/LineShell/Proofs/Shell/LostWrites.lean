import LineShell.Proofs.Shell.Phases
import LineShell.Proofs.Shell.Prescription

/-!
# Writes that are lost

The streams of a stage may fail at any write, each on its own. A stage that runs inside the shell
ends with zero only when it has written everything that it has to. Output that is lost is complained
of on standard error, and a stage that cannot say on standard error what it has to is not started:
the shell reports it on the terminal and counts it as one that cannot be executed. The pipeline goes
on all the same.
-/

namespace LineShell

section

variable {σ η : Type}

/-- When a write to a stream has failed, the next one fails as well. -/
def Host.FailsForGood (host : Host σ η) (stream : η) : Prop :=
  ∀ {line : String} {s s' : σ} {cause : SystemError},
    host.writeLine stream line s = (.error (.failed cause), s') →
      ∀ next, ∃ again s'', host.writeLine stream next s' = (.error (.failed again), s'')

/-- What comes of a stage with a prescription when its writes may fail. -/
structure LossesReported (host : Host σ η) (streams : Streams η) (name : String)
    (p : Prescription σ) (result : StartResult σ) : Prop where
  /-- When everything is written, the stage ends with the code that is prescribed. -/
  written : ∀ {s s'}, host.writeLines streams.stdout p.output p.system = (.ok (), s) →
    host.writeLines streams.stderr p.complaints s = (.ok (), s') →
      result = (.ok (.finished p.code), p.env, s')
  /-- The code is zero only when everything is written. -/
  zero : result.1 = .ok (.finished 0) → ∃ s s',
    host.writeLines streams.stdout p.output p.system = (.ok (), s) ∧
      host.writeLines streams.stderr p.complaints s = (.ok (), s')
  /-- Output that is lost is complained of, and the code is one. -/
  outputLost : ∀ {cause s s'},
    host.writeLines streams.stdout p.output p.system = (.error (.failed cause), s) →
      host.writeLine streams.stderr (name ++ ": " ++ cause.message) s = (.ok (), s') →
        result = (.ok (.finished 1), p.env, s')
  /-- When standard error fails from some write on, also for the complaint of lost output, so does
  the start. -/
  mute : host.FailsForGood streams.stderr → ∀ {lines code cause s s'},
    LeftToSay host streams name p lines code s →
      host.writeLines streams.stderr lines s = (.error (.failed cause), s') →
        ∃ last, result.1 = .error (.cannotWrite last)

variable {host : Host σ η} {streams : Streams η} {name : String} {p : Prescription σ}

/-- When lines could not be written to a stream that fails for good, no further one can. -/
theorem Host.FailsForGood.writeLine {stream : η} (h : host.FailsForGood stream)
    {lines : List String} {s s' : σ} {cause : SystemError}
    (hlines : host.writeLines stream lines s = (.error (.failed cause), s')) (next : String) :
    ∃ again s'', host.writeLine stream next s' = (.error (.failed again), s'') := by
  induction lines generalizing s with
  | nil => cases hlines
  | cons line rest ih =>
    rw [Host.writeLines] at hlines
    rcases hline : host.writeLine stream line s with ⟨outcome, after⟩
    rw [hline] at hlines
    cases outcome with
    | ok => exact ih hlines
    | error e =>
      cases hlines
      exact h hline next

/-- A stage that cannot say what is left to say is not started, when standard error does not work
again. -/
theorem Delivers.error_of_unsaid {result : StartResult σ}
    (h : Delivers host streams name p result) (hgood : host.FailsForGood streams.stderr)
    {lines : List String} {code : ExitCode} {cause : SystemError} {s s' : σ}
    (hleft : LeftToSay host streams name p lines code s)
    (hfails : host.writeLines streams.stderr lines s = (.error (.failed cause), s')) :
    ∃ last, result.1 = .error (.cannotWrite last) := by
  cases h with
  | done left said =>
    obtain ⟨rfl, rfl, rfl⟩ := hleft.unique left
    cases hfails.symm.trans said
  | @unsaid _ _ failure _ _ _ _ left fails ends =>
    obtain ⟨again, after, hagain⟩ := hgood.writeLine fails (name ++ ": " ++ failure.message)
    cases ends with
    | givenUp => exact ⟨_, rfl⟩
    | complained said => cases hagain.symm.trans said
    | failsAgain fails =>
      cases hagain.symm.trans fails
      exact ⟨_, rfl⟩
  | outputBlocked blocks => exact absurd blocks hleft.not_blocked
  | blocked left blocks =>
    obtain ⟨rfl, rfl, rfl⟩ := hleft.unique left
    cases hfails.symm.trans blocks

/-- A stage that ends with zero has written everything. -/
theorem Delivers.written_of_zero {result : StartResult σ}
    (h : Delivers host streams name p result) (hzero : result.1 = .ok (.finished 0)) :
    ∃ s s', host.writeLines streams.stdout p.output p.system = (.ok (), s) ∧
      host.writeLines streams.stderr p.complaints s = (.ok (), s') := by
  -- The code of a complaint is not zero.
  have hone (h : (.ok (.finished 1) : Except StartError (Started σ)) = .ok (.finished 0)) :
      False := by
    have hcode : (1 : ExitCode) = 0 := Started.finished.inj (Except.ok.inj h)
    cases hcode
  cases h with
  | done left said =>
    cases left with
    | complaints written => exact ⟨_, _, written, said⟩
    | outputLost lost => exact (hone hzero).elim
  | unsaid left fails ends =>
    cases ends with
    | givenUp => cases hzero
    | complained => exact (hone hzero).elim
    | failsAgain => cases hzero
  | outputBlocked => cases hzero
  | blocked => cases hzero

/-- A stage that delivers what it has to reports its losses. -/
theorem Delivers.lossesReported {result : StartResult σ}
    (h : Delivers host streams name p result) : LossesReported host streams name p result where
  written houtput hcomplaints := h.eq_of_said (.complaints houtput) hcomplaints
  zero := h.written_of_zero
  outputLost hlost hsaid := by
    rw [← Host.writeLines_singleton] at hsaid
    exact h.eq_of_said (.outputLost hlost) hsaid
  mute hgood _ _ _ _ _ hleft hfails := h.error_of_unsaid hgood hleft hfails

end

/-- A system whose output streams take a number of writes each, and then fail for good. It holds the
two numbers, and what has been written. -/
def leaky : Host (Nat × Nat × List (OutputStream × ByteArray)) OutputStream where
  terminal := ⟨.stdout, .stdout, .stderr⟩
  pipe s := ((.stdout, .stdout), s)
  openOutput _ _ s := (.ok .stdout, s)
  write stream bytes s :=
    match stream, s with
    | .stdout, (0, _, _) | .stderr, (_, 0, _) => (.error (.failed .brokenPipe), s)
    | .stdout, (n + 1, m, log) => (.ok (), n, m, log ++ [(.stdout, bytes)])
    | .stderr, (n, m + 1, log) => (.ok (), n, m, log ++ [(.stderr, bytes)])
  close _ s := s
  isFile _ _ := false
  isDirectory _ _ := true
  canonicalPath _ path := .ok path
  changeDirectory _ s := (.ok (), s)
  spawn _ _ s := (.error .notFound, s)

/-- Standard error of the system fails for good. -/
theorem failsForGood_leaky : leaky.FailsForGood .stderr := by
  intro line s s' cause hfails next
  obtain ⟨n, m, log⟩ := s
  cases m with
  | zero =>
    cases hfails
    exact ⟨.brokenPipe, _, rfl⟩
  | succ m => cases hfails

end LineShell
