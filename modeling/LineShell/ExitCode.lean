/-!
# Exit codes and wait statuses

A stage ends with an exit code. For a child process the code is read off the status word that
the system hands out when the child is waited for.
-/

namespace LineShell

/-- The code with which a stage or the shell ends; zero means success. -/
abbrev ExitCode := Int

namespace ExitCode

/-- The code of a stage whose command was not found. -/
def commandNotFound : ExitCode := 127

/-- The code of a stage that could not be started or waited for. -/
def cannotExecute : ExitCode := 126

/-- What is left of a code when a process ends with it: its lowest eight bits. -/
def toProcessStatus (code : ExitCode) : Nat := (code % 256).toNat

end ExitCode

/-- The status word of a child process: the low seven bits tell how it ended, the next one
whether it left a core dump, and the eight bits above hold the code of a normal exit. -/
structure WaitStatus where
  word : BitVec 32
  deriving DecidableEq, Repr

namespace WaitStatus

/-- The status with the given value as a signed word. -/
def ofInt (n : Int) : WaitStatus := ⟨BitVec.ofInt 32 n⟩

/-- The status of a child that exited with a code. -/
def exited (code : ExitCode) : WaitStatus := ⟨BitVec.ofNat 32 (code.toProcessStatus * 256)⟩

/-- The status of a child that a signal ended. -/
def signalled (signal : Nat) : WaitStatus := ⟨BitVec.ofNat 32 (signal % 128)⟩

/-- The low seven bits: zero for a normal exit, else the number of the signal, and all ones for a
child that has not ended. -/
def ending (s : WaitStatus) : Nat := (s.word &&& 0x7F#32).toNat

/-- The code of a child that exited normally. -/
def exitStatus? (s : WaitStatus) : Option Nat :=
  if s.ending = 0 then some ((s.word >>> 8) &&& 0xFF#32).toNat else none

/-- The signal that ended a child. -/
def signal? (s : WaitStatus) : Option Nat :=
  if 0 < s.ending ∧ s.ending < 127 then some s.ending else none

/-- Whether a child that a signal ended left a core dump. -/
def dumpedCore (s : WaitStatus) : Bool := s.signal?.isSome && (s.word &&& 0x80#32) != 0#32

/-- The exit code of a stage whose child ended with this status. -/
def exitCode (s : WaitStatus) : ExitCode :=
  match s.exitStatus? with
  | some code => code
  | none =>
    match s.signal? with
    | some signal => 128 + signal
    | none => if s.dumpedCore then 255 else -1

end WaitStatus

end LineShell
