/-!
# Limits of processes

What a process may use up, and how much of it. The lower of two bounds holds for the process, and
the upper one for what it may settle itself. A process hands its limits on to its children.
-/

namespace LineShell

/-- What the use of is limited. -/
inductive Resource where
  | time
  | fileSize
  | data
  | stack
  | coreSize
  | memory
  | lockedMemory
  | processes
  | openFiles
  | addressSpace
  | locks
  | priority
  deriving DecidableEq, Repr

/-- How much may be used. Without a number there is no bound. -/
structure Limit where
  soft : Option Nat
  hard : Option Nat
  deriving DecidableEq, Repr

namespace Limit

/-- No limit at all. -/
def unlimited : Limit := ⟨none, none⟩

/-- The same bound for the process and for what it may settle. -/
def both (n : Nat) : Limit := ⟨some n, some n⟩

/-- Whether the bound of the process is not above the one for what it may settle. -/
def isOrdered (limit : Limit) : Bool :=
  match limit.soft, limit.hard with
  | _, none => true
  | none, some _ => false
  | some soft, some hard => soft ≤ hard

end Limit

/-- The limit of a process that nobody has settled one for. -/
def Resource.usual : Resource → Limit
  | stack => ⟨some (8192 * 1024), none⟩
  | lockedMemory => .both (8192 * 1024)
  | openFiles => .both 1048576
  | priority => .both 0
  | _ => .unlimited

end LineShell
