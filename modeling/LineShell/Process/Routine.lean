import LineShell.Process.Request

/-!
# What a process does

A routine is what is left to do for a process: it is at its end, or it computes for some time,
makes a request, and goes on in a way that the reply decides. Nothing else can be seen of it, and
a routine can be continued more than once, as a process that is doubled has to be.
-/

namespace LineShell

/-- What is left to do until a result is there. -/
inductive Routine (α : Type) : Type where
  | done (result : α)
  /-- A request, made after some time. -/
  | ask (ticks : Nat) (request : Request) (next : request.Reply → Routine α)

namespace Routine

variable {α β : Type}

/-- Goes on with what the result decides. -/
def bind : Routine α → (α → Routine β) → Routine β
  | done result, f => f result
  | ask ticks request next, f => ask ticks request fun reply => bind (next reply) f

@[always_inline]
instance : Monad Routine where
  pure := done
  bind routine f :=
    match routine with
    | done result => f result
    | ask ticks request next => ask ticks request fun reply => bind (next reply) f

/-- Makes a request at once. -/
def request (request : Request) : Routine request.Reply := ask 0 request done

/-- The time that passes before the next request, or before the end. -/
def delay : Routine α → Nat
  | done _ => 0
  | ask ticks _ _ => ticks

end Routine

end LineShell
