/-!
# Tables of names

Names are kept in rows, which decide the order in which they are listed.
-/

namespace LineShell

/-- The order in which names are kept. -/
structure NameTable where
  /-- The number of rows. -/
  rows : Nat
  deriving DecidableEq, Repr

namespace NameTable

/-- The number that stands for a name: the sum of its bytes, where the first one counts sixteen
times more. -/
def number (name : String) : Nat :=
  name.toList.foldl (fun sum c => sum + c.toNat) ((name.toList.headD '\x00').toNat * 16)

/-- The row of a name. -/
def row (table : NameTable) (name : String) : Nat := number name % table.rows

/-- Entries in the order of their rows. In a row they stay in the order in which they are. -/
def sorted {α : Type} (table : NameTable) (name : α → String) (entries : List α) : List α :=
  entries.mergeSort fun a b => table.row (name a) ≤ table.row (name b)

end NameTable

end LineShell
