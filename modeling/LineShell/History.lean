import LineShell.Text.Blank

/-!
# The history of a session

The lines that were entered, oldest first. An entry is known by its position in the whole
history, counted from one, whatever part of the history is listed.
-/

namespace LineShell

/-- The lines entered so far, oldest first. -/
structure History where
  entries : Array String
  deriving DecidableEq, Repr, Inhabited

namespace History

/-- The history without entries. -/
def empty : History := ⟨#[]⟩

/-- The history with one more entry at its end. -/
def push (h : History) (line : String) : History := { h with entries := h.entries.push line }

/-- The number of entries. -/
def size (h : History) : Nat := h.entries.size

/-- Whether there are no entries. -/
def isEmpty (h : History) : Bool := h.entries.isEmpty

/-- The entries, oldest first. -/
def toList (h : History) : List String := h.entries.toList

/-- The last entries up to a limit, all of them without one, each with its position. -/
def tail (h : History) (limit : Option Nat) : List (Nat × String) :=
  let first := h.size - limit.getD h.size
  (h.toList.zipIdx 1).drop first |>.map fun (line, position) => (position, line)

/-- The history written in a text file: its lines, trimmed, without the blank ones. -/
def ofText (text : String) : History :=
  let lines := (Text.lines text.toList).map fun line => Text.trim (String.ofList line)
  ⟨(lines.filter fun line => !line.isEmpty).toArray⟩

end History

end LineShell
