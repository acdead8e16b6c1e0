import LineShell.Text.Cluster

/-!
# Taking back characters

A line that does not come from a terminal may hold backspaces. Each one takes back the cluster
of characters before it that is not taken back yet.
-/

namespace LineShell.Text

/-- The character that takes back the cluster before it. -/
def backspace : Char := '\x08'

/-- What is left of the characters that have been read. -/
structure Erasure where
  /-- The characters that are left, the last one first. -/
  kept : List Char
  /-- The numbers of bytes of the clusters that can be taken back, the last one first. -/
  sizes : List Nat
  place : ClusterPlace

namespace Erasure

/-- The start of a line. -/
def start : Erasure := ⟨[], [], .start⟩

/-- Characters in reverse order without as many of the first ones as make up a number of bytes. -/
def dropBytes : Nat → List Char → List Char
  | _, [] => []
  | n, c :: rest => if n < c.utf8Size then c :: rest else dropBytes (n - c.utf8Size) rest

/-- The number of sizes that are told apart: the size of a cluster is remembered in one byte. A
cluster of as many bytes or more loses only the bytes at its end that the remembered size counts. -/
def sizeBound : Nat := 256

/-- Takes back the last cluster, when there is one. -/
def takeBack (line : Erasure) : Erasure :=
  match line.sizes with
  | [] => line
  | size :: rest => ⟨dropBytes (size % sizeBound) line.kept, rest, line.place⟩

/-- Adds a character to the last cluster. -/
def extend (c : Char) (line : Erasure) : Erasure :=
  match line.sizes with
  | [] => ⟨c :: line.kept, [c.utf8Size], line.place⟩
  | size :: rest => ⟨c :: line.kept, (size + c.utf8Size) :: rest, line.place⟩

/-- Adds a character as a new cluster. -/
def push (c : Char) (line : Erasure) : Erasure :=
  ⟨c :: line.kept, c.utf8Size :: line.sizes, line.place⟩

/-- Reads one more character. -/
def step (line : Erasure) (c : Char) : Erasure :=
  let kind := ClusterKind.ofChar c
  let read :=
    if line.place.joins kind then line.extend c
    else if c = backspace then line.takeBack
    else line.push c
  { read with place := line.place.after kind }

end Erasure

/-- A line after its backspaces have done their work. -/
def erase (cs : List Char) : List Char := (cs.foldl Erasure.step .start).kept.reverse

end LineShell.Text
