import LineShell.Machine.Basic
import LineShell.Shell.Loop
import LineShell.Text.Erase

/-!
# Lines from the terminal of a machine

The shell reads its standard input in blocks. What it has read ahead is gone for the programs
that it starts, which go on reading where the last block ended.
-/

namespace LineShell

namespace Machine

/-- The number of bytes that the shell reads at once. -/
def blockSize : Nat := 8192

/-- Takes the next line off the bytes that the shell has read ahead, of which there are enough. -/
def takeLine (m : Machine) : LineRead × Machine :=
  let stop := lineEnd m.readAhead 0
  let line := m.readAhead.extract 0 stop
  let m := { m with readAhead := m.readAhead.extract stop m.readAhead.size }
  if line.isEmpty then (.endOfInput, m)
  else
    match String.fromUTF8? line with
    | none => (.unreadable, m)
    | some text =>
      let cs := text.toList
      let line := if cs.getLast? = some '\n' then Text.dropReturn cs.dropLast else cs
      (.line (String.ofList (Text.erase line)), m)

/-- Whether bytes hold the end of a line. -/
def holdsLine (bytes : ByteArray) : Bool := bytes.data.contains 10

/-- Reads ahead as many blocks as it takes to reach the end of the next line. -/
def readAheadLine (m : Machine) (h : Handle) : Machine :=
  if holdsLine m.readAhead then m
  else
    match m.source h with
    | (bytes, position) =>
      let missing := lineEnd bytes position - position
      let blocks := (missing + blockSize - 1) / blockSize
      match m.readUpTo h (blocks * blockSize) with
      | (chunk, m) => { m with readAhead := m.readAhead ++ chunk }

/-- Reads the next line that the shell runs. -/
def nextLine (h : Handle) (m : Machine) : LineRead × Machine := (m.readAheadLine h).takeLine

/-- The number of bytes that can still be read from a stream. -/
def unread (m : Machine) (h : Handle) : Nat :=
  match m.source h with
  | (bytes, position) => bytes.size - position

end Machine

end LineShell
