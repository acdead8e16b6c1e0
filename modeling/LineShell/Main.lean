import LineShell.Machine.Standard
import LineShell.Program

/-!
# The executable

Runs the program on a fresh machine that holds the standard files. The standard input of the
process is the terminal's input, and what the program wrote is handed on when it has ended.
-/

open LineShell

/-- The variables that the program inherits from the process. -/
def inheritedVariables : List String := ["HOME", "USER", "PATH", "HISTFILE", "TERM"]

/-- All bytes of a stream, after those that have been read. -/
partial def readToEnd (stream : IO.FS.Stream) (found : ByteArray) : IO ByteArray := do
  let chunk ← stream.read 65536
  if chunk.isEmpty then return found else readToEnd stream (found ++ chunk)

/-- The entries for the inherited variables that are set. -/
def inheritedEntries : IO (List String) :=
  inheritedVariables.filterMapM fun name => do
    return (← IO.getEnv name).map fun value => name ++ "=" ++ value

/-- Runs the program and ends with its status. -/
def main (args : List String) : IO UInt32 := do
  let input ← readToEnd (← IO.getStdin) .empty
  let entries ← inheritedEntries
  let machine := Machine.ofFiles .standard []
  let (_, stdin, machine) := machine.openUnnamed input .read
  let (out, stdout, machine) := machine.openUnnamed .empty .append
  let (err, stderr, machine) := machine.openUnnamed .empty .append
  let (status, machine) := Program.run args entries ⟨stdin, stdout, stderr⟩ machine
  (← IO.getStdout).write (machine.files.contents out)
  (← IO.getStderr).write (machine.files.contents err)
  return UInt32.ofNat status
