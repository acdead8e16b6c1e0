import LineShell.Process.Routine
import LineShell.Text.Octets

/-!
# The remover of directories

The program of the system that removes empty directories. It goes on behind a directory that
cannot be removed, and says why.
-/

namespace LineShell

namespace DirectoryRemover

/-- Removes directories and complains, under the name of the program, about those that cannot be
removed. Gives the status of the program. -/
def remove (program : String) (status : Nat) : List String → Routine Nat
  | [] => return status
  | name :: rest => do
    let removed ←
      match Text.textOfOctets? name with
      | none => pure (.error .notFound)
      | some text => Routine.request (.removeDirectory ⟨text⟩)
    match removed with
    | .ok () => remove program status rest
    | .error e =>
      let message := ": failed to remove \x27" ++ name ++ "\x27: " ++ SystemError.description e
      discard (Routine.request (.write 2 (Text.toOctets (program ++ message ++ "\n"))))
      remove program 1 rest

/-- The routine of a process that removes directories. -/
def routine (words : List String) : Routine Unit := do
  let status ← remove (words.headD "") 0 words.tail
  nomatch ← Routine.request (.finish (.exited status))

end DirectoryRemover

end LineShell
