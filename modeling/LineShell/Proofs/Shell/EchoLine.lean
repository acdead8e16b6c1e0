import LineShell.Builtin.Command
import LineShell.Proofs.Pipeline.Written

/-!
# Lines that call echo

A line that calls echo has words and may redirect its output to files. It is a line whose pipeline
is a single call of echo that redirects nothing but its standard output.
-/

namespace LineShell

/-! ## Calls of echo -/

/-- A call of echo that can write its line is done. -/
theorem Builtin.start_echo {σ η : Type} {host : Host σ η} {words : List String}
    (streams : Streams η) (env : Environment) {s s' : σ}
    (h : host.write streams.stdout ((String.join words).push '\n').toUTF8 s = (.ok (), s')) :
    (Builtin.echo.command host words).start streams env s = (.ok (.finished 0), env, s') := by
  show (BuiltinCall.echo words).run host streams env s = _
  simp only [BuiltinCall.run, BuiltinCall.perform, BuiltinCall.writing, Host.writeLines,
    Host.writeLine, h]

/-- Words with a separator between each two, written back to back. -/
theorem join_intersperse (separator : String) (words : List String) :
    String.join (words.intersperse separator) = separator.intercalate words := by
  match words with
  | [] => rfl
  | [word] => simp [String.intercalate_singleton]
  | first :: second :: rest =>
    rw [List.intersperse_cons_cons, String.join_cons, String.join_cons,
      join_intersperse separator (second :: rest), String.intercalate_cons_cons,
      String.append_assoc]

/-! ## Lines that are calls -/

/-- A line that calls echo with some words and some redirections of its standard output. -/
structure EchoLine where
  text : String
  words : List String
  /-- The names of the files that are opened, in order. -/
  redirections : List (RedirectMode × String)
  denotes : Denotes (Text.trim text)
    ⟨[⟨"echo", words.intersperse " ",
      redirections.map fun redirection => ⟨redirection.1, .stdout, ⟨redirection.2⟩⟩⟩]⟩

namespace EchoLine

/-- The words of the line with a space between each two, and a line feed. -/
def output (line : EchoLine) : ByteArray := ((" ".intercalate line.words).push '\n').toUTF8

end EchoLine

end LineShell
