import LineShell.Machine.Basic
import LineShell.Process.DirectoryRemover
import LineShell.Script.Runner

/-!
# Programs

Which program of the system runs a file, and with which words. A script names the program that
runs it, which may be a script itself.
-/

namespace LineShell

namespace Machine

/-- The number of bytes at the start of a file that tell how to run it. -/
def signatureSize : Nat := 256

/-- The interpreter that the start of a file names, and one argument for it. The line ends at a
line feed. When there is none, something behind the name must show that the name is complete: a
gap, or the zeros that fill up a short file. -/
def interpreter? (contents : ByteArray) : Option (String × Option String) :=
  let start := contents.extract 0 signatureSize
  let zeros := List.replicate (signatureSize - start.size) '\x00'
  match (Text.ofOctets start).toList ++ zeros with
  | '#' :: '!' :: rest =>
    let isGap (c : Char) : Bool := c == ' ' || c == '\t'
    let endsName (c : Char) : Bool := isGap c || c == '\x00'
    let first := rest.takeWhile fun c => c != '\n' && c != '\x00'
    let line? :=
      if rest[first.length]? = some '\n' then some first
      else if (rest.dropWhile isGap).any endsName then some rest.dropLast
      else none
    match line?.map fun line => ((line.reverse.dropWhile isGap).reverse).dropWhile isGap with
    | none | some [] => none
    | some (c :: line) =>
      let path := (c :: line).takeWhile fun c => !endsName c
      let after := (c :: line).drop path.length
      let arg :=
        match after.head?, after.dropWhile isGap with
        | none, _ | some '\x00', _ | _, [] => none
        | _, arg => some (String.ofList (arg.takeWhile fun c => c != '\x00'))
      some (String.ofList path, arg)
  | _ => none

/-- The number of interpreters that may have to interpret each other. -/
def maxInterpreters : Nat := 5

/-- The program of the system that runs a file, and the words it is called with: those of the
call, with the interpreter of a script put in front. No file on the way may be open for writing.
The number is that of the files that may still be looked at. -/
def image (m : Machine) (directory : Trail) (depth : Nat) (path : Path) (words : List String) :
    Except SystemError (NativeProgram × List String) :=
  match m.files.lookup directory path with
  | .error e => .error e
  | .ok (_, .program p) =>
    match depth with
    | 0 => .error .tooManyLinks
    | _ + 1 => .ok (p, words)
  | .ok (id, .file contents true) =>
    if m.isWritten id then .error .textBusy
    else
      match depth with
      | 0 => .error .tooManyLinks
      | depth + 1 =>
        match interpreter? contents with
        | none => .error .execFormat
        | some (interpreter, arg) =>
          match Text.textOfOctets? interpreter with
          | none => .error .notFound
          | some "" => .error .permissionDenied
          | some text =>
            image m directory depth ⟨text⟩
              (interpreter :: (arg.toList ++ Text.octetsOfText path.text :: words.tail))
  | .ok _ => .error .permissionDenied

/-- The number of bytes that one argument or variable must stay below. -/
def maxArgument : Nat := 131072

/-- The program of the system that a process becomes when it executes a file, and the words it is
called with. -/
def imageOf (m : Machine) (directory : Trail) (path : Path) (words entries : List String) :
    Except SystemError (NativeProgram × List String) :=
  match m.image directory (maxInterpreters + 1) path words with
  | .error e => .error e
  | .ok result =>
    if (words ++ entries).any fun text => maxArgument ≤ text.length then .error .argumentTooLong
    else .ok result

/-- The routine of a process that runs a program of the system. -/
def routineOf (program : NativeProgram) (id parent : ProcessId) (words entries : List String) :
    Routine Unit :=
  match program with
  | .scriptRunner => ScriptRunner.routine id parent words entries
  | .directoryRemover => DirectoryRemover.routine words

end Machine

end LineShell
