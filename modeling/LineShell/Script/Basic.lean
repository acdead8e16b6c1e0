import LineShell.Path

/-!
# Scripts

The commands of the script language that programs on the machine are written in, and the words
that they are made of. A word is a row of pieces; what a piece stands for is found out only when
the command is run. Text is kept as a row of bytes, one character for each byte.
-/

namespace LineShell

/-- What the value of a parameter is used for. In all cases but the last two, an operand follows
the name of the parameter. -/
inductive ParameterUse where
  /-- The operand stands for a missing value. With the flag an empty value counts as missing. -/
  | fallback (orEmpty : Bool)
  /-- The same, and the parameter gets the operand as its value. -/
  | assign (orEmpty : Bool)
  /-- A missing value is an error, with the operand as message. -/
  | demand (orEmpty : Bool)
  /-- The operand stands for a value that is there. -/
  | alternative (orEmpty : Bool)
  /-- The value without the start that the operand as a pattern covers. -/
  | dropStart (longest : Bool)
  /-- The value without the end that the operand as a pattern covers. -/
  | dropEnd (longest : Bool)
  /-- The value as it is. -/
  | value
  /-- The number of bytes in the value. -/
  | length
  /-- No use that the language knows. -/
  | unknown
  deriving DecidableEq, Repr, Inhabited

/-- What a redirection of a script does with a stream. -/
inductive ScriptRedirectMode where
  | read
  | truncate
  | append
  /-- For reading and writing. -/
  | update
  /-- For writing, even into a file that must not be overwritten. -/
  | overwrite
  /-- The stream becomes the one with the given number. -/
  | duplicate
  /-- The stream gives the text itself. -/
  | here
  deriving DecidableEq, Repr, Inhabited

mutual

/-- A piece of a word of a script. -/
inductive Piece where
  /-- Text outside quotes. -/
  | text (t : String)
  /-- Quoted text: it is never a pattern, never split, and no word of the language. -/
  | quoted (t : String)
  /-- A quotation mark. It makes a field, even of nothing. -/
  | mark
  /-- All arguments, alone in quotes: a field for each. -/
  | arguments
  /-- The value of a parameter. -/
  | parameter (name : String) (use : ParameterUse) (operand : List Piece) (inQuotes : Bool)
  /-- The value of an expression. -/
  | arithmetic (expression : List Piece) (inQuotes : Bool)
  /-- What commands write. -/
  | output (commands : Script) (inQuotes : Bool)

/-- A redirection of a script: the number of the stream, what becomes of it, and the word for the
file, the other stream or the text. -/
inductive ScriptRedirection where
  | mk (descriptor : Nat) (mode : ScriptRedirectMode) (target : List Piece)

/-- The commands of a script. -/
inductive Script where
  /-- No command at all. -/
  | nothing
  /-- Assignments, words and redirections on the given line. -/
  | simple (line : Nat) (assignments : List (String × List Piece)) (words : List (List Piece))
      (redirections : List ScriptRedirection)
  /-- Commands that read each other's output. -/
  | pipeline (background : Bool) (stages : List Script)
  /-- Both commands, one after the other. -/
  | sequence (first second : Script)
  /-- The second command only if the first succeeds. -/
  | both (first second : Script)
  /-- The second command only if the first fails. -/
  | either (first second : Script)
  | negated (command : Script)
  /-- A command for which the process is doubled, and which is waited for unless it runs in the
  background. -/
  | apart (line : Nat) (background : Bool) (body : Script)
      (redirections : List ScriptRedirection)
  | redirected (line : Nat) (body : Script) (redirections : List ScriptRedirection)
  | branch (condition yes : Script) (no : Option Script)
  /-- The body as long as the condition succeeds, or fails when `untilSuccess` is set. -/
  | loop (untilSuccess : Bool) (condition body : Script)
  /-- The body for each field of the words. -/
  | each (line : Nat) (name : String) (words : List (List Piece)) (body : Script)
  /-- The first body with a pattern that matches the word. -/
  | choice (line : Nat) (word : List Piece) (cases : List (List (List Piece) × Script))
  /-- Gives a name to a command. -/
  | define (name : String) (body : Script)

end

/-- A word of a script: its pieces without space between them. -/
abbrev ScriptWord := List Piece

instance : Inhabited Piece := ⟨.mark⟩

instance : Inhabited Script := ⟨.nothing⟩

instance : Inhabited ScriptRedirection := ⟨.mk 0 .read []⟩

end LineShell
