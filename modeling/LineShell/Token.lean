/-!
# Tokens

A command line is a row of tokens. Adjacent literals belong to one word, so a token is a piece
of a word, a run of spaces, or an operator.
-/

namespace LineShell

/-- How the target file of a redirection is opened. -/
inductive RedirectMode where
  /-- The file is created, or emptied when it exists. -/
  | truncate
  /-- The file is created when it is missing; writing goes to its end. -/
  | append
  deriving DecidableEq, Repr, Inhabited

/-- The lexical units of a command line. -/
inductive Token where
  /-- A piece of literal text: part of a bare word or the contents of a quotation. -/
  | literal (text : String)
  /-- A run of spaces. -/
  | space
  /-- An output redirection; the tag names the redirected stream. -/
  | redirect (mode : RedirectMode) (tag : String)
  /-- The pipe operator. -/
  | pipe
  deriving DecidableEq, Repr, Inhabited

namespace Token

/-- The tag of redirections of standard output. -/
def stdoutTag : String := "stdout"

/-- The tag of redirections of standard error. -/
def stderrTag : String := "stderr"

/-- The text that a token carries: its own for a literal, the tag for a redirection. -/
def text : Token → String
  | literal t => t
  | space => " "
  | redirect _ tag => tag
  | pipe => "|"

end Token

end LineShell
