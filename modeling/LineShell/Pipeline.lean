import LineShell.Path
import LineShell.Token

/-!
# Pipelines

A command line that can be run: commands in the order in which their streams are connected, each
with its words and its output redirections.
-/

namespace LineShell

/-- An output stream that a redirection replaces. -/
inductive OutputStream where
  | stdout
  | stderr
  deriving DecidableEq, Repr, Inhabited

namespace OutputStream

/-- The conventional number of the stream. -/
def descriptor : OutputStream → Nat
  | stdout => 1
  | stderr => 2

/-- The stream that a redirection token names. Every tag but that of standard error means
standard output. -/
def ofTag (tag : String) : OutputStream :=
  if tag = Token.stderrTag then stderr else stdout

end OutputStream

/-- The request to send an output stream to a file. -/
structure Redirection where
  mode : RedirectMode
  stream : OutputStream
  path : Path
  deriving DecidableEq, Repr, Inhabited

/-- One stage of a pipeline. The words of an echo command keep a single space between them as an
argument of its own, so that writing the arguments back to back restores the spacing. -/
structure Segment where
  name : String
  args : List String
  redirections : List Redirection
  deriving DecidableEq, Repr, Inhabited

/-- The stages of a command line, left to right. -/
structure Pipeline where
  segments : List Segment
  deriving DecidableEq, Repr, Inhabited

namespace Pipeline

/-- The final stage, the only one whose redirections take effect. -/
def last? (p : Pipeline) : Option Segment := p.segments.getLast?

end Pipeline

end LineShell
