/-!
# Paths

A path is kept as the text it was written with. Joining never normalises: dots and repeated
slashes stay where they are, and only a lookup gives them a meaning.
-/

namespace LineShell

/-- The path of a file, as written. -/
structure Path where
  text : String
  deriving DecidableEq, Repr, Inhabited

namespace Path

/-- Whether the path starts at the root. -/
def isAbsolute (p : Path) : Bool := p.text.toList.head? == some '/'

/-- Whether a slash stands anywhere in the path. -/
def hasSlash (p : Path) : Bool := p.text.toList.contains '/'

/-- Whether the path ends with a slash. -/
def endsWithSlash (p : Path) : Bool := p.text.toList.getLast? == some '/'

/-- The second path as seen from the first. An absolute path stays as it is; otherwise one slash
stands between the two, unless the first is empty or brings its own. -/
def join (base p : Path) : Path :=
  if p.isAbsolute then p
  else if base.text.isEmpty || base.endsWithSlash then ⟨base.text ++ p.text⟩
  else ⟨base.text ++ "/" ++ p.text⟩

end Path

end LineShell
