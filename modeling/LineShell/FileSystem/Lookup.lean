import LineShell.FileSystem.Basic

/-!
# Finding files by their paths

A lookup walks a path name by name and follows the links on its way. It remembers the directories
it came through, so that two dots lead back and the path without links can be read off.
-/

namespace LineShell

/-- The way from the root to a node, the node itself first; empty for the root. -/
abbrev Trail := List (String × NodeId)

namespace Trail

/-- The node at the end of the way. -/
def node (trail : Trail) : NodeId :=
  match trail with
  | [] => FileSystem.root
  | (_, id) :: _ => id

/-- The absolute path of the way. -/
def path (trail : Trail) : Path :=
  match trail with
  | [] => ⟨"/"⟩
  | _ => ⟨String.join (trail.reverse.map fun step => "/" ++ step.1)⟩

end Trail

namespace Path

/-- The names between the slashes of a path. -/
def names (p : Path) : List String :=
  ((Text.pieces '/' p.text.toList).filter fun piece => !piece.isEmpty).map String.ofList

/-- The names that a lookup walks. A slash at the end asks for a directory, as a dot would. -/
def steps (p : Path) : List String := if p.endsWithSlash then p.names ++ ["."] else p.names

end Path

namespace FileSystem

/-- The greatest number of links that one lookup follows. -/
def maxLinks : Nat := 40

/-- The greatest number of bytes in a name. -/
def maxName : Nat := 255

/-- The number of bytes that a path must stay below. -/
def maxPath : Nat := 4096

/-- Where a walk along names ends that follows no link. -/
inductive Stop where
  /-- At the node of the last name. -/
  | arrived (trail : Trail)
  /-- At a link, with the names that are still to be walked. -/
  | atLink (target : Path) (trail : Trail) (rest : List String)
  deriving Repr

/-- Walks names up to the first link. -/
def walkToLink (fs : FileSystem) (trail : Trail) : List String → Except SystemError Stop
  | [] => .ok (.arrived trail)
  | name :: rest =>
    match fs.entries? trail.node with
    | none => .error .notADirectory
    | some entries =>
      if name = "." then walkToLink fs trail rest
      else if name = ".." then walkToLink fs trail.tail rest
      else if maxName < name.utf8ByteSize then .error .nameTooLong
      else
        match entries.lookup name with
        | none => .error .notFound
        | some id =>
          match fs.node? id with
          | some (.link target) => .ok (.atLink target trail rest)
          | _ => walkToLink fs ((name, id) :: trail) rest

/-- Walks the names of a path, following at most the given number of links. Gives the way to the
node at the end and the number of links that may still be followed. -/
def walk (fs : FileSystem) (links : Nat) (trail : Trail) (steps : List String) :
    Except SystemError (Trail × Nat) :=
  match fs.walkToLink trail steps with
  | .error e => .error e
  | .ok (.arrived trail) => .ok (trail, links)
  | .ok (.atLink target trail rest) =>
    match links with
    | 0 => .error .tooManyLinks
    | links + 1 => walk fs links (if target.isAbsolute then [] else trail) (target.steps ++ rest)

/-- Why a text is no path at all. -/
def textFault? (p : Path) : Option SystemError :=
  if p.text.toList.contains '\x00' then some .nulInName
  else if p.text.isEmpty then some .notFound
  else none

/-- Why the system does not even look a path up. -/
def pathFault? (p : Path) : Option SystemError :=
  match textFault? p with
  | some e => some e
  | none => if maxPath ≤ p.text.utf8ByteSize then some .nameTooLong else none

/-- The way to the file that a path leads to, as seen from a directory. -/
def locate (fs : FileSystem) (base : Trail) (p : Path) : Except SystemError Trail :=
  match pathFault? p with
  | some e => .error e
  | none => (fs.walk maxLinks (if p.isAbsolute then [] else base) p.steps).map Prod.fst

/-- The node that a path leads to. -/
def lookup (fs : FileSystem) (base : Trail) (p : Path) : Except SystemError (NodeId × Node) :=
  match fs.locate base p with
  | .error e => .error e
  | .ok trail =>
    match fs.node? trail.node with
    | some node => .ok (trail.node, node)
    | none => .error .notFound

/-- The node that a path names: a link at its end is not followed, unless a slash behind it or dots
ask for what it leads to. -/
def lookupName (fs : FileSystem) (base : Trail) (p : Path) : Except SystemError (NodeId × Node) :=
  match pathFault? p, p.names.getLast? with
  | some e, _ => .error e
  | none, none => fs.lookup base p
  | none, some name =>
    if name = "." ∨ name = ".." ∨ p.endsWithSlash then fs.lookup base p
    else
      match fs.walk maxLinks (if p.isAbsolute then [] else base) p.names.dropLast with
      | .error e => .error e
      | .ok (directory, _) =>
        match fs.entries? directory.node with
        | none => .error .notADirectory
        | some entries =>
          if maxName < name.utf8ByteSize then .error .nameTooLong
          else
            match (entries.lookup name).bind fun id => (fs.node? id).map fun node => (id, node) with
            | some found => .ok found
            | none => .error .notFound

/-- The absolute path without links that leads to the same node. Its names are walked one by one,
so that a path may be longer here than one that is looked up at once. -/
def canonical (fs : FileSystem) (base : Trail) (p : Path) : Except SystemError Path :=
  match textFault? p with
  | some e => .error e
  | none =>
    match fs.walk maxLinks (if p.isAbsolute then [] else base) p.steps with
    | .error e => .error e
    | .ok (trail, _) =>
      if maxPath ≤ trail.path.text.utf8ByteSize then .error .nameTooLong else .ok trail.path

/-- Whether the directory at the end of a way has not been removed. The way out of a removed one
still leads to the directory that held it. -/
def stillHolds (fs : FileSystem) : Trail → Bool
  | [] => true
  | (name, id) :: parent =>
    match fs.entries? (Trail.node parent) with
    | some entries => entries.lookup name == some id
    | none => false

/-- Whether a path leads to a regular file. -/
def isFile (fs : FileSystem) (base : Trail) (p : Path) : Bool :=
  match fs.lookup base p with
  | .ok (_, node) => node.isRegular
  | .error _ => false

/-- Whether a path leads to a directory. -/
def isDirectory (fs : FileSystem) (base : Trail) (p : Path) : Bool :=
  match fs.lookup base p with
  | .ok (_, node) => node.isDirectory
  | .error _ => false

/-- The bytes of the file that a path leads to. -/
def read (fs : FileSystem) (base : Trail) (p : Path) : Except SystemError ByteArray :=
  match fs.lookup base p with
  | .error e => .error e
  | .ok (_, .directory _) => .error .isADirectory
  | .ok (id, _) => .ok (fs.contents id)

/-- The text of the file that a path leads to. -/
def readText (fs : FileSystem) (base : Trail) (p : Path) : Except SystemError String :=
  match fs.read base p with
  | .error e => .error e
  | .ok bytes =>
    match String.fromUTF8? bytes with
    | some text => .ok text
    | none => .error .invalidUtf8

/-- Where a file opened for writing is: an existing node, or a name that its directory lacks. -/
inductive WriteTarget where
  | existing (id : NodeId)
  | missing (directory : NodeId) (name : String)
  deriving DecidableEq, Repr

/-- Finds the file that a path opened for writing leads to, following the links at its end. The
path must not lead to a directory or be written like one. -/
def findWriteTarget (fs : FileSystem) (links : Nat) (base : Trail) (p : Path) :
    Except SystemError WriteTarget :=
  let start := if p.isAbsolute then [] else base
  match p.names.getLast? with
  | none => .error .isADirectory
  | some name =>
    match fs.walk links start p.names.dropLast with
    | .error e => .error e
    | .ok (directory, links') =>
      match fs.entries? directory.node with
      | none => .error .notADirectory
      | some entries =>
        if name = "." ∨ name = ".." ∨ p.endsWithSlash then .error .isADirectory
        else if maxName < name.utf8ByteSize then .error .nameTooLong
        else
          match entries.lookup name with
          | none =>
            if fs.stillHolds directory then .ok (.missing directory.node name)
            else .error .notFound
          | some id =>
            match fs.node? id with
            | some (.directory _) => .error .isADirectory
            | some (.link target) =>
              if _h : 0 < links' ∧ links' ≤ links then
                findWriteTarget fs (links' - 1) directory target
              else .error .tooManyLinks
            | _ => .ok (.existing id)
termination_by links
decreasing_by omega

/-- Finds or creates the regular file that a path leads to. -/
def openForWriting (fs : FileSystem) (base : Trail) (p : Path) :
    Except SystemError (NodeId × FileSystem) :=
  match pathFault? p with
  | some e => .error e
  | none =>
    match fs.findWriteTarget maxLinks base p with
    | .error e => .error e
    | .ok (.existing id) => .ok (id, fs)
    | .ok (.missing directory name) => .ok (fs.addInto directory name (.file .empty false))

/-- The names in the directory that a path leads to, each with its node. -/
def list (fs : FileSystem) (base : Trail) (p : Path) : Except SystemError (List (String × Node)) :=
  match fs.lookup base p with
  | .error e => .error e
  | .ok (_, .directory entries) =>
    .ok (entries.filterMap fun (name, id) => (fs.node? id).map fun node => (name, node))
  | .ok _ => .error .notADirectory

/-- Removes the empty directory that a path names. -/
def removeDirectory (fs : FileSystem) (base : Trail) (p : Path) : Except SystemError FileSystem :=
  match pathFault? p with
  | some e => .error e
  | none =>
    match p.names.getLast? with
    | none => .error .busy
    | some "." => .error .invalidArgument
    | some ".." => .error .directoryNotEmpty
    | some name =>
      match fs.walk maxLinks (if p.isAbsolute then [] else base) p.names.dropLast with
      | .error e => .error e
      | .ok (parent, _) =>
        match fs.entries? parent.node with
        | none => .error .notADirectory
        | some entries =>
          if maxName < name.utf8ByteSize then .error .nameTooLong
          else
            match entries.lookup name with
            | none => .error .notFound
            | some id =>
              match fs.entries? id with
              | none => .error .notADirectory
              | some [] => .ok (fs.removeFrom parent.node name)
              | some _ => .error .directoryNotEmpty

end FileSystem

end LineShell
