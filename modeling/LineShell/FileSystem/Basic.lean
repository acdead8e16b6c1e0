import LineShell.Path
import LineShell.SystemError
import LineShell.Text.Blank

/-!
# A file system in memory

Files, directories and links are nodes with numbers; a directory maps names to numbers. Node zero
is the root.
-/

namespace LineShell

/-- The number of a node. -/
abbrev NodeId := Nat

/-- The special files that commands write to. -/
inductive Device where
  /-- Takes everything and keeps nothing. -/
  | null
  /-- Takes nothing. -/
  | full
  deriving DecidableEq, Repr

/-- The programs that the system brings along. -/
inductive NativeProgram where
  /-- Runs scripts. -/
  | scriptRunner
  /-- Removes empty directories. -/
  | directoryRemover
  deriving DecidableEq, Repr

/-- What a file is. -/
inductive Node where
  | file (contents : ByteArray) (executable : Bool)
  | directory (entries : List (String × NodeId))
  | link (target : Path)
  | device (d : Device)
  | program (p : NativeProgram)
  deriving Inhabited

namespace Node

/-- Whether the node is a directory itself. -/
def isDirectory : Node → Bool
  | directory _ => true
  | _ => false

/-- Whether the node is a regular file. -/
def isRegular : Node → Bool
  | file _ _ | program _ => true
  | _ => false

end Node

/-- The nodes of a file system by their numbers. -/
structure FileSystem where
  nodes : Array Node

namespace FileSystem

/-- The number of the root directory. -/
def root : NodeId := 0

/-- The file system with an empty root directory. -/
def empty : FileSystem := ⟨#[.directory []]⟩

/-- The node with a number. -/
def node? (fs : FileSystem) (id : NodeId) : Option Node := fs.nodes[id]?

/-- The entries of a directory. -/
def entries? (fs : FileSystem) (id : NodeId) : Option (List (String × NodeId)) :=
  match fs.node? id with
  | some (.directory entries) => some entries
  | _ => none

/-- The file system with one more node, which no directory holds yet, and its number. -/
def add (fs : FileSystem) (node : Node) : NodeId × FileSystem :=
  (fs.nodes.size, ⟨fs.nodes.push node⟩)

/-- Changes the node with a number. -/
def modify (fs : FileSystem) (id : NodeId) (change : Node → Node) : FileSystem :=
  match fs with
  | ⟨nodes⟩ => ⟨nodes.modify id change⟩

/-- The entries with a name leading to a node, whatever it led to before. -/
def putEntry (name : String) (id : NodeId) (entries : List (String × NodeId)) :
    List (String × NodeId) :=
  (entries.filter fun entry => entry.1 != name) ++ [(name, id)]

/-- Puts an entry into a directory. -/
def putInto (fs : FileSystem) (directory : NodeId) (name : String) (id : NodeId) : FileSystem :=
  fs.modify directory fun
    | .directory entries => .directory (putEntry name id entries)
    | other => other

/-- Adds a node under a name in a directory. -/
def addInto (fs : FileSystem) (directory : NodeId) (name : String) (node : Node) :
    NodeId × FileSystem :=
  match fs.add node with
  | (id, fs) => (id, fs.putInto directory name id)

/-- Removes an entry of a directory. -/
def removeFrom (fs : FileSystem) (directory : NodeId) (name : String) : FileSystem :=
  fs.modify directory fun
    | .directory entries => .directory (entries.filter fun entry => entry.1 != name)
    | other => other

/-- Empties a regular file. -/
def truncate (fs : FileSystem) (id : NodeId) : FileSystem :=
  fs.modify id fun
    | .file _ executable => .file .empty executable
    | other => other

/-- Bytes written over others from a position on; a gap before the position is filled with
zeros. -/
def overwrite (contents bytes : ByteArray) (position : Nat) : ByteArray :=
  if position = contents.size then contents ++ bytes
  else
    let gap := ⟨Array.replicate (position - contents.size) 0⟩
    contents.extract 0 position ++ gap ++ bytes ++
      contents.extract (position + bytes.size) contents.size

/-- Writes bytes into a regular file from a position on. -/
def writeAt (fs : FileSystem) (id : NodeId) (bytes : ByteArray) (position : Nat) : FileSystem :=
  fs.modify id fun
    | .file contents executable => .file (overwrite contents bytes position) executable
    | other => other

/-- Writes bytes at the end of a regular file. -/
def append (fs : FileSystem) (id : NodeId) (bytes : ByteArray) : FileSystem :=
  fs.modify id fun
    | .file contents executable => .file (contents ++ bytes) executable
    | other => other

/-- The bytes of a regular file, none for any other node. -/
def contents (fs : FileSystem) (id : NodeId) : ByteArray :=
  match fs.node? id with
  | some (.file contents _) => contents
  | _ => .empty

end FileSystem

end LineShell
