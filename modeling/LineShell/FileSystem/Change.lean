import LineShell.FileSystem.Lookup

/-!
# Building and comparing file systems

Files are placed below a directory together with the directories on the way to them, and two
states of a directory are compared path by path.
-/

namespace LineShell

namespace FileSystem

/-- The directory that names lead to, made with everything on the way where it is missing. -/
def makeDirectories (fs : FileSystem) (base : Trail) : List String → Trail × FileSystem
  | [] => (base, fs)
  | name :: rest =>
    match fs.walk maxLinks base [name] with
    | .ok (trail, _) => fs.makeDirectories trail rest
    | .error _ =>
      match fs.addInto base.node name (.directory []) with
      | (id, fs) => fs.makeDirectories ((name, id) :: base) rest

/-- Places a node under a path. What a link at that path leads to is replaced, not the link. -/
def place (fs : FileSystem) (base : Trail) (p : Path) (node : Node) : FileSystem :=
  let start := if p.isAbsolute then [] else base
  match fs.makeDirectories start p.names.dropLast with
  | (parent, fs) =>
    match p.names.getLast? with
    | none => fs
    | some name =>
      match fs.findWriteTarget maxLinks parent ⟨name⟩ with
      | .ok (.existing id) => fs.modify id fun _ => node
      | .ok (.missing directory name) => (fs.addInto directory name node).2
      | .error _ => fs

/-- Makes a directory under a path. -/
def placeDirectory (fs : FileSystem) (base : Trail) (p : Path) : Trail × FileSystem :=
  fs.makeDirectories (if p.isAbsolute then [] else base) p.names

/-- What can be seen of a node from outside. -/
inductive Appearance where
  | data (bytes : ByteArray)
  | directory
  | link (target : Path)

namespace Appearance

/-- How a node looks from outside. -/
def ofNode : Node → Appearance
  | .file contents _ => data contents
  | .directory _ => directory
  | .link target => link target
  | .device _ | .program _ => data .empty

/-- Whether two nodes look the same. -/
def same : Appearance → Appearance → Bool
  | data a, data b => a == b
  | directory, directory => true
  | link a, link b => a == b
  | _, _ => false

end Appearance

/-- The paths below a directory with what stands there, down to the given depth. Links are not
followed. -/
def listing (fs : FileSystem) : Nat → String → NodeId → List (String × Appearance)
  | 0, _, _ => []
  | depth + 1, base, id =>
    ((fs.entries? id).getD []).flatMap fun (name, id) =>
      let path := if base.isEmpty then name else base ++ "/" ++ name
      match fs.node? id with
      | none => []
      | some node => (path, .ofNode node) :: fs.listing depth path id

/-- Everything below a directory. No directory lies deeper than there are nodes. -/
def below (fs : FileSystem) (id : NodeId) : List (String × Appearance) :=
  fs.listing fs.nodes.size "" id

/-- The differences between two listings: what is new or looks different, and what is gone. -/
def changes (before after : List (String × Appearance)) : List (String × Option Appearance) :=
  let changed := after.filterMap fun (path, now) =>
    match before.lookup path with
    | some old => if old.same now then none else some (path, some now)
    | none => some (path, some now)
  let gone := before.filterMap fun (path, _) =>
    if (after.lookup path).isNone then some (path, none) else none
  changed ++ gone

end FileSystem

end LineShell
