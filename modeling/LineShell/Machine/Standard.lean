import LineShell.Machine.Basic

/-!
# A machine as it comes

The files that every machine has before a program runs on it: the special files, the programs of
the system, and the directories where users keep their own.
-/

namespace LineShell

namespace FileSystem

/-- The special files and the programs that every machine has, by their paths. -/
def standardFiles : List (Path × Node) :=
  [(⟨"/dev/null"⟩, .device .null), (⟨"/dev/full"⟩, .device .full),
    (⟨"/bin/sh"⟩, .program .scriptRunner), (⟨"/bin/rmdir"⟩, .program .directoryRemover)]

/-- The directories that every machine has. -/
def standardDirectories : List Path := [⟨"/home"⟩, ⟨"/tmp"⟩, ⟨"/usr/bin"⟩]

/-- The file system that holds the standard files and directories and nothing else. -/
def standard : FileSystem :=
  let files := standardFiles.foldl (fun fs (p, node) => fs.place [] p node) empty
  standardDirectories.foldl (fun fs p => (fs.placeDirectory [] p).2) files

end FileSystem

namespace Machine

/-- Opens a stream on a new file that no directory holds. Gives the file, the stream and the
machine. -/
def openUnnamed (m : Machine) (contents : ByteArray) (mode : OpenMode) :
    NodeId × Handle × Machine :=
  match m.files.add (.file contents false) with
  | (id, files) =>
    match ({ m with files := files }).addStream (.file id 0 mode) with
    | (h, m) => (id, h, m)

end Machine

end LineShell
