import LineShell.ExitCode
import LineShell.FileSystem.Lookup
import LineShell.Process.Limit
import LineShell.Process.Signal

/-!
# What a process asks of the system

A process computes for itself. Everything else it has to ask for, and each kind of request has
its own kind of reply. Texts that the system only hands on are rows of bytes, one character for
each byte.
-/

namespace LineShell

/-- The number of a process. -/
abbrev ProcessId := Nat

/-- The number under which a process knows an open stream. -/
abbrev Descriptor := Nat

/-- How a file is opened. A file that is missing is made unless it is opened to be read. -/
inductive OpenMode where
  | read
  /-- For writing, and emptied first. -/
  | truncate
  /-- For writing at its end. -/
  | append
  /-- For reading and writing, from the start. -/
  | update
  deriving DecidableEq, Repr, Inhabited

namespace OpenMode

/-- Whether a stream opened in this way can be read. -/
def reads : OpenMode → Bool
  | read | update => true
  | truncate | append => false

/-- Whether a stream opened in this way can be written. -/
def writes : OpenMode → Bool
  | read => false
  | truncate | append | update => true

end OpenMode

/-- How long a process waits for a child to end. -/
inductive Patience where
  /-- Not at all. -/
  | none
  /-- Until a child has ended, or a signal has come in of which the process takes note. -/
  | untilSignal
  /-- Until a child has ended. -/
  | untilEnd
  deriving DecidableEq, Repr

/-- What a process asks of the system. -/
inductive Request where
  /-- To go on, when nothing but time is needed. -/
  | rest
  /-- To open a file under the lowest free number. -/
  | openFile (mode : OpenMode) (path : Path)
  /-- To make a pipe. -/
  | makePipe
  /-- To let a second number stand for an open stream, whatever it stood for before. -/
  | duplicate (source target : Descriptor)
  /-- To let a high number stand for an open stream, which the programs that the process becomes
  do not inherit. -/
  | setAside (source : Descriptor)
  /-- To give up an open stream. -/
  | close (d : Descriptor)
  /-- To read some bytes, at most the given number. -/
  | read (d : Descriptor) (limit : Nat)
  /-- To read the bytes that are there, up to the end of a line. A signal that comes in while there
  are none ends the wait for them. -/
  | readLine (d : Descriptor)
  /-- To write all the bytes. -/
  | write (d : Descriptor) (bytes : ByteArray)
  /-- To see what a path leads to, or what it names when links are not followed. -/
  | look (path : Path) (followsLink : Bool)
  /-- To list the names in a directory. -/
  | list (path : Path)
  /-- To remove an empty directory. -/
  | removeDirectory (path : Path)
  /-- To move to a directory. -/
  | move (path : Path)
  /-- To learn the path of the directory where the process is. -/
  | whereabouts
  /-- To be doubled. -/
  | fork
  /-- To end in some way. -/
  | finish (ending : WaitStatus)
  /-- To become the program in a file, called with words and given entries for variables. -/
  | execute (program : Path) (words entries : List String)
  /-- To learn how a child has ended, the first of those that have. -/
  | wait (patience : Patience)
  /-- To send a signal to a process. -/
  | send (signal : Nat) (target : ProcessId)
  /-- To settle what becomes of a signal that comes in. -/
  | react (signal : Nat) (reaction : Signal.Reaction)
  /-- To learn which rights the files that the process makes lack, and to settle them anew when
  others are given. -/
  | mask (rights : Option Nat)
  /-- To learn how much of something the process may use, and to settle it anew when another limit
  is given. -/
  | limit (resource : Resource) (limit : Option Limit)

namespace Request

/-- The reply to a request. -/
@[reducible] def Reply : Request → Type
  | rest => List Nat
  | openFile _ _ => Except SystemError Descriptor
  | makePipe => Descriptor × Descriptor
  | duplicate _ _ => Except SystemError Unit
  | setAside _ => Except SystemError Descriptor
  | close _ => Unit
  | read _ _ => Except SystemError ByteArray
  | readLine _ => Except SystemError ByteArray
  | write _ _ => Except SystemError Unit
  | look _ _ => Except SystemError (NodeId × Node)
  | list _ => Option (List String)
  | removeDirectory _ => Except SystemError Unit
  | move _ => Except SystemError Unit
  | whereabouts => Except SystemError Path
  | fork => Option ProcessId
  | finish _ => Empty
  | execute _ _ _ => SystemError
  | wait _ => Option (ProcessId × WaitStatus)
  | send _ _ => Except SystemError Unit
  | react _ _ => Unit
  | mask _ => Nat
  | limit _ _ => Except SystemError Limit

end Request

end LineShell
