/-!
# Errors of the system

The causes for which the system refuses a request, with the text that the shell shows for each.
-/

namespace LineShell

/-- Why the system refused a request. -/
inductive SystemError where
  /-- A file or a directory on the way to it does not exist. -/
  | notFound
  /-- The file may not be used in this way. -/
  | permissionDenied
  /-- Something that is not a directory stands where a directory is needed. -/
  | notADirectory
  /-- A directory stands where a file is needed. -/
  | isADirectory
  /-- The file would become larger than the process may make it. -/
  | fileTooLarge
  /-- The device is full. -/
  | noSpace
  /-- A name or a whole path is longer than the system takes. -/
  | nameTooLong
  /-- The directory still has entries. -/
  | directoryNotEmpty
  /-- The lookup followed more links than the system allows. -/
  | tooManyLinks
  /-- The request makes no sense for this file. -/
  | invalidArgument
  /-- The file is busy. -/
  | busy
  /-- The file cannot be written while it is run, or run while it is open for writing. -/
  | textBusy
  /-- There is a file already. -/
  | fileExists
  /-- Nobody reads what is written. -/
  | brokenPipe
  /-- A signal came in while the process waited. -/
  | interrupted
  /-- The process has no such child. -/
  | noChild
  /-- There is no such process. -/
  | noProcess
  /-- An argument or a variable is longer than a program can be given. -/
  | argumentTooLong
  /-- The file is executable but is no program. -/
  | execFormat
  /-- The handle is not open for this. -/
  | badHandle
  /-- A file name holds the character NUL. -/
  | nulInName
  /-- An argument or a variable of a program holds the character NUL. -/
  | nulInArgument
  /-- The bytes read are not UTF-8. -/
  | invalidUtf8
  deriving DecidableEq, Repr

namespace SystemError

/-- The cause in words. -/
def description : SystemError → String
  | notFound => "No such file or directory"
  | permissionDenied => "Permission denied"
  | notADirectory => "Not a directory"
  | isADirectory => "Is a directory"
  | fileTooLarge => "File too large"
  | noSpace => "No space left on device"
  | nameTooLong => "File name too long"
  | directoryNotEmpty => "Directory not empty"
  | tooManyLinks => "Too many levels of symbolic links"
  | invalidArgument => "Invalid argument"
  | busy => "Device or resource busy"
  | textBusy => "Text file busy"
  | fileExists => "File exists"
  | brokenPipe => "Broken pipe"
  | interrupted => "Interrupted system call"
  | noChild => "No child processes"
  | noProcess => "No such process"
  | argumentTooLong => "Argument list too long"
  | execFormat => "Exec format error"
  | badHandle => "Bad file descriptor"
  | nulInName => "file name contained an unexpected NUL byte"
  | nulInArgument => "nul byte found in provided data"
  | invalidUtf8 => "stream did not contain valid UTF-8"

/-- The number of the error, for those that the system itself numbers. -/
def number? : SystemError → Option Nat
  | notFound => some 2
  | permissionDenied => some 13
  | notADirectory => some 20
  | isADirectory => some 21
  | fileTooLarge => some 27
  | noSpace => some 28
  | nameTooLong => some 36
  | directoryNotEmpty => some 39
  | tooManyLinks => some 40
  | invalidArgument => some 22
  | busy => some 16
  | textBusy => some 26
  | fileExists => some 17
  | brokenPipe => some 32
  | interrupted => some 4
  | noChild => some 10
  | noProcess => some 3
  | argumentTooLong => some 7
  | execFormat => some 8
  | badHandle => some 9
  | nulInName | nulInArgument | invalidUtf8 => none

/-- The text shown for an error: the cause and, where there is one, its number. -/
def message (e : SystemError) : String :=
  match e.number? with
  | some n => e.description ++ " (os error " ++ toString n ++ ")"
  | none => e.description

end SystemError

end LineShell
