import LineShell.ExitCode
import LineShell.Text.Numeral

/-!
# Signals

The signals that processes send each other, by their names and numbers, and what becomes of a
process that a signal reaches.
-/

namespace LineShell

namespace Signal

/-- The signals by name. -/
def names : List (String × Nat) :=
  [("HUP", 1), ("INT", 2), ("QUIT", 3), ("ILL", 4), ("TRAP", 5), ("ABRT", 6), ("BUS", 7),
    ("FPE", 8), ("KILL", 9), ("USR1", 10), ("SEGV", 11), ("USR2", 12), ("PIPE", 13), ("ALRM", 14),
    ("TERM", 15), ("CHLD", 17), ("CONT", 18), ("STOP", 19), ("TSTP", 20), ("TTIN", 21),
    ("TTOU", 22), ("URG", 23), ("XCPU", 24), ("XFSZ", 25), ("VTALRM", 26), ("PROF", 27),
    ("WINCH", 28), ("IO", 29), ("PWR", 30), ("SYS", 31), ("RTMIN", 34), ("RTMAX", 64)]

/-- The signal for a process that writes into a pipe that nobody reads. -/
def brokenPipe : Nat := 13

/-- The signal for a process of which a child has ended. -/
def childEnded : Nat := 17

/-- The signal that asks a process to end. -/
def termination : Nat := 15

/-- The signal for a process that the terminal interrupts. -/
def interruption : Nat := 2

/-- The signal for a process that writes more into a file than it may. -/
def fileTooLarge : Nat := 25

/-- The greatest number of a signal. -/
def last : Nat := 64

/-- The name of a signal, or its number when it has none. Those that processes may use as they
like are counted from the first or the last of them. -/
def name (signal : Nat) : String :=
  match names.find? fun entry => entry.2 == signal with
  | some (name, _) => name
  | none =>
    if 34 < signal && signal < 50 then "RTMIN+" ++ toString (signal - 34)
    else if 50 ≤ signal && signal < 64 then "RTMAX-" ++ toString (64 - signal)
    else toString signal

/-- The numbers of all signals. -/
def all : List Nat := List.range' 1 last

/-- The number of the signal that a word names, by number or by name in letters of either case. -/
def ofWord? (word : String) : Option Nat :=
  match Text.digits? word.toList with
  | some n => if n ≤ last then some n else none
  | none =>
    let upper := word.map Char.toUpper
    all.find? fun signal => name signal == upper

/-- What a process has settled to do about a signal. -/
inductive Reaction where
  /-- What the signal does by itself. -/
  | standard
  /-- Nothing. -/
  | ignored
  /-- To take note of it and to see about it later. -/
  | noted
  deriving DecidableEq, Repr, Inhabited

/-- The signals about which no process can settle anything. -/
def unavoidable : List Nat := [9, 19]

/-- The signals that do not end a process: the one that only asks, and those that are ignored or
that stop and continue it. -/
def harmless : List Nat := [0, 17, 18, 19, 20, 21, 22, 23, 28]

/-- The wait status of a process that a signal has reached; none when it goes on. -/
def fate? (signal : Nat) : Option WaitStatus :=
  if harmless.contains signal then none else some (.signalled signal)

/-- What a shell says about a child that a signal has ended. -/
def obituary (signal : Nat) : String :=
  match signal with
  | 1 => "Hangup"
  | 2 => "Interrupt"
  | 3 => "Quit"
  | 4 => "Illegal instruction"
  | 5 => "Trace/breakpoint trap"
  | 6 => "Aborted"
  | 7 => "Bus error"
  | 8 => "Floating point exception"
  | 9 => "Killed"
  | 10 => "User defined signal 1"
  | 11 => "Segmentation fault"
  | 12 => "User defined signal 2"
  | 13 => "Broken pipe"
  | 14 => "Alarm clock"
  | 15 => "Terminated"
  | 16 => "Stack fault"
  | 24 => "CPU time limit exceeded"
  | 25 => "File size limit exceeded"
  | 26 => "Virtual timer expired"
  | 27 => "Profiling timer expired"
  | 29 => "I/O possible"
  | 30 => "Power failure"
  | 31 => "Bad system call"
  | n =>
    if n < 34 then "Unknown signal " ++ toString n
    else "Real-time signal " ++ toString (n - 34)

end Signal

end LineShell
