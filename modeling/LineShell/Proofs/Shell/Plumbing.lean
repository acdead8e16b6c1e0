import LineShell.Shell
import Mathlib.Logic.Function.Basic

/-!
# A system of queues

A system whose pipes are queues without a limit: what is written to a pipe can be read in the same
order, and the pipe ends when its writing end has been closed. The commands of this system run
inside the shell. Each of them is a function of its whole input and of the environment.
-/

namespace LineShell

/-- The streams of a system of queues. -/
inductive Channel where
  | terminalIn
  | terminalOut
  | terminalErr
  | file (number : Nat)
  | reading (pipe : Nat)
  | writing (pipe : Nat)
  deriving DecidableEq

/-- Whether a stream is one end of a pipe. -/
def Channel.isPipeEnd : Channel → Bool
  | reading _ | writing _ => true
  | _ => false

/-- A state of a system of queues. -/
structure Plumbing where
  /-- What stands on the standard input of the terminal. -/
  input : ByteArray
  /-- Everything that has been written to a stream so far. -/
  written : Channel → ByteArray
  /-- The ends of pipes that have been closed. -/
  closed : Channel → Bool
  /-- The streams that have been read to their end. -/
  spent : Channel → Bool
  /-- The number of pipes. -/
  pipes : Nat
  /-- The number of files that have been opened. -/
  files : Nat

namespace Plumbing

/-- The state with one more pipe, which is empty and open at both ends. -/
def addPipe (s : Plumbing) : Plumbing :=
  { s with
    written := Function.update s.written (.writing s.pipes) .empty
    closed := Function.update (Function.update s.closed (.reading s.pipes) false)
      (.writing s.pipes) false
    spent := Function.update s.spent (.reading s.pipes) false
    pipes := s.pipes + 1 }

/-- The state after an end of a pipe has been closed. Other streams are never closed. -/
def close (s : Plumbing) (channel : Channel) : Plumbing :=
  if channel.isPipeEnd then { s with closed := Function.update s.closed channel true } else s

/-- The state with more files. -/
def addFiles (s : Plumbing) (count : Nat) : Plumbing := { s with files := s.files + count }

/-- Whether a stream takes what is written to it. A pipe does until one of its ends is closed. -/
def takes (s : Plumbing) : Channel → Bool
  | .terminalOut | .terminalErr | .file _ => true
  | .writing pipe => !s.closed (.writing pipe) && !s.closed (.reading pipe)
  | .terminalIn | .reading _ => false

/-- The state after bytes have been written to a stream. -/
def put (s : Plumbing) (channel : Channel) (bytes : ByteArray) : Plumbing :=
  { s with written := Function.update s.written channel (s.written channel ++ bytes) }

/-- Writes bytes to a stream that takes them. -/
def write (s : Plumbing) (channel : Channel) (bytes : ByteArray) :
    Except WriteError Unit × Plumbing :=
  if s.takes channel then (.ok (), s.put channel bytes) else (.error (.failed .brokenPipe), s)

/-- What is left to be read on the standard input of the terminal. -/
def unread (s : Plumbing) : ByteArray := if s.spent .terminalIn then .empty else s.input

/-- What can be read from a stream to its end. A pipe has no end while its writing end is open, and
a reader would wait for ever. -/
def offered (s : Plumbing) : Channel → Option ByteArray
  | .terminalIn => some s.unread
  | .reading pipe =>
    if s.closed (.writing pipe) then
      some (if s.spent (.reading pipe) then .empty else s.written (.writing pipe))
    else none
  | _ => none

/-- The state in which a stream has been read to its end, or not. -/
def setSpent (s : Plumbing) (channel : Channel) (spent : Bool) : Plumbing :=
  { s with spent := Function.update s.spent channel spent }

end Plumbing

/-- A system of queues as the host of a shell. Which files can be opened is left open; each that can
be is a stream of its own. -/
def plumbing (openable : RedirectMode → Path → Except SystemError Unit) :
    Host Plumbing Channel where
  terminal := ⟨.terminalIn, .terminalOut, .terminalErr⟩
  pipe s := ((.reading s.pipes, .writing s.pipes), s.addPipe)
  openOutput mode path s :=
    match openable mode path with
    | .ok () => (.ok (.file s.files), s.addFiles 1)
    | .error e => (.error e, s)
  write channel bytes s := s.write channel bytes
  close channel s := s.close channel
  isFile _ _ := false
  isDirectory _ _ := false
  canonicalPath _ path := .ok path
  changeDirectory _ s := (.ok (), s)
  spawn _ _ s := (.error .notFound, s)

/-! ## Commands that run inside the shell -/

/-- What a command makes of its input: the bytes that it writes, the environment that it leaves, and
its code or the reason why its start failed. -/
structure Yield where
  stdout : ByteArray
  stderr : ByteArray
  env : Environment
  result : Except String ExitCode

namespace Yield

/-- The code as which the stage counts. -/
def code (yield : Yield) : ExitCode :=
  match yield.result with
  | .ok code => code
  | .error _ => .cannotExecute

/-- What the shell reports on the terminal. -/
def report (yield : Yield) : ByteArray :=
  match yield.result with
  | .ok _ => .empty
  | .error text => ((shellName ++ ": " ++ text).push '\n').toUTF8

/-- What comes of the start of the stage. -/
def outcome {σ : Type} (yield : Yield) : Except StartError (Started σ) :=
  match yield.result with
  | .ok code => .ok (.finished code)
  | .error text => .error (.custom text)

end Yield

/-- A command as a function of its whole input and the environment. -/
abbrev Transducer := ByteArray → Environment → Yield

namespace Transducer

/-- The command of a transducer: it reads its input to the end and writes what the transducer
yields. -/
def command (transducer : Transducer) : Command Plumbing Channel where
  start channels env s :=
    match s.offered channels.stdin with
    | none => (.error .blocked, env, s)
    | some input =>
      let yield := transducer input env
      match (s.setSpent channels.stdin true).write channels.stdout yield.stdout with
      | (.error e, s) => (.error (.ofWrite e), yield.env, s)
      | (.ok (), s) =>
        match s.write channels.stderr yield.stderr with
        | (.error e, s) => (.error (.ofWrite e), yield.env, s)
        | (.ok (), s) => (yield.outcome, yield.env, s)

/-- The transducer that copies its input. -/
def copy : Transducer := fun input env => ⟨input, .empty, env, .ok 0⟩

/-- What a name that nothing claims amounts to: its input is dropped, and only the complaint about
the name is written. -/
def unresolved (name : String) : Transducer := fun _ env =>
  ⟨.empty, ((name ++ ": command not found").push '\n').toUTF8, env, .ok .commandNotFound⟩

end Transducer

/-- The maker of the commands of transducers. -/
def transducerFactory (resolve : Environment → String → List String → Option Transducer) :
    Factory Plumbing Channel where
  create? env _ name args := (resolve env name args).map Transducer.command

/-- The transducer that a stage runs. -/
def transducerOf (resolve : Environment → String → List String → Option Transducer)
    (env : Environment) (segment : Segment) : Transducer :=
  (resolve env segment.name segment.args).getD (.unresolved segment.name)

/-! ## What reaches a stream -/

/-- The bytes that reach a stream, of bytes that are written to streams one after the other. -/
def bytesTo (channel : Channel) : List (Channel × ByteArray) → ByteArray
  | [] => .empty
  | (target, bytes) :: rest =>
    (if target = channel then bytes else .empty) ++ bytesTo channel rest

/-- What reaches a stream first, and what reaches it then. -/
theorem bytesTo_append (channel : Channel) (first second : List (Channel × ByteArray)) :
    bytesTo channel (first ++ second) = bytesTo channel first ++ bytesTo channel second := by
  induction first with
  | nil => exact ByteArray.empty_append.symm
  | cons output rest ih => rw [List.cons_append, bytesTo, bytesTo, ih, ByteArray.append_assoc]

namespace Plumbing

/-- Every stream but the ends of pipes has gained what the given outputs bring it. -/
def Gains (s : Plumbing) (outputs : List (Channel × ByteArray)) (s' : Plumbing) : Prop :=
  ∀ channel, channel.isPipeEnd = false →
    s'.written channel = s.written channel ++ bytesTo channel outputs

/-- Nothing has been gained where nothing is written. -/
theorem Gains.of_written_eq {s s' : Plumbing}
    (h : ∀ channel, channel.isPipeEnd = false → s'.written channel = s.written channel) :
    s.Gains [] s' :=
  fun channel hchannel => (h channel hchannel).trans ByteArray.append_empty.symm

/-- What is gained first, and what is gained then. -/
theorem Gains.trans {s s' s'' : Plumbing} {first second : List (Channel × ByteArray)}
    (hfirst : s.Gains first s') (hsecond : s'.Gains second s'') :
    s.Gains (first ++ second) s'' := by
  intro channel hchannel
  rw [hsecond channel hchannel, hfirst channel hchannel, bytesTo_append, ByteArray.append_assoc]

/-- What has been written after some more. -/
theorem written_put (s : Plumbing) (target : Channel) (bytes : ByteArray) :
    (s.put target bytes).written =
      Function.update s.written target (s.written target ++ bytes) := rfl

/-- Other streams hold what they held before. -/
theorem written_put_of_ne (s : Plumbing) {target channel : Channel} (h : channel ≠ target)
    (bytes : ByteArray) : (s.put target bytes).written channel = s.written channel :=
  Function.update_of_ne h _ _

/-- What is written to a stream is gained by it alone. -/
theorem gains_put (s : Plumbing) (target : Channel) (bytes : ByteArray) :
    s.Gains [(target, bytes)] (s.put target bytes) := by
  intro channel _
  rw [bytesTo, bytesTo, ByteArray.append_empty, written_put, Function.update_apply]
  by_cases h : channel = target
  · rw [if_pos h, if_pos h.symm, h]
  · rw [if_neg h, if_neg (Ne.symm h), ByteArray.append_empty]

/-- What is written to the end of a pipe reaches no other stream. -/
theorem gains_put_of_isPipeEnd (s : Plumbing) {target : Channel} (bytes : ByteArray)
    (htarget : target.isPipeEnd = true) : s.Gains [] (s.put target bytes) := by
  refine .of_written_eq fun channel hchannel => s.written_put_of_ne ?_ bytes
  rintro rfl
  rw [htarget] at hchannel
  cases hchannel

/-- A new pipe brings nothing. -/
theorem gains_addPipe (s : Plumbing) : s.Gains [] s.addPipe := by
  refine .of_written_eq fun channel hchannel => Function.update_of_ne ?_ _ _
  rintro rfl
  cases hchannel

/-- Closing a stream changes nothing of what has been written. -/
@[simp] theorem written_close (s : Plumbing) (channel : Channel) :
    (s.close channel).written = s.written := by
  unfold close
  split <;> rfl

/-- Closing a stream changes nothing of what has been read. -/
@[simp] theorem spent_close (s : Plumbing) (channel : Channel) :
    (s.close channel).spent = s.spent := by
  unfold close
  split <;> rfl

/-- Closing a stream makes no pipe. -/
@[simp] theorem pipes_close (s : Plumbing) (channel : Channel) :
    (s.close channel).pipes = s.pipes := by
  unfold close
  split <;> rfl

/-- Writing nothing changes nothing. -/
@[simp] theorem put_empty (s : Plumbing) (channel : Channel) : s.put channel .empty = s := by
  rw [put, ByteArray.append_empty, Function.update_eq_self]

/-- Whether a stream has been read to its end may be said again. -/
@[simp] theorem setSpent_self (s : Plumbing) (channel : Channel) :
    s.setSpent channel (s.spent channel) = s := by
  rw [setSpent, Function.update_eq_self]

/-- Bytes are written to a stream that takes them. -/
theorem write_of_takes {s : Plumbing} {channel : Channel} (h : s.takes channel = true)
    (bytes : ByteArray) : s.write channel bytes = (.ok (), s.put channel bytes) := if_pos h

end Plumbing

end LineShell
