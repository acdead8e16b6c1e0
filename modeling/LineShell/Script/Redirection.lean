import LineShell.Script.Expansion

/-!
# Redirections of scripts

A redirection opens a file, or takes another stream, under the number that it names. What the
number stood for before is set aside, so that it can be put back when the command is done.
-/

namespace LineShell

/-- A redirection with its word expanded. -/
structure ExpandedRedirection where
  descriptor : Descriptor
  mode : ScriptRedirectMode
  target : String
  deriving Repr

/-- What a number stood for before a redirection: a stream that has been set aside, or nothing. -/
structure StreamBefore where
  descriptor : Descriptor
  aside : Option Descriptor
  deriving Repr

namespace ScriptM

/-- Expands the words of redirections. The words for other streams must be numbers. -/
def expandRedirections (outputOf : Script → ScriptM String) :
    List ScriptRedirection → ScriptM (List ExpandedRedirection)
  | [] => return []
  | .mk descriptor mode target :: rest => do
    let text ← expandText outputOf .single target
    if mode == .duplicate then
      unless text == "-" || (text.length == 1 && text.front.isDigit) do
        complainAt (← get).reached "Syntax error: Bad fd number"
        setStatus faultStatus
        throw .fault
    return ⟨descriptor, mode, text⟩ :: (← expandRedirections outputOf rest)

/-- What is wrong with a file that cannot be opened. For a missing file or directory that is what
is missing. -/
def openingFault (missing : String) : SystemError → String
  | .notFound | .notADirectory => missing
  | e => e.description

/-- How the file of a redirection is opened. -/
def openMode : ScriptRedirectMode → OpenMode
  | .append => .append
  | .truncate | .overwrite => .truncate
  | .update => .update
  | .read | .duplicate | .here => .read

/-- Opens the file of a redirection. Existing files can be protected from being emptied. -/
def openTarget (mode : ScriptRedirectMode) (text : String) :
    ScriptM (Except SystemError Descriptor) := do
  match pathOf? text with
  | none => return .error .notFound
  | some p =>
    let isProtected ←
      if mode == .truncate && (← hasOption 'C') then
        match ← ask (.look p true) with
        | .ok (_, node) => pure node.isRegular
        | .error _ => pure false
      else pure false
    if isProtected then return .error .fileExists
    ask (.openFile (openMode mode) p)

/-- The size up to which a pipe takes a text at once. -/
def pipeText : Nat := 4096

/-- A stream that gives a text. A long text is written by a process of its own. -/
def openText (text : String) : ScriptM Descriptor := do
  let (reading, writing) ← ask .makePipe
  if text.length ≤ pipeText then discard (put writing text)
  else
    discard (inChild do
      ask (.close reading)
      discard (put writing text))
  ask (.close writing)
  return reading

/-- Sets aside what a number stands for, unless that has been done for the same command. -/
def setAside (d : Descriptor) (before : List StreamBefore) : ScriptM (List StreamBefore) := do
  if before.any fun b => b.descriptor == d then return before
  match ← ask (.setAside d) with
  | .ok copy =>
    ask (.close d)
    return ⟨d, some copy⟩ :: before
  | .error _ => return ⟨d, none⟩ :: before

/-- Applies redirections in order, as far as that is possible, and tells whether it is possible for
all of them, and what was there before. -/
def redirect (before : List StreamBefore) :
    List ExpandedRedirection → ScriptM (Bool × List StreamBefore)
  | [] => return (true, before)
  | ⟨d, .duplicate, "-"⟩ :: rest => do
    let before ← setAside d before
    ask (.close d)
    redirect before rest
  | ⟨d, .duplicate, text⟩ :: rest => do
    let source := (Text.digits? text.toList).getD 0
    if source == d then redirect before rest
    else
      let before ← setAside d before
      match ← ask (.duplicate source d) with
      | .ok () => redirect before rest
      | .error e =>
        complain (text ++ ": " ++ e.description)
        return (false, before)
  | ⟨d, mode, text⟩ :: rest => do
    let opened ←
      match mode with
      | .here => pure (.ok (← openText text))
      | mode => openTarget mode text
    match opened with
    | .ok file =>
      if file == d then
        let before := if before.any fun b => b.descriptor == d then before else ⟨d, none⟩ :: before
        redirect before rest
      else
        let before ← setAside d before
        discard (ask (.duplicate file d))
        ask (.close file)
        redirect before rest
    | .error e =>
      if mode == .read then
        complain ("cannot open " ++ text ++ ": " ++ openingFault "No such file" e)
      else complain ("cannot create " ++ text ++ ": " ++ openingFault "Directory nonexistent" e)
      return (false, before)

/-- Puts back what was there before redirections. -/
def restoreStreams : List StreamBefore → ScriptM Unit
  | [] => return
  | ⟨d, some aside⟩ :: rest => do
    discard (ask (.duplicate aside d))
    ask (.close aside)
    restoreStreams rest
  | ⟨d, none⟩ :: rest => do
    ask (.close d)
    restoreStreams rest

/-- Gives up what was there before redirections that stay. -/
def forgetStreams : List StreamBefore → ScriptM Unit
  | [] => return
  | ⟨_, some aside⟩ :: rest => do
    ask (.close aside)
    forgetStreams rest
  | ⟨_, none⟩ :: rest => forgetStreams rest

end ScriptM

end LineShell
