import LineShell.Script.Builtin.Limits
import LineShell.Script.Builtin.Processes
import LineShell.Script.Condition
import LineShell.Script.Printing
import LineShell.Script.Search

/-!
# Running scripts

A command is run by the process of the script itself when it is part of the language, and
otherwise by a child of that process, which is waited for. Commands run other commands, so what
runs them is given to each part of this file, and only the last one is recursive.
-/

namespace LineShell

/-- How a command is run. -/
structure Manner where
  /-- Whether its failure is expected. -/
  isTested : Bool
  /-- Whether the process has nothing to do behind it. -/
  isLast : Bool
  deriving DecidableEq, Repr

namespace Manner

/-- A command that others follow. -/
def plain : Manner := ⟨false, false⟩

/-- A command that decides what is run. -/
def condition : Manner := ⟨true, false⟩

/-- The manner of a command inside another one, which goes on behind it. -/
def inner (m : Manner) : Manner := ⟨m.isTested, false⟩

end Manner

/-- What runs a command and leaves its status. -/
abbrev CommandRunner := Manner → Script → ScriptM Unit

namespace ScriptM

/-! ## Texts and files with commands -/

/-- Reports a text that cannot be read. -/
def refuseText {α : Type} (line : Nat) (message : String) : ScriptM α := do
  complainAt line ("Syntax error: " ++ message)
  setStatus faultStatus
  throw .fault

/-- Runs the commands of a text that has been read so far, and gives the status of the last one.
When the process has nothing to do behind the text, that holds for its last command. -/
def runLines (run : CommandRunner) (manner : Manner) :
    Nat → Nat → ScriptText → ScriptM Nat
  | 0, status, _ => return status
  | steps + 1, status, text => do
    let text := { text with aliases := (← get).aliases }
    match text.nextLine with
    | .error .unfinished | .ok (none, _) => return status
    | .error (.wrong line message) => refuseText line message
    | .ok (some .nothing, rest) => runLines run manner steps status rest
    | .ok (some commands, rest) =>
      modify fun st => { st with reached := rest.line }
      let isLast := rest.rest.isEmpty && text.rest.getLast? != some '\n'
      run { manner with isLast := manner.isLast && isLast } commands
      runLines run manner steps (← get).status rest

/-- The number of lines that a text with commands may have. -/
def maxLines : Nat := 1000000000

/-- Runs the commands in a text and gives the status of the last one. -/
def runText (run : CommandRunner) (manner : Manner) (text : String) : ScriptM Nat := do
  let reached := (← get).reached
  let status ← runLines run manner maxLines 0 (.start text.toList 1 true)
  modify fun st => { st with reached := reached }
  return status

/-- The number of bytes of a file with commands that are read at once. -/
def blockSize : Nat := 8192

/-- The number of times that a file with commands is read or run from. -/
def maxBlocks : Nat := 1000000000

/-- Writes so many characters of a file that are read next. -/
def showNext (text : ScriptText) (count : Nat) : ScriptM Unit := do
  let own := text.rest.drop (text.rest.length - text.ownLength)
  discard (put 2 (String.ofList (own.take count)))

/-- The number of characters in the first lines of a text. -/
def lineSize : Nat → List Char → Nat
  | 0, _ => 0
  | _, [] => 0
  | lines + 1, c :: cs =>
    if c == '\n' then lineSize lines cs + 1 else lineSize (lines + 1) cs + 1

/-- The next commands of a file, of which more is read when they are not complete. -/
def nextCommands (d : Descriptor) : Nat → ScriptText → ScriptM (Option Script × ScriptText)
  | 0, text => return (none, text)
  | steps + 1, text =>
    match text.nextLine with
    | .ok (commands, rest) => do
      if ← hasOption 'v' then showNext text (text.ownLength - rest.ownLength)
      return (commands, rest)
    | .error (.wrong line message) => do
      if ← hasOption 'v' then showNext text (lineSize (line + 1 - text.line) text.rest)
      refuseText line message
    | .error .unfinished => do
      let more ←
        match ← ask (.read d blockSize) with
        | .ok bytes => pure bytes
        | .error _ => pure .empty
      if more.isEmpty then nextCommands d steps { text with isComplete := true }
      else
        let chars := (Text.ofOctets more).toList.filter fun c => c != '\x00'
        nextCommands d steps (text.extended chars)

/-- Runs the commands of a file behind those that have been run, and gives the status of the last
one. -/
def runRest (run : CommandRunner) (d : Descriptor) : Nat → Nat → ScriptText → ScriptM Nat
  | 0, status, _ => return status
  | steps + 1, status, text => do
    match ← nextCommands d maxBlocks { text with aliases := (← get).aliases } with
    | (none, _) => return status
    | (some .nothing, rest) => runRest run d steps status rest
    | (some commands, rest) =>
      modify fun st => { st with reached := rest.line }
      run .plain commands
      runRest run d steps (← get).status rest

/-- Runs the commands of a file until they end or leave it, and gives the status of the last
one. -/
def runFile (run : CommandRunner) (d : Descriptor) : ScriptM Nat := do
  try runRest run d maxBlocks 0 (.start [] 1 false)
  catch
    | .back => return (← get).status
    | jump => throw jump

/-! ## Signals -/

/-- Runs an action for a signal, which does not change the status. -/
def runAction (run : CommandRunner) (action : String) : ScriptM Unit := do
  let st ← get
  let leave : ScriptM Unit := modify fun now => { now with interrupted := st.interrupted }
  modify fun st => { st with interrupted := some (st.interrupted.getD st.status) }
  try
    discard (runText run .plain action)
    leave
    setStatus st.status
  catch jump =>
    unless jump == .exit do leave
    throw jump

/-- Runs the actions for the signals that have come in. -/
def runActions (run : CommandRunner) : ScriptM Unit := do
  if (← get).traps.any fun trap => trap.1 != 0 then
    collectSignals
    let st ← get
    unless st.caught.isEmpty do
      modify fun st => { st with caught := [] }
      for signal in Signal.all.filter st.caught.contains do
        if let some action := (← get).traps.lookup signal then runAction run action

/-- Runs the action for the end of the script. -/
def runEndAction (run : CommandRunner) : ScriptM Unit := do
  if let some action := (← get).traps.lookup 0 then
    let status := (← get).status
    modify fun st =>
      { st with traps := st.traps.filter fun trap => trap.1 != 0, interrupted := some status }
    try
      discard (runText run .plain action)
      setStatus status
    catch
      | .exit | .fault => return
      | _ => setStatus status

/-- Whether something other than nothing is to be done about some signal. -/
def hasActions : ScriptM Bool := do return (← get).traps.any fun trap => !trap.2.isEmpty

/-- Runs a step in a child of the process that belongs to a job and ends like a script. -/
def inSubshell (run : CommandRunner) (job : Nat) (step : ScriptM Unit) : ScriptM ProcessId :=
  startMember job do
    try step catch _ => pure ()
    runEndAction run

/-! ## Output of commands -/

/-- Lets a number stand for an open stream instead of the one that it has. -/
def moveStream (source target : Descriptor) : ScriptM Unit := do
  if source != target then
    discard (ask (.duplicate source target))
    ask (.close source)

/-- The number of times that output of commands is read from. -/
def maxReads : Nat := 1000000000

/-- All that can be read from a stream. -/
def readAll (d : Descriptor) : Nat → ByteArray → ScriptM ByteArray
  | 0, found => return found
  | steps + 1, found => do
    match ← ask (.read d blockSize) with
    | .error _ => return found
    | .ok bytes => if bytes.isEmpty then return found else readAll d steps (found ++ bytes)

/-- What commands write, without the line ends behind it. -/
def outputOf (run : CommandRunner) (commands : Script) : ScriptM String := do
  if let .nothing := commands then return ""
  let (reading, writing) ← ask .makePipe
  let job ← beginJob
  discard (inSubshell run job do
    ask (.close reading)
    moveStream writing 1
    run ⟨false, true⟩ commands)
  ask (.close writing)
  let bytes ← readAll reading maxReads .empty
  ask (.close reading)
  let status ← finishJob job
  modify fun st => { st with outputStatus := status }
  let text := (Text.ofOctets bytes).toList.filter fun c => c != '\x00'
  return String.ofList ((text.reverse.dropWhile fun c => c == '\n').reverse)

/-! ## Programs -/

/-- Tries to become a program. A file that is no program is taken for a script. -/
def become (path : String) (words entries : List String) : ScriptM SystemError := do
  match pathOf? path with
  | none => return .notFound
  | some p =>
    match ← ask (.execute p words entries) with
    | .execFormat =>
      let runner := "/bin/sh"
      ask (.execute ⟨runner⟩ (runner :: path :: words.tail) entries)
    | e => return e

/-- Tries to become one of the programs at some paths, and gives the last cause that tells more
than that there is none. -/
def becomeOneOf (words entries : List String) (cause : SystemError) :
    List String → ScriptM SystemError
  | [] => return cause
  | path :: rest => do
    match ← become path words entries with
    | .notFound | .notADirectory => becomeOneOf words entries cause rest
    | e => becomeOneOf words entries e rest

/-- The status of a process that could not become a program. -/
def statusWithout : SystemError → Nat
  | .notFound | .notADirectory | .tooManyLinks | .nameTooLong => 127
  | _ => 126

/-- Becomes a program that is at one of some paths, or ends. -/
def replaceBy {α : Type} (paths words : List String) : ScriptM α := do
  let e ← becomeOneOf words (← entries) .notFound paths
  complain (words.headD "" ++ ": " ++ commandFault e)
  setStatus (statusWithout e)
  throw .exit

/-- Runs a program. -/
def runProgram (manner : Manner) (paths words : List String) : ScriptM Unit := do
  if manner.isLast && !(← hasActions) then replaceBy paths words
  else
    let job ← beginJob
    discard (startMember job (replaceBy paths words))
    setStatus (← finishJob job)

/-! ## Commands of the language -/

/-- Leaves loops, or goes on with their next rounds. -/
def jumpInLoops (jump : Nat → Jump) (words : List String) : ScriptM Nat := do
  let count ←
    match words with
    | [] => pure 1
    | word :: _ => do
      let n ← numberOf word
      if n = 0 then fail ("Illegal number: " ++ word) else pure n
  let count := min count (← get).loops
  setStatus 0
  if count = 0 then return 0 else throw (jump count)

/-- Writes arguments in a format. What is wrong with them is said before. -/
def printfCommand (words : List String) : ScriptM Nat := do
  let (_, words) ← takeOptions "" words
  match words with
  | [] => fail "usage: printf format [arg ...]"
  | pattern :: arguments =>
    let (printed, ending) := Script.format pattern arguments
    for complaint in printed.complaints.reverse do complain complaint
    match ending with
    | .wrong message =>
      complain message
      say printed.output
      setStatus faultStatus
      throw .fault
    | _ =>
      say printed.output
      return if printed.complaints.isEmpty then 0 else 1

/-- Finds out a condition. -/
def testCommand (words : List String) : ScriptM Nat := do
  return if ← holds false words then 0 else 1

/-- The status with which a script ends: the given one, or that of the last command, for which the
action for a signal does not count. -/
def exitCommand (words : List String) : ScriptM Nat := do
  match words, (← get).interrupted with
  | word :: _, _ => setStatus (← numberOf word)
  | [], some status => setStatus status
  | [], none => pure ()
  throw .exit

/-- Ends a function or a file with commands. -/
def returnCommand (words : List String) : ScriptM Nat := do
  match words with
  | word :: _ => setStatus (← numberOf word)
  | [] => pure ()
  throw .back

/-- The first path of a regular file. -/
def firstFile? : List String → ScriptM (Option String)
  | [] => return none
  | path :: rest => do
    if (← nodeAt? path true).any fun found => found.2.isRegular then return some path
    else firstFile? rest

/-- Runs the commands of a file in the process itself. -/
def dotCommand (run : CommandRunner) (words : List String) : ScriptM Nat := do
  let (_, words) ← takeOptions "" words
  match words with
  | [] => return 0
  | name :: _ =>
    let path ←
      if isPath name then pure name
      else
        let paths := (← programDirectories false).map fun directory => pathBelow directory name
        match ← firstFile? paths with
        | some path => pure path
        | none => fail (name ++ ": not found")
    match ← openTarget .read path with
    | .error e => fail ("cannot open " ++ path ++ ": " ++ openingFault "No such file" e)
    | .ok d =>
      let file ←
        match ← ask (.setAside d) with
        | .ok file => do
          ask (.close d)
          pure file
        | .error _ => pure d
      modify fun st => { st with command := some path }
      let status ← runFile run file
      ask (.close file)
      return status

/-- Runs words as commands. -/
def evalCommand (run : CommandRunner) (manner : Manner) (words : List String) : ScriptM Nat :=
  if words.isEmpty then return 0 else runText run manner.inner (" ".intercalate words)

/-- Becomes a program, or does nothing when none is named. -/
def execCommand (words : List String) : ScriptM Nat := do
  let (_, words) ← takeOptions "" words
  match words with
  | [] => return 0
  | name :: _ =>
    if isPath name then replaceBy [name] words
    else
      let directories ← programDirectories false
      replaceBy (directories.map fun directory => pathBelow directory name) words

/-- Says what a name stands for. -/
def commandCommand (words : List String) : ScriptM Nat := do
  let (options, words) ← takeOptions "pvV" words
  let asked (letter : Char) : Bool := options.any fun o => o.1 == letter
  match words with
  | [] => return 0
  | name :: _ =>
    if asked 'v' || asked 'V' then describe (asked 'p') (asked 'V') name else return 0

/-- Runs a command that the language brings along, and gives its status. -/
def runNamed (run : CommandRunner) (manner : Manner) (name : String) (words : List String) :
    ScriptM Nat :=
  match name with
  | "." => dotCommand run words
  | "alias" => aliasCommand words
  | "unalias" => unaliasCommand words
  | "ulimit" => ulimitCommand words
  | "[" => if words.getLast? == some "]" then testCommand words.dropLast else fail "missing ]"
  | "test" => testCommand words
  | "false" => return 1
  | "break" => jumpInLoops .leaveLoops words
  | "continue" => jumpInLoops .nextRound words
  | "cd" | "chdir" => cdCommand words
  | "command" => commandCommand words
  | "echo" => do
    say (Script.echoText words)
    return 0
  | "eval" => evalCommand run manner words
  | "exec" => execCommand words
  | "exit" => exitCommand words
  | "export" =>
    markCommand name (fun v => v.isExported) (fun v => { v with isExported := true }) words
  | "readonly" => markCommand name (fun v => v.isFixed) (fun v => { v with isFixed := true }) words
  | "getopts" => getoptsCommand words
  | "hash" => hashCommand words
  | "jobs" => jobsCommand words
  | "fg" | "bg" => shiftJobCommand words
  | "kill" => killCommand words
  | "local" => localCommand words
  | "printf" => printfCommand words
  | "pwd" => pwdCommand words
  | "read" => readCommand words
  | "return" => returnCommand words
  | "set" => setCommand words
  | "shift" => shiftCommand words
  | "times" => timesCommand
  | "trap" => trapCommand words
  | "type" => typeCommand 0 words
  | "umask" => umaskCommand words
  | "unset" => unsetCommand words
  | "wait" => waitCommand words
  | _ => return 0

/-! ## Simple commands -/

end ScriptM

/-- What the fields of a simple command ask for. -/
structure CommandPlan where
  /-- The name of the command and the words behind it; none when there are only assignments. -/
  fields : List String
  /-- Whether an error ends the script, and assignments stay. -/
  isSpecial : Bool
  skipsFunctions : Bool
  usesStandardPath : Bool

namespace CommandPlan

/-- The words behind the options of the command that runs others, and whether these ask for the
standard directories; none when it is not called to run a command. -/
def behindOptions? : List String → Option (Bool × List String)
  | [] => none
  | word :: rest =>
    match word.toList with
    | ['-', '-'] => if rest.isEmpty then none else some (false, rest)
    | '-' :: c :: letters =>
      if (c :: letters).all fun c => c == 'p' then
        (behindOptions? rest).map fun (_, rest) => (true, rest)
      else none
    | _ => some (false, word :: rest)

/-- The plan without the commands in front that only run others. -/
def unwrap (isFunction : String → Bool) : Nat → CommandPlan → CommandPlan
  | 0, plan => plan
  | steps + 1, plan =>
    match plan.fields with
    | "command" :: rest =>
      if isFunction "command" && !plan.skipsFunctions then plan
      else
        match behindOptions? rest with
        | none => plan
        | some (usesStandardPath, fields) =>
          unwrap isFunction steps
            { plan with
              fields := fields
              skipsFunctions := true
              usesStandardPath := plan.usesStandardPath || usesStandardPath }
    | _ => plan

/-- The plan for some fields. -/
def ofFields (isFunction : String → Bool) (fields : List String) : CommandPlan :=
  let isSpecial := fields.head?.any ScriptM.specialBuiltins.contains
  unwrap isFunction fields.length ⟨fields, isSpecial, false, false⟩

/-- The commands with assignments among their words. -/
def assigningCommands : List String := ["alias", "export", "readonly", "local"]

/-- Whether words of the command can be assignments. -/
def takesAssignments (plan : CommandPlan) : Bool :=
  plan.fields.head?.any assigningCommands.contains

/-- Whether the redirections of the command stay. -/
def keepsStreams (plan : CommandPlan) : Bool := plan.fields.head? == some "exec"

/-- Whether assignments in front of the command hold only for it. -/
def hasOwnVariables (plan : CommandPlan) : Bool := !plan.fields.isEmpty && !plan.isSpecial

end CommandPlan

namespace ScriptM

/-- Whether a name stands for a function. -/
def isFunction (st : ScriptState) (name : String) : Bool :=
  st.functions.any fun f => f.1 == name

/-- Expands the words of a simple command behind the fields that have been found. Assignments among
the words are not split when the command takes them. -/
def expandCommand (run : CommandRunner) (found : List String) :
    List ScriptWord → ScriptM (List String)
  | [] => return found
  | word :: rest => do
    spend 1
    let takesAssignments := found.any CommandPlan.assigningCommands.contains &&
      (CommandPlan.ofFields (isFunction (← get)) found).takesAssignments
    let fields ←
      match if takesAssignments then ScriptReader.assignment? word else none with
      | some (name, value) => do
        pure [name ++ "=" ++ (← expandText (outputOf run) .assignment value)]
      | none => expandFields (outputOf run) word
    expandCommand run (found ++ fields) rest

/-- Does the assignments in front of a command, and gives them as texts. -/
def assignAll (run : CommandRunner) (plan : CommandPlan) :
    List (String × ScriptWord) → ScriptM (List String)
  | [] => return []
  | (name, word) :: rest => do
    spend 1
    let value ← expandText (outputOf run) .assignment word
    if plan.hasOwnVariables then
      keepOld name
      assignExported name value
    else if plan.keepsStreams && 1 < plan.fields.length then assignExported name value
    else assign name value
    return (name ++ "=" ++ value) :: (← assignAll run plan rest)

/-- Writes what is run when that is asked for, to the stream for errors that the command does not
redirect. -/
def trace (run : CommandRunner) (before : List StreamBefore) (texts : List String) :
    ScriptM Unit := do
  if ← hasOption 'x' then
    let text := (← value? "PS4").getD ""
    let mark ←
      match ScriptText.wordOf? text with
      | some word => expandText (outputOf run) .single word
      | none => pure text
    let d := ((before.find? fun b => b.descriptor == 2).bind StreamBefore.aside).getD 2
    discard (put d (mark ++ " ".intercalate texts ++ "\n"))

/-- Calls a function, the variables and arguments of which are its own. -/
def callFunction (run : CommandRunner) (manner : Manner) (body : Script) (words : List String) :
    ScriptM Unit := do
  let before ← get
  modify fun st => { st with arguments := words, loops := 0, optionPosition := firstOption }
  let leave : ScriptM Unit := modify fun st =>
    { st with
      arguments := before.arguments
      loops := before.loops
      optionPosition := before.optionPosition }
  let jump ←
    try
      withFrame do
        try run manner.inner body
        catch jump =>
          leave
          throw jump
        leave
      pure none
    catch jump => pure (some jump)
  match jump with
  | none | some .back => return
  | some jump => throw jump

/-- Runs a command that the language brings along. An error in one that is not special ends only
that command. -/
def runBuiltin (run : CommandRunner) (manner : Manner) (isSpecial : Bool) (name : String)
    (words : List String) : ScriptM Unit := do
  let outer := (← get).command
  modify fun st => { st with command := some name, hasLostOutput := false }
  let jump ←
    try
      let status ← runNamed run manner name words
      let isLost := (← get).hasLostOutput
      if isLost then complainAt (← get).line (name ++ ": I/O error")
      setStatus (if isLost then status ||| 1 else status)
      pure none
    catch jump => pure (some jump)
  modify fun st => { st with command := outer, hasLostOutput := false }
  match jump with
  | none => return
  | some .fault => if isSpecial then throw .fault
  | some jump => throw jump

/-- Runs what the fields of a simple command ask for. -/
def runPlan (run : CommandRunner) (manner : Manner) (plan : CommandPlan) : ScriptM Unit := do
  match plan.fields with
  | [] =>
    setStatus (← get).outputStatus
    hearMeanwhile
  | name :: words =>
    match ← findCommand plan.skipsFunctions plan.usesStandardPath name with
    | .builtin =>
      runBuiltin run manner plan.isSpecial name words
      hearMeanwhile
    | .function body =>
      callFunction run manner body words
      hearMeanwhile
    | .program paths => runProgram manner paths (name :: words)
    | .missing e =>
      complain (name ++ ": " ++ commandFault e)
      setStatus 127

/-- Runs a step and then another one, even when the first one is left by a jump. -/
def withEnding (step ending : ScriptM Unit) : ScriptM Unit := do
  try step
  catch jump =>
    ending
    throw jump
  ending

/-- Runs a simple command: its words are expanded, its redirections applied, its assignments done,
and then what its words ask for. -/
def runSimple (run : CommandRunner) (manner : Manner) (assignments : List (String × ScriptWord))
    (words : List ScriptWord) (redirections : List ScriptRedirection) : ScriptM Unit := do
  modify fun st => { st with outputStatus := 0 }
  work 1
  let fields ← expandCommand run [] words
  let plan := CommandPlan.ofFields (isFunction (← get)) fields
  let redirections ← expandRedirections (outputOf run) redirections
  let (isRedirected, before) ← redirect [] redirections
  if !isRedirected then
    restoreStreams before
    setStatus faultStatus
    if plan.isSpecial then throw .fault
  else
    let step : ScriptM Unit := do
      let texts ← assignAll run plan assignments
      trace run before (texts ++ fields)
      runPlan run manner plan
    let ending := if plan.keepsStreams then forgetStreams before else restoreStreams before
    if plan.hasOwnVariables && !assignments.isEmpty then withEnding (withFrame step) ending
    else if before.isEmpty then step
    else withEnding step ending

/-! ## Other commands -/

/-- Takes note of the line of a command. -/
def atLine (line : Nat) : ScriptM Unit :=
  if line = 0 then return else modify fun st => { st with line := line }

/-- Settles down in the background: signals from the terminal are ignored, and the first process
reads nothing. -/
def enterBackground (isFirst : Bool) : ScriptM Unit := do
  for signal in [2, 3] do ask (.react signal .ignored)
  if isFirst then
    ask (.close 0)
    discard (ask (.openFile .read ⟨"/dev/null"⟩))

/-- Leaves a job to itself in the background. -/
def leaveInBackground (job : Nat) : ScriptM Unit := do
  let last := (← job? job).bind Job.process?
  modify fun st =>
    { st with
      lastBackground := last.orElse fun _ => st.lastBackground
      status := 0 }

/-- Looks for the program of a command before the process is doubled for it, so that it need not be
looked for again. -/
def findAhead : Script → ScriptM Unit
  | .simple _ _ ([.text name] :: _) _ =>
    if ScriptReader.isName name then discard (findCommand false false name) else return
  | _ => return

/-- Starts commands that read each other's output, as a job. -/
def startStages (run : CommandRunner) (manner : Manner) (job : Nat) (background : Bool)
    (isFirst : Bool) (input : Option Descriptor) : List Script → ScriptM Unit
  | [] => return
  | stage :: rest => do
    findAhead stage
    let ends ← if rest.isEmpty then pure none else some <$> ask .makePipe
    discard (inSubshell run job do
      if background then enterBackground isFirst
      if let some (reading, _) := ends then ask (.close reading)
      if let some d := input then moveStream d 0
      if let some (_, writing) := ends then moveStream writing 1
      run ⟨manner.isTested, true⟩ stage)
    if let some d := input then ask (.close d)
    if let some (_, writing) := ends then ask (.close writing)
    startStages run manner job background false (ends.map Prod.fst) rest

/-- Runs commands that read each other's output. The status is that of the last one. -/
def runPipeline (run : CommandRunner) (manner : Manner) (background : Bool)
    (stages : List Script) : ScriptM Unit := do
  let job ← beginJob
  startStages run manner job background true none stages
  if background then leaveInBackground job else setStatus (← finishJob job)

/-- Runs a command in a child of the process, or in the process itself when it has nothing to do
behind it. -/
def runApart (run : CommandRunner) (manner : Manner) (background : Bool) (body : Script)
    (redirections : List ScriptRedirection) : ScriptM Unit := do
  let redirections ← expandRedirections (outputOf run) redirections
  let step : ScriptM Unit := do
    let (isRedirected, _) ← redirect [] redirections
    if !isRedirected then
      setStatus faultStatus
      throw .fault
    run ⟨manner.isTested && !background, true⟩ body
  if background then
    let job ← beginJob
    discard (inSubshell run job do
      enterBackground true
      step)
    leaveInBackground job
  else if manner.isLast && !(← hasActions) then
    step
    throw .exit
  else
    let job ← beginJob
    discard (inSubshell run job step)
    setStatus (← finishJob job)

/-- Runs a command with redirections of its own. -/
def runRedirected (run : CommandRunner) (manner : Manner) (body : Script)
    (redirections : List ScriptRedirection) : ScriptM Unit := do
  let redirections ← expandRedirections (outputOf run) redirections
  let (isRedirected, before) ← redirect [] redirections
  let step : ScriptM Unit :=
    if isRedirected then run manner.inner body else setStatus faultStatus
  withEnding step (restoreStreams before)

/-- How a loop goes on. -/
inductive LoopStep where
  | next
  /-- With the next round. -/
  | again
  | leave
  deriving DecidableEq, Repr

/-- Runs a part of a loop. What leaves further loops is passed on, with a status. -/
def inLoop (step : ScriptM Unit) (statusBefore : Option Nat) : ScriptM LoopStep := do
  let passOn {α : Type} (jump : Jump) : ScriptM α := do
    if let some status := statusBefore then setStatus status
    throw jump
  try
    step
    return .next
  catch
    | .leaveLoops n => if n ≤ 1 then return .leave else passOn (.leaveLoops (n - 1))
    | .nextRound n => if n ≤ 1 then return .again else passOn (.nextRound (n - 1))
    | jump => throw jump

/-- Runs the rounds of a loop with a condition, and gives the status of the last body. -/
def runRounds (condition body : ScriptM Unit) (untilSuccess : Bool) :
    Nat → Nat → ScriptM Nat
  | 0, status => return status
  | rounds + 1, status => do
    match ← inLoop condition (some status) with
    | .leave => return status
    | .again => runRounds condition body untilSuccess rounds status
    | .next =>
      if ((← get).status == 0) == untilSuccess then return status
      else
        match ← inLoop body none with
        | .leave => return (← get).status
        | .again | .next => runRounds condition body untilSuccess rounds (← get).status

/-- Runs a body for each of some values. -/
def runEach (name : String) (body : ScriptM Unit) : List String → ScriptM Unit
  | [] => return
  | value :: rest => do
    assign name value
    match ← inLoop body none with
    | .leave => return
    | .again | .next => runEach name body rest

/-- Runs a step as part of a loop. -/
def withLoop (step : ScriptM Unit) : ScriptM Unit := do
  modify fun st => { st with loops := st.loops + 1 }
  withEnding step (modify fun st => { st with loops := st.loops - 1 })

/-- Whether one of some patterns covers a text. -/
def isCovered (run : CommandRunner) (text : String) : List ScriptWord → ScriptM Bool
  | [] => return false
  | word :: rest => do
    if Pattern.covers (← expandPattern (outputOf run) word) text.toList then return true
    else isCovered run text rest

/-- Runs the first body with a pattern that covers a text. -/
def runChoice (run : CommandRunner) (manner : Manner) (text : String) :
    List (List ScriptWord × Script) → ScriptM Unit
  | [] => setStatus 0
  | (patterns, body) :: rest => do
    if ← isCovered run text patterns then
      match body with
      | .nothing => setStatus 0
      | body => run manner body
    else runChoice run manner text rest

/-- Runs a command. The number bounds the rounds of loops and the depth of commands. -/
def run : Nat → Manner → Script → ScriptM Unit
  | 0, _, _ => throw .exit
  | bound + 1, manner, command => do
    if ← hasOption 'n' then return
    let runInner : CommandRunner := fun manner command => run bound manner command
    runActions runInner
    let mayEnd ←
      match command with
      | .nothing => pure false
      | .simple line assignments words redirections => do
        atLine line
        runSimple runInner manner assignments words redirections
        pure true
      | .pipeline background stages => do
        runPipeline runInner manner background stages
        pure true
      | .sequence first second => do
        run bound manner.inner first
        run bound manner second
        pure false
      | .both first second => do
        run bound .condition first
        if (← get).status = 0 then run bound manner second
        pure false
      | .either first second => do
        run bound .condition first
        if (← get).status ≠ 0 then run bound manner second
        pure false
      | .negated command => do
        run bound .condition command
        setStatus (if (← get).status = 0 then 1 else 0)
        pure false
      | .apart line background body redirections => do
        atLine line
        runApart runInner manner background body redirections
        pure true
      | .redirected line body redirections => do
        atLine line
        runRedirected runInner manner body redirections
        pure false
      | .branch condition yes no => do
        run bound .condition condition
        if (← get).status = 0 then run bound manner yes
        else
          match no with
          | some no => run bound manner no
          | none => setStatus 0
        pure false
      | .loop untilSuccess condition body => do
        withLoop do
          let status ← runRounds (run bound .condition condition) (run bound manner.inner body)
            untilSuccess bound 0
          setStatus status
        pure false
      | .each line name words body => do
        atLine line
        let values ← expandAll (outputOf runInner) words
        if values.isEmpty then setStatus 0
        else withLoop (runEach name (run bound manner.inner body) values)
        pure false
      | .choice line word cases => do
        atLine line
        let text ← expandText (outputOf runInner) .single word
        runChoice runInner manner text cases
        pure false
      | .define name body => do
        modify fun st =>
          { st with
            functions := (name, body) :: st.functions.filter fun f => f.1 != name
            tracked := TrackedProgram.remove name st.tracked }
        setStatus 0
        pure false
    runActions runInner
    if mayEnd && !manner.isTested && (← get).status ≠ 0 && (← hasOption 'e') then throw .exit

/-- The number of rounds that the loops of a script may take, and of its commands inside each
other. -/
def maxRounds : Nat := 1000000000

/-- Runs a command of a script. -/
def runCommand : CommandRunner := run maxRounds

end ScriptM

end LineShell
