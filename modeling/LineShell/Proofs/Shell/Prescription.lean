import LineShell.Proofs.History.Numbering
import LineShell.Proofs.Shell.WorkingDirectory
import LineShell.Proofs.Text.Numerals

/-!
# What stages prescribe

A stage that the shell runs itself is a builtin or the stage for an unknown name. Its words and the
shell in which it is started prescribe the lines that it writes, the code with which it ends, and
the environment that it leaves. What comes of the stage is this, as far as the lines can be written.
-/

namespace LineShell

/-- The operand of an exit and the code that it asks for: zero without an operand, and else the
signed 32-bit integer for which the operand stands. -/
inductive ExitOperand : List String → ExitCode → Prop
  | none : ExitOperand [] 0
  | word {word : String} {code : ExitCode} (standsFor : Text.StandsFor word.toList code)
      (low : -2147483648 ≤ code) (high : code ≤ 2147483647) : ExitOperand [word] code

/-- The operand of a listing and its limit: none without an operand, and else the unsigned 64-bit
count for which the operand stands. -/
inductive HistoryOperand : List String → Option Nat → Prop
  | none : HistoryOperand [] none
  | word {word : String} {limit : Nat} (standsFor : Text.StandsForCount word.toList limit)
      (high : limit < UInt64.size) : HistoryOperand [word] (some limit)

/-- The most words that a builtin takes. Echo takes any number. -/
def Builtin.maxWords? : Builtin → Option Nat
  | echo => none
  | pwd => some 0
  | exit | type | cd | history => some 1

/-- What a stage has to write, the code with which it ends when it has written everything, and the
shell that it leaves, before it has written anything. -/
structure Prescription (σ : Type) where
  /-- The lines for standard output. -/
  output : List String
  /-- The lines for standard error. -/
  complaints : List String
  code : ExitCode
  env : Environment
  system : σ

namespace Prescription

variable {σ : Type}

/-- Lines are shown on standard output, and all is well. -/
def shows (lines : List String) (env : Environment) (s : σ) : Prescription σ :=
  ⟨lines, [], 0, env, s⟩

/-- A line is said on standard error, and the stage ends with a code. -/
def complains (line : String) (code : ExitCode) (env : Environment) (s : σ) : Prescription σ :=
  ⟨[], [line], code, env, s⟩

end Prescription

section

variable {σ η : Type}

/-- Stages of a shell under a name run inside the shell: the name is that of a builtin, or nothing
is known under it. -/
def RunsInside (host : Host σ η) (sh : Shell σ) (name : String) : Prop :=
  (Builtin.ofName? name).isSome ∨ resolve (host.isFile sh.system) sh.env name = .unresolved

/-- What a stage prescribes that was created for a name and words in one shell and is started in
another. -/
inductive Prescribes (host : Host σ η) (origin : Shell σ) (env : Environment) (s : σ) :
    String → List String → Prescription σ → Prop
  | echo (words : List String) :
      Prescribes host origin env s "echo" words (.shows [String.join words] env s)
  | pwd : Prescribes host origin env s "pwd" [] (.shows [env.currentDirectory.text] env s)
  | typeBuiltin {name : String} {b : Builtin}
      (refers : resolve (host.isFile s) env name = .builtin b) :
      Prescribes host origin env s "type" [name] (.shows [name ++ " is a shell builtin"] env s)
  | typeProgram {name : String} {program : Path}
      (refers : resolve (host.isFile s) env name = .external program) :
      Prescribes host origin env s "type" [name] (.shows [name ++ " is " ++ program.text] env s)
  | typeNothing {name : String} (refers : resolve (host.isFile s) env name = .unresolved) :
      Prescribes host origin env s "type" [name] (.complains (name ++ ": not found") 1 env s)
  | typeMissing :
      Prescribes host origin env s "type" [] (.complains "type: missing argument" 1 env s)
  | history {words lines : List String} {limit : Option Nat} (operand : HistoryOperand words limit)
      (listing : Lists env.history.toList limit lines) :
      Prescribes host origin env s "history" words (.shows lines env s)
  | historyRefused {word : String} (notCount : ∀ limit, ¬HistoryOperand [word] limit) :
      Prescribes host origin env s "history" [word]
        (.complains ("history: " ++ word ++ ": numeric argument required") 1 env s)
  | exit {words : List String} {code : ExitCode} (operand : ExitOperand words code) :
      Prescribes host origin env s "exit" words ⟨[], [], code, env.requestExit code, s⟩
  | exitRefused {word : String} (notCode : ∀ code, ¬ExitOperand [word] code) :
      Prescribes host origin env s "exit" [word]
        (.complains ("exit: " ++ word ++ ": numeric argument required") 1 env s)
  | cd {words : List String} {target found : Path} {s' : σ} (few : words.length ≤ 1)
      (means : CdTarget env words.head? target) (enters : Enters host env target s found s') :
      Prescribes host origin env s "cd" words
        (.shows [] { env with currentDirectory := found } s')
  | cdRefused {words : List String} {target : Path} {s' : σ} (few : words.length ≤ 1)
      (means : CdTarget env words.head? target) (refuses : Refuses host env target s s') :
      Prescribes host origin env s "cd" words (.complains (refusal target) 1 env s')
  | surplus {b : Builtin} {words : List String} {bound : Nat} {word : String}
      (takes : b.maxWords? = some bound) (surplus : words[bound]? = some word) :
      Prescribes host origin env s b.name words
        (.complains (Text.trimEnd ("Unrecognized argument: " ++ word)) 2 env s)
  | unknown {name : String} {words : List String}
      (refers : resolve (host.isFile origin.system) origin.env name = .unresolved) :
      Prescribes host origin env s name words
        (.complains (name ++ ": command not found") 127 env s)

/-- What is left to be said on standard error when the output has been written, as far as possible,
and the code that goes with it: the complaints that are prescribed, or that the output is lost. -/
inductive LeftToSay (host : Host σ η) (streams : Streams η) (name : String)
    (p : Prescription σ) : List String → ExitCode → σ → Prop
  | complaints {after : σ}
      (written : host.writeLines streams.stdout p.output p.system = (.ok (), after)) :
      LeftToSay host streams name p p.complaints p.code after
  | outputLost {cause : SystemError} {after : σ}
      (lost : host.writeLines streams.stdout p.output p.system =
        (.error (.failed cause), after)) :
      LeftToSay host streams name p [name ++ ": " ++ cause.message] 1 after

/-- What comes of a stage when a write to standard error has failed: the start fails as well, or the
failure is itself complained of, as far as this can be written. -/
inductive Unsaid (host : Host σ η) (streams : Streams η) (name : String) (cause : SystemError)
    (s : σ) : Except StartError (Started σ) → σ → Prop
  | givenUp : Unsaid host streams name cause s (.error (.cannotWrite cause)) s
  | complained {after : σ}
      (said : host.writeLine streams.stderr (name ++ ": " ++ cause.message) s = (.ok (), after)) :
      Unsaid host streams name cause s (.ok (.finished 1)) after
  | failsAgain {e : WriteError} {after : σ}
      (fails : host.writeLine streams.stderr (name ++ ": " ++ cause.message) s =
        (.error e, after)) :
      Unsaid host streams name cause s (.error (.ofWrite e)) after

/-- What comes of a stage with a prescription. -/
inductive Delivers (host : Host σ η) (streams : Streams η) (name : String)
    (p : Prescription σ) : StartResult σ → Prop
  /-- Everything is said, and the stage ends with the code. -/
  | done {lines : List String} {code : ExitCode} {between after : σ}
      (left : LeftToSay host streams name p lines code between)
      (said : host.writeLines streams.stderr lines between = (.ok (), after)) :
      Delivers host streams name p (.ok (.finished code), p.env, after)
  /-- Standard error fails. -/
  | unsaid {lines : List String} {code : ExitCode} {cause : SystemError}
      {result : Except StartError (Started σ)} {between failed after : σ}
      (left : LeftToSay host streams name p lines code between)
      (fails : host.writeLines streams.stderr lines between = (.error (.failed cause), failed))
      (ends : Unsaid host streams name cause failed result after) :
      Delivers host streams name p (result, p.env, after)
  /-- The output waits for ever. -/
  | outputBlocked {after : σ}
      (blocks : host.writeLines streams.stdout p.output p.system = (.error .blocked, after)) :
      Delivers host streams name p (.error .blocked, p.env, after)
  /-- Standard error waits for ever. -/
  | blocked {lines : List String} {code : ExitCode} {between after : σ}
      (left : LeftToSay host streams name p lines code between)
      (blocks : host.writeLines streams.stderr lines between = (.error .blocked, after)) :
      Delivers host streams name p (.error .blocked, p.env, after)

/-! ## What is left to say -/

/-- A stage leaves the environment that is prescribed, whatever becomes of its writes. -/
theorem Delivers.env_eq {host : Host σ η} {streams : Streams η} {name : String}
    {p : Prescription σ} {result : StartResult σ} (h : Delivers host streams name p result) :
    result.2.1 = p.env := by
  cases h <;> rfl

section

variable {host : Host σ η} {streams : Streams η} {name : String} {p : Prescription σ}

/-- There is one thing left to say. -/
theorem LeftToSay.unique {lines others : List String} {code other : ExitCode} {s s' : σ}
    (h : LeftToSay host streams name p lines code s)
    (hother : LeftToSay host streams name p others other s') :
    others = lines ∧ other = code ∧ s' = s := by
  cases h with
  | complaints written =>
    cases hother with
    | complaints again =>
      cases written.symm.trans again
      exact ⟨rfl, rfl, rfl⟩
    | outputLost lost => cases written.symm.trans lost
  | outputLost lost =>
    cases hother with
    | complaints written => cases written.symm.trans lost
    | outputLost again =>
      cases lost.symm.trans again
      exact ⟨rfl, rfl, rfl⟩

/-- A stage that has something left to say does not wait for its output. -/
theorem LeftToSay.not_blocked {lines : List String} {code : ExitCode} {s s' : σ}
    (h : LeftToSay host streams name p lines code s) :
    host.writeLines streams.stdout p.output p.system ≠ (.error .blocked, s') := by
  intro hblocks
  cases h with
  | complaints written => cases written.symm.trans hblocks
  | outputLost lost => cases lost.symm.trans hblocks

/-- A stage ends with its code when it has said what is left to say. -/
theorem Delivers.eq_of_said {result : StartResult σ} (h : Delivers host streams name p result)
    {lines : List String} {code : ExitCode} {s s' : σ}
    (hleft : LeftToSay host streams name p lines code s)
    (hsaid : host.writeLines streams.stderr lines s = (.ok (), s')) :
    result = (.ok (.finished code), p.env, s') := by
  cases h with
  | done left said =>
    obtain ⟨rfl, rfl, rfl⟩ := hleft.unique left
    cases hsaid.symm.trans said
    rfl
  | unsaid left fails =>
    obtain ⟨rfl, rfl, rfl⟩ := hleft.unique left
    cases hsaid.symm.trans fails
  | outputBlocked blocks => exact absurd blocks hleft.not_blocked
  | blocked left blocks =>
    obtain ⟨rfl, rfl, rfl⟩ := hleft.unique left
    cases hsaid.symm.trans blocks

end

/-! ## Operands -/

namespace BuiltinCall

/-- The code that an exit asks for is read off its operand. -/
theorem exitCode?_eq_ok_iff {operand : Option String} {code : ExitCode} :
    exitCode? operand = .ok code ↔ ExitOperand operand.toList code := by
  cases operand with
  | none =>
    constructor
    · intro h
      cases h
      exact .none
    · intro h
      cases h
      rfl
  | some word =>
    have hread : exitCode? (some word) = .ok code ↔ Text.signed32? word = some code := by
      rw [exitCode?]
      cases Text.signed32? word <;> simp
    rw [hread, Text.signed32?_eq_some_iff]
    constructor
    · rintro ⟨hword, hlow, hhigh⟩
      exact .word hword hlow hhigh
    · intro h
      cases h with
      | word hword hlow hhigh => exact ⟨hword, hlow, hhigh⟩

/-- The limit of a listing is read off its operand. -/
theorem limit?_eq_ok_iff {operand : Option String} {limit : Option Nat} :
    limit? operand = .ok limit ↔ HistoryOperand operand.toList limit := by
  cases operand with
  | none =>
    constructor
    · intro h
      cases h
      exact .none
    · intro h
      cases h
      rfl
  | some word =>
    have hread : limit? (some word) = .ok limit ↔
        ∃ k, Text.count? word = some k ∧ some k = limit := by
      rw [limit?]
      cases Text.count? word <;> simp
    rw [hread]
    constructor
    · rintro ⟨k, hk, rfl⟩
      obtain ⟨hword, hhigh⟩ := Text.count?_eq_some_iff.mp hk
      exact .word hword hhigh
    · intro h
      cases h with
      | word hword hhigh => exact ⟨_, Text.count?_eq_some_iff.mpr ⟨hword, hhigh⟩, rfl⟩

/-- An exit refuses an operand that asks for no code. -/
theorem exitCode?_eq_error {word : String} (h : ∀ code, ¬ExitOperand [word] code) :
    exitCode? (some word) = .error (.numberRequired word) := by
  rw [exitCode?]
  cases hcode : Text.signed32? word with
  | none => rfl
  | some code =>
    have hread : exitCode? (some word) = .ok code := by rw [exitCode?, hcode]
    exact absurd (exitCode?_eq_ok_iff.mp hread) (h code)

/-- A listing refuses an operand that is no limit. -/
theorem limit?_eq_error {word : String} (h : ∀ limit, ¬HistoryOperand [word] limit) :
    limit? (some word) = .error (.numberRequired word) := by
  rw [limit?]
  cases hlimit : Text.count? word with
  | none => rfl
  | some k =>
    have hread : limit? (some word) = .ok (some k) := by rw [limit?, hlimit]
    exact absurd (limit?_eq_ok_iff.mp hread) (h (some k))

end BuiltinCall

/-- One word at most is the operand of a call. -/
theorem singleOperand_toList (call : Option String → BuiltinCall) (operand : Option String) :
    BuiltinCall.singleOperand call operand.toList = .ok (call operand) := by
  cases operand <;> rfl

/-- A change of directory takes one word at most, its operand. -/
theorem ofWords_cd {words : List String} (hfew : words.length ≤ 1) :
    BuiltinCall.ofWords .cd words = .ok (.cd words.head?) := by
  match words, hfew with
  | [], _ => rfl
  | [_], _ => rfl

/-- The words of an exit with a code are the operand of a call. -/
theorem ExitOperand.exists_operand {words : List String} {code : ExitCode}
    (h : ExitOperand words code) :
    ∃ operand : Option String, operand.toList = words ∧
      BuiltinCall.exitCode? operand = .ok code := by
  cases h with
  | none => exact ⟨Option.none, rfl, rfl⟩
  | @word word _ standsFor low high =>
    have hcode : ExitOperand (some word).toList code := .word standsFor low high
    exact ⟨some word, rfl, BuiltinCall.exitCode?_eq_ok_iff.mpr hcode⟩

/-- The words of a listing with a limit are the operand of a call. -/
theorem HistoryOperand.exists_operand {words : List String} {limit : Option Nat}
    (h : HistoryOperand words limit) :
    ∃ operand : Option String, operand.toList = words ∧
      BuiltinCall.limit? operand = .ok limit := by
  cases h with
  | none => exact ⟨Option.none, rfl, rfl⟩
  | @word word k standsFor high =>
    have hlimit : HistoryOperand (some word).toList (some k) := .word standsFor high
    exact ⟨some word, rfl, BuiltinCall.limit?_eq_ok_iff.mpr hlimit⟩

/-- The directory that an operand names is the one that a call goes to. -/
theorem CdTarget.eq_cdTarget {env : Environment} {operand : Option String} {target : Path}
    (h : CdTarget env operand target) : target = BuiltinCall.cdTarget env operand := by
  have hmeansHome (hhome : MeansHome operand) :
      BuiltinCall.cdTarget env operand = env.homeDirectory := by
    rcases hhome with rfl | rfl | rfl <;> rfl
  cases h with
  | home meansHome isSet => rw [hmeansHome meansHome, Environment.homeDirectory, isSet]
  | user meansHome notSet => rw [hmeansHome meansHome, Environment.homeDirectory, notSet]
  | operand isPath =>
    unfold BuiltinCall.cdTarget
    split
    · next h => cases h
    · next h => exact absurd (.inr (.inl h)) isPath
    · next h => exact absurd (.inr (.inr h)) isPath
    · next h =>
      cases h
      rfl

/-! ## What a call delivers -/

variable {host : Host σ η} {streams : Streams η}

/-- To write one line is to write it. -/
theorem Host.writeLines_singleton (host : Host σ η) (stream : η) (line : String) (s : σ) :
    host.writeLines stream [line] s = host.writeLine stream line s := by
  rw [Host.writeLines]
  rcases host.writeLine stream line s with ⟨outcome, after⟩
  cases outcome <;> rfl

/-- A stage that ends with a line delivers what is left to say, when it is this line. -/
theorem LeftToSay.delivers_endWith {name : String} {p : Prescription σ} {line : String}
    {code : ExitCode} {between : σ} (h : LeftToSay host streams name p [line] code between) :
    Delivers host streams name p (Command.endWith host code line streams p.env between) := by
  rw [Command.endWith]
  have hlines := host.writeLines_singleton streams.stderr line between
  rcases hline : host.writeLine streams.stderr line between with ⟨outcome, after⟩
  rw [hline] at hlines
  cases outcome with
  | ok => exact .done h hlines
  | error e =>
    cases e with
    | failed cause => exact .unsaid h hlines .givenUp
    | blocked => exact .blocked h hlines

/-- A stage that only ends with a line delivers it. -/
theorem delivers_endWith (host : Host σ η) (streams : Streams η) (name line : String)
    (code : ExitCode) (env : Environment) (s : σ) :
    Delivers host streams name (.complains line code env s)
      (Command.endWith host code line streams env s) :=
  LeftToSay.delivers_endWith (p := .complains line code env s) (.complaints rfl)

namespace BuiltinCall

/-- Lines that have been written leave what is to be done next. -/
theorem writing_of_ok {b : Builtin} {stream : η} {lines : List String} {env : Environment}
    {s after : σ} {next : σ → StartResult σ}
    (h : host.writeLines stream lines s = (.ok (), after)) :
    writing host b stream lines streams env s next = next after := by
  rw [writing, h]

/-- Lines that could not be written leave a complaint. -/
theorem writing_of_failed {b : Builtin} {stream : η} {lines : List String} {env : Environment}
    {s after : σ} {cause : SystemError} {next : σ → StartResult σ}
    (h : host.writeLines stream lines s = (.error (.failed cause), after)) :
    writing host b stream lines streams env s next =
      Command.endWith host 1 (b.name ++ ": " ++ cause.message) streams env after := by
  rw [writing, h]
  rfl

/-- Lines that cannot be written for ever leave nothing. -/
theorem writing_of_blocked {b : Builtin} {stream : η} {lines : List String} {env : Environment}
    {s after : σ} {next : σ → StartResult σ}
    (h : host.writeLines stream lines s = (.error .blocked, after)) :
    writing host b stream lines streams env s next = (.error .blocked, env, after) := by
  rw [writing, h]

/-- A call delivers what it prescribes. -/
theorem delivers_run {call : BuiltinCall} {env : Environment} {s after : σ}
    {report : BuiltinReport} (hperform : call.perform host env s = (.ok report, after))
    (streams : Streams η) :
    Delivers host streams call.builtin.name
      ⟨report.output, report.complaints, report.code, report.environment, after⟩
      (call.run host streams env s) := by
  simp only [run, hperform]
  rcases houtput : host.writeLines streams.stdout report.output after with ⟨outcome, between⟩
  rcases outcome with ⟨cause | _⟩ | _
  · rw [writing_of_failed houtput]
    exact LeftToSay.delivers_endWith (.outputLost houtput)
  · rw [writing_of_blocked houtput]
    exact .outputBlocked houtput
  · rw [writing_of_ok houtput]
    have hleft : LeftToSay host streams call.builtin.name
        ⟨report.output, report.complaints, report.code, report.environment, after⟩
        report.complaints report.code between := .complaints houtput
    rcases hcomplaints : host.writeLines streams.stderr report.complaints between with
      ⟨outcome, last⟩
    rcases outcome with ⟨cause | _⟩ | _
    · rw [writing_of_failed hcomplaints, Command.endWith]
      rcases hagain : host.writeLine streams.stderr
        (call.builtin.name ++ ": " ++ cause.message) last with ⟨outcome, ended⟩
      cases outcome with
      | ok => exact .unsaid hleft hcomplaints (.complained hagain)
      | error e => exact .unsaid hleft hcomplaints (.failsAgain hagain)
    · rw [writing_of_blocked hcomplaints]
      exact .blocked hleft hcomplaints
    · rw [writing_of_ok hcomplaints]
      exact .done hleft hcomplaints

/-- A call that refuses its operands delivers the complaint. -/
theorem delivers_run_of_error {call : BuiltinCall} {env : Environment} {s after : σ}
    {e : BuiltinError} (hperform : call.perform host env s = (.error e, after))
    (streams : Streams η) :
    Delivers host streams call.builtin.name
      (.complains (call.builtin.name ++ ": " ++ e.message) 1 env after)
      (call.run host streams env s) := by
  simp only [run, hperform]
  exact delivers_endWith host streams _ _ 1 env after

end BuiltinCall

/-! ## What a stage delivers -/

/-- The stage of a builtin carries out the call that the builtin makes of its words. -/
theorem Command.start_of_ofWords (host : Host σ η) {call : BuiltinCall} {words : List String}
    (h : BuiltinCall.ofWords call.builtin words = .ok call) (env : Environment) (s : σ) :
    (Command.create host (standardFactories host) env s call.builtin.name words).start =
      call.run host := by
  have hname : Builtin.ofName? call.builtin.name = some call.builtin := by
    cases call <;> rfl
  rw [Command.create_of_ofName? host hname, Builtin.command]
  simp only [h]

/-- A stage delivers what the call that its builtin makes of its words prescribes. -/
theorem delivers_start_call {streams : Streams η} {origin : Shell σ} {call : BuiltinCall}
    {words : List String} (hcall : BuiltinCall.ofWords call.builtin words = .ok call)
    {env : Environment} {s after : σ} {report : BuiltinReport}
    (hperform : call.perform host env s = (.ok report, after)) :
    Delivers host streams call.builtin.name
      ⟨report.output, report.complaints, report.code, report.environment, after⟩
      ((Command.create host (standardFactories host) origin.env origin.system call.builtin.name
        words).start streams env s) := by
  rw [Command.start_of_ofWords host hcall]
  exact BuiltinCall.delivers_run hperform streams

/-- A stage delivers the complaint of the call that its builtin makes of its words. -/
theorem delivers_start_error (streams : Streams η) (origin : Shell σ) {call : BuiltinCall}
    {words : List String} (hcall : BuiltinCall.ofWords call.builtin words = .ok call)
    {env : Environment} {s after : σ} {e : BuiltinError}
    (hperform : call.perform host env s = (.error e, after)) {line : String}
    (hline : call.builtin.name ++ ": " ++ e.message = line) :
    Delivers host streams call.builtin.name (.complains line 1 env after)
      ((Command.create host (standardFactories host) origin.env origin.system call.builtin.name
        words).start streams env s) := by
  rw [Command.start_of_ofWords host hcall, ← hline]
  exact BuiltinCall.delivers_run_of_error hperform streams

/-- A builtin refuses the first word that it does not take. -/
theorem ofWords_of_surplus {b : Builtin} {words : List String} {bound : Nat} {word : String}
    (htakes : b.maxWords? = some bound) (hsurplus : words[bound]? = some word) :
    BuiltinCall.ofWords b words = .error word := by
  cases b with
  | echo => cases htakes
  | pwd =>
    cases htakes
    cases words with
    | nil => cases hsurplus
    | cons first rest =>
      cases hsurplus
      rfl
  | _ =>
    cases htakes
    match words, hsurplus with
    | _ :: _ :: _, rfl => rfl

/-- The stage of a builtin with a word too many reports it. -/
theorem delivers_start_surplus (streams : Streams η) (origin : Shell σ) {b : Builtin}
    {words : List String} {bound : Nat} {word : String} (htakes : b.maxWords? = some bound)
    (hsurplus : words[bound]? = some word) (env : Environment) (s : σ) :
    Delivers host streams b.name
      (.complains (Text.trimEnd ("Unrecognized argument: " ++ word)) 2 env s)
      ((Command.create host (standardFactories host) origin.env origin.system b.name words).start
        streams env s) := by
  have hname : Builtin.ofName? b.name = some b := by cases b <;> rfl
  rw [Command.create_of_ofName? host hname, Builtin.command]
  simp only [ofWords_of_surplus htakes hsurplus]
  exact delivers_endWith host streams b.name _ 2 env s

/-- The stage for a name under which nothing is known reports the name. -/
theorem delivers_start_unknown (streams : Streams η) {origin : Shell σ} {name : String}
    (hrefers : resolve (host.isFile origin.system) origin.env name = .unresolved)
    (words : List String) (env : Environment) (s : σ) :
    Delivers host streams name (.complains (name ++ ": command not found") 127 env s)
      ((Command.create host (standardFactories host) origin.env origin.system name words).start
        streams env s) := by
  rw [Command.create_eq_firstClaim?, firstClaim?_standardFactories, hrefers]
  exact delivers_endWith host streams name _ 127 env s

/-- A refused number is complained of. -/
theorem numberRequired_eq (b : Builtin) (word : String) :
    b.name ++ ": " ++ (BuiltinError.numberRequired word).message =
      b.name ++ ": " ++ word ++ ": numeric argument required" := by
  simp only [BuiltinError.message, ← String.append_assoc]

/-- A listing with a limit delivers the end of the history. -/
theorem delivers_history (streams : Streams η) (origin : Shell σ) {env : Environment}
    {words lines : List String} {limit : Option Nat} (hasked : HistoryOperand words limit)
    (hlisting : Lists env.history.toList limit lines) (s : σ) :
    Delivers host streams "history" (.shows lines env s)
      ((Command.create host (standardFactories host) origin.env origin.system "history" words).start
        streams env s) := by
  obtain ⟨operand, rfl, hlimit⟩ := hasked.exists_operand
  have hlines := (lists_tail env.history limit).unique hlisting
  have hperform : (BuiltinCall.history operand).perform host env s =
      (.ok ⟨lines, [], 0, env⟩, s) := by
    rw [BuiltinCall.perform, hlimit, hlines]
  refine delivers_start_call ?_ hperform
  exact singleOperand_toList .history operand

/-- A listing with a word that is no limit delivers a complaint. -/
theorem delivers_historyRefused (streams : Streams η) (origin : Shell σ) {word : String}
    (hrefused : ∀ limit, ¬HistoryOperand [word] limit) (env : Environment) (s : σ) :
    Delivers host streams "history"
      (.complains ("history: " ++ word ++ ": numeric argument required") 1 env s)
      ((Command.create host (standardFactories host) origin.env origin.system "history"
        [word]).start streams env s) := by
  have hperform : (BuiltinCall.history (some word)).perform host env s =
      (.error (.numberRequired word), s) := by
    rw [BuiltinCall.perform, BuiltinCall.limit?_eq_error hrefused]
  exact delivers_start_error streams origin rfl hperform (numberRequired_eq .history word)

/-- An exit with a code writes nothing and requests it. -/
theorem start_exit (host : Host σ η) (streams : Streams η) (origin : Shell σ)
    {words : List String} {code : ExitCode} (hasked : ExitOperand words code) (env : Environment)
    (s : σ) :
    (Command.create host (standardFactories host) origin.env origin.system "exit" words).start
      streams env s = (.ok (.finished code), env.requestExit code, s) := by
  obtain ⟨operand, rfl, hcode⟩ := hasked.exists_operand
  have hcall : BuiltinCall.ofWords (BuiltinCall.exit operand).builtin operand.toList =
      .ok (.exit operand) := singleOperand_toList .exit operand
  have hperform : (BuiltinCall.exit operand).perform host env s =
      (.ok ⟨[], [], code, env.requestExit code⟩, s) := by
    rw [BuiltinCall.perform, hcode]
  have hstart := Command.start_of_ofWords host hcall origin.env origin.system
  refine (congrFun (congrFun (congrFun hstart streams) env) s).trans ?_
  simp only [BuiltinCall.run, hperform]
  rfl

/-- An exit with a word that is no code delivers a complaint. -/
theorem delivers_exitRefused (streams : Streams η) (origin : Shell σ) {word : String}
    (hrefused : ∀ code, ¬ExitOperand [word] code) (env : Environment) (s : σ) :
    Delivers host streams "exit"
      (.complains ("exit: " ++ word ++ ": numeric argument required") 1 env s)
      ((Command.create host (standardFactories host) origin.env origin.system "exit" [word]).start
        streams env s) := by
  have hperform : (BuiltinCall.exit (some word)).perform host env s =
      (.error (.numberRequired word), s) := by
    rw [BuiltinCall.perform, BuiltinCall.exitCode?_eq_error hrefused]
  exact delivers_start_error streams origin rfl hperform (numberRequired_eq .exit word)

/-- What a stage prescribes, it delivers. -/
theorem delivers_start (streams : Streams η) {origin : Shell σ} {env : Environment} {s : σ}
    {name : String} {words : List String} {p : Prescription σ}
    (hp : Prescribes host origin env s name words p) :
    Delivers host streams name p
      ((Command.create host (standardFactories host) origin.env origin.system name words).start
        streams env s) := by
  cases hp with
  | echo =>
    have hperform : (BuiltinCall.echo words).perform host env s =
        (.ok ⟨[String.join words], [], 0, env⟩, s) := rfl
    exact delivers_start_call rfl hperform
  | pwd =>
    have hperform : BuiltinCall.pwd.perform host env s =
        (.ok ⟨[env.currentDirectory.text], [], 0, env⟩, s) := rfl
    exact delivers_start_call rfl hperform
  | @typeBuiltin operand b refers =>
    have hperform : (BuiltinCall.type (some operand)).perform host env s =
        (.ok ⟨[operand ++ " is a shell builtin"], [], 0, env⟩, s) := by
      rw [BuiltinCall.perform, refers]
      rfl
    exact delivers_start_call rfl hperform
  | @typeProgram operand program refers =>
    have hperform : (BuiltinCall.type (some operand)).perform host env s =
        (.ok ⟨[operand ++ " is " ++ program.text], [], 0, env⟩, s) := by
      rw [BuiltinCall.perform, refers]
      rfl
    exact delivers_start_call rfl hperform
  | @typeNothing operand refers =>
    have hperform : (BuiltinCall.type (some operand)).perform host env s =
        (.ok ⟨[], [operand ++ ": not found"], 1, env⟩, s) := by
      rw [BuiltinCall.perform, refers]
      rfl
    exact delivers_start_call rfl hperform
  | typeMissing =>
    have hperform : (BuiltinCall.type none).perform host env s = (.error .missingOperand, s) := rfl
    exact delivers_start_error streams origin rfl hperform rfl
  | history asked listing => exact delivers_history streams origin asked listing s
  | historyRefused notCount => exact delivers_historyRefused streams origin notCount env s
  | exit asked =>
    rw [start_exit host streams origin asked env s]
    exact .done (.complaints rfl) rfl
  | exitRefused notCode => exact delivers_exitRefused streams origin notCode env s
  | @cd _ target found after few means enters =>
    obtain rfl := means.eq_cdTarget
    refine delivers_start_call ?_ enters.perform_eq
    exact ofWords_cd few
  | @cdRefused _ target after few means refuses =>
    obtain rfl := means.eq_cdTarget
    refine delivers_start_error streams origin ?_ refuses.perform_eq (refusal_eq _)
    exact ofWords_cd few
  | surplus takes surplus => exact delivers_start_surplus streams origin takes surplus env s
  | unknown refers => exact delivers_start_unknown streams refers words env s

/-! ## Everything is prescribed -/

/-- Something is prescribed to the stage of a builtin with any words, in any shell. -/
theorem Builtin.exists_prescribes (host : Host σ η) (origin : Shell σ) (env : Environment) (s : σ)
    (b : Builtin) (words : List String) :
    ∃ p, Prescribes host origin env s b.name words p := by
  by_cases hsurplus : ∃ bound word, b.maxWords? = some bound ∧ words[bound]? = some word
  · obtain ⟨bound, word, htakes, hword⟩ := hsurplus
    exact ⟨_, .surplus htakes hword⟩
  have hfew (bound : Nat) (htakes : b.maxWords? = some bound) : words.length ≤ bound :=
    Nat.le_of_not_lt fun hmore =>
      hsurplus ⟨bound, words[bound], htakes, List.getElem?_eq_getElem hmore⟩
  cases b with
  | echo => exact ⟨_, .echo words⟩
  | pwd =>
    obtain rfl := List.length_eq_zero_iff.mp (Nat.le_zero.mp (hfew 0 rfl))
    exact ⟨_, .pwd⟩
  | cd =>
    have hmeans := CdTarget.cdTarget env words.head?
    rcases enters_or_refuses host env (BuiltinCall.cdTarget env words.head?) s with
      ⟨found, after, henters⟩ | ⟨after, hrefuses⟩
    · exact ⟨_, .cd (hfew 1 rfl) hmeans henters⟩
    · exact ⟨_, .cdRefused (hfew 1 rfl) hmeans hrefuses⟩
  | exit =>
    match words, hfew 1 rfl with
    | [], _ => exact ⟨_, .exit .none⟩
    | [word], _ =>
      by_cases hcode : ∃ code, ExitOperand [word] code
      · obtain ⟨code, hcode⟩ := hcode
        exact ⟨_, .exit hcode⟩
      · exact ⟨_, .exitRefused (not_exists.mp hcode)⟩
  | history =>
    match words, hfew 1 rfl with
    | [], _ => exact ⟨_, .history .none (lists_drop _ _)⟩
    | [word], _ =>
      by_cases hlimit : ∃ limit, HistoryOperand [word] limit
      · obtain ⟨limit, hlimit⟩ := hlimit
        exact ⟨_, .history hlimit (lists_drop _ _)⟩
      · exact ⟨_, .historyRefused (not_exists.mp hlimit)⟩
  | type =>
    match words, hfew 1 rfl with
    | [], _ => exact ⟨_, .typeMissing⟩
    | [name], _ =>
      cases hrefers : resolve (host.isFile s) env name with
      | builtin b => exact ⟨_, .typeBuiltin hrefers⟩
      | external program => exact ⟨_, .typeProgram hrefers⟩
      | unresolved => exact ⟨_, .typeNothing hrefers⟩

/-- Something is prescribed to every stage that runs inside the shell. -/
theorem RunsInside.exists_prescribes {origin : Shell σ} {name : String}
    (h : RunsInside host origin name) (env : Environment) (s : σ) (words : List String) :
    ∃ p, Prescribes host origin env s name words p := by
  rcases h with hbuiltin | hunknown
  · obtain ⟨b, hb⟩ := Option.isSome_iff_exists.mp hbuiltin
    have hfound := List.find?_some hb
    obtain rfl : b.name = name := beq_iff_eq.mp hfound
    exact b.exists_prescribes host origin env s words
  · exact ⟨_, .unknown hunknown⟩

end

end LineShell
