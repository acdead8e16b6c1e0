import LineShell.Proofs.Shell.Classification

/-!
# Systems with bounded pipes

A write to a full pipe waits until somebody reads. This file says what a system with such pipes
guarantees, and when the start of a stage waits for ever on it: a stage that writes to streams which
always take more never does, and a stage that writes to a new pipe does exactly when it is a builtin
with more output than the pipe holds.
-/

namespace LineShell

/-- The number of bytes that lines take when they are written. -/
def linesSize : List String → Nat
  | [] => 0
  | line :: rest => (line.push '\n').toUTF8.size + linesSize rest

section

variable {σ η : Type}

/-- A system whose pipes hold no more than so many unread bytes. A write to a pipe that only the
shell reads comes to its end when there is room for all of it, and never does when there is not. -/
structure Host.BoundedPipes (host : Host σ η) (capacity : Nat) where
  /-- The states in which the system can be. -/
  valid : σ → Prop
  /-- The streams that there are. -/
  known : σ → η → Prop
  /-- The streams for which nobody has to wait in order to write. -/
  steady : σ → η → Prop
  /-- The pipes that nobody but the shell has open, by their writing ends, with the number of unread
  bytes. -/
  unread : σ → η → Nat → Prop
  /-- The states in which the system can be later than in the given one. -/
  later : σ → σ → Prop
  valid_of_later : ∀ {s s'}, later s s' → valid s'
  known_of_later : ∀ {s s' stream}, later s s' → known s stream → known s' stream
  steady_of_later : ∀ {s s' stream}, later s s' → steady s stream → steady s' stream
  known_of_steady : ∀ {s stream}, steady s stream → known s stream
  later_self : ∀ {s}, valid s → later s s
  later_trans : ∀ {s s' s''}, later s s' → later s' s'' → later s s''
  terminal_known : ∀ {s}, valid s → known s host.terminal.stdin
  terminal_steady : ∀ {s}, valid s →
    steady s host.terminal.stdout ∧ steady s host.terminal.stderr
  pipe : ∀ {s}, valid s →
    later s (host.pipe s).2 ∧ known (host.pipe s).2 (host.pipe s).1.1 ∧
      known (host.pipe s).2 (host.pipe s).1.2 ∧ unread (host.pipe s).2 (host.pipe s).1.2 0
  openOutput : ∀ {s} mode path, valid s →
    later s (host.openOutput mode path s).2 ∧
      ∀ stream, (host.openOutput mode path s).1 = .ok stream →
        steady (host.openOutput mode path s).2 stream
  write_steady : ∀ {s stream} bytes, valid s → steady s stream →
    later s (host.write stream bytes s).2 ∧ (host.write stream bytes s).1 ≠ .error .blocked
  write_fitting : ∀ {s stream count} bytes, valid s → unread s stream count →
    count + bytes.size ≤ capacity →
      (host.write stream bytes s).1 = .ok () ∧ later s (host.write stream bytes s).2 ∧
        unread (host.write stream bytes s).2 stream (count + bytes.size)
  write_surplus : ∀ {s stream count} bytes, valid s → unread s stream count →
    capacity < count + bytes.size → (host.write stream bytes s).1 = .error .blocked
  close : ∀ {s} stream, valid s → later s (host.close stream s)
  changeDirectory : ∀ {s} path, valid s → later s (host.changeDirectory path s).2
  spawn : ∀ {s} launch streams, valid s → known s streams.stdin → known s streams.stdout →
    known s streams.stderr → later s (host.spawn launch streams s).2

/-- The number of bytes that a call writes to its standard output. -/
def BuiltinCall.outputSize (host : Host σ η) (call : BuiltinCall) (env : Environment) (s : σ) :
    Nat :=
  match (call.perform host env s).1 with
  | .ok report => linesSize report.output
  | .error _ => 0

/-- The number of bytes that the builtin of the given name writes to its standard output; none for
any other command. -/
def outputSizeOf (host : Host σ η) (name : String) (args : List String) (env : Environment)
    (s : σ) : Nat :=
  match Builtin.ofName? name with
  | none => 0
  | some b =>
    match BuiltinCall.ofWords b args with
    | .ok call => call.outputSize host env s
    | .error _ => 0

/-- A start from a state blocks the shell exactly when it is said to, and otherwise leaves a later
state. -/
structure Host.BoundedPipes.Starts {host : Host σ η} {capacity : Nat}
    (pipes : host.BoundedPipes capacity) (s : σ) (stalls : Prop) (result : StartResult σ) :
    Prop where
  blocked_iff : result.1 = .error .blocked ↔ stalls
  later : result.1 ≠ .error .blocked → pipes.later s result.2.2

namespace Host.BoundedPipes

variable {host : Host σ η} {capacity : Nat} (pipes : host.BoundedPipes capacity)

/-! ## Writing lines -/

/-- Lines can be written to a steady stream without waiting. -/
theorem writeLines_steady {s : σ} {stream : η} (hvalid : pipes.valid s)
    (hsteady : pipes.steady s stream) (lines : List String) :
    pipes.later s (host.writeLines stream lines s).2 ∧
      (host.writeLines stream lines s).1 ≠ .error .blocked := by
  induction lines generalizing s with
  | nil => exact ⟨pipes.later_self hvalid, by simp [Host.writeLines]⟩
  | cons line rest ih =>
    obtain ⟨hlater, hblocked⟩ := pipes.write_steady (line.push '\n').toUTF8 hvalid hsteady
    rw [Host.writeLines, Host.writeLine]
    rcases hwrite : host.write stream (line.push '\n').toUTF8 s with ⟨result, after⟩
    rw [hwrite] at hlater hblocked
    cases result with
    | ok =>
      obtain ⟨hrest, hblockedRest⟩ :=
        ih (pipes.valid_of_later hlater) (pipes.steady_of_later hlater hsteady)
      exact ⟨pipes.later_trans hlater hrest, hblockedRest⟩
    | error e =>
      refine ⟨hlater, fun h => hblocked ?_⟩
      exact congrArg Except.error (Except.error.inj h)

/-- Lines that fit into a pipe are written, one after the other. -/
theorem writeLines_fitting {s : σ} {stream : η} {count : Nat} {lines : List String}
    (hvalid : pipes.valid s) (hunread : pipes.unread s stream count)
    (hfits : count + linesSize lines ≤ capacity) :
    (host.writeLines stream lines s).1 = .ok () ∧
      pipes.later s (host.writeLines stream lines s).2 := by
  induction lines generalizing s count with
  | nil => exact ⟨rfl, pipes.later_self hvalid⟩
  | cons line rest ih =>
    have hsize : linesSize (line :: rest) = (line.push '\n').toUTF8.size + linesSize rest := rfl
    have hline : count + (line.push '\n').toUTF8.size ≤ capacity := by omega
    obtain ⟨hok, hlater, hmore⟩ :=
      pipes.write_fitting (line.push '\n').toUTF8 hvalid hunread hline
    have hrest : count + (line.push '\n').toUTF8.size + linesSize rest ≤ capacity := by omega
    rw [Host.writeLines, Host.writeLine]
    rcases hwrite : host.write stream (line.push '\n').toUTF8 s with ⟨result, after⟩
    rw [hwrite] at hok hlater hmore
    obtain rfl : result = .ok () := hok
    obtain ⟨hokRest, hlaterRest⟩ := ih (pipes.valid_of_later hlater) hmore hrest
    exact ⟨hokRest, pipes.later_trans hlater hlaterRest⟩

/-- Of lines that do not fit into a pipe, the first one that does not is never written. -/
theorem writeLines_surplus {s : σ} {stream : η} {count : Nat} {lines : List String}
    (hvalid : pipes.valid s) (hunread : pipes.unread s stream count)
    (hcount : count ≤ capacity) (hsurplus : capacity < count + linesSize lines) :
    (host.writeLines stream lines s).1 = .error .blocked := by
  induction lines generalizing s count with
  | nil =>
    have hsize : linesSize [] = 0 := rfl
    omega
  | cons line rest ih =>
    have hsize : linesSize (line :: rest) = (line.push '\n').toUTF8.size + linesSize rest := rfl
    rw [Host.writeLines, Host.writeLine]
    by_cases hline : count + (line.push '\n').toUTF8.size ≤ capacity
    · obtain ⟨hok, hlater, hmore⟩ :=
        pipes.write_fitting (line.push '\n').toUTF8 hvalid hunread hline
      have hrest : capacity < count + (line.push '\n').toUTF8.size + linesSize rest := by omega
      rcases hwrite : host.write stream (line.push '\n').toUTF8 s with ⟨result, after⟩
      rw [hwrite] at hok hlater hmore
      obtain rfl : result = .ok () := hok
      exact ih (pipes.valid_of_later hlater) hmore hline hrest
    · have hblocked := pipes.write_surplus (line.push '\n').toUTF8 hvalid hunread (by omega)
      rcases hwrite : host.write stream (line.push '\n').toUTF8 s with ⟨result, after⟩
      rw [hwrite] at hblocked
      obtain rfl : result = .error .blocked := hblocked
      rfl

/-- A report of the shell does not block it. -/
theorem later_report {s : σ} (hvalid : pipes.valid s) (message : String) :
    pipes.later s (host.report message s) := by
  obtain ⟨-, hsteady⟩ := pipes.terminal_steady hvalid
  exact (pipes.write_steady _ hvalid hsteady).1

/-- Streams are closed one after the other. -/
theorem later_closeAll {s : σ} (hvalid : pipes.valid s) (streams : List η) :
    pipes.later s (host.closeAll streams s) := by
  induction streams generalizing s with
  | nil => exact pipes.later_self hvalid
  | cons stream rest ih =>
    have hclose := pipes.close stream hvalid
    exact pipes.later_trans hclose (ih (pipes.valid_of_later hclose))

/-- The failure of a start is reported. -/
theorem later_reportFailure {s : σ} (hvalid : pipes.valid s)
    (result : Except StartError (Started σ)) : pipes.later s (reportFailure host result s) := by
  cases result with
  | ok started => exact pipes.later_self hvalid
  | error e => exact pipes.later_report hvalid e.message

/-! ## Starts -/

variable {pipes}

/-- A start that comes to an end. -/
theorem Starts.of_settled {s : σ} {stalls : Prop} {result : StartResult σ} (hstalls : ¬stalls)
    (hblocked : result.1 ≠ .error .blocked) (hlater : pipes.later s result.2.2) :
    pipes.Starts s stalls result :=
  ⟨iff_of_false hblocked hstalls, fun _ => hlater⟩

/-- A start that blocks the shell. -/
theorem Starts.of_blocked {s : σ} {stalls : Prop} {result : StartResult σ} (hstalls : stalls)
    (hblocked : result.1 = .error .blocked) : pipes.Starts s stalls result :=
  ⟨iff_of_true hblocked hstalls, fun h => absurd hblocked h⟩

/-- A start from an earlier state. -/
theorem Starts.of_later {s s' : σ} {stalls : Prop} {result : StartResult σ}
    (hlater : pipes.later s s') (h : pipes.Starts s' stalls result) :
    pipes.Starts s stalls result :=
  ⟨h.blocked_iff, fun hblocked => pipes.later_trans hlater (h.later hblocked)⟩

/-- A stage that ends with a line on a steady stream. -/
theorem starts_endWith (code : ExitCode) (line : String) (streams : Streams η) (env : Environment)
    {s : σ} {stalls : Prop} (hvalid : pipes.valid s) (hstderr : pipes.steady s streams.stderr)
    (hstalls : ¬stalls) :
    pipes.Starts s stalls (Command.endWith host code line streams env s) := by
  obtain ⟨hlater, hblocked⟩ := pipes.write_steady (line.push '\n').toUTF8 hvalid hstderr
  rw [Command.endWith, Host.writeLine]
  rcases hwrite : host.write streams.stderr (line.push '\n').toUTF8 s with ⟨result, after⟩
  rw [hwrite] at hlater hblocked
  cases result with
  | ok => exact .of_settled hstalls (by simp) hlater
  | error e =>
    cases e with
    | failed cause => exact .of_settled hstalls (by simp [StartError.ofWrite]) hlater
    | blocked => exact absurd rfl hblocked

/-- Lines that a call writes to a steady stream, when what comes after them does not block. -/
theorem starts_writing_steady (b : Builtin) (stream : η) (lines : List String)
    (streams : Streams η) (env : Environment) {s : σ} {stalls : Prop} {next : σ → StartResult σ}
    (hvalid : pipes.valid s) (hsteady : pipes.steady s stream)
    (hstderr : pipes.steady s streams.stderr) (hstalls : ¬stalls)
    (hnext : ∀ s', pipes.later s s' → pipes.Starts s' stalls (next s')) :
    pipes.Starts s stalls (BuiltinCall.writing host b stream lines streams env s next) := by
  obtain ⟨hlater, hblocked⟩ := pipes.writeLines_steady hvalid hsteady lines
  rw [BuiltinCall.writing]
  rcases hwrite : host.writeLines stream lines s with ⟨result, after⟩
  rw [hwrite] at hlater hblocked
  cases result with
  | ok => exact (hnext after hlater).of_later hlater
  | error e =>
    cases e with
    | failed cause =>
      have hcomplaint := starts_endWith 1 (b.name ++ ": " ++ cause.message) streams env
        (pipes.valid_of_later hlater) (pipes.steady_of_later hlater hstderr) hstalls
      exact hcomplaint.of_later hlater
    | blocked => exact absurd rfl hblocked

/-- Lines that a call writes to a pipe that nobody else has open. They block the shell exactly when
the pipe does not hold all of them. -/
theorem starts_writing_pipe (b : Builtin) (stream : η) (lines : List String)
    (streams : Streams η) (env : Environment) {s : σ} {next : σ → StartResult σ}
    (hvalid : pipes.valid s) (hunread : pipes.unread s stream 0)
    (hnext : ∀ s' {stalls : Prop}, pipes.later s s' → ¬stalls → pipes.Starts s' stalls (next s')) :
    pipes.Starts s (capacity < linesSize lines)
      (BuiltinCall.writing host b stream lines streams env s next) := by
  rw [BuiltinCall.writing]
  by_cases hfits : linesSize lines ≤ capacity
  · have hstalls : ¬capacity < linesSize lines := by omega
    have hfitting : 0 + linesSize lines ≤ capacity := by omega
    obtain ⟨hok, hlater⟩ := pipes.writeLines_fitting hvalid hunread hfitting
    rcases hwrite : host.writeLines stream lines s with ⟨result, after⟩
    rw [hwrite] at hok hlater
    obtain rfl : result = .ok () := hok
    exact (hnext after hlater hstalls).of_later hlater
  · have hsurplus : capacity < 0 + linesSize lines := by omega
    have hblocked := pipes.writeLines_surplus hvalid hunread (Nat.zero_le _) hsurplus
    rcases hwrite : host.writeLines stream lines s with ⟨result, after⟩
    rw [hwrite] at hblocked
    obtain rfl : result = .error .blocked := hblocked
    exact .of_blocked (by omega) rfl

/-- Working out what a call prescribes leaves a later state, and the same state when there is
anything for standard output. -/
theorem later_perform (pipes : host.BoundedPipes capacity) (call : BuiltinCall) (env : Environment)
    {s s' : σ} {result : Except BuiltinError BuiltinReport} (hvalid : pipes.valid s)
    (hperform : call.perform host env s = (result, s')) :
    pipes.later s s' ∧ (s' = s ∨ ∀ report, result = .ok report → report.output = []) := by
  have hsame (hsystem : (call.perform host env s).2 = s) :
      pipes.later s s' ∧ (s' = s ∨ ∀ report, result = .ok report → report.output = []) := by
    rw [hperform] at hsystem
    obtain rfl : s' = s := hsystem
    exact ⟨pipes.later_self hvalid, .inl rfl⟩
  cases call with
  | exit code => exact hsame rfl
  | echo words => exact hsame rfl
  | type name => exact hsame (by cases name <;> rfl)
  | pwd => exact hsame rfl
  | history limit => exact hsame rfl
  | cd target =>
    have hentered : pipes.later s (BuiltinCall.enterDirectory host env
        (BuiltinCall.cdTarget env target) s).2 := by
      rw [BuiltinCall.enterDirectory]
      cases host.canonicalPath s (env.currentDirectory.join (BuiltinCall.cdTarget env target)) with
      | error e => exact pipes.later_self hvalid
      | ok directory =>
        have hmoved := pipes.changeDirectory directory hvalid
        by_cases hdirectory : host.isDirectory s directory = true
        · rcases hchange : host.changeDirectory directory s with ⟨result, after⟩
          rw [hchange] at hmoved
          simp only [if_pos hdirectory, hchange]
          cases result <;> exact hmoved
        · simp only [if_neg hdirectory]
          exact pipes.later_self hvalid
    rw [BuiltinCall.perform] at hperform
    rcases henter : BuiltinCall.enterDirectory host env (BuiltinCall.cdTarget env target) s with
      ⟨outcome, after⟩
    rw [henter] at hperform hentered
    cases outcome with
    | ok directory =>
      cases hperform
      refine ⟨hentered, .inr fun report hreport => ?_⟩
      cases hreport
      rfl
    | error e =>
      cases hperform
      exact ⟨hentered, .inr fun report hreport => by cases hreport⟩

/-- The lines for standard error and the end of a call do not block the shell. -/
theorem starts_complaints (b : Builtin) (report : BuiltinReport) (streams : Streams η) {s : σ}
    {stalls : Prop} (hvalid : pipes.valid s) (hstderr : pipes.steady s streams.stderr)
    (hstalls : ¬stalls) :
    pipes.Starts s stalls
      (BuiltinCall.writing host b streams.stderr report.complaints streams report.environment s
        fun s => (.ok (.finished report.code), report.environment, s)) := by
  apply starts_writing_steady b _ _ _ _ hvalid hstderr hstderr hstalls
  intro s' hlater
  exact .of_settled hstalls (by simp) (pipes.later_self (pipes.valid_of_later hlater))

/-- A call that writes to steady streams does not block the shell. -/
theorem starts_run_steady (call : BuiltinCall) (streams : Streams η) (env : Environment) {s : σ}
    {stalls : Prop} (hvalid : pipes.valid s) (hstdout : pipes.steady s streams.stdout)
    (hstderr : pipes.steady s streams.stderr) (hstalls : ¬stalls) :
    pipes.Starts s stalls (call.run host streams env s) := by
  rw [BuiltinCall.run]
  rcases hperform : call.perform host env s with ⟨result, after⟩
  obtain ⟨hlater, -⟩ := later_perform pipes call env hvalid hperform
  have hafter := pipes.valid_of_later hlater
  have hcomplaints := pipes.steady_of_later hlater hstderr
  cases result with
  | error e => exact (starts_endWith 1 _ streams env hafter hcomplaints hstalls).of_later hlater
  | ok report =>
    refine Starts.of_later hlater ?_
    apply starts_writing_steady call.builtin _ _ _ _ hafter
      (pipes.steady_of_later hlater hstdout) hcomplaints hstalls
    intro s' hwritten
    exact starts_complaints call.builtin report streams (pipes.valid_of_later hwritten)
      (pipes.steady_of_later hwritten hcomplaints) hstalls

/-- A call that writes to a pipe that nobody else has open blocks the shell exactly when the pipe
does not hold its output. -/
theorem starts_run_pipe (call : BuiltinCall) (streams : Streams η) (env : Environment) {s : σ}
    (hvalid : pipes.valid s) (hunread : pipes.unread s streams.stdout 0)
    (hstderr : pipes.steady s streams.stderr) :
    pipes.Starts s (capacity < call.outputSize host env s) (call.run host streams env s) := by
  rw [BuiltinCall.run, BuiltinCall.outputSize]
  rcases hperform : call.perform host env s with ⟨result, after⟩
  obtain ⟨hlater, hquiet⟩ := later_perform pipes call env hvalid hperform
  have hafter := pipes.valid_of_later hlater
  have hcomplaints := pipes.steady_of_later hlater hstderr
  cases result with
  | error e =>
    have hstalls : ¬capacity < 0 := Nat.not_lt_zero _
    exact (starts_endWith 1 _ streams env hafter hcomplaints hstalls).of_later hlater
  | ok report =>
    dsimp only
    rcases hquiet with rfl | hsilent
    · apply starts_writing_pipe call.builtin _ _ _ _ hvalid hunread
      intro s' stalls hwritten hstalls
      exact starts_complaints call.builtin report streams (pipes.valid_of_later hwritten)
        (pipes.steady_of_later hwritten hstderr) hstalls
    · rw [hsilent report rfl]
      have hstalls : ¬capacity < linesSize [] := Nat.not_lt_zero _
      exact (starts_complaints call.builtin report streams hafter hcomplaints hstalls).of_later
        hlater

/-! ## Created stages -/

/-- What the makers of a full shell create for a name: a call of a builtin, a complaint about a word
that the builtin does not take, a program, or the stage for an unknown name. -/
inductive Created (host : Host σ η) (name : String) (args : List String) : Command σ η → Prop
  | call {b : Builtin} {call : BuiltinCall} (named : Builtin.ofName? name = some b)
      (reads : BuiltinCall.ofWords b args = .ok call) : Created host name args ⟨call.run host⟩
  | surplus {b : Builtin} {word : String} (named : Builtin.ofName? name = some b)
      (refuses : BuiltinCall.ofWords b args = .error word) :
      Created host name args
        ⟨Command.endWith host Builtin.usageError (Builtin.surplusMessage word)⟩
  | program {program : Path} (unnamed : Builtin.ofName? name = none) :
      Created host name args (External.command host name program args)
  | unresolved (unnamed : Builtin.ofName? name = none) :
      Created host name args (Command.unresolved host name)

/-- What a builtin makes of its words. -/
theorem Created.of_builtin (host : Host σ η) {name : String} (args : List String) {b : Builtin}
    (hname : Builtin.ofName? name = some b) : Created host name args (b.command host args) := by
  unfold Builtin.command
  cases hwords : BuiltinCall.ofWords b args with
  | ok call => exact .call hname hwords
  | error word => exact .surplus hname hwords

/-- Every stage of a full shell is created in one of these ways. -/
theorem created_standardFactories (host : Host σ η) (env : Environment) (s : σ) (name : String)
    (args : List String) :
    Created host name args (Command.create host (standardFactories host) env s name args) := by
  rw [Command.create_eq_firstClaim?, firstClaim?_standardFactories]
  unfold resolve
  cases hname : Builtin.ofName? name with
  | some b => exact .of_builtin host args hname
  | none =>
    cases findProgram (host.isFile s) env.searchPath env.currentDirectory ⟨name⟩ with
    | some program => exact .program hname
    | none => exact .unresolved hname

/-- The start of a program does not block the shell. -/
theorem starts_program (name : String) (program : Path) (args : List String)
    (streams : Streams η) (env : Environment) {s : σ} {stalls : Prop} (hvalid : pipes.valid s)
    (hstdin : pipes.known s streams.stdin) (hstdout : pipes.known s streams.stdout)
    (hstderr : pipes.known s streams.stderr) (hstalls : ¬stalls) :
    pipes.Starts s stalls ((External.command host name program args).start streams env s) := by
  let run : Launch := ⟨name, program, args, env.bindings, env.currentDirectory⟩
  have hlater := pipes.spawn run streams hvalid hstdin hstdout hstderr
  simp only [External.command]
  rcases hspawn : host.spawn run streams s with ⟨result, after⟩
  rw [hspawn] at hlater
  cases result with
  | ok child => exact .of_settled hstalls (by simp) hlater
  | error e => exact .of_settled hstalls (by simp) hlater

/-- The last stage of a pipeline does not block the shell. -/
theorem starts_created_steady {name : String} {args : List String} {command : Command σ η}
    (hcreated : Created host name args command) (streams : Streams η) (env : Environment) {s : σ}
    {stalls : Prop} (hvalid : pipes.valid s) (hstdin : pipes.known s streams.stdin)
    (hstdout : pipes.steady s streams.stdout) (hstderr : pipes.steady s streams.stderr)
    (hstalls : ¬stalls) : pipes.Starts s stalls (command.start streams env s) := by
  cases hcreated with
  | call => exact starts_run_steady _ streams env hvalid hstdout hstderr hstalls
  | surplus => exact starts_endWith _ _ streams env hvalid hstderr hstalls
  | unresolved => exact starts_endWith _ _ streams env hvalid hstderr hstalls
  | program =>
    exact starts_program name _ args streams env hvalid hstdin (pipes.known_of_steady hstdout)
      (pipes.known_of_steady hstderr) hstalls

/-- A stage in front of another one blocks the shell exactly when the pipe between them does not
hold what a builtin writes. -/
theorem starts_created_pipe {name : String} {args : List String} {command : Command σ η}
    (hcreated : Created host name args command) (streams : Streams η) (env : Environment) {s : σ}
    (hvalid : pipes.valid s) (hstdin : pipes.known s streams.stdin)
    (hstdout : pipes.known s streams.stdout) (hunread : pipes.unread s streams.stdout 0)
    (hstderr : pipes.steady s streams.stderr) :
    pipes.Starts s (capacity < outputSizeOf host name args env s)
      (command.start streams env s) := by
  have hnone : ¬capacity < 0 := Nat.not_lt_zero _
  unfold outputSizeOf
  cases hcreated with
  | call named reads =>
    simp only [named, reads]
    exact starts_run_pipe _ streams env hvalid hunread hstderr
  | surplus named refuses =>
    simp only [named, refuses]
    exact starts_endWith _ _ streams env hvalid hstderr hnone
  | unresolved unnamed =>
    simp only [unnamed]
    exact starts_endWith _ _ streams env hvalid hstderr hnone
  | program unnamed =>
    simp only [unnamed]
    exact starts_program name _ args streams env hvalid hstdin hstdout
      (pipes.known_of_steady hstderr) hnone

end Host.BoundedPipes

end

end LineShell
