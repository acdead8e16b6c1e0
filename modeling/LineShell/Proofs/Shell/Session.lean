import LineShell.Proofs.Pipeline.Written
import LineShell.Proofs.Shell.Frame
import LineShell.Shell.Loop

/-!
# Sessions

A session runs the lines that it is given one after the other, until one of them leaves a request to
leave the shell pending or there are no more lines. Each line that is not blank is remembered before
anything of it is run, whatever comes of it. A line that cannot be read is reported, and nothing
else happens.
-/

namespace LineShell

section

variable {σ η : Type}

/-- A source of lines gives the pending ones in order, and then the end of the input. -/
structure Feeds (nextLine : σ → LineRead × σ) (pending : σ → List String) : Prop where
  line : ∀ s text rest, pending s = text :: rest →
    (nextLine s).1 = .line text ∧ pending (nextLine s).2 = rest
  endOfInput : ∀ s, pending s = [] → (nextLine s).1 = .endOfInput

/-- The shell when it has asked for the next line. -/
def Shell.read (nextLine : σ → LineRead × σ) (sh : Shell σ) : Shell σ :=
  ⟨sh.env, (nextLine sh.system).2⟩

/-- Asking for a line does not change the environment. -/
@[simp] theorem Shell.env_read (nextLine : σ → LineRead × σ) (sh : Shell σ) :
    (sh.read nextLine).env = sh.env := rfl

/-- What comes of reading a line and running it. -/
@[irreducible]
def Shell.takeLine (host : Host σ η) (factories : List (Factory σ η))
    (nextLine : σ → LineRead × σ) (text : String) (sh : Shell σ) : Bool × Shell σ :=
  (sh.read nextLine).runLine host factories text

/-- The shell when lines have been read and run. -/
def Shell.afterLines (host : Host σ η) (factories : List (Factory σ η))
    (nextLine : σ → LineRead × σ) (lines : List String) (sh : Shell σ) : Shell σ :=
  lines.foldl (fun sh text => (sh.takeLine host factories nextLine text).2) sh

/-- The shell goes on after each of the given lines: the line comes to its end and leaves no request
to leave the shell pending. -/
def GoesOnAfter (host : Host σ η) (factories : List (Factory σ η)) (nextLine : σ → LineRead × σ) :
    List String → Shell σ → Prop
  | [], _ => True
  | text :: rest, sh =>
    let taken := sh.takeLine host factories nextLine text
    taken.1 = true ∧ taken.2.env.exitRequest = none ∧
      GoesOnAfter host factories nextLine rest taken.2

/-- How a line is run, and whether it comes to its end. -/
inductive LineRun (host : Host σ η) (factories : List (Factory σ η)) (text : String)
    (sh : Shell σ) : Bool × Shell σ → Prop
  /-- A blank line does nothing. -/
  | blank (isBlank : (Text.trim text).isEmpty = true) : LineRun host factories text sh (true, sh)
  /-- A line that cannot be split into tokens is remembered, and there is one report. -/
  | lexing {e : LexError} (isText : (Text.trim text).isEmpty = false)
      (fails : tokenize (Text.trim text) = .error e) :
      LineRun host factories text sh
        (true, ⟨(sh.remember (Text.trim text)).env, host.report e.message sh.system⟩)
  /-- A line whose tokens are no pipeline is remembered, and there is one report. -/
  | parsing {tokens : List Token} {e : ParseError} (isText : (Text.trim text).isEmpty = false)
      (tokenized : tokenize (Text.trim text) = .ok tokens)
      (fails : parsePipeline tokens = .error e) :
      LineRun host factories text sh
        (true, ⟨(sh.remember (Text.trim text)).env, host.report e.message sh.system⟩)
  /-- The pipeline of any other line is run when the line has been remembered. The line comes to its
  end unless the pipeline waits for ever. -/
  | ran {p : Pipeline} {result : Except LineError ExitCode} {after : Shell σ}
      (isText : (Text.trim text).isEmpty = false) (denotes : Denotes (Text.trim text) p)
      (executed : (sh.remember (Text.trim text)).executePipeline host factories p =
        (result, after)) : LineRun host factories text sh (result.isOk, after)

/-- How a session ends that has run the given lines and has not read others. -/
inductive SessionEnd (host : Host σ η) (factories : List (Factory σ η))
    (nextLine : σ → LineRead × σ) (sh : Shell σ) (unread : List String) :
    List String → LoopEnd × Shell σ → Prop
  /-- The last line has left a request to leave the shell pending. -/
  | exited {before : List String} {text : String} {code : ExitCode} {after : Shell σ}
      (goesOn : GoesOnAfter host factories nextLine before sh)
      (taken : (sh.afterLines host factories nextLine before).takeLine host factories nextLine
        text = (true, after)) (pending : after.env.exitRequest = some code) :
      SessionEnd host factories nextLine sh unread (before ++ [text]) (.exited code, after)
  /-- There are no more lines. -/
  | endOfInput {lines : List String} (goesOn : GoesOnAfter host factories nextLine lines sh)
      (unread_eq : unread = []) :
      SessionEnd host factories nextLine sh unread lines
        (.exited 0, (sh.afterLines host factories nextLine lines).read nextLine)
  /-- The last line waits for ever. -/
  | blocked {before : List String} {text : String} {after : Shell σ}
      (goesOn : GoesOnAfter host factories nextLine before sh)
      (taken : (sh.afterLines host factories nextLine before).takeLine host factories nextLine
        text = (false, after)) :
      SessionEnd host factories nextLine sh unread (before ++ [text]) (.blocked, after)

/-! ## One line -/

/-- A pipeline gives a code unless it waits for ever. -/
theorem executePipeline_error (host : Host σ η) (factories : List (Factory σ η)) {p : Pipeline}
    {sh after : Shell σ} {e : LineError}
    (h : sh.executePipeline host factories p = (.error e, after)) : e = .blocked := by
  rw [Shell.executePipeline] at h
  cases hlast : p.last? with
  | none =>
    rw [hlast] at h
    cases h
  | some last =>
    rw [hlast] at h
    rcases hopen : openRedirections host sh.env.currentDirectory .none last.redirections
      sh.system with ⟨result, opened⟩
    simp only [hopen] at h
    cases result with
    | error refused => cases h
    | ok files =>
      simp only [runStages] at h
      rcases hlaunch : launch host files (createStages host factories sh p.segments) none sh.env
        opened with ⟨result, env, launched⟩
      rw [hlaunch] at h
      cases result <;> cases h
      rfl

/-- Every line is run in one of these ways. -/
theorem lineRun (host : Host σ η) (factories : List (Factory σ η)) (text : String)
    (sh : Shell σ) : LineRun host factories text sh (sh.runLine host factories text) := by
  rw [Shell.runLine, Shell.executeLine]
  cases hblank : (Text.trim text).isEmpty with
  | true => exact .blank hblank
  | false =>
    simp only [Bool.false_eq_true, if_false]
    cases htokens : tokenize (Text.trim text) with
    | error e => exact .lexing hblank htokens
    | ok tokens =>
      dsimp only
      cases hparse : parsePipeline tokens with
      | error e => exact .parsing hblank htokens hparse
      | ok p =>
        have hdenotes : Denotes (Text.trim text) p := ⟨tokens, htokens, hparse⟩
        dsimp only
        rcases hrun : (sh.remember (Text.trim text)).executePipeline host factories p with
          ⟨result, after⟩
        have hran := LineRun.ran hblank hdenotes hrun
        cases result with
        | ok code => exact hran
        | error e =>
          obtain rfl := executePipeline_error host factories hrun
          exact hran

/-- So is every line that the shell asks for. -/
theorem lineRun_takeLine (host : Host σ η) (factories : List (Factory σ η))
    (nextLine : σ → LineRead × σ) (text : String) (sh : Shell σ) :
    LineRun host factories text (sh.read nextLine)
      (sh.takeLine host factories nextLine text) := by
  rw [Shell.takeLine]
  exact lineRun host factories text _

/-- What a session keeps of the lines that it runs: their texts, without the blank ones. -/
def remembered (lines : List String) : List String :=
  (lines.map Text.trim).filter fun line => !line.isEmpty

/-- What is kept of lines is kept of their parts. -/
theorem remembered_append (lines others : List String) :
    remembered (lines ++ others) = remembered lines ++ remembered others := by
  simp only [remembered, List.map_append, List.filter_append]

/-- A pipeline leaves the history alone. -/
theorem history_executePipeline {host : Host σ η} {factories : List (Factory σ η)}
    (hfactories : LeaveAlone host factories fun sh : Shell σ => sh.env.history) (p : Pipeline)
    (sh : Shell σ) :
    (sh.executePipeline host factories p).2.env.history = sh.env.history := by
  have hhost : host.Keeps fun sh : Shell σ => sh.env.history := by
    constructor <;> intros <;> first | rfl | exact fun _ _ => rfl
  exact executePipeline_keeps hhost (fun _ _ _ _ => rfl) hfactories p sh

/-- Whatever comes of a line, it is in the history afterwards, unless it is blank. -/
theorem LineRun.history_eq {host : Host σ η} {factories : List (Factory σ η)} {text : String}
    {sh : Shell σ} {result : Bool × Shell σ} (h : LineRun host factories text sh result)
    (hfactories : LeaveAlone host factories fun sh : Shell σ => sh.env.history) :
    result.2.env.history.toList = sh.env.history.toList ++ remembered [text] := by
  have hpush (hnonblank : (Text.trim text).isEmpty = false) :
      (sh.remember (Text.trim text)).env.history.toList =
        sh.env.history.toList ++ remembered [text] := by
    simp only [remembered, List.map_cons, List.map_nil, List.filter_cons, hnonblank, Bool.not_false,
      if_true, List.filter_nil]
    exact Array.toList_push
  cases h with
  | blank isBlank => simp [remembered, isBlank]
  | lexing isText fails => exact hpush isText
  | parsing isText tokenized fails => exact hpush isText
  | @ran p outcome after isText denotes executed =>
    have hkept := history_executePipeline hfactories p (sh.remember (Text.trim text))
    rw [executed] at hkept
    exact (congrArg History.toList hkept).trans (hpush isText)

/-- A line is run without a look at the lines behind it, when neither the system nor a command looks
at them. -/
theorem LineRun.pending_eq {host : Host σ η} {factories : List (Factory σ η)} {text : String}
    {sh : Shell σ} {result : Bool × Shell σ} (h : LineRun host factories text sh result)
    {pending : σ → List String} (hhost : host.Keeps fun sh : Shell σ => pending sh.system)
    (hfactories : LeaveAlone host factories fun sh : Shell σ => pending sh.system) :
    pending result.2.system = pending sh.system := by
  cases h with
  | blank isBlank => rfl
  | @lexing e isText fails => exact hhost.report e.message sh.env sh.system
  | @parsing tokens e isText tokenized fails => exact hhost.report e.message sh.env sh.system
  | @ran p outcome after isText denotes executed =>
    have hkept := executePipeline_keeps hhost (fun _ _ _ _ => rfl) hfactories p
      (sh.remember (Text.trim text))
    rw [executed] at hkept
    exact hkept

/-! ## All lines -/

section

variable {host : Host σ η} {factories : List (Factory σ η)} {nextLine : σ → LineRead × σ}

/-- The first of some lines is read and run before the others. -/
theorem afterLines_cons (text : String) (rest : List String) (sh : Shell σ) :
    sh.afterLines host factories nextLine (text :: rest) =
      (sh.takeLine host factories nextLine text).2.afterLines host factories nextLine rest :=
  rfl

/-- The last of some lines is read and run behind the others. -/
theorem afterLines_concat (before : List String) (text : String) (sh : Shell σ) :
    sh.afterLines host factories nextLine (before ++ [text]) =
      ((sh.afterLines host factories nextLine before).takeLine host factories nextLine text).2 :=
  List.foldl_append

/-- The history when lines have been read and run. -/
theorem history_afterLines
    (hfactories : LeaveAlone host factories fun sh : Shell σ => sh.env.history)
    (lines : List String) (sh : Shell σ) :
    (sh.afterLines host factories nextLine lines).env.history.toList =
      sh.env.history.toList ++ remembered lines := by
  induction lines generalizing sh with
  | nil => exact (List.append_nil _).symm
  | cons text rest ih =>
    have hrun := lineRun_takeLine host factories nextLine text sh
    rw [afterLines_cons, ih, hrun.history_eq hfactories, Shell.env_read, List.append_assoc,
      ← remembered_append, List.singleton_append]

/-- The history at the end of a session. -/
theorem SessionEnd.history_eq {sh : Shell σ} {unread lines : List String}
    {outcome : LoopEnd × Shell σ}
    (h : SessionEnd host factories nextLine sh unread lines outcome)
    (hfactories : LeaveAlone host factories fun sh : Shell σ => sh.env.history) :
    outcome.2.env.history.toList = sh.env.history.toList ++ remembered lines := by
  suffices hafter : outcome.2.env = (sh.afterLines host factories nextLine lines).env by
    rw [hafter, history_afterLines hfactories]
  cases h with
  | exited goesOn taken pending => rw [afterLines_concat, taken]
  | endOfInput goesOn unread_eq => rfl
  | blocked goesOn taken => rw [afterLines_concat, taken]

/-- The shell goes on after one more line before others. -/
theorem GoesOnAfter.cons {text : String} {rest : List String} {sh next : Shell σ}
    (htaken : sh.takeLine host factories nextLine text = (true, next))
    (hgoesOn : next.env.exitRequest = none)
    (hrest : GoesOnAfter host factories nextLine rest next) :
    GoesOnAfter host factories nextLine (text :: rest) sh := by
  rw [GoesOnAfter, htaken]
  exact ⟨rfl, hgoesOn, hrest⟩

/-- A line after which the shell goes on comes before the lines of a session. -/
theorem SessionEnd.cons {text : String} {sh next : Shell σ} {unread lines : List String}
    {outcome : LoopEnd × Shell σ}
    (htaken : sh.takeLine host factories nextLine text = (true, next))
    (hgoesOn : next.env.exitRequest = none)
    (h : SessionEnd host factories nextLine next unread lines outcome) :
    SessionEnd host factories nextLine sh unread (text :: lines) outcome := by
  have hafter (rest : List String) : sh.afterLines host factories nextLine (text :: rest) =
      next.afterLines host factories nextLine rest := by
    rw [afterLines_cons, htaken]
  cases h with
  | @exited before other code after goesOn taken pending =>
    rw [← hafter] at taken
    exact .exited (.cons htaken hgoesOn goesOn) taken pending
  | endOfInput goesOn unread_eq =>
    rw [← hafter]
    exact .endOfInput (.cons htaken hgoesOn goesOn) unread_eq
  | @blocked before other after goesOn taken =>
    rw [← hafter] at taken
    exact .blocked (.cons htaken hgoesOn goesOn) taken

/-- The loop of a shell runs a line that it is given, and goes on with the next one unless the line
waits for ever or leaves a request to leave the shell pending. -/
theorem loop_line (host : Host σ η) (factories : List (Factory σ η)) {sh : Shell σ}
    {text : String} (hline : (nextLine sh.system).1 = .line text) (n : Nat) :
    sh.loop host factories nextLine (n + 1) =
      let taken := sh.takeLine host factories nextLine text
      if taken.1 then
        taken.2.env.exitRequest.elim (taken.2.loop host factories nextLine n) fun code =>
          (.exited code, taken.2)
      else (.blocked, taken.2) := by
  rcases htaken : sh.takeLine host factories nextLine text with ⟨returns, after⟩
  rcases hnext : nextLine sh.system with ⟨read, s⟩
  rw [Shell.takeLine, Shell.read, hnext] at htaken
  rw [hnext] at hline
  cases hline
  simp only [Shell.loop, hnext, htaken]
  cases returns with
  | false => rfl
  | true =>
    dsimp only
    cases after.env.exitRequest <;> rfl

/-- At the end of the input the loop of a shell ends. -/
theorem loop_endOfInput (host : Host σ η) (factories : List (Factory σ η)) {sh : Shell σ}
    (hend : (nextLine sh.system).1 = .endOfInput) (n : Nat) :
    sh.loop host factories nextLine (n + 1) = (.exited 0, sh.read nextLine) := by
  rw [Shell.loop, Shell.read]
  rcases hnext : nextLine sh.system with ⟨read, s⟩
  rw [hnext] at hend
  cases hend
  rfl

/-- At a line that is no text the loop of a shell ends as well. -/
theorem loop_unreadable (host : Host σ η) (factories : List (Factory σ η)) {sh : Shell σ}
    (hread : (nextLine sh.system).1 = .unreadable) (n : Nat) :
    sh.loop host factories nextLine (n + 1) = (.unreadable, sh.read nextLine) := by
  rw [Shell.loop, Shell.read]
  rcases hnext : nextLine sh.system with ⟨read, s⟩
  rw [hnext] at hread
  cases hread
  rfl

/-- A line that is run leaves the lines behind it to be read. -/
def LeavesPending (host : Host σ η) (factories : List (Factory σ η))
    (nextLine : σ → LineRead × σ) (pending : σ → List String) (sh : Shell σ) : Prop :=
  ∀ before text later, pending sh.system = before ++ text :: later →
    GoesOnAfter host factories nextLine before sh →
    let passed := sh.afterLines host factories nextLine before
    pending (passed.takeLine host factories nextLine text).2.system =
      pending (passed.read nextLine).system

/-- When the shell goes on after a line, the lines behind it are left to be read as well. -/
theorem LeavesPending.next {pending : σ → List String} {text : String} {rest : List String}
    {sh next : Shell σ} (hleaves : LeavesPending host factories nextLine pending sh)
    (hfeeds : Feeds nextLine pending) (hpending : pending sh.system = text :: rest)
    (htaken : sh.takeLine host factories nextLine text = (true, next))
    (hgoesOn : next.env.exitRequest = none) :
    pending next.system = rest ∧ LeavesPending host factories nextLine pending next := by
  have hnext : pending next.system = rest := by
    have hleft : pending (sh.takeLine host factories nextLine text).2.system =
        pending (sh.read nextLine).system := hleaves [] text rest hpending trivial
    rw [htaken] at hleft
    exact hleft.trans (hfeeds.line sh.system text rest hpending).2
  refine ⟨hnext, fun before other later hbefore hgoes => ?_⟩
  -- What is run of the next shell is run of this one behind the line.
  have hlines : pending sh.system = (text :: before) ++ other :: later := by
    rw [hpending, ← hnext, hbefore, List.cons_append]
  have hleft := hleaves (text :: before) other later hlines (.cons htaken hgoesOn hgoes)
  rw [afterLines_cons, htaken] at hleft
  exact hleft

/-- The loop of a shell is a session. -/
theorem sessionEnd_loop {pending : σ → List String} (hfeeds : Feeds nextLine pending)
    {lines : List String} {sh : Shell σ} (hlines : pending sh.system = lines)
    (hleaves : LeavesPending host factories nextLine pending sh) {n : Nat}
    (hn : lines.length < n) :
    ∃ executed unread, lines = executed ++ unread ∧
      SessionEnd host factories nextLine sh unread executed
        (sh.loop host factories nextLine n) := by
  -- The induction is on the lines that are still to be read, with the shell that reads them.
  induction lines generalizing sh n with
  | nil =>
    obtain ⟨n, rfl⟩ := Nat.exists_eq_add_one_of_ne_zero (Nat.ne_of_gt hn)
    rw [loop_endOfInput host factories (hfeeds.endOfInput sh.system hlines)]
    exact ⟨[], [], rfl, .endOfInput trivial rfl⟩
  | cons text rest ih =>
    obtain ⟨n, rfl⟩ := Nat.exists_eq_add_one_of_ne_zero (Nat.ne_of_gt (Nat.zero_lt_of_lt hn))
    obtain ⟨hline, -⟩ := hfeeds.line sh.system text rest hlines
    rw [loop_line host factories hline]
    rcases htaken : sh.takeLine host factories nextLine text with ⟨returns, next⟩
    dsimp only
    cases returns with
    | false =>
      have hended : SessionEnd host factories nextLine sh rest ([] ++ [text]) (.blocked, next) :=
        .blocked trivial htaken
      exact ⟨[text], rest, rfl, hended⟩
    | true =>
      cases hrequest : next.env.exitRequest with
      | some code =>
        have hended :
            SessionEnd host factories nextLine sh rest ([] ++ [text]) (.exited code, next) :=
          .exited trivial htaken hrequest
        exact ⟨[text], rest, rfl, hended⟩
      | none =>
        obtain ⟨hpending, hleaves'⟩ := hleaves.next hfeeds hlines htaken hrequest
        obtain ⟨executed, unread, rfl, hended⟩ :=
          ih hpending hleaves' (Nat.lt_of_succ_lt_succ hn)
        exact ⟨text :: executed, unread, rfl, hended.cons htaken hrequest⟩

/-- A line leaves the lines behind it to be read when neither an operation of the system nor a
command reads them. -/
theorem LeavesPending.of_keeps (nextLine : σ → LineRead × σ) {pending : σ → List String}
    (hhost : host.Keeps fun sh : Shell σ => pending sh.system)
    (hfactories : LeaveAlone host factories fun sh : Shell σ => pending sh.system) (sh : Shell σ) :
    LeavesPending host factories nextLine pending sh := by
  intro before text later _ _ passed
  exact (lineRun_takeLine host factories nextLine text _).pending_eq hhost hfactories

/-- The loop of a shell runs the lines that it is given, in order, up to the first one after which a
request to leave the shell is pending, and it gives the requested code; it runs all of them when
there is no such line, and gives 0. Nothing is started afterwards. Unless it is blank, each line
that is run is in the history before its pipeline is run, and the history keeps it, whatever comes
of it. A line that cannot be read as a pipeline changes nothing but the history, and there is one
report. A line that waits for ever is the last one. -/
theorem loop_session (host : Host σ η) (factories : List (Factory σ η))
    (nextLine : σ → LineRead × σ) (pending : σ → List String) (sh : Shell σ) (n : Nat)
    (hfeeds : Feeds nextLine pending)
    (hleaves : LeavesPending host factories nextLine pending sh)
    (hfactories : LeaveAlone host factories fun sh : Shell σ => sh.env.history)
    (hn : (pending sh.system).length < n) :
    let outcome := sh.loop host factories nextLine n
    (∀ text sh', LineRun host factories text sh' (sh'.runLine host factories text)) ∧
      ∃ executed unread, pending sh.system = executed ++ unread ∧
        SessionEnd host factories nextLine sh unread executed outcome ∧
        outcome.2.env.history.toList = sh.env.history.toList ++ remembered executed := by
  intro outcome
  obtain ⟨executed, unread, hlines, hended⟩ := sessionEnd_loop hfeeds rfl hleaves hn
  exact ⟨lineRun host factories, executed, unread, hlines, hended, hended.history_eq hfactories⟩

end

end

/-- A system that holds the lines to be read and what has been written. -/
def typewriter : Host (List String × ByteArray) Unit where
  terminal := ⟨(), (), ()⟩
  pipe s := (((), ()), s)
  openOutput _ _ s := (.ok (), s)
  write _ bytes s := (.ok (), s.1, s.2 ++ bytes)
  close _ s := s
  isFile _ _ := false
  isDirectory _ _ := true
  canonicalPath _ path := .ok path
  changeDirectory _ s := (.ok (), s)
  spawn _ _ s := (.error .notFound, s)

/-- The next of the lines that a typewriter holds. -/
def typedLine (s : List String × ByteArray) : LineRead × List String × ByteArray :=
  match s with
  | ([], written) => (.endOfInput, [], written)
  | (text :: rest, written) => (.line text, rest, written)

/-- A blank line, a line that cannot be read and one with an unknown name come before a request to
leave the shell. The line behind the request is not read. -/
theorem loop_session_exit :
    let lines := ["", "echo 'a", " nosuch ", "exit 3", "pwd"]
    let sh : Shell (List String × ByteArray) := ⟨.initial [] ⟨"/"⟩, lines, .empty⟩
    let factories := standardFactories typewriter
    let outcome := sh.loop typewriter factories typedLine 6
    outcome.1 = .exited 3 ∧
      outcome.2.env.history.toList = ["echo 'a", "nosuch", "exit 3"] ∧
      outcome.2.system = (["pwd"],
        "minish: unexpected end of input: unmatched '\nnosuch: command not found\n".toUTF8) ∧
      ∃ executed unread, lines = executed ++ unread ∧
        SessionEnd typewriter factories typedLine sh unread executed outcome := by
  intro lines sh factories outcome
  have hfeeds : Feeds typedLine Prod.fst := by
    refine ⟨fun s text rest hpending => ?_, fun s hpending => ?_⟩ <;>
      obtain ⟨pending, written⟩ := s <;> obtain rfl := hpending
    · exact ⟨rfl, rfl⟩
    · rfl
  have hhost : typewriter.Keeps fun sh : Shell (List String × ByteArray) => sh.system.1 := by
    constructor <;> intros <;> first | rfl | contradiction
  have hleaves := LeavesPending.of_keeps typedLine hhost (fun _ h => .inl h) sh
  obtain ⟨-, executed, unread, hlines, hended, -⟩ :=
    loop_session typewriter factories typedLine Prod.fst sh 6 hfeeds hleaves (fun _ h => .inl h)
      (by decide)
  exact ⟨by decide +kernel, by decide +kernel, by decide +kernel, executed, unread, hlines, hended⟩

end LineShell
