import LineShell.Proofs.Shell.Prescription
import LineShell.Proofs.Shell.Stages

/-!
# Words as operands

The words of a builtin are operands, whatever they look like: only their number decides whether the
builtin takes them. The operand of an exit has to be a signed 32-bit integer and that of a listing
an unsigned 64-bit count, in any decimal form. Every other word is refused, and nothing comes of the
call but the complaint.
-/

namespace LineShell

/-- The operands of a call. -/
def BuiltinCall.words : BuiltinCall → List String
  | exit operand | type operand | cd operand | history operand => operand.toList
  | echo words => words
  | pwd => []

/-- A call with one operand at most takes the words that are its operand. -/
theorem BuiltinCall.singleOperand_eq_ok_iff {make : Option String → BuiltinCall}
    {words : List String} {call : BuiltinCall} :
    singleOperand make words = .ok call ↔
      ∃ operand : Option String, operand.toList = words ∧ make operand = call := by
  constructor
  · intro h
    match words with
    | [] => exact ⟨none, rfl, Except.ok.inj h⟩
    | [word] => exact ⟨some word, rfl, Except.ok.inj h⟩
    | _ :: _ :: _ => cases h
  · rintro ⟨operand, rfl, rfl⟩
    exact singleOperand_toList make operand

/-- A builtin makes of its words the one call of itself that has them as operands. -/
theorem BuiltinCall.ofWords_eq_ok_iff {b : Builtin} {words : List String} {call : BuiltinCall} :
    ofWords b words = .ok call ↔ call.builtin = b ∧ call.words = words := by
  cases b with
  | echo => cases call <;> simp [ofWords, builtin, BuiltinCall.words, eq_comm]
  | pwd => cases call <;> cases words <;> simp [ofWords, builtin, BuiltinCall.words]
  | _ =>
    rw [ofWords, singleOperand_eq_ok_iff]
    cases call <;> simp [builtin, BuiltinCall.words]

/-- A builtin has a call for any words that are not too many. -/
theorem BuiltinCall.exists_ofWords {b : Builtin} {words : List String}
    (hfew : ∀ bound, b.maxWords? = some bound → words.length ≤ bound) :
    ∃ call, ofWords b words = .ok call := by
  cases b with
  | echo => exact ⟨_, rfl⟩
  | pwd =>
    obtain rfl := List.length_eq_zero_iff.mp (Nat.le_zero.mp (hfew 0 rfl))
    exact ⟨_, rfl⟩
  | _ =>
    match words, hfew 1 rfl with
    | [], _ => exact ⟨_, rfl⟩
    | [_], _ => exact ⟨_, rfl⟩

section

variable {σ η : Type}

/-- A request for a code is pending after an exit exactly when the word asks for the code. -/
theorem exitRequest_start_exit_iff (host : Host σ η) (streams : Streams η) (origin : Shell σ)
    (word : String) {env : Environment} (henv : env.exitRequest = none) (s : σ) (code : ExitCode) :
    ((Command.create host (standardFactories host) origin.env origin.system "exit" [word]).start
        streams env s).2.1.exitRequest = some code ↔ ExitOperand [word] code := by
  constructor
  · intro hrequest
    by_cases hasked : ∃ asked, ExitOperand [word] asked
    · obtain ⟨asked, hasked⟩ := hasked
      rw [start_exit host streams origin hasked env s] at hrequest
      obtain rfl : asked = code := Option.some.inj hrequest
      exact hasked
    · have hrefused : Delivers host streams "exit" _ _ :=
        delivers_exitRefused streams origin (not_exists.mp hasked) env s
      rw [hrefused.env_eq] at hrequest
      cases henv.symm.trans hrequest
  · intro hasked
    rw [start_exit host streams origin hasked env s]
    rfl

/-- Words are operands, and numeric ones are read in full. An exit with a word requests a code
exactly when the word stands for it and it is a signed 32-bit integer, and a listing with a word has
the limit for which the word stands as an unsigned 64-bit count. Any other word leads to nothing but
a complaint. So an exit with the decimal form of a code ends with it. Words of any look are the
operands of a call, unless there are too many. -/
theorem numericOperand_read (host : Host σ η) (origin : Shell σ) :
    (∀ (word : String) (streams : Streams η) (env : Environment) (s : σ),
      let start (name : String) :=
        (Command.create host (standardFactories host) origin.env origin.system name [word]).start
          streams env s
      (∀ code, ExitOperand [word] code →
        start "exit" = (.ok (.finished code), env.requestExit code, s)) ∧
      ((∀ code, ¬ExitOperand [word] code) → Delivers host streams "exit"
        (.complains ("exit: " ++ word ++ ": numeric argument required") 1 env s) (start "exit")) ∧
      (env.exitRequest = none →
        ∀ code, (start "exit").2.1.exitRequest = some code ↔ ExitOperand [word] code) ∧
      (∀ limit lines, HistoryOperand [word] (some limit) →
        Lists env.history.toList (some limit) lines →
          Delivers host streams "history" (.shows lines env s) (start "history")) ∧
      ((∀ limit, ¬HistoryOperand [word] limit) → Delivers host streams "history"
        (.complains ("history: " ++ word ++ ": numeric argument required") 1 env s)
        (start "history"))) ∧
    (∀ n : Int, -2147483648 ≤ n → n ≤ 2147483647 →
      origin.executePipeline host (standardFactories host) ⟨[⟨"exit", [toString n], []⟩]⟩ =
        (.ok n, ⟨origin.env.requestExit n, origin.system⟩)) ∧
    ∀ (b : Builtin) (words : List String),
      (∀ bound, b.maxWords? = some bound → words.length ≤ bound) →
        ∃ call : BuiltinCall, call.builtin = b ∧ call.words = words ∧
          (Command.create host (standardFactories host) origin.env origin.system b.name
            words).start = call.run host := by
  refine ⟨fun word streams env s => ⟨?_, ?_, ?_, ?_, ?_⟩, ?_, ?_⟩
  · exact fun code hasked => start_exit host streams origin hasked env s
  · exact fun hrefused => delivers_exitRefused streams origin hrefused env s
  · exact fun henv => exitRequest_start_exit_iff host streams origin word henv s
  · exact fun limit lines hasked hlisting => delivers_history streams origin hasked hlisting s
  · exact fun hrefused => delivers_historyRefused streams origin hrefused env s
  · intro n hlow hhigh
    have hasked : ExitOperand [toString n] n := .word (Text.standsFor_toString n) hlow hhigh
    exact executePipeline_single (start_exit host host.terminal origin hasked origin.env _)
  · intro b words hfew
    obtain ⟨call, hcall⟩ := BuiltinCall.exists_ofWords hfew
    obtain ⟨rfl, hwords⟩ := BuiltinCall.ofWords_eq_ok_iff.mp hcall
    exact ⟨call, rfl, hwords, Command.start_of_ofWords host hcall _ _⟩

end

/-- A plus sign and leading zeros may stand in front of a code and of a limit, a minus sign only in
front of a code. Words that look like options are refused as operands. -/
theorem numericOperand_read_signs :
    let env : Environment :=
      { Environment.initial [] ⟨"/"⟩ with history := ⟨#["one", "two", "three"]⟩ }
    let sh : Shell (Path × List ByteArray) := ⟨env, ⟨"/"⟩, []⟩
    let start (name word : String) :=
      (Command.create courtyard (standardFactories courtyard) env sh.system name [word]).start
        courtyard.terminal env sh.system
    start "exit" "+007" = (.ok (.finished 7), env.requestExit 7, sh.system) ∧
      Delivers courtyard courtyard.terminal "exit"
        (.complains "exit: --help: numeric argument required" 1 env sh.system)
        (start "exit" "--help") ∧
      Delivers courtyard courtyard.terminal "history"
        (.shows ["2 two", "3 three"] env sh.system) (start "history" "+02") ∧
      Delivers courtyard courtyard.terminal "history"
        (.complains "history: -0: numeric argument required" 1 env sh.system)
        (start "history" "-0") ∧
      sh.executePipeline courtyard (standardFactories courtyard)
          ⟨[⟨"exit", ["-2147483648"], []⟩]⟩ =
        (.ok (-2147483648), ⟨env.requestExit (-2147483648), sh.system⟩) := by
  intro env sh start
  have hread := numericOperand_read courtyard sh
  obtain ⟨hexit, -⟩ := hread.1 "+007" courtyard.terminal env sh.system
  obtain ⟨-, hrefused, -⟩ := hread.1 "--help" courtyard.terminal env sh.system
  obtain ⟨-, -, -, hlisted, -⟩ := hread.1 "+02" courtyard.terminal env sh.system
  obtain ⟨-, -, -, -, hnoLimit⟩ := hread.1 "-0" courtyard.terminal env sh.system
  have hcode : ExitOperand (some "+007").toList 7 := BuiltinCall.exitCode?_eq_ok_iff.mp rfl
  have hlimit : HistoryOperand (some "+02").toList (some 2) := BuiltinCall.limit?_eq_ok_iff.mp rfl
  have hlists : Lists env.history.toList (some 2) ["2 two", "3 three"] :=
    ⟨⟨["1 one"], by decide +kernel⟩, rfl⟩
  refine ⟨hexit 7 hcode, hrefused ?_, hlisted 2 _ hlimit hlists, hnoLimit ?_, ?_⟩
  · intro code hcode
    have hoperand : ExitOperand (some "--help").toList code := hcode
    cases BuiltinCall.exitCode?_eq_ok_iff.mpr hoperand
  · intro limit hlimit
    have hoperand : HistoryOperand (some "-0").toList limit := hlimit
    cases BuiltinCall.limit?_eq_ok_iff.mpr hoperand
  · exact hread.2.1 (-2147483648) (by decide) (by decide)

end LineShell
