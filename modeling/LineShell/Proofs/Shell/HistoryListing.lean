import LineShell.Proofs.Pipeline.QuotedStart
import LineShell.Proofs.Pipeline.Spelling
import LineShell.Proofs.Shell.FileContents
import LineShell.Proofs.Shell.Prescription
import LineShell.Proofs.Shell.Session
import LineShell.Proofs.Text.Basic

/-!
# Listing the history

A listing shows the lines that were entered, each behind its number. It is run when its own line has
been entered, so that this line is the last one that it shows. Numbers are positions in the whole
history, which only ever grows at its end.
-/

namespace LineShell

/-! ## Lines that call for a listing -/

/-- A name and a word behind a space, without characters that have a meaning of their own, are a
stage of this name with the word as its only operand. -/
theorem denotes_call {name word : String} (hname : name ≠ "") (hnamePlain : IsPlain name)
    (hword : word ≠ "") (hwordPlain : IsPlain word) :
    Denotes (name ++ (" " ++ word)) ⟨[⟨name, [word], []⟩]⟩ := by
  have hempty : Completes "" [] := by
    intro rest _ _
    rw [String.empty_append, tokenize, tokenizeChars_eq_read, withTokens_nil]
  have hstream : ¬NamesStream word "" := by
    rintro ⟨-, hoperator | hoperator⟩
    · cases List.prefix_nil.mp hoperator
    · cases List.prefix_nil.mp hoperator
  have hread : LexState.normal.read word.toList = .ok [.literal word] := by
    have hends := LexState.read_plain_word hword hwordPlain hstream
    rw [String.toList_empty, List.append_nil] at hends
    rw [hends]
    rfl
  have hhead := hwordPlain.head?_ne hword ""
  rw [String.append_empty] at hhead
  have htokens := tokenize_plain_space hempty hname hnamePlain hhead
  rw [String.empty_append, hread, withTokens_ok] at htokens
  refine ⟨_, htokens, ?_⟩
  have hjoin : String.join [word] = word := by simp
  have hparse := parsePipeline_word hname (List.cons_ne_nil word [])
  rw [hjoin] at hparse
  exact hparse

/-- Digits and the plus sign are neither blanks nor do they have a meaning of their own. -/
theorem notBlank_notSpecial {c : Char} (h : c.isDigit = true ∨ c = '+') :
    Text.isBlank c = false ∧ c ∉ LexState.specialChars := by
  have hrange : 43 ≤ c.toNat ∧ c.toNat ≤ 57 := by
    rcases h with h | rfl
    · have hdigit : 48 ≤ c.toNat ∧ c.toNat ≤ 57 := by
        simpa [Char.isDigit, UInt32.le_iff_toNat_le] using h
      omega
    · decide
  constructor
  · simp only [Text.isBlank, Bool.or_eq_false_iff, Bool.and_eq_false_imp, decide_eq_true_eq,
      decide_eq_false_iff_not, beq_eq_false_iff_ne]
    omega
  · intro hspecial
    simp only [LexState.specialChars, List.mem_cons, List.not_mem_nil, or_false] at hspecial
    rcases hspecial with rfl | rfl | rfl | rfl | rfl | rfl <;> exact absurd hrange (by decide)

/-- A text calls for a listing of the history with a limit. -/
structure CallsForListing (text : String) (limit : Option Nat) : Prop where
  denotes : ∃ words, HistoryOperand words limit ∧
    Denotes (Text.trim text) ⟨[⟨"history", words, []⟩]⟩

/-- The name of the builtin calls for a listing without a limit. -/
theorem callsForListing_all : CallsForListing "history" none :=
  ⟨[], .none, parseLine_eq_ok_iff.mp (parseLine_eq_ok_of_toOption (by decide +kernel))⟩

/-- The name of the builtin and a count call for a listing with this limit. -/
theorem callsForListing_limit {word : String} {limit : Nat}
    (hcount : Text.StandsForCount word.toList limit) (hhigh : limit < UInt64.size) :
    CallsForListing ("history " ++ word) (some limit) := by
  obtain ⟨⟨last, hlast⟩, hchars⟩ := hcount.isDigit_or_eq
  have hword : word ≠ "" := by
    rintro rfl
    cases hlast
  have hplain : IsPlain word := fun c hc => (notBlank_notSpecial (hchars c hc)).2
  have htrimmed : Text.IsTrimmed ("history " ++ word) := by
    refine ⟨fun c hc => ?_, fun c hc => ?_⟩
    · have hfirst : ("history " ++ word).toList.head? = some 'h' := by
        rw [String.toList_append]
        rfl
      obtain rfl : 'h' = c := Option.some.inj (hfirst.symm.trans hc)
      rfl
    · rw [String.toList_append, List.getLast?_append, hlast, Option.some_or] at hc
      obtain rfl : last = c := Option.some.inj hc
      exact (notBlank_notSpecial (hchars last (List.mem_of_getLast? hlast))).1
  refine ⟨[word], .word hcount hhigh, ?_⟩
  have hspace : "history " = "history" ++ " " := rfl
  rw [htrimmed.trim_eq, hspace, String.append_assoc]
  exact denotes_call (by decide) (by decide) hword hplain

/-! ## What is in the history -/

section

variable {σ η : Type}

/-- Running a line leaves the same environment whether or not an error is reported. -/
theorem Shell.env_runLine (host : Host σ η) (factories : List (Factory σ η)) (text : String)
    (sh : Shell σ) :
    (sh.runLine host factories text).2.env = (sh.executeLine host factories text).2.env := by
  rw [Shell.runLine]
  rcases sh.executeLine host factories text with ⟨result, after⟩
  cases result with
  | ok code => rfl
  | error e => cases e <;> rfl

/-- Lines that are run go into the history, one after the other, unless they are blank. -/
theorem history_executeLines (host : Host σ η) (lines : List String) (sh : Shell σ) :
    (Shell.executeLines host (standardFactories host) lines sh).2.env.history.toList =
      sh.env.history.toList ++ remembered lines := by
  induction lines generalizing sh with
  | nil => exact (List.append_nil _).symm
  | cons text rest ih =>
    have hline := (lineRun host (standardFactories host) text sh).history_eq fun _ h => .inl h
    rw [Shell.env_runLine] at hline
    simp only [Shell.executeLines]
    rw [ih, hline, List.append_assoc, ← remembered_append, List.singleton_append]

/-- A line that calls for a listing goes into the history, and nothing else of it does. -/
theorem CallsForListing.remembered_eq {text : String} {limit : Option Nat}
    (h : CallsForListing text limit) : remembered [text] = [Text.trim text] := by
  obtain ⟨words, -, hdenotes⟩ := h.denotes
  simp [remembered, hdenotes.ne_empty]

/-- A line that calls for a listing lists the history to which it belongs itself. -/
theorem CallsForListing.executeLine_eq {text : String} {limit : Option Nat}
    (h : CallsForListing text limit) (host : Host σ η) {sh : Shell σ} {shown : List String}
    (hshown : Lists (sh.env.history.toList ++ [Text.trim text]) limit shown) {s' : σ}
    (hwritten : host.writeLines host.terminal.stdout shown sh.system = (.ok (), s')) :
    sh.executeLine host (standardFactories host) text =
      (.ok (sh.env.exitRequest.getD 0), ⟨(sh.remember (Text.trim text)).env, s'⟩) := by
  obtain ⟨words, hoperand, hdenotes⟩ := h.denotes
  have hlisting : Lists (sh.remember (Text.trim text)).env.history.toList limit shown := by
    have hpush : (sh.remember (Text.trim text)).env.history.toList =
        sh.env.history.toList ++ [Text.trim text] := Array.toList_push
    rwa [hpush]
  have hstart := (delivers_history host.terminal (sh.remember (Text.trim text)) hoperand hlisting
    sh.system).eq_of_said (.complaints hwritten) rfl
  rw [hdenotes.executeLine_eq]
  exact executePipeline_single hstart

/-- A listing shows the last entries of the whole history, up to its limit. These are the entries
from before the lines that have been run, these lines, and the line for the listing itself. It shows
each of them behind its position, so that the last line has the number of all entries. A smaller
limit shows the end of what a larger one shows, apart from the lines for the listings themselves.
Lines that are run later leave all numbers as they are. The name of the builtin calls for a listing
of all entries, and a number behind it is the limit. -/
theorem history_listed (host : Host σ η) (sh : Shell σ) (lines : List String) {text : String}
    {limit : Option Nat} (hcalls : CallsForListing text limit) :
    let run (lines : List String) :=
      (Shell.executeLines host (standardFactories host) lines sh).2
    let past := sh.env.history.toList ++ remembered lines
    let full := past ++ [Text.trim text]
    ∃ shown, Lists full limit shown ∧
      (∀ s', host.writeLines host.terminal.stdout shown (run lines).system = (.ok (), s') →
        (run lines).executeLine host (standardFactories host) text =
          (.ok ((run lines).env.exitRequest.getD 0),
            ⟨((run lines).remember (Text.trim text)).env, s'⟩)) ∧
      (∀ i, shown[i]? = full[full.length - shown.length + i]?.map fun entry =>
        toString (full.length - shown.length + i + 1) ++ " " ++ entry) ∧
      (shown ≠ [] → shown.getLast? = some (toString full.length ++ " " ++ Text.trim text)) ∧
      (∀ otherLimit others, LimitLE limit otherLimit → Lists full otherLimit others →
        shown <:+ others) ∧
      (∀ other otherLimit others, LimitLE limit otherLimit →
        Lists (past ++ [Text.trim other]) otherLimit others →
          shown.dropLast <:+ others.dropLast) ∧
      (∀ later, numbered full <+: numbered (run (lines ++ text :: later)).env.history.toList) ∧
      CallsForListing "history" none ∧
      ∀ k < UInt64.size, CallsForListing ("history " ++ toString k) (some k) := by
  intro run past full
  have hshown := lists_drop full limit
  refine ⟨_, hshown, ?_, hshown.getElem?_eq, ?_, ?_, ?_, ?_, callsForListing_all,
    fun k hk => callsForListing_limit (Text.standsForCount_toString k) hk⟩
  · intro s' hwritten
    have hpast : (run lines).env.history.toList = past := history_executeLines host lines sh
    exact hcalls.executeLine_eq host (by rwa [hpast]) hwritten
  · intro hne
    rw [hshown.getLast?_eq hne, List.getLast?_concat, Option.map_some]
  · intro otherLimit others hle hothers
    exact hshown.isSuffix_of_limitLE hothers hle
  · intro other otherLimit others hle hothers
    exact hshown.dropLast.isSuffix_of_limitLE hothers.dropLast hle.pred
  · intro later
    have hlater : (run (lines ++ text :: later)).env.history.toList = full ++ remembered later := by
      rw [history_executeLines, remembered_append, ← List.singleton_append, remembered_append,
        hcalls.remembered_eq]
      simp only [full, past, List.append_assoc]
    rw [hlater]
    exact numbered_append full (remembered later)

end

/-- A shell at a typewriter, with one line in its history. -/
def typist : Shell (List String × ByteArray) :=
  ⟨{ Environment.initial [] ⟨"/"⟩ with history := ⟨#["pwd"]⟩ }, [], .empty⟩

/-- A blank line, a line that cannot be read, and a line with an unknown name. -/
def typedLines : List String := ["", "echo \x27a", " nosuch "]

/-- Of the lines that come before a call for two entries, the last one is shown. -/
theorem history_listed_two :
    let after := (Shell.executeLines typewriter (standardFactories typewriter) typedLines typist).2
    let outcome := after.executeLine typewriter (standardFactories typewriter) "history 2"
    CallsForListing "history 2" (some 2) ∧
      outcome = (.ok 0, ⟨(after.remember "history 2").env, [],
        "nosuch: command not found\n3 nosuch\n4 history 2\n".toUTF8⟩) := by
  intro after outcome
  have hcalls : CallsForListing "history 2" (some 2) :=
    callsForListing_limit (Text.standsForCount_toString 2) (by decide)
  obtain ⟨shown, hshown, hwritten, -⟩ := history_listed typewriter typist typedLines hcalls
  have hlisting : Lists (typist.env.history.toList ++ remembered typedLines ++
      [Text.trim "history 2"]) (some 2) ["3 nosuch", "4 history 2"] :=
    ⟨⟨["1 pwd", "2 echo \x27a"], by decide +kernel⟩, by decide +kernel⟩
  obtain rfl := hlisting.unique hshown
  have houtput : typewriter.writeLines typewriter.terminal.stdout ["3 nosuch", "4 history 2"]
      (Shell.executeLines typewriter (standardFactories typewriter) typedLines typist).2.system =
      (.ok (), [], "nosuch: command not found\n3 nosuch\n4 history 2\n".toUTF8) := by
    decide +kernel
  have hrequest : (Shell.executeLines typewriter (standardFactories typewriter) typedLines
    typist).2.env.exitRequest = none := by decide +kernel
  have htrim : Text.trim "history 2" = "history 2" := by decide +kernel
  have houtcome := hwritten _ houtput
  rw [hrequest, htrim] at houtcome
  exact ⟨hcalls, houtcome⟩

end LineShell
