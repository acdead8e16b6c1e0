import LineShell.Machine.Host
import LineShell.Proofs.Pipeline.Renaming
import LineShell.Proofs.Shell.Classification
import LineShell.Proofs.Shell.EchoLine

/-!
# The spacing of echo

A stage that calls echo has the words that it would have under any other name, with a single space
between each two of them. Echo writes its arguments back to back, so that the words appear with one
space between each two, whatever stands between them in the row.
-/

namespace LineShell

section

variable {σ η : Type}

/-- A call of echo with arguments writes this line, and nothing else but a complaint when the line
cannot be written. -/
structure EchoesLine (host : Host σ η) (args : List String) (line : String) : Prop where
  /-- The line is the first thing that is written, and a complaint is all that may follow. -/
  shows (env : Environment) (s : σ) (streams : Streams η) : ∃ complaints,
    startTrace host env s "echo" args streams = .wroteLine streams.stdout line :: complaints ∧
      ∀ event ∈ complaints, ∃ e : SystemError,
        event = .wroteLine streams.stderr ("echo: " ++ e.message)
  /-- When the line has been written, the call is done and has done nothing else. -/
  finishes (env : Environment) (s s' : σ) (streams : Streams η)
    (hwrite : host.write streams.stdout (line.push '\n').toUTF8 s = (.ok (), s')) :
    (Command.create host (standardFactories host) env s "echo" args).start streams env s =
      (.ok (.finished 0), env, s')

/-- A call of echo writes its arguments back to back. -/
theorem echoesLine_join (host : Host σ η) (args : List String) :
    EchoesLine host args (String.join args) where
  shows env s streams := by
    have hcreate : Command.create host.traced (standardFactories host.traced) env (s, []) "echo"
        args = Builtin.command host.traced .echo args :=
      Command.create_of_ofName? host.traced rfl env (s, []) args
    rw [startTrace, hcreate]
    exact trace_writing host .echo streams.stdout (String.join args) streams env s _ fun _ => rfl
  finishes env s s' streams hwrite := by
    have hcreate : Command.create host (standardFactories host) env s "echo" args =
        Builtin.command host .echo args :=
      Command.create_of_ofName? host rfl env s args
    rw [hcreate, Builtin.start_echo streams env hwrite]

/-- There is no separator in front of the first word. -/
theorem head?_intersperse {α : Type} (separator : α) (words : List α) :
    (words.intersperse separator).head? = words.head? := by
  match words with
  | [] => rfl
  | [_] => rfl
  | _ :: _ :: _ => rfl

/-- There is no separator behind the last word. -/
theorem getLast?_intersperse {α : Type} (separator : α) (words : List α) :
    (words.intersperse separator).getLast? = words.getLast? := by
  rcases List.eq_nil_or_concat words with rfl | ⟨front, last, rfl⟩
  · rfl
  · by_cases hfront : front = []
    · subst hfront
      rfl
    · rw [List.concat_eq_append, intersperse_append_singleton separator last hfront,
        List.getLast?_append, List.getLast?_append]
      rfl

/-- A row in which a stage calls echo is compared with the row in which the stage has another name.
Both are refused with the same error, up to the name of the stage that is redirected and not the
last one; or both are parsed, and then all other stages are the same, and so are the redirections of
this one. The arguments of echo are the words that the other command has as its arguments, with a
single space between each two and none at the ends. The line that echo writes consists of these
words joined by spaces. -/
theorem parsePipeline_rename_echo (host : Host σ η) {tokens chunk : List Token}
    {before after : List (List Token)} (hchunks : tokens.splitOn .pipe = before ++ chunk :: after)
    (hecho : commandName? chunk = some "echo") {texts : List String}
    (hname : String.join texts ≠ "") (hother : String.join texts ≠ "echo") :
    let renamed := [Token.pipe].intercalate (before ++ rename texts chunk :: after)
    match parsePipeline tokens, parsePipeline renamed with
    | .error e, .error e' =>
      e' = e ∨ e = .redirectionNotLast "echo" ∧ e' = .redirectionNotLast (String.join texts)
    | .ok p, .ok q => ∃ front words redirections back,
      p.segments = front ++ ⟨"echo", words.intersperse " ", redirections⟩ :: back ∧
        q.segments = front ++ ⟨String.join texts, words, redirections⟩ :: back ∧
        front.length = before.length ∧ back.length = after.length ∧
        (words.intersperse " ").head? = words.head? ∧
        (words.intersperse " ").getLast? = words.getLast? ∧
        EchoesLine host (words.intersperse " ") (" ".intercalate words)
    | _, _ => False := by
  intro renamed
  rcases parsePipeline_rename hchunks hecho (by decide) hname with
    ⟨e, e', htokens, hrenamed, hsame⟩ |
      ⟨front, words, redirections, back, hfront, hback, htokens, hrenamed⟩
  · rw [htokens, hrenamed]
    exact hsame
  · have hplain : (String.join texts == "echo") = false := beq_eq_false_iff_ne.mpr hother
    have hwrites := echoesLine_join host (words.intersperse " ")
    rw [join_intersperse] at hwrites
    rw [htokens, hrenamed]
    refine ⟨front, words, redirections, back, rfl, ?_, hfront, hback, head?_intersperse " " words,
      getLast?_intersperse " " words, hwrites⟩
    simp only [Segment.ofWords, hplain, spaced, Bool.false_eq_true, if_false]

/-- The words of a call of echo, of which one is empty, on both sides of a redirection. -/
def echoChunk : List Token :=
  [.space, .literal "ec", .literal "ho", .space, .literal "a", .redirect .append "stderr", .space,
    .literal "log", .space, .literal "", .space, .redirect .truncate "stdout", .literal "out",
    .space, .space, .literal "b", .literal "c", .space]

/-- The words are written with one space between each two, whatever is redirected between them. -/
theorem parsePipeline_rename_echo_redirected :
    let tokens := [.literal "true", .pipe] ++ echoChunk
    let renamed := [.literal "true", .pipe] ++ rename ["p", "r"] echoChunk
    let redirections : List Redirection :=
      [⟨.append, .stderr, ⟨"log"⟩⟩, ⟨.truncate, .stdout, ⟨"out"⟩⟩]
    (tokens.splitOn .pipe = [[.literal "true"]] ++ echoChunk :: [] ∧
        commandName? echoChunk = some "echo" ∧ String.join ["p", "r"] ≠ "" ∧
        String.join ["p", "r"] ≠ "echo") ∧
      parsePipeline tokens =
        .ok ⟨[⟨"true", [], []⟩, ⟨"echo", ["a", " ", "", " ", "bc"], redirections⟩]⟩ ∧
      parsePipeline renamed = .ok ⟨[⟨"true", [], []⟩, ⟨"pr", ["a", "", "bc"], redirections⟩]⟩ ∧
      EchoesLine (Machine.host ⟨0, 1, 2⟩) ["a", " ", "", " ", "bc"] "a  bc" := by
  intro tokens renamed redirections
  have hchunks : tokens.splitOn .pipe = [[.literal "true"]] ++ echoChunk :: [] := by decide +kernel
  have hecho : commandName? echoChunk = some "echo" := by decide +kernel
  have hname : String.join ["p", "r"] ≠ "" := by decide
  have hother : String.join ["p", "r"] ≠ "echo" := by decide
  have htokens : parsePipeline tokens =
      .ok ⟨[⟨"true", [], []⟩, ⟨"echo", ["a", " ", "", " ", "bc"], redirections⟩]⟩ :=
    eq_ok_of_toOption (by decide +kernel)
  have hrenamed : parsePipeline renamed =
      .ok ⟨[⟨"true", [], []⟩, ⟨"pr", ["a", "", "bc"], redirections⟩]⟩ :=
    eq_ok_of_toOption (by decide +kernel)
  refine ⟨⟨hchunks, hecho, hname, hother⟩, htokens, hrenamed, ?_⟩
  have hrow : [Token.pipe].intercalate ([[.literal "true"]] ++ rename ["p", "r"] echoChunk :: []) =
      renamed := by
    decide +kernel
  have hcompared := parsePipeline_rename_echo (Machine.host ⟨0, 1, 2⟩) hchunks hecho hname hother
  simp only [hrow, htokens, hrenamed] at hcompared
  obtain ⟨front, words, others, back, -, hstages, hfront, -, -, -, hwrites⟩ := hcompared
  obtain ⟨first, rfl⟩ := List.length_eq_one_iff.mp hfront
  have hstage := List.head_eq_of_cons_eq (List.tail_eq_of_cons_eq hstages)
  have hwords : ["a", "", "bc"] = words := congrArg Segment.args hstage
  have hline : " ".intercalate ["a", "", "bc"] = "a  bc" := by decide +kernel
  rw [← hwords, hline] at hwrites
  exact hwrites

end

end LineShell
