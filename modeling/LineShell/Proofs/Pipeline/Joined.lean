import LineShell.Proofs.Pipeline.Rows
import LineShell.Proofs.Token.Pieces

/-!
# Lines joined by a pipe

To write a pipe between two lines is to connect what they denote. The lexer carries nothing over
the pipe, neither a word nor a digit that could name a stream, unless the first line ends in a
backslash, which would take the pipe. The parser, in turn, never takes a word of the second line
for the file name that a redirection of the first line lacks.
-/

namespace LineShell

/-- The line that has a pipe between two lines. -/
def joined (first second : String) : String := first ++ "|" ++ second

/-- The tokens of two joined lines are those of both, with a pipe between them. -/
theorem tokenize_joined {first : String} {tokens : List Token}
    (hfirst : tokenize first = .ok tokens) (hlast : first.toList.getLast? ≠ some '\\')
    (second : String) :
    tokenize (joined first second) = withTokens (tokens ++ [.pipe]) (tokenize second) := by
  obtain ⟨last, hfinish, rfl⟩ := exists_finish_of_tokenize hfirst
  have hpipe : ("|" ++ second).toList = '|' :: second.toList := by simp
  rw [joined, String.append_assoc, tokenize_append, hpipe,
    LexState.read_pipe (LexState.takesNext_run hlast) hfinish, withTokens_withTokens,
    List.append_assoc, ← tokenizeChars_eq_read]
  rfl

/-- Rows that a pipe joins are a pipeline when their stages in a row are one. -/
theorem parsePipeline_pipe {first second : List Token} {before after : List Segment}
    (hfirst : stagesIn first = .ok before) (hsecond : stagesIn second = .ok after) :
    parsePipeline (first ++ .pipe :: second) = Pipeline.ofStages (before ++ after) := by
  rw [parsePipeline_eq_ofStages, stagesIn_pipe, hfirst, hsecond]
  rfl

/-- A pipeline whose stages have redirections has them at its last stage. -/
theorem Pipeline.exists_last_redirected {p : Pipeline} {segment : Segment}
    (hlast : ∀ segment ∈ p.segments.dropLast, segment.redirections = [])
    (hsegment : segment ∈ p.segments) (hredirected : segment.redirections ≠ []) :
    p.segments = p.segments.dropLast ++ [segment] := by
  have hne : p.segments ≠ [] := List.ne_nil_of_mem hsegment
  have hsplit := List.dropLast_concat_getLast hne
  rw [← hsplit] at hsegment
  rcases List.mem_append.mp hsegment with hbefore | hend
  · exact absurd (hlast segment hbefore) hredirected
  · rw [List.mem_singleton.mp hend, hsplit]

/-- A pipe between two lines connects what they denote. The tokens are those of both lines with a
pipe between them; an open quotation of the second line is the error of the joined line. Two
pipelines are joined stage by stage, unless the first one is redirected: then its last command is
reported. A first line in which a name or a file is missing gives the same error when it is
joined to anything that can be split into tokens. -/
theorem parseLine_joined {first : String} {tokens : List Token}
    (hfirst : tokenize first = .ok tokens) (hlast : first.toList.getLast? ≠ some '\\')
    (second : String) :
    tokenize (joined first second) = (tokenize second).map (fun more => tokens ++ .pipe :: more) ∧
      (∀ p q, parseLine first = .ok p → parseLine second = .ok q →
        (∀ segment ∈ p.segments, segment.redirections = []) →
          parseLine (joined first second) = .ok ⟨p.segments ++ q.segments⟩) ∧
      (∀ p q, parseLine first = .ok p → parseLine second = .ok q →
        (∃ segment ∈ p.segments, segment.redirections ≠ []) →
          ∃ last, p.last? = some last ∧
            parseLine (joined first second) =
              .error (.parsing (.redirectionNotLast last.name))) ∧
      ∀ e more, parseLine first = .error (.parsing e) →
        e = .noCommand ∨ e = .missingRedirectTarget → tokenize second = .ok more →
          parseLine (joined first second) = .error (.parsing e) := by
  have htokens : tokenize (joined first second) =
      (tokenize second).map (fun more => tokens ++ .pipe :: more) := by
    rw [tokenize_joined hfirst hlast, withTokens]
    simp only [List.append_assoc, List.singleton_append]
  have hjoined {more : List Token} (hsecond : tokenize second = .ok more) :
      parseLine (joined first second) =
        (parsePipeline (tokens ++ .pipe :: more)).mapError .parsing := by
    apply parseLine_of_tokenize
    rw [htokens, hsecond]
    rfl
  have hstages {p q : Pipeline} (hp : parseLine first = .ok p) (hq : parseLine second = .ok q) :
      ∃ more, tokenize second = .ok more ∧
        parsePipeline (tokens ++ .pipe :: more) = Pipeline.ofStages (p.segments ++ q.segments) ∧
        (∀ segment ∈ p.segments.dropLast, segment.redirections = []) ∧
        Pipeline.ofStages q.segments = .ok q ∧ q.segments ≠ [] := by
    obtain ⟨_, hsame, hreadFirst⟩ := parseLine_eq_ok_iff.mp hp
    obtain rfl := Except.ok.inj (hfirst.symm.trans hsame)
    obtain ⟨more, hsecond, hreadSecond⟩ := parseLine_eq_ok_iff.mp hq
    obtain ⟨hbefore, hinner⟩ := parsePipeline_eq_ok_iff.mp hreadFirst
    obtain ⟨hafter, -⟩ := parsePipeline_eq_ok_iff.mp hreadSecond
    have hok : Pipeline.ofStages q.segments = .ok q := by
      rw [parsePipeline_eq_ofStages, hafter] at hreadSecond
      exact hreadSecond
    have hne : q.segments ≠ [] := (Pipeline.wellFormed_of_parsePipeline hreadSecond).segments_ne_nil
    exact ⟨more, hsecond, parsePipeline_pipe hbefore hafter, hinner, hok, hne⟩
  refine ⟨htokens, ?_, ?_, ?_⟩
  · intro p q hp hq hplain
    obtain ⟨more, hsecond, hparse, -, hok, hne⟩ := hstages hp hq
    rw [hjoined hsecond, hparse, Pipeline.ofStages_append hne hplain, hok]
    rfl
  · rintro p q hp hq ⟨segment, hsegment, hredirected⟩
    obtain ⟨more, hsecond, hparse, hinner, -, hne⟩ := hstages hp hq
    have hsegments := Pipeline.exists_last_redirected hinner hsegment hredirected
    refine ⟨segment, ?_, ?_⟩
    · rw [Pipeline.last?, hsegments, List.getLast?_concat]
    · rw [hjoined hsecond, hparse, hsegments, Pipeline.ofStages_redirected hne hinner hredirected]
      rfl
  · intro e more herror hkind hsecond
    have hread := parsePipeline_eq_error hfirst herror
    have hstages : stagesIn tokens = .error e := by
      apply stagesIn_eq_error hread
      rintro name rfl
      rcases hkind with h | h <;> cases h
    rw [hjoined hsecond, parsePipeline_eq_ofStages, stagesIn_pipe, hstages]
    rfl

/-- A digit at the end of the first line stays a word, and the redirection of the second line stays
that of its own command. -/
theorem parseLine_joined_digit :
    parseLine (joined "echo 2" "cat >f") =
      .ok ⟨[⟨"echo", ["2"], []⟩, ⟨"cat", [], [⟨.truncate, .stdout, ⟨"f"⟩⟩]⟩]⟩ := by
  have hfirst : tokenize "echo 2" = .ok [.literal "echo", .space, .literal "2"] := rfl
  have hlast : "echo 2".toList.getLast? ≠ some '\\' := by decide
  have hp : parseLine "echo 2" = .ok ⟨[⟨"echo", ["2"], []⟩]⟩ :=
    parseLine_eq_ok_of_toOption (by decide +kernel)
  have hq : parseLine "cat >f" = .ok ⟨[⟨"cat", [], [⟨.truncate, .stdout, ⟨"f"⟩⟩]⟩]⟩ :=
    parseLine_eq_ok_of_toOption (by decide +kernel)
  exact (parseLine_joined hfirst hlast "cat >f").2.1 _ _ hp hq (by decide)

end LineShell
