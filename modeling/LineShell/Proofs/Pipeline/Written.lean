import LineShell.Proofs.Pipeline.Chunk
import LineShell.Proofs.Token.Reading

/-!
# Written forms of pipelines

Which pipelines can be typed in at all. Every pipeline that a line denotes is well-formed, and
every well-formed pipeline has a line that denotes it, in which each word stands in single quotes.
-/

namespace LineShell

/-- A line denotes a pipeline when its tokens are read as this pipeline. -/
def Denotes (line : String) (p : Pipeline) : Prop :=
  ∃ tokens, tokenize line = .ok tokens ∧ parsePipeline tokens = .ok p

/-- A list is empty, or has odd length with a separator at every odd position. -/
def Alternates {α : Type} (separator : α) (args : List α) : Prop :=
  args = [] ∨
    args.length % 2 = 1 ∧ ∀ i arg, i % 2 = 1 → args[i]? = some arg → arg = separator

/-- A stage that can be typed in: its name and the names of its files are not empty, and a single
space stands at every odd position among the arguments of an echo command. -/
structure Segment.WellFormed (segment : Segment) : Prop where
  name_ne_empty : segment.name ≠ ""
  path_ne_empty : ∀ redirection ∈ segment.redirections, redirection.path.text ≠ ""
  echo_alternates : segment.name = "echo" → Alternates " " segment.args

/-- A pipeline that can be typed in: it has stages, all of them can be typed in, and none but the
last one is redirected. -/
structure Pipeline.WellFormed (p : Pipeline) : Prop where
  segments_ne_nil : p.segments ≠ []
  segments_wellFormed : ∀ segment ∈ p.segments, segment.WellFormed
  redirections_eq_nil : ∀ segment ∈ p.segments.dropLast, segment.redirections = []

/-- The members of a list at even positions. -/
def evens {α : Type} : List α → List α
  | x :: _ :: rest => x :: evens rest
  | xs => xs

/-- How a character of a word is written in single quotes. A single quote ends the quotation, is
escaped, and begins the next quotation. -/
def quotedChar (c : Char) : List Char :=
  if c = '\x27' then ['\x27', '\\', '\x27', '\x27'] else [c]

/-- A word in single quotes. -/
def quotedWord (word : String) : List Char :=
  '\x27' :: word.toList.flatMap quotedChar ++ ['\x27']

/-- The written form of a redirection, with the space before it. -/
def Redirection.written (redirection : Redirection) : List Char :=
  let descriptor :=
    match redirection.stream with
    | .stdout => '1'
    | .stderr => '2'
  let operator :=
    match redirection.mode with
    | .truncate => ['>']
    | .append => ['>', '>']
  ' ' :: descriptor :: operator ++ quotedWord redirection.path.text

/-- The words of a stage behind its name. The separating spaces of an echo command are no words. -/
def Segment.operandWords (segment : Segment) : List String :=
  if segment.name = "echo" then evens segment.args else segment.args

/-- The written form of a stage. -/
def Segment.written (segment : Segment) : List Char :=
  quotedWord segment.name ++ segment.operandWords.flatMap (fun word => ' ' :: quotedWord word) ++
    segment.redirections.flatMap Redirection.written

/-- The written form of a pipeline. -/
def Pipeline.written (p : Pipeline) : String :=
  String.ofList (['|'].intercalate (p.segments.map Segment.written))

/-! ## Denoted pipelines are well-formed -/

/-- Words with separators between them alternate with the separators. -/
theorem alternates_intersperse {α : Type} (separator : α) (words : List α) :
    Alternates separator (words.intersperse separator) := by
  induction words with
  | nil => exact .inl rfl
  | cons word rest ih =>
    right
    cases rest with
    | nil =>
      refine ⟨rfl, fun i arg hi harg => ?_⟩
      cases i with
      | zero => cases hi
      | succ i => cases harg
    | cons next more =>
      rw [List.intersperse_cons_cons]
      rcases ih with hnil | ⟨hodd, hseparators⟩
      · cases more <;> cases hnil
      · refine ⟨by simp only [List.length_cons]; omega, fun i arg hi harg => ?_⟩
        match i with
        | 0 => cases hi
        | 1 => exact (Option.some.inj harg).symm
        | i + 2 => exact hseparators i arg (by omega) harg

/-- A list that alternates with separators consists of the members at its even positions and
separators between them. -/
theorem Alternates.intersperse_evens {α : Type} {separator : α} {args : List α}
    (h : Alternates separator args) : (evens args).intersperse separator = args := by
  fun_induction evens args with
  | case1 word second rest ih =>
    rcases h with h | ⟨hodd, hseparators⟩
    · cases h
    · obtain rfl : second = separator := hseparators 1 second rfl rfl
      have hrest : Alternates second rest := by
        right
        refine ⟨by simp only [List.length_cons] at hodd; omega, fun i arg hi harg => ?_⟩
        exact hseparators (i + 2) arg (by omega) harg
      have hwords := ih hrest
      cases hevens : evens rest with
      | nil =>
        rw [hevens] at hwords
        obtain rfl : rest = [] := hwords.symm
        simp only [List.length_cons, List.length_nil] at hodd
        omega
      | cons next more => rw [List.intersperse_cons_cons, ← hevens, hwords]
  | case2 xs hshort =>
    cases xs with
    | nil => rfl
    | cons word rest =>
      cases rest with
      | nil => rfl
      | cons second more => exact absurd rfl (hshort word second more)

/-- No redirection that operators with targets give has an empty file name. -/
theorem Part.path_ne_empty {operands : List Part} (h : lacksTarget operands = false) :
    ∀ redirection ∈ redirections operands, redirection.path.text ≠ "" := by
  fun_induction lacksTarget operands with
  | case1 mode tag path rest ih =>
    rw [Bool.or_eq_false_iff] at h
    intro redirection hmem
    rw [redirections] at hmem
    rcases List.mem_cons.mp hmem with rfl | hrest
    · simpa using h.1
    · exact ih h.2 redirection hrest
  | case2 mode tag rest hword => cases h
  | case3 text rest ih => exact ih h
  | case4 => exact fun _ hmem => absurd hmem List.not_mem_nil

/-- What a chunk denotes can be typed in. -/
theorem Segment.wellFormed_of_ofChunk {chunk : List Token} {segment : Segment}
    (h : Segment.ofChunk chunk = .ok segment) : segment.WellFormed := by
  unfold Segment.ofChunk at h
  split at h
  next name operands hparts =>
    split at h
    · cases h
    next hname =>
      split at h
      · cases h
      next hlacks =>
        cases h
        refine ⟨by simpa using hname, Part.path_ne_empty (by simpa using hlacks), ?_⟩
        intro hecho
        have hkeeps : (name == "echo") = true := beq_iff_eq.mpr hecho
        show Alternates " " (spaced (name == "echo") (Part.words operands))
        rw [hkeeps]
        exact alternates_intersperse " " (Part.words operands)
  next => cases h

/-- A pipeline that a row of tokens denotes can be typed in. -/
theorem Pipeline.wellFormed_of_parsePipeline {tokens : List Token} {p : Pipeline}
    (h : parsePipeline tokens = .ok p) : p.WellFormed := by
  have hne : tokens.splitOn .pipe ≠ [] := List.splitOn_ne_nil _ _
  have htokens : tokens = [Token.pipe].intercalate (tokens.splitOn .pipe) :=
    (List.intercalate_splitOn Token.pipe).symm
  rw [htokens, parsePipeline_intercalate_eq_ok_iff (fun _ => not_mem_of_mem_splitOn) hne] at h
  obtain ⟨hsegments, hredirections⟩ := h
  refine ⟨fun hnil => ?_, fun segment hmem => ?_, hredirections⟩
  · cases hchunks : tokens.splitOn .pipe with
    | nil => exact hne hchunks
    | cons chunk rest =>
      rw [hchunks, hnil] at hsegments
      obtain ⟨_, _, -, -, hcons⟩ := mapM_ofChunk_cons hsegments
      cases hcons
  · obtain ⟨chunk, -, hchunk⟩ := exists_chunk_of_mem hsegments segment hmem
    exact Segment.wellFormed_of_ofChunk hchunk

/-! ## Written forms are read back -/

/-- The literals as which a word in single quotes is read, when the given text of the current
quotation has been read already. -/
def quotedTexts (text : String) : List Char → List String
  | [] => [text]
  | c :: rest =>
    if c = '\x27' then text :: "\x27" :: quotedTexts "" rest else quotedTexts (text.push c) rest

/-- The tokens as which a word in single quotes is read. -/
def wordTokens (word : String) : List Token := (quotedTexts "" word.toList).map Token.literal

/-- The tag of a stream in redirection tokens. -/
def OutputStream.tag : OutputStream → String
  | stdout => Token.stdoutTag
  | stderr => Token.stderrTag

/-- The tokens as which the written form of a redirection is read. -/
def Redirection.tokens (redirection : Redirection) : List Token :=
  .space :: .redirect redirection.mode redirection.stream.tag :: wordTokens redirection.path.text

/-- The tokens as which the written form of a stage is read. -/
def Segment.tokens (segment : Segment) : List Token :=
  wordTokens segment.name ++
    (segment.operandWords.flatMap (fun word => .space :: wordTokens word) ++
      segment.redirections.flatMap Redirection.tokens)

namespace LexState

/-- The rest of a word in single quotes is read as the rest of its literals. -/
theorem read_singleQuote_quotedChars (text : String) (cs rest : List Char) :
    (singleQuote text).read (cs.flatMap quotedChar ++ '\x27' :: rest) =
      withTokens ((quotedTexts text cs).map Token.literal) (normal.read rest) := by
  induction cs generalizing text with
  | nil =>
    have hclose : (singleQuote text).step '\x27' = ([.literal text], normal) := by
      simp only [step, if_true]
    rw [List.flatMap_nil, List.nil_append, read_cons, hclose]
    rfl
  | cons c more ih =>
    rw [List.flatMap_cons, List.append_assoc, quotedTexts, quotedChar]
    by_cases hc : c = '\x27'
    · have hclose : (singleQuote text).step '\x27' = ([.literal text], normal) := by
        simp only [step, if_true]
      have hescape : normal.step '\\' = ([], escape) := rfl
      have hescaped : escape.step '\x27' = ([.literal "\x27"], normal) := rfl
      have hopen : normal.step '\x27' = ([], singleQuote "") := rfl
      rw [if_pos hc, if_pos hc]
      simp only [List.cons_append, List.nil_append, read_cons, hclose, hescape, hescaped, hopen,
        withTokens_withTokens, ih, List.map_cons]
    · have hstep : (singleQuote text).step c = ([], singleQuote (text.push c)) := by
        simp only [step, if_neg hc]
      rw [if_neg hc, if_neg hc, List.singleton_append, read_cons, hstep, withTokens_nil, ih]

/-- A word in single quotes is read as its literals. -/
theorem readsAs_quotedWord (word : String) : ReadsAs (quotedWord word) (wordTokens word) := by
  intro rest
  have hstep : normal.read (quotedWord word ++ rest) =
      (singleQuote "").read (word.toList.flatMap quotedChar ++ '\x27' :: rest) := by
    rw [quotedWord, List.append_assoc, List.cons_append, List.singleton_append, read_cons]
    exact withTokens_nil _
  rw [hstep, read_singleQuote_quotedChars]
  rfl

/-- An operator behind the digit of a stream is read as the redirection of this stream. -/
theorem readsAs_operator (digit : Char) {tag : String} (path : String)
    (hdigit : normal.step digit = ([], .digit digit)) (htag : tagOfDigit digit = tag) :
    ReadsAs (digit :: '>' :: quotedWord path) (.redirect .truncate tag :: wordTokens path) ∧
      ReadsAs (digit :: '>' :: '>' :: quotedWord path)
        (.redirect .append tag :: wordTokens path) := by
  have hsign : (LexState.digit digit).step '>' = ([], redirect tag) := by
    simp only [step, if_true, htag]
  constructor
  · intro rest
    have hpath : (quotedWord path ++ rest).head? ≠ some '>' := by
      intro h
      cases h
    rw [List.cons_append, List.cons_append, read_cons, hdigit, read_cons, hsign, withTokens_nil,
      withTokens_nil, read_redirect_truncate _ hpath, readsAs_quotedWord, withTokens_withTokens]
    rfl
  · intro rest
    rw [List.cons_append, List.cons_append, List.cons_append, read_cons, hdigit, read_cons, hsign,
      withTokens_nil, withTokens_nil, read_redirect_append, readsAs_quotedWord,
      withTokens_withTokens]
    rfl

/-- The written form of a redirection is read as its tokens. -/
theorem readsAs_redirection (redirection : Redirection) :
    ReadsAs redirection.written redirection.tokens := by
  obtain ⟨mode, stream, path⟩ := redirection
  have hstdout := readsAs_operator '1' path.text rfl rfl
  have hstderr := readsAs_operator '2' path.text rfl rfl
  cases stream with
  | stdout =>
    cases mode with
    | truncate => exact hstdout.1.space (c := '1') (by decide)
    | append => exact hstdout.2.space (c := '1') (by decide)
  | stderr =>
    cases mode with
    | truncate => exact hstderr.1.space (c := '2') (by decide)
    | append => exact hstderr.2.space (c := '2') (by decide)

/-- The written form of a stage is read as its tokens. -/
theorem readsAs_segment (segment : Segment) : ReadsAs segment.written segment.tokens := by
  rw [Segment.written, Segment.tokens, List.append_assoc]
  refine (readsAs_quotedWord _).append (.append (.flatMap (fun word => ?_) _)
    (.flatMap readsAs_redirection _))
  exact (readsAs_quotedWord word).space (by decide)

/-- Written stages with pipes between them are read as their tokens with pipes between them. -/
theorem read_intercalate_written (segments : List Segment) :
    normal.read (['|'].intercalate (segments.map Segment.written)) =
      .ok ([Token.pipe].intercalate (segments.map Segment.tokens)) := by
  induction segments with
  | nil => rfl
  | cons segment rest ih =>
    cases rest with
    | nil =>
      have hread := readsAs_segment segment []
      rw [List.append_nil, read_nil] at hread
      simp only [List.map_cons, List.map_nil, List.intercalate_singleton, hread]
      exact congrArg Except.ok (List.append_nil _)
    | cons next more =>
      have hpipe (cs : List Char) : normal.read ('|' :: cs) = withTokens [.pipe] (normal.read cs) :=
        rfl
      rw [List.map_cons, List.map_cons] at ih
      rw [List.map_cons, List.map_cons, List.map_cons, List.map_cons, List.intercalate_cons_cons,
        List.intercalate_cons_cons, List.append_assoc, readsAs_segment, List.singleton_append,
        hpipe, ih, withTokens_ok, withTokens_ok, List.append_assoc]

end LexState

/-! ### What the tokens of a written form denote -/

/-- Literals in a row are one word of a chunk, when no further literal follows. -/
theorem parts_literals {texts : List String} {more : List Token} (hne : texts ≠ [])
    (hmore : more.head?.any Token.isLiteral = false) :
    parts (texts.map Token.literal ++ more) = .word (String.join texts) :: parts more := by
  have hrun (texts : List String) :
      (texts.map Token.literal ++ more).takeWhile Token.isLiteral = texts.map Token.literal ∧
        (texts.map Token.literal ++ more).dropWhile Token.isLiteral = more := by
    induction texts with
    | nil =>
      cases more with
      | nil => exact ⟨rfl, rfl⟩
      | cons token rest =>
        have htoken : ¬token.isLiteral = true := by simpa using hmore
        exact ⟨List.takeWhile_cons_of_neg htoken, List.dropWhile_cons_of_neg htoken⟩
    | cons text rest ih =>
      have htext : (Token.literal text).isLiteral = true := rfl
      rw [List.map_cons, List.cons_append, List.takeWhile_cons_of_pos htext,
        List.dropWhile_cons_of_pos htext, ih.1, ih.2]
      exact ⟨rfl, rfl⟩
  have htexts (texts : List String) : (texts.map Token.literal).map Token.text = texts := by
    rw [List.map_map]
    exact List.map_id _
  cases texts with
  | nil => exact absurd rfl hne
  | cons text rest =>
    rw [List.map_cons, List.cons_append, parts, (hrun rest).1, (hrun rest).2, htexts]

/-- A word in single quotes has at least one literal. -/
theorem quotedTexts_ne_nil (text : String) (cs : List Char) : quotedTexts text cs ≠ [] := by
  induction cs generalizing text with
  | nil => exact List.cons_ne_nil _ _
  | cons c rest ih =>
    rw [quotedTexts]
    split
    · exact List.cons_ne_nil _ _
    · exact ih _

/-- The literals of a word in single quotes give the word when they are glued together. -/
theorem join_quotedTexts (text : String) (cs : List Char) :
    String.join (quotedTexts text cs) = text ++ String.ofList cs := by
  induction cs generalizing text with
  | nil =>
    rw [quotedTexts, String.join_cons, String.join_nil, String.ofList_nil]
  | cons c rest ih =>
    rw [quotedTexts]
    split
    next hc =>
      subst hc
      rw [String.join_cons, String.join_cons, ih, String.empty_append, ← push_append_ofList,
        String.push_eq_append, String.append_assoc]
      rfl
    next => rw [ih, push_append_ofList]

/-- The tokens of a word in single quotes are this word, when no further literal follows. -/
theorem parts_wordTokens (word : String) {more : List Token}
    (hmore : more.head?.any Token.isLiteral = false) :
    parts (wordTokens word ++ more) = .word word :: parts more := by
  rw [wordTokens, parts_literals (quotedTexts_ne_nil _ _) hmore, join_quotedTexts,
    String.empty_append, String.ofList_toList]

/-- The parts that a redirection consists of. -/
def Redirection.parts (redirection : Redirection) : List Part :=
  [.operator redirection.mode redirection.stream.tag, .word redirection.path.text]

/-- Redirections do not begin with a literal. -/
theorem head?_redirections (redirections : List Redirection) :
    (redirections.flatMap Redirection.tokens).head?.any Token.isLiteral = false := by
  cases redirections <;> rfl

/-- The tokens of redirections are their operators and targets. -/
theorem parts_redirections (redirections : List Redirection) :
    parts (redirections.flatMap Redirection.tokens) =
      redirections.flatMap Redirection.parts := by
  induction redirections with
  | nil => rw [List.flatMap_nil, List.flatMap_nil, parts]
  | cons redirection rest ih =>
    rw [List.flatMap_cons, List.flatMap_cons, Redirection.tokens, List.cons_append,
      List.cons_append, parts, parts, parts_wordTokens _ (head?_redirections rest), ih]
    rfl

/-- The tokens of operands are their words, when no further literal follows. -/
theorem parts_operandWords (words : List String) {more : List Token}
    (hmore : more.head?.any Token.isLiteral = false) :
    parts (words.flatMap (fun word => .space :: wordTokens word) ++ more) =
      words.map Part.word ++ parts more := by
  induction words with
  | nil => rfl
  | cons word rest ih =>
    have hhead : (rest.flatMap (fun word => .space :: wordTokens word) ++ more).head?.any
        Token.isLiteral = false := by
      cases rest with
      | nil => exact hmore
      | cons next others => rfl
    rw [List.flatMap_cons, List.append_assoc, List.cons_append, parts, parts_wordTokens _ hhead,
      ih]
    rfl

/-- The tokens of a stage are its words and redirections. -/
theorem parts_segment (segment : Segment) :
    parts segment.tokens =
      .word segment.name :: (segment.operandWords.map Part.word ++
        segment.redirections.flatMap Redirection.parts) := by
  have hredirections := head?_redirections segment.redirections
  have hoperands : (segment.operandWords.flatMap (fun word => .space :: wordTokens word) ++
      segment.redirections.flatMap Redirection.tokens).head?.any Token.isLiteral = false := by
    cases segment.operandWords with
    | nil => exact hredirections
    | cons word rest => rfl
  rw [Segment.tokens, parts_wordTokens _ hoperands, parts_operandWords _ hredirections,
    parts_redirections]

namespace Part

/-- The stream that a tag names is the stream that it was made from. -/
theorem stream_of_tag (stream : OutputStream) :
    (if stream.tag = "stderr" then OutputStream.stderr else OutputStream.stdout) = stream := by
  cases stream with
  | stdout => exact if_neg (by decide)
  | stderr => exact if_pos rfl

/-- Complete redirections are the redirections that they were made from, and no words. -/
theorem operands_flatMap (redirs : List Redirection) :
    Part.words (redirs.flatMap Redirection.parts) = [] ∧
      redirections (redirs.flatMap Redirection.parts) = redirs := by
  induction redirs with
  | nil => exact ⟨rfl, rfl⟩
  | cons redirection rest ih =>
    rw [List.flatMap_cons, Redirection.parts, List.cons_append, List.singleton_append, Part.words,
      redirections, stream_of_tag, ih.2]
    exact ⟨ih.1, rfl⟩

/-- Words and complete redirections are the words and redirections that they were made from. -/
theorem operands_append (words : List String) (redirs : List Redirection) :
    Part.words (words.map word ++ redirs.flatMap Redirection.parts) = words ∧
      redirections (words.map word ++ redirs.flatMap Redirection.parts) = redirs := by
  induction words with
  | nil => exact operands_flatMap redirs
  | cons text rest ih =>
    rw [List.map_cons, List.cons_append, Part.words, redirections, ih.1]
    · exact ⟨rfl, ih.2⟩
    · intro mode tag path more h
      cases h

/-- Redirections with file names lack no target. -/
theorem lacksTarget_flatMap {redirs : List Redirection}
    (h : ∀ redirection ∈ redirs, redirection.path.text ≠ "") :
    lacksTarget (redirs.flatMap Redirection.parts) = false := by
  induction redirs with
  | nil => rfl
  | cons redirection rest ih =>
    have hpath : redirection.path.text.isEmpty = false := by
      simpa using h redirection List.mem_cons_self
    have hrest := ih fun other hother => h other (List.mem_cons_of_mem _ hother)
    rw [List.flatMap_cons, Redirection.parts, List.cons_append, List.singleton_append,
      lacksTarget, hpath, hrest, Bool.or_self]

/-- Words and redirections with file names lack no target. -/
theorem lacksTarget_append {words : List String} {redirs : List Redirection}
    (h : ∀ redirection ∈ redirs, redirection.path.text ≠ "") :
    lacksTarget (words.map word ++ redirs.flatMap Redirection.parts) = false := by
  induction words with
  | nil => exact lacksTarget_flatMap h
  | cons text rest ih => rwa [List.map_cons, List.cons_append, lacksTarget]

end Part

/-- The tokens of a well-formed stage denote the stage. -/
theorem Segment.ofChunk_tokens {segment : Segment} (h : segment.WellFormed) :
    Segment.ofChunk segment.tokens = .ok segment := by
  have hname : segment.name.isEmpty = false := by simpa using h.name_ne_empty
  have hargs : spaced (segment.name == "echo") segment.operandWords = segment.args := by
    rw [Segment.operandWords]
    by_cases hecho : segment.name = "echo"
    · rw [if_pos hecho, beq_iff_eq.mpr hecho]
      exact (h.echo_alternates hecho).intersperse_evens
    · rw [if_neg hecho, beq_eq_false_iff_ne.mpr hecho]
      rfl
  obtain ⟨hwords, hredirections⟩ :=
    Part.operands_append segment.operandWords segment.redirections
  rw [Segment.ofChunk, parts_segment]
  simp only [hname, Part.lacksTarget_append h.path_ne_empty, hwords, hredirections, hargs,
    Bool.false_eq_true, if_false]

/-- No pipe is among the tokens of a word. -/
theorem pipe_not_mem_wordTokens (word : String) : .pipe ∉ wordTokens word := by
  intro hmem
  obtain ⟨text, -, htext⟩ := List.mem_map.mp hmem
  cases htext

/-- No pipe is among the tokens of a stage. -/
theorem Segment.pipe_not_mem_tokens (segment : Segment) : .pipe ∉ segment.tokens := by
  have hspace : Token.pipe ≠ .space := nofun
  rw [Segment.tokens, List.mem_append, List.mem_append, List.mem_flatMap, List.mem_flatMap]
  rintro (hname | ⟨word, -, hword⟩ | ⟨redirection, -, hredirection⟩)
  · exact pipe_not_mem_wordTokens _ hname
  · exact pipe_not_mem_wordTokens word (List.mem_of_ne_of_mem hspace hword)
  · have hoperator : Token.pipe ≠ .redirect redirection.mode redirection.stream.tag := nofun
    have htarget := List.mem_of_ne_of_mem hspace hredirection
    exact pipe_not_mem_wordTokens _ (List.mem_of_ne_of_mem hoperator htarget)

/-- The tokens of well-formed stages denote the stages. -/
theorem mapM_ofChunk_tokens {segments : List Segment}
    (h : ∀ segment ∈ segments, segment.WellFormed) :
    (segments.map Segment.tokens).mapM Segment.ofChunk = .ok segments := by
  induction segments with
  | nil => rfl
  | cons segment rest ih =>
    rw [List.map_cons, List.mapM_cons, Segment.ofChunk_tokens (h segment List.mem_cons_self),
      ih fun other hother => h other (List.mem_cons_of_mem _ hother)]
    rfl

/-- The written form of a well-formed pipeline denotes the pipeline. -/
theorem Pipeline.denotes_written {p : Pipeline} (h : p.WellFormed) : Denotes p.written p := by
  refine ⟨[Token.pipe].intercalate (p.segments.map Segment.tokens), ?_, ?_⟩
  · rw [tokenize, tokenizeChars_eq_read, Pipeline.written, String.toList_ofList,
      LexState.read_intercalate_written]
  · rw [parsePipeline_intercalate_eq_ok_iff]
    · exact ⟨mapM_ofChunk_tokens h.segments_wellFormed, h.redirections_eq_nil⟩
    · intro chunk hchunk
      obtain ⟨segment, -, rfl⟩ := List.mem_map.mp hchunk
      exact segment.pipe_not_mem_tokens
    · exact fun hnil => h.segments_ne_nil (List.map_eq_nil_iff.mp hnil)

/-- The pipelines that lines denote are the well-formed ones, and each of them is denoted by its
written form. -/
theorem denotes_iff_wellFormed (p : Pipeline) :
    ((∃ line, Denotes line p) ↔ p.WellFormed) ∧ (p.WellFormed → Denotes p.written p) := by
  refine ⟨⟨?_, fun h => ⟨p.written, Pipeline.denotes_written h⟩⟩, Pipeline.denotes_written⟩
  rintro ⟨line, tokens, -, hparse⟩
  exact Pipeline.wellFormed_of_parsePipeline hparse

/-- Quotes, operators, and empty words in a pipeline survive being written and read. -/
theorem denotes_written_quotes :
    let p : Pipeline :=
      ⟨[⟨"a\x27|\\", [""], []⟩, ⟨"echo", [">", " ", ""], [⟨.append, .stderr, ⟨"b c"⟩⟩]⟩]⟩
    p.written =
        "\x27a\x27\\\x27\x27|\\\x27 \x27\x27|\x27echo\x27 \x27>\x27 \x27\x27 2>>\x27b c\x27" ∧
      Denotes p.written p := by
  intro p
  refine ⟨rfl, (denotes_iff_wellFormed p).2 ⟨List.cons_ne_nil _ _, ?_, by decide⟩⟩
  intro segment hmem
  rcases List.mem_cons.mp hmem with rfl | hmem
  · exact ⟨by decide, by decide, fun h => absurd h (by decide)⟩
  · obtain rfl := List.mem_singleton.mp hmem
    exact ⟨by decide, by decide, fun _ => alternates_intersperse " " [">", ""]⟩

end LineShell
