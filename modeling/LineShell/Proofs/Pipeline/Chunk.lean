import LineShell.Pipeline.Parser

/-!
# Chunks of a row of tokens

The pipes cut a row of tokens into chunks, one for each stage of the pipeline. A chunk consists of
words, which are the longest runs of literals, and of operators. This file reads the stages off
the chunks and shows that the parser, which goes through all tokens once with a single position,
gives the same pipeline and the same error.
-/

namespace LineShell

namespace Token

/-- Whether a token is a piece of a word. -/
def isLiteral : Token → Bool
  | literal _ => true
  | _ => false

/-- Whether a token is a redirection operator. -/
def isRedirect : Token → Bool
  | redirect _ _ => true
  | _ => false

end Token

/-- A part of a chunk: a longest run of literals or a redirection operator. -/
inductive Part where
  | word (text : String)
  | operator (mode : RedirectMode) (tag : String)
  deriving DecidableEq, Repr

/-- The parts of a chunk, in order. Spaces only keep runs of literals apart. -/
def parts : List Token → List Part
  | [] => []
  | .literal text :: rest =>
    .word (String.join (text :: (rest.takeWhile Token.isLiteral).map Token.text)) ::
      parts (rest.dropWhile Token.isLiteral)
  | .redirect mode tag :: rest => .operator mode tag :: parts rest
  | .space :: rest => parts rest
  | .pipe :: rest => parts rest
termination_by tokens => tokens.length
decreasing_by
  all_goals have hle := (List.dropWhile_sublist (l := rest) Token.isLiteral).length_le
  all_goals simp only [List.length_cons]
  all_goals omega

namespace Part

/-- Whether an operator is not followed by a word that can be the name of a file. -/
def lacksTarget : List Part → Bool
  | operator _ _ :: word path :: rest => path.isEmpty || lacksTarget rest
  | operator _ _ :: _ => true
  | word _ :: rest => lacksTarget rest
  | [] => false

/-- The operators in order, each with the word that follows it. -/
def redirections : List Part → List Redirection
  | operator mode tag :: word path :: rest =>
    ⟨mode, if tag = "stderr" then .stderr else .stdout, ⟨path⟩⟩ :: redirections rest
  | _ :: rest => redirections rest
  | [] => []

/-- The words that follow no operator. -/
def words : List Part → List String
  | operator _ _ :: word _ :: rest => words rest
  | operator _ _ :: rest => words rest
  | word text :: rest => text :: words rest
  | [] => []

end Part

/-- The arguments that words give. A command that keeps the spacing between its words has a single
space as an argument between each two of them. -/
def spaced (keepSpacing : Bool) (words : List String) : List String :=
  if keepSpacing then words.intersperse " " else words

/-- The stage that a chunk denotes: its first word is the name, and the rest are operands. -/
def Segment.ofChunk (chunk : List Token) : Except ParseError Segment :=
  match parts chunk with
  | .word name :: operands =>
    if name.isEmpty then .error .noCommand
    else if Part.lacksTarget operands then .error .missingRedirectTarget
    else .ok ⟨name, spaced (name == "echo") (Part.words operands), Part.redirections operands⟩
  | _ => .error .noCommand

/-- The pipeline that chunks denote. The first chunk that denotes no stage decides the error; when
there is none, only the last chunk may hold an operator. -/
def Pipeline.ofChunks (chunks : List (List Token)) : Except ParseError Pipeline :=
  match chunks.mapM Segment.ofChunk with
  | .error e => .error e
  | .ok segments =>
    match (chunks.dropLast.zip segments).find? fun stage => stage.1.any Token.isRedirect with
    | some stage => .error (.redirectionNotLast stage.2.name)
    | none => .ok ⟨segments⟩

/-- What follows a chunk: nothing, or a pipe and further chunks. -/
def EndsChunk (tail : List Token) : Prop := ∀ token ∈ tail.head?, token = .pipe

/-- Nothing at all ends a chunk. -/
theorem endsChunk_nil : EndsChunk [] := fun _ h => by cases h

/-- A pipe ends a chunk. -/
theorem endsChunk_pipe (rest : List Token) : EndsChunk (.pipe :: rest) := fun _ h =>
  (Option.some.inj h).symm

/-- No run of literals goes on behind the end of a chunk. -/
theorem EndsChunk.literals_append {tail : List Token} (htail : EndsChunk tail)
    (chunk : List Token) :
    (chunk ++ tail).takeWhile Token.isLiteral = chunk.takeWhile Token.isLiteral ∧
      (chunk ++ tail).dropWhile Token.isLiteral = chunk.dropWhile Token.isLiteral ++ tail := by
  induction chunk with
  | nil =>
    cases tail with
    | nil => exact ⟨rfl, rfl⟩
    | cons token rest =>
      obtain rfl := htail token rfl
      exact ⟨rfl, rfl⟩
  | cons token rest ih =>
    by_cases hliteral : token.isLiteral
    · simp only [List.cons_append, List.takeWhile_cons_of_pos hliteral,
        List.dropWhile_cons_of_pos hliteral, ih.1, ih.2, and_self]
    · simp only [List.cons_append, List.takeWhile_cons_of_neg hliteral,
        List.dropWhile_cons_of_neg hliteral, and_self]

/-- Gluing reads a run of literals to its end. -/
theorem glue_eq (word : String) (tokens : List Token) :
    glue word tokens =
      (word ++ String.join ((tokens.takeWhile Token.isLiteral).map Token.text),
        tokens.dropWhile Token.isLiteral) := by
  fun_induction glue word tokens with
  | case1 word text rest ih =>
    have hliteral : (Token.literal text).isLiteral = true := rfl
    rw [ih, List.takeWhile_cons_of_pos hliteral, List.dropWhile_cons_of_pos hliteral,
      List.map_cons, String.join_cons, String.append_assoc]
    rfl
  | case2 word tokens hliteral =>
    have htake : tokens.takeWhile Token.isLiteral = [] ∧
        tokens.dropWhile Token.isLiteral = tokens := by
      cases tokens with
      | nil => exact ⟨rfl, rfl⟩
      | cons token rest =>
        cases token with
        | literal text => exact absurd rfl (hliteral text rest)
        | space => exact ⟨rfl, rfl⟩
        | redirect mode tag => exact ⟨rfl, rfl⟩
        | pipe => exact ⟨rfl, rfl⟩
    rw [htake.1, htake.2, List.map_nil, String.join_nil, String.append_empty]

/-- No literal follows a run of literals. -/
theorem head?_dropWhile_isLiteral (tokens : List Token) :
    (tokens.dropWhile Token.isLiteral).head?.any Token.isLiteral = false := by
  have hhead := List.head?_dropWhile_not Token.isLiteral tokens
  cases hdropped : (tokens.dropWhile Token.isLiteral).head? with
  | none => rfl
  | some token => simpa only [hdropped, Option.any_some] using hhead

/-- A run of literals at the front of a chunk is glued to the first part of the chunk. -/
theorem EndsChunk.glue_append {chunk tail : List Token} (htail : EndsChunk tail)
    (hchunk : .pipe ∉ chunk) (text : String) :
    ∃ word more, glue text (chunk ++ tail) = (word, more ++ tail) ∧
      parts (.literal text :: chunk) = .word word :: parts more ∧ more.length ≤ chunk.length ∧
      .pipe ∉ more ∧ more.head?.any Token.isLiteral = false := by
  obtain ⟨htake, hdrop⟩ := htail.literals_append chunk
  have hsublist := List.dropWhile_sublist (l := chunk) Token.isLiteral
  refine ⟨text ++ String.join ((chunk.takeWhile Token.isLiteral).map Token.text),
    chunk.dropWhile Token.isLiteral, ?_, ?_, hsublist.length_le,
    fun h => hchunk (hsublist.mem h), head?_dropWhile_isLiteral chunk⟩
  · rw [glue_eq, htake, hdrop]
  · rw [parts, String.join_cons]

/-- A chunk whose first part is a word is read up to the end of this word. -/
theorem word?_of_parts {chunk tail : List Token} {text : String} {rest : List Part}
    (hchunk : .pipe ∉ chunk) (htail : EndsChunk tail) (hparts : parts chunk = .word text :: rest) :
    ∃ more, word? (skipSpaces (chunk ++ tail)) = some (text, more ++ tail) ∧ parts more = rest ∧
      more.length < chunk.length ∧ .pipe ∉ more ∧ more.head?.any Token.isLiteral = false := by
  induction chunk with
  | nil =>
    rw [parts] at hparts
    cases hparts
  | cons token chunk ih =>
    have hpipe : .pipe ∉ chunk := fun h => hchunk (List.mem_cons_of_mem _ h)
    cases token with
    | literal first =>
      obtain ⟨word, more, hglue, hfirst, hlength, hmore⟩ := htail.glue_append hpipe first
      rw [hfirst] at hparts
      obtain ⟨hword, hrest⟩ := List.cons.inj hparts
      obtain rfl := Part.word.inj hword
      exact ⟨more, congrArg some hglue, hrest, Nat.lt_succ_of_le hlength, hmore⟩
    | space =>
      rw [parts] at hparts
      obtain ⟨more, hread, hmore, hlength, hrest⟩ := ih hpipe hparts
      exact ⟨more, hread, hmore, Nat.lt_succ_of_lt hlength, hrest⟩
    | redirect mode tag =>
      rw [parts] at hparts
      cases hparts
    | pipe => exact absurd List.mem_cons_self hchunk

/-- A chunk whose first part is no word has no word to be read. -/
theorem word?_eq_none_of_parts {chunk tail : List Token} (hchunk : .pipe ∉ chunk)
    (htail : EndsChunk tail) (hparts : ∀ text rest, parts chunk ≠ .word text :: rest) :
    word? (skipSpaces (chunk ++ tail)) = none := by
  induction chunk with
  | nil =>
    cases tail with
    | nil => rfl
    | cons token rest =>
      obtain rfl := htail token rfl
      rfl
  | cons token chunk ih =>
    have hpipe : .pipe ∉ chunk := fun h => hchunk (List.mem_cons_of_mem _ h)
    cases token with
    | literal first =>
      rw [parts] at hparts
      exact absurd rfl (hparts _ _)
    | space =>
      rw [parts] at hparts
      exact ih hpipe hparts
    | redirect mode tag => rfl
    | pipe => exact absurd List.mem_cons_self hchunk

/-- The word after an operator is read as its target unless it is empty. -/
theorem redirectTarget?_of_parts {chunk tail : List Token} {path : String} {rest : List Part}
    (hchunk : .pipe ∉ chunk) (htail : EndsChunk tail) (hparts : parts chunk = .word path :: rest)
    (hpath : path.isEmpty = false) :
    ∃ more, redirectTarget? (chunk ++ tail) = some (path, more ++ tail) ∧ parts more = rest ∧
      more.length < chunk.length ∧ .pipe ∉ more ∧ more.head?.any Token.isLiteral = false := by
  obtain ⟨more, hread, hrest⟩ := word?_of_parts hchunk htail hparts
  refine ⟨more, ?_, hrest⟩
  simp only [redirectTarget?, hread, hpath, Bool.false_eq_true, if_false]

/-- Nothing is read as the target of an operator that lacks one. -/
theorem redirectTarget?_eq_none {chunk tail : List Token} (hchunk : .pipe ∉ chunk)
    (htail : EndsChunk tail)
    (hparts : ∀ path rest, parts chunk = .word path :: rest → path.isEmpty = true) :
    redirectTarget? (chunk ++ tail) = none := by
  by_cases hword : ∃ path rest, parts chunk = .word path :: rest
  · obtain ⟨path, rest, hword⟩ := hword
    obtain ⟨more, hread, -⟩ := word?_of_parts hchunk htail hword
    simp only [redirectTarget?, hread, hparts path rest hword, if_true]
  · have hnone : ∀ path rest, parts chunk ≠ .word path :: rest := fun path rest h =>
      hword ⟨path, rest, h⟩
    simp only [redirectTarget?, word?_eq_none_of_parts hchunk htail hnone]

/-- Words are spaced in the same way however many of them follow. -/
theorem intersperse_append_singleton {α : Type} (separator last : α) {xs : List α}
    (hxs : xs ≠ []) :
    (xs ++ [last]).intersperse separator = xs.intersperse separator ++ [separator, last] := by
  induction xs with
  | nil => exact absurd rfl hxs
  | cons x rest ih =>
    cases rest with
    | nil => rfl
    | cons y more =>
      have htail := ih (List.cons_ne_nil _ _)
      rw [List.cons_append] at htail
      rw [List.cons_append, List.cons_append, List.intersperse_cons_cons, htail,
        List.intersperse_cons_cons]
      rfl

/-- Spaced arguments are missing exactly when there are no words. -/
theorem spaced_eq_nil_iff {keepSpacing : Bool} {words : List String} :
    spaced keepSpacing words = [] ↔ words = [] := by
  cases keepSpacing with
  | false => rfl
  | true =>
    cases words with
    | nil => exact iff_of_true rfl rfl
    | cons word rest =>
      cases rest with
      | nil => exact iff_of_false (List.cons_ne_nil _ _) (List.cons_ne_nil _ _)
      | cons next more => exact iff_of_false (List.cons_ne_nil _ _) (List.cons_ne_nil _ _)

namespace SegmentDraft

/-- What counts of a draft in the end: its arguments and its redirections. -/
def operands (draft : SegmentDraft) : List String × List Redirection :=
  (draft.args.toList, draft.redirections.toList)

/-- A word that is added after spaces is the last of the words that give the arguments. -/
theorem addWord_args {keepSpacing : Bool} {draft : SegmentDraft} {words : List String}
    (hargs : draft.args.toList = spaced keepSpacing words) (hseparated : draft.separated = true)
    (word : String) :
    (draft.addWord keepSpacing word).args.toList = spaced keepSpacing (words ++ [word]) := by
  cases keepSpacing with
  | false =>
    have hwords : draft.args.toList = words := hargs
    simp only [addWord, Bool.false_and, Bool.false_eq_true, if_false, Array.toList_push, hwords]
    rfl
  | true =>
    by_cases hwords : words = []
    · have hempty : draft.args = #[] := by
        apply Array.toList_inj.mp
        rw [hargs, hwords]
        rfl
      simp only [addWord, hempty, hwords, hseparated]
      rfl
    · have hnonempty : draft.args.isEmpty = false := by
        rw [← Array.isEmpty_toList, hargs, List.isEmpty_eq_false_iff]
        exact mt spaced_eq_nil_iff.mp hwords
      have hspaced : spaced true (words ++ [word]) = spaced true words ++ [" ", word] :=
        intersperse_append_singleton " " word hwords
      simp only [addWord, hseparated, hnonempty, Bool.and_self, Bool.not_false, if_true,
        Array.toList_push, hargs, hspaced, List.append_assoc]
      rfl

end SegmentDraft

/-- A redirection with a target is added, and reading goes on behind the target. -/
theorem parseOperands_redirect {keepSpacing : Bool} {draft : SegmentDraft} {mode : RedirectMode}
    {tag path : String} {rest more : List Token} (h : redirectTarget? rest = some (path, more)) :
    parseOperands keepSpacing draft (.redirect mode tag :: rest) =
      parseOperands keepSpacing (draft.addRedirection ⟨mode, .ofTag tag, ⟨path⟩⟩) more := by
  rw [parseOperands]
  split
  next hnone =>
    rw [h] at hnone
    cases hnone
  next hsome =>
    rw [h] at hsome
    obtain ⟨rfl, rfl⟩ := Prod.mk.inj (Option.some.inj hsome)
    rfl

/-- A redirection without a target is an error. -/
theorem parseOperands_redirect_error {keepSpacing : Bool} {draft : SegmentDraft}
    {mode : RedirectMode} {tag : String} {rest : List Token} (h : redirectTarget? rest = none) :
    parseOperands keepSpacing draft (.redirect mode tag :: rest) =
      .error .missingRedirectTarget := by
  rw [parseOperands]
  split
  next => rfl
  next hsome =>
    rw [h] at hsome
    cases hsome

/-- An operator lacks a target when no word with a character follows it. -/
theorem Part.lacksTarget_operator (mode : RedirectMode) (tag : String) {operands : List Part}
    (h : ∀ path rest, operands = .word path :: rest → path.isEmpty = true) :
    lacksTarget (.operator mode tag :: operands) = true := by
  cases operands with
  | nil => rfl
  | cons part rest =>
    cases part with
    | operator mode tag => rfl
    | word path => simp only [lacksTarget, h path rest rfl, Bool.true_or]

/-- The operands of a chunk are read as its parts say, when no word is glued to what stands before
the chunk. -/
theorem parseOperands_append {keepSpacing : Bool} (draft : SegmentDraft) {chunk tail : List Token}
    {words : List String} (hchunk : .pipe ∉ chunk) (htail : EndsChunk tail)
    (hargs : draft.args.toList = spaced keepSpacing words)
    (hseparated : draft.separated = true ∨ chunk.head?.any Token.isLiteral = false) :
    (parseOperands keepSpacing draft (chunk ++ tail)).map (Prod.map SegmentDraft.operands id) =
      if Part.lacksTarget (parts chunk) then .error .missingRedirectTarget
      else
        .ok ((spaced keepSpacing (words ++ Part.words (parts chunk)),
          draft.redirections.toList ++ Part.redirections (parts chunk)), tail) := by
  -- A word takes a whole run of literals, so the rest is shorter by more than one token.
  induction hlength : chunk.length using Nat.strongRecOn generalizing chunk draft words with
  | ind length ih =>
    subst hlength
    cases chunk with
    | nil =>
      have hread : parseOperands keepSpacing draft tail = .ok (draft, tail) := by
        cases tail with
        | nil => rw [parseOperands]
        | cons token rest =>
          obtain rfl := htail token rfl
          rw [parseOperands]
      rw [List.nil_append, hread, parts]
      simp only [Part.lacksTarget, Part.words, Part.redirections, List.append_nil, ← hargs]
      rfl
    | cons token chunk =>
      have hpipe : .pipe ∉ chunk := fun h => hchunk (List.mem_cons_of_mem _ h)
      cases token with
      | literal text =>
        have hspaces : draft.separated = true := by
          rcases hseparated with h | h
          · exact h
          · cases h
        obtain ⟨word, more, hglue, hparts, hle, hmore, hliteral⟩ := htail.glue_append hpipe text
        have hrest := ih more.length (Nat.lt_succ_of_le hle) _ hmore
          (SegmentDraft.addWord_args hargs hspaces word) (.inr hliteral) rfl
        rw [List.cons_append, parseOperands, hglue, hrest, hparts]
        simp only [Part.lacksTarget, Part.words, Part.redirections, List.append_assoc,
          List.singleton_append]
        rfl
      | space =>
        rw [List.cons_append, parseOperands, parts]
        exact ih chunk.length (Nat.lt_succ_self _) draft.addSpace hpipe hargs (.inl rfl) rfl
      | redirect mode tag =>
        rw [List.cons_append, parts]
        by_cases htarget : ∃ path rest, parts chunk = .word path :: rest ∧ path.isEmpty = false
        · obtain ⟨path, rest, hword, hpath⟩ := htarget
          obtain ⟨more, hread, rfl, hlt, hmore, hliteral⟩ :=
            redirectTarget?_of_parts hpipe htail hword hpath
          have hrest := ih more.length (Nat.lt_succ_of_lt hlt)
            (draft.addRedirection ⟨mode, .ofTag tag, ⟨path⟩⟩) hmore hargs (.inr hliteral) rfl
          rw [parseOperands_redirect hread, hrest, hword]
          simp only [Part.lacksTarget, Part.words, Part.redirections, hpath, Bool.false_or,
            SegmentDraft.addRedirection, Array.toList_push, List.append_assoc,
            List.singleton_append]
          rfl
        · have hempty : ∀ path rest, parts chunk = .word path :: rest → path.isEmpty = true := by
            intro path rest hword
            cases hpath : path.isEmpty with
            | true => rfl
            | false => exact absurd ⟨path, rest, hword, hpath⟩ htarget
          rw [parseOperands_redirect_error (redirectTarget?_eq_none hpipe htail hempty),
            if_pos (Part.lacksTarget_operator mode tag hempty)]
          rfl
      | pipe => exact absurd List.mem_cons_self hchunk

/-- A stage with a name is this name with the operands that follow it. -/
theorem parseSegment_of_name {tokens rest : List Token} {name : String}
    (hread : word? (skipSpaces tokens) = some (name, rest)) (hname : name.isEmpty = false) :
    parseSegment tokens =
      ((parseOperands (keepsSpacing name) .empty rest).map
        (Prod.map SegmentDraft.operands id)).map
          fun read => (⟨name, read.1.1, read.1.2⟩, read.2) := by
  simp only [parseSegment, hread, hname, Bool.false_eq_true, if_false]
  cases parseOperands (keepsSpacing name) .empty rest <;> rfl

/-- One stage is read off one chunk, and what ends the chunk is handed on. -/
theorem parseSegment_append {chunk tail : List Token} (hchunk : .pipe ∉ chunk)
    (htail : EndsChunk tail) :
    parseSegment (chunk ++ tail) = (Segment.ofChunk chunk).map fun segment => (segment, tail) := by
  by_cases hword : ∃ name rest, parts chunk = .word name :: rest
  · obtain ⟨name, rest, hparts⟩ := hword
    obtain ⟨more, hread, rfl, -, hmore, hliteral⟩ := word?_of_parts hchunk htail hparts
    simp only [Segment.ofChunk, hparts]
    cases hname : name.isEmpty with
    | true =>
      simp only [parseSegment, hread, hname, if_true]
      rfl
    | false =>
      have hargs : SegmentDraft.empty.args.toList = spaced (keepsSpacing name) [] := by
        cases keepsSpacing name <;> rfl
      have hoperands := parseOperands_append .empty hmore htail hargs (.inr hliteral)
      rw [parseSegment_of_name hread hname, hoperands]
      by_cases hlacks : Part.lacksTarget (parts more)
      · simp only [if_pos hlacks, Bool.false_eq_true, if_false]
        rfl
      · simp only [if_neg hlacks, Bool.false_eq_true, if_false]
        rfl
  · have hnone : ∀ name rest, parts chunk ≠ .word name :: rest := fun name rest h =>
      hword ⟨name, rest, h⟩
    have herror : Segment.ofChunk chunk = .error .noCommand := by
      unfold Segment.ofChunk
      split
      next name rest hparts => exact absurd hparts (hnone name rest)
      next => rfl
    simp only [parseSegment, word?_eq_none_of_parts hchunk htail hnone, herror]
    rfl

/-- A stage that cannot be read ends the reading of stages. -/
theorem parseSegments_error {read : Array Segment} {tokens : List Token} {e : ParseError}
    (h : parseSegment tokens = .error e) : parseSegments read tokens = .error e := by
  rw [parseSegments]
  split
  next herror => rw [h] at herror; cases herror; rfl
  next hok => rw [h] at hok; cases hok
  next hok => rw [h] at hok; cases hok

/-- A pipe behind a stage makes the reading of stages go on. -/
theorem parseSegments_pipe {read : Array Segment} {tokens rest : List Token} {segment : Segment}
    (h : parseSegment tokens = .ok (segment, .pipe :: rest)) :
    parseSegments read tokens = parseSegments (read.push segment) rest := by
  rw [parseSegments]
  split
  next herror => rw [h] at herror; cases herror
  next hok => rw [h] at hok; cases hok; rfl
  next hother hok =>
    rw [h] at hok
    cases hok
    exact absurd rfl (hother rest)

/-- A stage with nothing behind it is the last one. -/
theorem parseSegments_last {read : Array Segment} {tokens : List Token} {segment : Segment}
    (h : parseSegment tokens = .ok (segment, [])) :
    parseSegments read tokens = .ok (read.push segment) := by
  rw [parseSegments]
  split
  next herror => rw [h] at herror; cases herror
  next hok => rw [h] at hok; cases hok
  next hok => rw [h] at hok; cases hok; rfl

/-- Stages are read off the chunks between pipes, up to the first chunk that denotes none. -/
theorem parseSegments_intercalate (read : Array Segment) {chunks : List (List Token)}
    (hchunks : ∀ chunk ∈ chunks, .pipe ∉ chunk) (hne : chunks ≠ []) :
    parseSegments read ([Token.pipe].intercalate chunks) =
      (chunks.mapM Segment.ofChunk).map fun segments => read ++ segments.toArray := by
  induction chunks generalizing read with
  | nil => exact absurd rfl hne
  | cons chunk rest ih =>
    have hchunk := hchunks chunk List.mem_cons_self
    rw [List.mapM_cons]
    cases rest with
    | nil =>
      have hsegment := parseSegment_append hchunk endsChunk_nil
      rw [List.append_nil] at hsegment
      rw [List.intercalate_singleton]
      cases hread : Segment.ofChunk chunk with
      | error e =>
        rw [hread] at hsegment
        rw [parseSegments_error hsegment]
        rfl
      | ok segment =>
        rw [hread] at hsegment
        rw [parseSegments_last hsegment]
        show Except.ok (read.push segment) = Except.ok (read ++ #[segment])
        rw [Array.push_eq_append]
    | cons next more =>
      have hsegment := parseSegment_append hchunk
        (endsChunk_pipe ([Token.pipe].intercalate (next :: more)))
      rw [List.intercalate_cons_cons, List.append_assoc, List.singleton_append]
      cases hread : Segment.ofChunk chunk with
      | error e =>
        rw [hread] at hsegment
        rw [parseSegments_error hsegment]
        rfl
      | ok segment =>
        rw [hread] at hsegment
        rw [parseSegments_pipe hsegment,
          ih _ (fun chunk h => hchunks chunk (List.mem_cons_of_mem _ h)) (List.cons_ne_nil _ _)]
        cases (next :: more).mapM Segment.ofChunk with
        | error e => rfl
        | ok segments =>
          show Except.ok (read.push segment ++ segments.toArray) =
            Except.ok (read ++ (segment :: segments).toArray)
          refine congrArg Except.ok (Array.toList_inj.mp ?_)
          simp only [Array.toList_append, Array.toList_push, List.append_assoc,
            List.singleton_append]

/-- The pieces between separators hold no separator. -/
theorem not_mem_of_mem_splitOn {α : Type} [BEq α] [LawfulBEq α] {a : α} {xs piece : List α}
    (hpiece : piece ∈ xs.splitOn a) : a ∉ piece := by
  induction xs generalizing piece with
  | nil =>
    obtain rfl := List.mem_singleton.mp hpiece
    exact List.not_mem_nil
  | cons x rest ih =>
    rw [List.splitOn_cons_eq_if_modifyHead] at hpiece
    by_cases hx : (x == a) = true
    · rw [if_pos hx] at hpiece
      rcases List.mem_cons.mp hpiece with rfl | hrest
      · exact List.not_mem_nil
      · exact ih hrest
    · rw [if_neg hx] at hpiece
      cases hsplit : rest.splitOn a with
      | nil => exact absurd hsplit (List.splitOn_ne_nil a rest)
      | cons first more =>
        rw [hsplit, List.modifyHead_cons] at hpiece
        rcases List.mem_cons.mp hpiece with rfl | hmore
        · intro hmem
          rcases List.mem_cons.mp hmem with rfl | hfirst
          · exact hx BEq.rfl
          · exact ih (hsplit ▸ List.mem_cons_self) hfirst
        · exact ih (hsplit ▸ List.mem_cons_of_mem _ hmore)

namespace Part

/-- Whether a part is an operator. -/
def isOperator : Part → Bool
  | operator _ _ => true
  | word _ => false

/-- Parts that lack no target have as many redirections as operators. -/
theorem redirections_isEmpty {operands : List Part} (h : lacksTarget operands = false) :
    (redirections operands).isEmpty = !operands.any isOperator := by
  fun_induction lacksTarget operands with
  | case1 mode tag path rest ih => rfl
  | case2 mode tag rest hword => cases h
  | case3 text rest ih => exact ih h
  | case4 => rfl

end Part

/-- A run of literals holds no operator. -/
theorem any_isRedirect_dropWhile (tokens : List Token) :
    (tokens.dropWhile Token.isLiteral).any Token.isRedirect = tokens.any Token.isRedirect := by
  induction tokens with
  | nil => rfl
  | cons token rest ih =>
    cases token with
    | literal text => exact ih
    | space => rfl
    | redirect mode tag => rfl
    | pipe => rfl

/-- A chunk has an operator among its parts exactly when it has one among its tokens. -/
theorem any_isOperator_parts (chunk : List Token) :
    (parts chunk).any Part.isOperator = chunk.any Token.isRedirect := by
  fun_induction parts chunk with
  | case1 => rfl
  | case2 text rest ih =>
    rw [List.any_cons, List.any_cons, ih, any_isRedirect_dropWhile]
    rfl
  | case3 mode tag rest ih => rfl
  | case4 rest ih => exact ih
  | case5 rest ih => exact ih

/-- The stage of a chunk is redirected exactly when there is an operator in the chunk. -/
theorem Segment.redirections_isEmpty_of_ofChunk {chunk : List Token} {segment : Segment}
    (h : Segment.ofChunk chunk = .ok segment) :
    segment.redirections.isEmpty = !chunk.any Token.isRedirect := by
  rw [← any_isOperator_parts]
  unfold Segment.ofChunk at h
  split at h
  next name operands hparts =>
    split at h
    · cases h
    · split at h
      · cases h
      next hlacks =>
        cases h
        rw [hparts, Part.redirections_isEmpty (by simpa using hlacks)]
        rfl
  next => cases h

/-- The stages of chunks are those of the first chunk and of the others. -/
theorem mapM_ofChunk_cons {chunk : List Token} {rest : List (List Token)}
    {segments : List Segment} (h : (chunk :: rest).mapM Segment.ofChunk = .ok segments) :
    ∃ segment more, Segment.ofChunk chunk = .ok segment ∧
      rest.mapM Segment.ofChunk = .ok more ∧ segments = segment :: more := by
  rw [List.mapM_cons] at h
  cases hchunk : Segment.ofChunk chunk with
  | error e =>
    rw [hchunk] at h
    cases h
  | ok segment =>
    cases hrest : rest.mapM Segment.ofChunk with
    | error e =>
      rw [hchunk, hrest] at h
      cases h
    | ok more =>
      rw [hchunk, hrest] at h
      cases h
      exact ⟨segment, more, rfl, rfl, rfl⟩

/-- Each of the stages of chunks is denoted by one of the chunks. -/
theorem exists_chunk_of_mem {chunks : List (List Token)} {segments : List Segment}
    (h : chunks.mapM Segment.ofChunk = .ok segments) :
    ∀ segment ∈ segments, ∃ chunk ∈ chunks, Segment.ofChunk chunk = .ok segment := by
  induction chunks generalizing segments with
  | nil =>
    cases h
    exact fun _ hmem => absurd hmem List.not_mem_nil
  | cons chunk rest ih =>
    obtain ⟨first, more, hchunk, hrest, rfl⟩ := mapM_ofChunk_cons h
    intro segment hmem
    rcases List.mem_cons.mp hmem with rfl | hmore
    · exact ⟨chunk, List.mem_cons_self, hchunk⟩
    · obtain ⟨other, hother, hsegment⟩ := ih hrest segment hmore
      exact ⟨other, List.mem_cons_of_mem _ hother, hsegment⟩

/-- The first redirected stage before the last is the stage of the first chunk before the last that
holds an operator. -/
theorem find?_redirected {chunks : List (List Token)} {segments : List Segment}
    (h : chunks.mapM Segment.ofChunk = .ok segments) :
    (segments.dropLast.find? fun segment => !segment.redirections.isEmpty) =
      ((chunks.dropLast.zip segments).find? fun stage => stage.1.any Token.isRedirect).map
        Prod.snd := by
  induction chunks generalizing segments with
  | nil =>
    cases h
    rfl
  | cons chunk rest ih =>
    obtain ⟨segment, more, hchunk, hrest, rfl⟩ := mapM_ofChunk_cons h
    cases rest with
    | nil =>
      cases hrest
      rfl
    | cons next others =>
      have hmore := ih hrest
      obtain ⟨second, after, -, -, rfl⟩ := mapM_ofChunk_cons hrest
      have hredirected := Segment.redirections_isEmpty_of_ofChunk hchunk
      rw [List.dropLast_cons_cons, List.dropLast_cons_cons, List.zip_cons_cons, List.find?_cons,
        List.find?_cons, hmore, hredirected, Bool.not_not]
      cases chunk.any Token.isRedirect <;> rfl

/-- The parser accepts chunks between pipes that denote stages of which only the last one is
redirected, and nothing else. -/
theorem parsePipeline_intercalate_eq_ok_iff {chunks : List (List Token)}
    (hchunks : ∀ chunk ∈ chunks, .pipe ∉ chunk) (hne : chunks ≠ []) (p : Pipeline) :
    parsePipeline ([Token.pipe].intercalate chunks) = .ok p ↔
      chunks.mapM Segment.ofChunk = .ok p.segments ∧
        ∀ segment ∈ p.segments.dropLast, segment.redirections = [] := by
  unfold parsePipeline
  rw [parseSegments_intercalate #[] hchunks hne]
  cases chunks.mapM Segment.ofChunk with
  | error e => exact iff_of_false (fun h => by cases h) (fun h => by cases h.1)
  | ok segments =>
    simp only [Except.map, Array.empty_append, Except.ok.injEq]
    cases hfind : segments.dropLast.find? fun segment => !segment.redirections.isEmpty with
    | some segment =>
      have hredirected := List.find?_some hfind
      refine iff_of_false (fun h => by cases h) ?_
      rintro ⟨rfl, hnone⟩
      rw [hnone segment (List.mem_of_find?_eq_some hfind)] at hredirected
      cases hredirected
    | none =>
      have hnone : ∀ segment ∈ segments.dropLast, segment.redirections = [] := by
        intro segment hsegment
        simpa using List.find?_eq_none.mp hfind segment hsegment
      constructor
      · intro h
        cases h
        exact ⟨rfl, hnone⟩
      · rintro ⟨rfl, -⟩
        rfl

/-- The parser gives what the chunks between the pipes denote: the stages of the chunks, the error
of the first chunk that denotes none, or the first stage before the last that redirects its
output. -/
theorem parsePipeline_eq_ofChunks (tokens : List Token) :
    parsePipeline tokens = Pipeline.ofChunks (tokens.splitOn .pipe) := by
  have hchunks : ∀ chunk ∈ tokens.splitOn Token.pipe, Token.pipe ∉ chunk := fun _ =>
    not_mem_of_mem_splitOn
  have hread := parseSegments_intercalate #[] hchunks (List.splitOn_ne_nil Token.pipe tokens)
  rw [List.intercalate_splitOn] at hread
  unfold parsePipeline Pipeline.ofChunks
  rw [hread]
  cases hstages : (tokens.splitOn .pipe).mapM Segment.ofChunk with
  | error e => rfl
  | ok segments =>
    have hfind := find?_redirected hstages
    simp only [Except.map, Array.empty_append, hfind]
    cases (((tokens.splitOn .pipe).dropLast.zip segments).find?
      fun stage => stage.1.any Token.isRedirect) <;> rfl

end LineShell
