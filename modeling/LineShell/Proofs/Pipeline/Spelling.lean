import LineShell.Proofs.Pipeline.Rows
import LineShell.Proofs.Pipeline.Written
import LineShell.Proofs.Token.Contents
import LineShell.Proofs.Token.Display
import LineShell.Proofs.Token.Pieces

/-!
# Spellings of a word

A word can be written in single quotes, in double quotes, with a backslash before every character,
or bare, and each piece of it in another of these ways. The lexer may cut such a word into literals
anywhere, but their texts in a row are the text of the word, and the parser glues them.

A piece is met at a token boundary, behind a digit or inside a bare word, and it is left in one of
these states as well. The invariant is that the literals completed so far and what the state holds
are the text read so far.
-/

namespace LineShell

/-- The ways to write the characters of a word. -/
inductive QuotingStyle where
  /-- In single quotes. -/
  | single
  /-- In double quotes, with a backslash before each backslash and double quote. -/
  | double
  /-- With a backslash before each character. -/
  | escaped
  /-- As they are. -/
  | bare
  deriving DecidableEq, Repr

namespace QuotingStyle

/-- Whether a character can be written in this way. -/
def Allows (style : QuotingStyle) (c : Char) : Prop :=
  match style with
  | single => c ≠ '\x27'
  | bare => c ∉ LexState.specialChars
  | double | escaped => True

instance (style : QuotingStyle) (c : Char) : Decidable (style.Allows c) :=
  match style with
  | single => inferInstanceAs (Decidable (c ≠ '\x27'))
  | bare => inferInstanceAs (Decidable (c ∉ LexState.specialChars))
  | double | escaped => inferInstanceAs (Decidable True)

/-- Characters written in this way. -/
def written (style : QuotingStyle) (cs : List Char) : List Char :=
  match style with
  | single => '\x27' :: cs ++ ['\x27']
  | double => '\x22' :: cs.flatMap Token.displayChar ++ ['\x22']
  | escaped => cs.flatMap fun c => ['\\', c]
  | bare => cs

end QuotingStyle

/-- Whether all characters of a text can be written in this way. -/
def QuotingStyle.AllowsAll (style : QuotingStyle) (text : String) : Prop :=
  ∀ c ∈ text.toList, style.Allows c

instance (style : QuotingStyle) : DecidablePred style.AllowsAll := fun text =>
  List.decidableBAll style.Allows text.toList

/-- A piece of a word: a text and a way to write all of its characters. -/
structure WordPiece where
  text : String
  style : QuotingStyle
  allowed : style.AllowsAll text

/-- The characters of which a piece is written. -/
def WordPiece.written (piece : WordPiece) : List Char := piece.style.written piece.text.toList

/-- The written form of a word that consists of pieces. -/
def writtenWord (pieces : List WordPiece) : String :=
  String.ofList (pieces.flatMap WordPiece.written)

/-- The text of a word that consists of pieces. -/
def wordText (pieces : List WordPiece) : String := String.join (pieces.map WordPiece.text)

namespace LexState

/-- Whether a piece of a word may begin or end in a state. -/
def atPiece : LexState → Bool
  | normal | digit _ | word _ => true
  | _ => false

/-- From the given state, characters are read as literals, and what was held before and the given
text are in these literals and in what is held then. Unless there was nothing at all, something is
completed or held. -/
def SpellsFrom (state : LexState) (cs text : List Char) : Prop :=
  ∃ texts next, atPiece next = true ∧
    (∀ rest, state.read (cs ++ rest) = withTokens (texts.map Token.literal) (next.read rest)) ∧
    state.held ++ text = texts.flatMap String.toList ++ next.held ∧
    (state ≠ normal ∨ cs ≠ [] → texts ≠ [] ∨ next ≠ normal)

/-- Characters spell a text when they do so wherever a piece of a word may begin. -/
def Spells (cs text : List Char) : Prop :=
  ∀ state : LexState, state.atPiece = true → state.SpellsFrom cs text

/-- No characters spell the empty text. -/
theorem Spells.nil : Spells [] [] := by
  intro state hstate
  refine ⟨[], state, hstate, fun rest => (withTokens_nil _).symm, by simp, fun h => ?_⟩
  exact .inr (h.resolve_right fun hne => hne rfl)

/-- Spellings in a row spell the texts in a row. -/
theorem Spells.append {first second firstText secondText : List Char}
    (hfirst : Spells first firstText) (hsecond : Spells second secondText) :
    Spells (first ++ second) (firstText ++ secondText) := by
  intro state hstate
  obtain ⟨texts, middle, hmiddle, hread, hheld, hprogress⟩ := hfirst state hstate
  obtain ⟨more, next, hnext, hreadMore, hheldMore, hprogressMore⟩ := hsecond middle hmiddle
  refine ⟨texts ++ more, next, hnext, ?_, ?_, ?_⟩
  · intro rest
    rw [List.append_assoc, hread, hreadMore, withTokens_withTokens, List.map_append]
  · rw [← List.append_assoc, hheld, List.append_assoc, hheldMore, List.flatMap_append,
      List.append_assoc]
  · intro h
    by_cases htexts : texts = []
    · have hmore : middle ≠ normal ∨ second ≠ [] := by
        by_cases hsome : state ≠ normal ∨ first ≠ []
        · exact .inl ((hprogress hsome).resolve_left fun hne => hne htexts)
        · right
          intro hnone
          rw [hnone, List.append_nil] at h
          exact hsome h
      exact (hprogressMore hmore).imp_left (by simp [htexts])
    · exact .inl (by simp [htexts])

/-- Spellings of pieces in a row spell their texts in a row. -/
theorem Spells.flatMap {α : Type} {spelling text : α → List Char} {xs : List α}
    (h : ∀ x ∈ xs, Spells (spelling x) (text x)) :
    Spells (xs.flatMap spelling) (xs.flatMap text) := by
  induction xs with
  | nil => exact .nil
  | cons x rest ih =>
    obtain ⟨hx, hrest⟩ := List.forall_mem_cons.mp h
    exact hx.append (ih hrest)

/-- Behind a digit, characters that begin no redirection are read as behind the word that consists
of the digit. So to spell a text they only have to do so at a token boundary and inside words. -/
theorem Spells.of_word {c : Char} {cs text : List Char} (hspace : c ≠ ' ') (hsign : c ≠ '>')
    (hnormal : normal.SpellsFrom (c :: cs) text)
    (hword : ∀ before, (word before).SpellsFrom (c :: cs) text) : Spells (c :: cs) text := by
  intro state hstate
  cases state with
  | normal => exact hnormal
  | word before => exact hword before
  | digit name =>
    obtain ⟨texts, next, hnext, hread, hheld, hprogress⟩ := hword (String.singleton name)
    refine ⟨texts, next, hnext, fun rest => ?_, ?_, fun _ => hprogress (.inl nofun)⟩
    · rw [← hread]
      exact read_digit_word name (by simpa using hsign) fun _ h => absurd (List.cons.inj h).1 hspace
    · rw [← hheld]
      simp [held]
  | _ => cases hstate

/-- A bare character spells itself. -/
theorem spells_bare {c : Char} (hc : c ∉ specialChars) : Spells [c] [c] := by
  have hspace : c ≠ ' ' := fun h => hc (by simp [specialChars, h])
  have hsign : c ≠ '>' := fun h => hc (by simp [specialChars, h])
  apply Spells.of_word hspace hsign
  · rcases step_normal_plain hc with hstep | ⟨-, hstep⟩
    · refine ⟨[], word (String.singleton c), rfl, fun rest => ?_, by simp [held], by simp⟩
      rw [List.singleton_append, read_cons, hstep]
      rfl
    · refine ⟨[], digit c, rfl, fun rest => ?_, by simp [held], by simp⟩
      rw [List.singleton_append, read_cons, hstep]
      rfl
  · intro before
    refine ⟨[], word (before.push c), rfl, fun rest => ?_, by simp [held], by simp⟩
    rw [List.singleton_append, read_cons, step_word_plain before hc]
    rfl

/-- A character behind a backslash spells itself. -/
theorem spells_escaped (c : Char) : Spells ['\\', c] [c] := by
  apply Spells.of_word (by decide) (by decide)
  · refine ⟨[String.singleton c], normal, rfl, fun rest => ?_, by simp [held], by simp⟩
    exact withTokens_nil _
  · intro before
    refine ⟨[], word (before.push c), rfl, fun rest => ?_, by simp [held], by simp⟩
    have hslash : (word before).step '\\' = ([], wordEscape before) := rfl
    rw [List.cons_append, List.cons_append, read_cons, hslash, withTokens_nil, read_cons]
    rfl

/-- A quotation that is read as a literal spells the text of the literal. It completes the bare word
before it, if there is one. -/
theorem spells_quotation {quote : Char} {cs text : List Char}
    (hquote : quote = '\x27' ∨ quote = '\x22')
    (hread : ∀ rest, normal.read (quote :: cs ++ rest) =
      withTokens [.literal (String.ofList text)] (normal.read rest)) :
    Spells (quote :: cs) text := by
  have hends : endsWord quote = true := by rcases hquote with rfl | rfl <;> rfl
  apply Spells.of_word
  · rcases hquote with rfl | rfl <;> decide
  · rcases hquote with rfl | rfl <;> decide
  · exact ⟨[String.ofList text], normal, rfl, hread, by simp [held], by simp⟩
  · intro before
    refine ⟨[before, String.ofList text], normal, rfl, fun rest => ?_, by simp [held], by simp⟩
    have hstep : (word before).step quote = enterNormal [.literal before] quote := by
      simp only [step, stepWord, hends, if_true]
    rw [List.cons_append, read_cons, hstep, withTokens_enterNormal, ← List.cons_append, hread,
      withTokens_withTokens]
    rfl

/-- At the end of the line a word that is spelled is complete: what the state holds is the last
literal, unless it holds nothing. -/
theorem finish_of_atPiece {state : LexState} (hstate : state.atPiece = true) :
    ∃ last : List String, state.finish = .ok (last.map Token.literal) ∧
      last.flatMap String.toList = state.held ∧ (state ≠ normal → last ≠ []) := by
  cases state with
  | normal => exact ⟨[], rfl, rfl, fun h => absurd rfl h⟩
  | word text => exact ⟨[text], rfl, by simp [held], fun _ => by simp⟩
  | digit name => exact ⟨[String.singleton name], rfl, by simp [held], fun _ => by simp⟩
  | _ => cases hstate

/-- A line that spells a text has only literals, and their texts in a row are this text. -/
theorem Spells.read {cs text : List Char} (h : Spells cs text) :
    ∃ texts : List String, normal.read cs = .ok (texts.map Token.literal) ∧
      String.join texts = String.ofList text ∧ (cs ≠ [] → texts ≠ []) := by
  obtain ⟨texts, next, hnext, hread, hheld, hprogress⟩ := h normal rfl
  obtain ⟨last, hfinish, hlast, hlastNe⟩ := finish_of_atPiece hnext
  refine ⟨texts ++ last, ?_, ?_, ?_⟩
  · have hline := hread []
    rw [List.append_nil, read_nil, hfinish, withTokens_ok, ← List.map_append] at hline
    exact hline
  · apply String.toList_injective
    rw [String.toList_join, List.flatMap_append, hlast, ← hheld, String.toList_ofList]
    rfl
  · intro hne
    rcases hprogress (.inr hne) with htexts | hnormal
    · simp [htexts]
    · simp [hlastNe hnormal]

/-- A line of nothing but literals begins neither with a space nor with a redirection. -/
theorem head?_of_read_literals {cs : List Char} {texts : List String}
    (h : normal.read cs = .ok (texts.map Token.literal)) :
    cs.head? ≠ some ' ' ∧ cs.head? ≠ some '>' := by
  have hnone {token : Token} {result : Except LexError (List Token)} (hliteral : ∀ text,
      token ≠ .literal text) : withTokens [token] result ≠ .ok (texts.map Token.literal) := by
    intro hline
    cases result with
    | error e => cases hline
    | ok tokens =>
      have htoken : token ∈ texts.map Token.literal := by
        rw [← Except.ok.inj hline]
        exact List.mem_cons_self
      obtain ⟨text, -, rfl⟩ := List.mem_map.mp htoken
      exact hliteral text rfl
  constructor
  · intro hspace
    obtain ⟨rest, rfl⟩ := List.head?_eq_some_iff.mp hspace
    refine hnone (fun _ hliteral => ?_) h
    cases hliteral
  · intro hsign
    obtain ⟨rest, rfl⟩ := List.head?_eq_some_iff.mp hsign
    obtain ⟨mode, more, hredirect⟩ := exists_read_redirect rest
    have hread : normal.read ('>' :: rest) = (redirect Token.stdoutTag).read rest :=
      withTokens_nil _
    rw [hread, hredirect] at h
    refine hnone (fun _ hliteral => ?_) h
    cases hliteral

end LexState

/-- Characters that are written in a way that allows them spell themselves. -/
theorem QuotingStyle.spells {style : QuotingStyle} {cs : List Char}
    (hallowed : ∀ c ∈ cs, style.Allows c) : LexState.Spells (style.written cs) cs := by
  have heach : cs.flatMap (fun c => [c]) = cs := by simp
  cases style with
  | single =>
    have hquotes : '\x27' ∉ cs := fun h => hallowed _ h rfl
    refine LexState.spells_quotation (.inl rfl) fun rest => ?_
    have hread := LexState.read_singleQuote_closed "" rest hquotes
    rw [String.empty_append] at hread
    rw [← hread, List.append_cons cs]
    exact withTokens_nil _
  | double =>
    refine LexState.spells_quotation (.inr rfl) fun rest => ?_
    have hread := LexState.read_doubleQuote_display "" cs rest
    rw [String.empty_append] at hread
    rw [← hread, List.append_cons (cs.flatMap Token.displayChar)]
    exact withTokens_nil _
  | escaped =>
    have hspells := LexState.Spells.flatMap fun c (_ : c ∈ cs) => LexState.spells_escaped c
    rwa [heach] at hspells
  | bare =>
    have hspells := LexState.Spells.flatMap fun c hc => LexState.spells_bare (hallowed c hc)
    rwa [heach] at hspells

/-- The written form of a word spells the text of the word. -/
theorem spells_writtenWord (pieces : List WordPiece) :
    LexState.Spells (writtenWord pieces).toList (wordText pieces).toList := by
  have hspells := LexState.Spells.flatMap fun piece (_ : piece ∈ pieces) =>
    QuotingStyle.spells piece.allowed
  rw [writtenWord, String.toList_ofList, wordText, String.toList_join, List.flatMap_map]
  exact hspells

/-- A name and one word behind it are a stage with one argument, even for a command that keeps the
spacing between its words. -/
theorem parsePipeline_word {name : String} {texts : List String} (hname : name ≠ "")
    (htexts : texts ≠ []) :
    parsePipeline (.literal name :: .space :: texts.map Token.literal) =
      .ok ⟨[⟨name, [String.join texts], []⟩]⟩ := by
  have hparts : parts (.literal name :: .space :: texts.map Token.literal) =
      [.word name, .word (String.join texts)] := by
    have hend : ([] : List Token).head?.any Token.isLiteral = false := rfl
    have hwords := parts_literals htexts hend
    rw [List.append_nil, parts] at hwords
    simp [parts, Token.isLiteral, hwords]
  have hchunk : Segment.ofChunk (.literal name :: .space :: texts.map Token.literal) =
      .ok ⟨name, [String.join texts], []⟩ := by
    simp [Segment.ofChunk, hparts, hname, Part.lacksTarget, Part.words, Part.redirections, spaced]
  have hpipe : Token.pipe ∉ .literal name :: .space :: texts.map Token.literal := by simp
  rw [parsePipeline_eq_ok_iff, stagesIn_chunk hpipe, hchunk]
  exact ⟨rfl, fun _ h => absurd h List.not_mem_nil⟩

/-- All quoting styles denote the same word, and they can be mixed. A word that is written in
pieces, each in a style that allows its characters, has only literals, whose texts in a row are the
texts of the pieces. Behind a bare name and a space it is the one argument of the one stage of this
name. -/
theorem tokenize_writtenWord (pieces : List WordPiece) :
    (∃ texts : List String, tokenize (writtenWord pieces) = .ok (texts.map Token.literal) ∧
        String.join texts = wordText pieces) ∧
      (writtenWord pieces ≠ "" → ∀ name, name ≠ "" → IsPlain name →
        parseLine (name ++ " " ++ writtenWord pieces) =
          .ok ⟨[⟨name, [wordText pieces], []⟩]⟩) := by
  obtain ⟨texts, hread, hjoin, hne⟩ := (spells_writtenWord pieces).read
  rw [String.ofList_toList] at hjoin
  constructor
  · refine ⟨texts, ?_, hjoin⟩
    rw [tokenize, tokenizeChars_eq_read, hread]
  · intro hwritten name hname hplain
    have hsome : (writtenWord pieces).toList ≠ [] := fun h =>
      hwritten (String.toList_eq_nil_iff.mp h)
    have hchars : name.toList ≠ [] := fun h => hname (String.toList_eq_nil_iff.mp h)
    obtain ⟨hspace, hsign⟩ := LexState.head?_of_read_literals hread
    have hafter : LexState.spaces.read (writtenWord pieces).toList =
        LexState.normal.read (writtenWord pieces).toList :=
      LexState.read_spaces_replicate_append hspace 0
    have htokens : tokenize (name ++ " " ++ writtenWord pieces) =
        .ok (.literal name :: .space :: texts.map Token.literal) := by
      have hline : (name ++ " " ++ writtenWord pieces).toList =
          name.toList ++ ' ' :: (writtenWord pieces).toList := by simp
      rw [tokenize, tokenizeChars_eq_read, hline, LexState.read_plain_space hchars hplain hsign,
        hafter, hread, String.ofList_toList]
      rfl
    rw [parseLine_of_tokenize htokens, parsePipeline_word hname (hne hsome), hjoin]
    rfl

/-- A word in four pieces, each in another style. -/
def mixedPieces : List WordPiece :=
  [⟨"1", .bare, by decide⟩, ⟨" > ", .single, by decide⟩, ⟨"it's \\\x22", .double, by decide⟩,
    ⟨"|2", .escaped, by decide⟩]

/-- The name `1` and the word in four pieces are a stage with one argument. -/
theorem parseLine_mixedPieces :
    writtenWord mixedPieces = "1' > '\x22it's \\\\\\\x22\x22\\|\\2" ∧
      parseLine ("1" ++ " " ++ writtenWord mixedPieces) =
        .ok ⟨[⟨"1", ["1 > it's \\\x22|2"], []⟩]⟩ := by
  have hsome : writtenWord mixedPieces ≠ "" := by decide
  exact ⟨by rfl, (tokenize_writtenWord mixedPieces).2 hsome "1" (by decide) (by decide)⟩

end LineShell
