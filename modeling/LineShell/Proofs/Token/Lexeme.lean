import LineShell.Proofs.Token.Reading

/-!
# Lexemes

A line is a row of lexemes: stretches of characters that are read as one unit each. The lexeme at
the front of a text is found without looking at anything before the text, and always taken as
long as possible. The lexer, which reads one character at a time and looks neither ahead nor
back, gives exactly the tokens of these lexemes.
-/

namespace LineShell

/-- A stretch of a line that is read as one unit. -/
structure Lexeme where
  /-- The characters of the line that belong to the lexeme. -/
  source : List Char
  /-- The token that these characters stand for, if any, or the quotation that they leave open. -/
  value : Except LexError (Option Token)

/-- The longest bare word at the front of a text. A backslash takes the character after it into
the word, whatever that is. -/
def bareWord : List Char → List Char
  | '\\' :: c :: rest => '\\' :: c :: bareWord rest
  | c :: rest => if c ∈ [' ', '\x27', '\x22', '|', '>'] then [] else c :: bareWord rest
  | [] => []

/-- What a bare word stands for: each backslash for the character after it, and a last one without
such a character for itself. -/
def unescape : List Char → List Char
  | '\\' :: c :: rest => c :: unescape rest
  | c :: rest => c :: unescape rest
  | [] => []

/-- Whether a backslash before a character in double quotes forms a pair with it. -/
def PairsInDouble (c : Char) : Prop := c ∈ ['$', '\\', '\x22', '\n']

instance : DecidablePred PairsInDouble := fun c =>
  inferInstanceAs (Decidable (c ∈ ['$', '\\', '\x22', '\n']))

/-- The characters before the first double quote that is not the second one of a pair. A backslash
takes the character after it along: where they form no pair, it is an ordinary character. -/
def doubleQuoted? : List Char → Option (List Char)
  | [] => none
  | '\x22' :: _ => some []
  | '\\' :: c :: rest => (doubleQuoted? rest).map fun contents => '\\' :: c :: contents
  | c :: rest => (doubleQuoted? rest).map (c :: ·)

/-- What the contents of double quotes stand for: each pair for its second character, and
everything else for itself. -/
def unescapeDouble : List Char → List Char
  | '\\' :: c :: rest =>
    if PairsInDouble c then c :: unescapeDouble rest else '\\' :: c :: unescapeDouble rest
  | c :: rest => c :: unescapeDouble rest
  | [] => []

/-- A character other than a backslash stands for itself in double quotes. -/
theorem unescapeDouble_cons {c : Char} (hc : c ≠ '\\') (rest : List Char) :
    unescapeDouble (c :: rest) = c :: unescapeDouble rest := by
  rw [unescapeDouble]
  intro d more hslash
  exact absurd hslash hc

namespace Lexeme

/-- A lexeme that stands for a literal. -/
def literal (source text : List Char) : Lexeme :=
  ⟨source, .ok (some (.literal (String.ofList text)))⟩

/-- A quotation that is still open at the end of the line. -/
def unterminated (quote : Char) (rest : List Char) : Lexeme :=
  ⟨quote :: rest, .error (.unterminatedQuote quote)⟩

/-- The bare word at the front of a text. -/
def word (text : List Char) : Lexeme := literal (bareWord text) (unescape (bareWord text))

/-- The redirection whose first greater-than sign stands between the characters that name the
stream and the given text. A second sign makes it append. -/
def redirection (tag : String) (name : List Char) : List Char → Lexeme
  | '>' :: _ => ⟨name ++ ['>', '>'], .ok (some (.redirect .append tag))⟩
  | _ => ⟨name ++ ['>'], .ok (some (.redirect .truncate tag))⟩

/-- A digit and what follows it: a redirection of the stream that it names, when the operator
follows at once or after one space, and a word otherwise. -/
def numbered (digit : Char) (tag : String) : List Char → Lexeme
  | '>' :: rest => redirection tag [digit] rest
  | ' ' :: '>' :: rest => redirection tag [digit, ' '] rest
  | rest => word (digit :: rest)

/-- The lexeme at the front of a text that begins with the given character. -/
def first (c : Char) (rest : List Char) : Lexeme :=
  match c with
  | ' ' => ⟨' ' :: rest.takeWhile (· == ' '), .ok (some .space)⟩
  | '\x27' =>
    let contents := rest.takeWhile (· != '\x27')
    if '\x27' ∈ rest then literal ('\x27' :: contents ++ ['\x27']) contents
    else unterminated '\x27' rest
  | '\x22' =>
    match doubleQuoted? rest with
    | some contents => literal ('\x22' :: contents ++ ['\x22']) (unescapeDouble contents)
    | none => unterminated '\x22' rest
  | '\\' =>
    match rest with
    | [] => ⟨['\\'], .ok none⟩
    | d :: _ => literal ['\\', d] [d]
  | '1' => numbered '1' Token.stdoutTag rest
  | '2' => numbered '2' Token.stderrTag rest
  | '>' => redirection Token.stdoutTag [] rest
  | '|' => ⟨['|'], .ok (some .pipe)⟩
  | c => word (c :: rest)

/-- The tokens that lexemes stand for, unless one of them is an open quotation. -/
def tokens : List Lexeme → Except LexError (List Token)
  | [] => .ok []
  | lexeme :: rest =>
    lexeme.value.bind fun token => (tokens rest).map (token.toList ++ ·)

/-- A lexeme of at least one character stands at the front of a text, and the lexer at a token
boundary makes of the text what the lexeme stands for and what it makes of the text after it. -/
def ReadsAt (lexeme : Lexeme) (text : List Char) : Prop :=
  ∃ tail, lexeme.source ≠ [] ∧ text = lexeme.source ++ tail ∧
    LexState.normal.read text =
      lexeme.value.bind fun token => withTokens token.toList (LexState.normal.read tail)

end Lexeme

namespace LexState

/-- Single quotes are read up to the next single quote. -/
theorem read_singleQuote_closed (text : String) {contents : List Char} (tail : List Char)
    (hcontents : '\x27' ∉ contents) :
    (singleQuote text).read (contents ++ '\x27' :: tail) =
      withTokens [.literal (text ++ String.ofList contents)] (normal.read tail) := by
  induction contents generalizing text with
  | nil =>
    have hstep : (singleQuote text).step '\x27' = ([.literal text], normal) := by
      simp only [step, if_true]
    rw [List.nil_append, read_cons, hstep, String.ofList_nil, String.append_empty]
  | cons c rest ih =>
    have hc : c ≠ '\x27' := fun h => hcontents (h ▸ List.mem_cons_self)
    have hrest : '\x27' ∉ rest := fun h => hcontents (List.mem_cons_of_mem _ h)
    have hstep : (singleQuote text).step c = ([], singleQuote (text.push c)) := by
      simp only [step, if_neg hc]
    rw [List.cons_append, read_cons, hstep, withTokens_nil, ih _ hrest, push_append_ofList]

/-- Single quotes without a closing one are unterminated. -/
theorem read_singleQuote_open (text : String) {contents : List Char}
    (hcontents : '\x27' ∉ contents) :
    (singleQuote text).read contents = .error (.unterminatedQuote '\x27') := by
  induction contents generalizing text with
  | nil => rfl
  | cons c rest ih =>
    have hc : c ≠ '\x27' := fun h => hcontents (h ▸ List.mem_cons_self)
    have hrest : '\x27' ∉ rest := fun h => hcontents (List.mem_cons_of_mem _ h)
    have hstep : (singleQuote text).step c = ([], singleQuote (text.push c)) := by
      simp only [step, if_neg hc]
    rw [read_cons, hstep, withTokens_nil, ih _ hrest]

/-- The lexer escapes the same characters in double quotes. -/
theorem escapedInDouble_iff (c : Char) : escapedInDouble c = true ↔ PairsInDouble c := by
  simp only [escapedInDouble, PairsInDouble, Bool.or_eq_true, beq_iff_eq, List.mem_cons,
    List.not_mem_nil, or_false, or_assoc]

/-- The lexer ends words at the same characters. -/
theorem endsWord_iff (c : Char) :
    endsWord c = true ↔ c ∈ [' ', '\x27', '\x22', '|', '>'] := by
  simp only [endsWord, Bool.or_eq_true, beq_iff_eq, List.mem_cons, List.not_mem_nil, or_false,
    or_assoc]

/-- A backslash in double quotes and the character after it are read together. -/
theorem read_doubleQuote_backslash (text : String) (c : Char) (rest : List Char) :
    (doubleQuote text).read ('\\' :: c :: rest) =
      (doubleQuote (text ++ String.ofList (unescapeDouble ['\\', c]))).read rest := by
  rw [read_cons, read_cons]
  by_cases hpair : PairsInDouble c
  · have hescape : escapedInDouble c = true := (escapedInDouble_iff c).mpr hpair
    simp only [unescapeDouble, if_pos hpair, ← push_append_ofList, String.ofList_nil,
      String.append_empty]
    simp [step, hescape]
  · have hescape : ¬escapedInDouble c = true := mt (escapedInDouble_iff c).mp hpair
    simp only [unescapeDouble, if_neg hpair, ← push_append_ofList, String.ofList_nil,
      String.append_empty]
    simp [step, hescape]

/-- Any other character in double quotes than a double quote and a backslash stands for itself. -/
theorem read_doubleQuote_ordinary (text : String) {c : Char} (rest : List Char)
    (hquote : c ≠ '\x22') (hslash : c ≠ '\\') :
    (doubleQuote text).read (c :: rest) = (doubleQuote (text.push c)).read rest := by
  rw [read_cons]
  simp only [step, if_neg hquote, if_neg hslash, withTokens_nil]

/-- Double quotes are read up to the first double quote that does not belong to a pair. -/
theorem read_doubleQuote_closed (text : String) {cs contents : List Char}
    (hcontents : doubleQuoted? cs = some contents) :
    ∃ tail, cs = contents ++ '\x22' :: tail ∧
      (doubleQuote text).read cs =
        withTokens [.literal (text ++ String.ofList (unescapeDouble contents))]
          (normal.read tail) := by
  fun_induction doubleQuoted? cs generalizing text contents with
  | case1 => cases hcontents
  | case2 tail =>
    obtain rfl := Option.some.inj hcontents
    have hstep : (doubleQuote text).step '\x22' = ([.literal text], normal) := by
      simp only [step, if_true]
    refine ⟨tail, rfl, ?_⟩
    rw [read_cons, hstep, unescapeDouble, String.ofList_nil, String.append_empty]
  | case3 c rest ih =>
    obtain ⟨more, hmore, rfl⟩ := Option.map_eq_some_iff.mp hcontents
    obtain ⟨tail, rfl, hread⟩ := ih (text ++ String.ofList (unescapeDouble ['\\', c])) hmore
    refine ⟨tail, rfl, ?_⟩
    rw [read_doubleQuote_backslash, hread, String.append_assoc, ← String.ofList_append]
    by_cases hpair : PairsInDouble c
    · simp only [unescapeDouble, if_pos hpair, List.cons_append, List.nil_append]
    · simp only [unescapeDouble, if_neg hpair, List.cons_append, List.nil_append]
  | case4 c rest hquote hslash ih =>
    obtain ⟨more, hmore, rfl⟩ := Option.map_eq_some_iff.mp hcontents
    have hc : c ≠ '\\' := by
      intro h
      cases rest with
      | nil => cases hmore
      | cons d more => exact hslash d more h rfl
    obtain ⟨tail, rfl, hread⟩ := ih (text.push c) hmore
    refine ⟨tail, rfl, ?_⟩
    rw [read_doubleQuote_ordinary _ _ hquote hc, hread, push_append_ofList,
      unescapeDouble_cons hc]

/-- Double quotes without a closing one are unterminated. -/
theorem read_doubleQuote_open (text : String) {cs : List Char} (hcs : doubleQuoted? cs = none) :
    (doubleQuote text).read cs = .error (.unterminatedQuote '\x22') := by
  fun_induction doubleQuoted? cs generalizing text with
  | case1 => rfl
  | case2 tail => cases hcs
  | case3 c rest ih =>
    rw [read_doubleQuote_backslash]
    exact ih _ (Option.map_eq_none_iff.mp hcs)
  | case4 c rest hquote hslash ih =>
    by_cases hc : c = '\\'
    · cases rest with
      | nil =>
        subst hc
        rfl
      | cons d more => exact absurd rfl (hslash d more hc)
    · rw [read_doubleQuote_ordinary _ _ hquote hc]
      exact ih _ (Option.map_eq_none_iff.mp hcs)

/-- A bare word is read up to the first character that is not escaped and ends words. -/
theorem read_word (cs : List Char) :
    ∃ tail, cs = bareWord cs ++ tail ∧
      ∀ text, (word text).read cs =
        withTokens [.literal (text ++ String.ofList (unescape (bareWord cs)))]
          (normal.read tail) := by
  fun_induction bareWord cs with
  | case1 c rest ih =>
    obtain ⟨tail, hrest, hread⟩ := ih
    refine ⟨tail, congrArg ('\\' :: c :: ·) hrest, fun text => ?_⟩
    have hstep : (word text).read ('\\' :: c :: rest) = (word (text.push c)).read rest := by
      rw [read_cons, read_cons]
      simp [step, stepWord, endsWord]
    rw [hstep, hread, push_append_ofList, unescape]
  | case2 c rest hslash hends =>
    refine ⟨c :: rest, rfl, fun text => ?_⟩
    have hstep : (word text).step c = enterNormal [.literal text] c := by
      simp only [step, stepWord, if_pos ((endsWord_iff c).mpr hends)]
    rw [read_cons, hstep, withTokens_enterNormal, unescape, String.ofList_nil,
      String.append_empty]
  | case3 c rest hslash hends ih =>
    obtain ⟨tail, hrest, hread⟩ := ih
    refine ⟨tail, congrArg (c :: ·) hrest, fun text => ?_⟩
    by_cases hc : c = '\\'
    · cases rest with
      | nil =>
        obtain rfl : tail = [] := (List.append_eq_nil_iff.mp hrest.symm).2
        subst hc
        simp only [bareWord, unescape, ← push_append_ofList, String.ofList_nil,
          String.append_empty]
        rfl
      | cons d more => exact absurd rfl (hslash d more hc)
    · have hstep : (word text).step c = ([], word (text.push c)) := by
        simp only [step, stepWord, if_neg hc, if_neg (mt (endsWord_iff c).mp hends)]
      have hunescape : unescape (c :: bareWord rest) = c :: unescape (bareWord rest) := by
        rw [unescape]
        intro d more h
        exact absurd h hc
      rw [read_cons, hstep, withTokens_nil, hread, push_append_ofList, hunescape]
  | case4 =>
    refine ⟨[], rfl, fun text => ?_⟩
    rw [read_nil, finish, unescape, String.ofList_nil, String.append_empty]
    rfl

/-- After a digit, anything but the operator of a redirection is read as the rest of a word that
begins with the digit. -/
theorem read_digit_word (name : Char) {cs : List Char} (hsign : cs.head? ≠ some '>')
    (hspace : ∀ rest, cs = ' ' :: rest → rest.head? ≠ some '>') :
    (digit name).read cs = (word (String.singleton name)).read cs := by
  cases cs with
  | nil => rfl
  | cons c rest =>
    have hc : c ≠ '>' := by simpa using hsign
    by_cases hblank : c = ' '
    · subst hblank
      have hdigit : (digit name).step ' ' = ([], spacedDigit name) := by
        simp only [step, if_neg hc, if_true]
      have hword : (word (String.singleton name)).step ' ' =
          enterNormal [.literal (String.singleton name)] ' ' := rfl
      rw [read_cons, read_cons, hdigit, hword, withTokens_nil, withTokens_enterNormal]
      exact read_spacedDigit name (hspace rest rfl)
    · have hstep : (digit name).step c = (word (String.singleton name)).step c := by
        simp only [step, if_neg hc, if_neg hblank]
      rw [read_cons, read_cons, hstep]

end LexState

namespace Lexeme

open LexState

/-- A redirection is read once the lexer has come as far as its first greater-than sign. -/
theorem redirection_readsAt {tag : String} (name : List Char) {rest : List Char}
    (hread : normal.read (name ++ '>' :: rest) = (redirect tag).read rest) :
    (redirection tag name rest).ReadsAt (name ++ '>' :: rest) := by
  unfold redirection
  split
  next more =>
    refine ⟨more, List.append_ne_nil_of_right_ne_nil _ (List.cons_ne_nil _ _),
      by simp only [List.append_assoc, List.cons_append, List.nil_append], ?_⟩
    rw [hread, read_redirect_append]
    rfl
  next hsign =>
    refine ⟨rest, List.append_ne_nil_of_right_ne_nil _ (List.cons_ne_nil _ _),
      by simp only [List.append_assoc, List.cons_append, List.nil_append], ?_⟩
    have hhead : rest.head? ≠ some '>' := by
      intro h
      obtain ⟨more, rfl⟩ := List.head?_eq_some_iff.mp h
      exact hsign more rfl
    rw [hread, read_redirect_truncate _ hhead]
    rfl

/-- A bare word is read once the lexer has taken its first character. -/
theorem word_readsAt {c : Char} {rest : List Char} (hslash : c ≠ '\\')
    (hends : c ∉ [' ', '\x27', '\x22', '|', '>'])
    (hread : normal.read (c :: rest) = (LexState.word (String.singleton c)).read rest) :
    (word (c :: rest)).ReadsAt (c :: rest) := by
  have hbare : bareWord (c :: rest) = c :: bareWord rest := by
    rw [bareWord, if_neg hends]
    intro d more h
    exact absurd h hslash
  have hunescape : unescape (c :: bareWord rest) = c :: unescape (bareWord rest) := by
    rw [unescape]
    intro d more h
    exact absurd h hslash
  have hsingleton (text : List Char) :
      String.singleton c ++ String.ofList text = String.ofList (c :: text) := by
    rw [← String.empty_append (s := String.ofList (c :: text)), ← push_append_ofList]
    rfl
  obtain ⟨tail, htail, hword⟩ := read_word rest
  refine ⟨tail, ?_, ?_, ?_⟩
  · show bareWord (c :: rest) ≠ []
    rw [hbare]
    exact List.cons_ne_nil _ _
  · show c :: rest = bareWord (c :: rest) ++ tail
    rw [hbare, List.cons_append, ← htail]
  · rw [hread, hword, hsingleton]
    simp only [word, literal, hbare, hunescape]
    rfl

/-- What begins with a digit for a stream is read as a redirection or as a word. -/
theorem numbered_readsAt {digit : Char} {rest : List Char} (hdigit : digit ∈ ['1', '2']) :
    (numbered digit (tagOfDigit digit) rest).ReadsAt (digit :: rest) := by
  have hstep (rest : List Char) :
      normal.read (digit :: rest) = (LexState.digit digit).read rest := by
    simp only [List.mem_cons, List.not_mem_nil, or_false] at hdigit
    rcases hdigit with rfl | rfl <;> exact withTokens_nil _
  unfold numbered
  split
  next more =>
    apply redirection_readsAt [digit]
    rw [List.singleton_append, hstep, read_cons]
    simp [step]
  next more =>
    apply redirection_readsAt [digit, ' ']
    rw [List.cons_append, List.singleton_append, hstep, read_cons, read_cons]
    simp [step]
  next hsign hspace =>
    have hordinary : digit ≠ '\\' ∧ digit ∉ [' ', '\x27', '\x22', '|', '>'] := by
      simp only [List.mem_cons, List.not_mem_nil, or_false] at hdigit
      rcases hdigit with rfl | rfl <;> decide
    apply word_readsAt hordinary.1 hordinary.2
    rw [hstep]
    apply read_digit_word
    · intro h
      obtain ⟨more, rfl⟩ := List.head?_eq_some_iff.mp h
      exact hsign more rfl
    · rintro more rfl h
      obtain ⟨after, rfl⟩ := List.head?_eq_some_iff.mp h
      exact hspace after rfl

/-- A single quotation is read as such. -/
theorem singleQuote_readsAt (rest : List Char) : (first '\x27' rest).ReadsAt ('\x27' :: rest) := by
  have hstep : normal.read ('\x27' :: rest) = (LexState.singleQuote "").read rest :=
    withTokens_nil _
  by_cases hclosed : '\x27' ∈ rest
  · obtain ⟨contents, tail, rfl, hcontents⟩ := List.eq_append_cons_of_mem hclosed
    have htake : (contents ++ '\x27' :: tail).takeWhile (· != '\x27') = contents := by
      rw [List.takeWhile_append_of_pos]
      · simp
      · intro c hc
        simpa using fun h : c = '\x27' => hcontents (h ▸ hc)
    refine ⟨tail, ?_, ?_, ?_⟩
    · simp only [first, if_pos hclosed, literal, List.cons_append]
      exact List.cons_ne_nil _ _
    · simp only [first, if_pos hclosed, htake, literal, List.cons_append, List.append_assoc,
        List.nil_append]
    · rw [hstep, read_singleQuote_closed _ _ hcontents, String.empty_append]
      simp only [first, if_pos hclosed, htake, literal]
      rfl
  · refine ⟨[], ?_, ?_, ?_⟩
    · simp only [first, if_neg hclosed, unterminated]
      exact List.cons_ne_nil _ _
    · simp only [first, if_neg hclosed, unterminated, List.append_nil]
    · rw [hstep, read_singleQuote_open _ hclosed]
      simp only [first, if_neg hclosed, unterminated]
      rfl

/-- A double quotation is read as such. -/
theorem doubleQuote_readsAt (rest : List Char) : (first '\x22' rest).ReadsAt ('\x22' :: rest) := by
  have hstep : normal.read ('\x22' :: rest) = (LexState.doubleQuote "").read rest :=
    withTokens_nil _
  cases hcontents : doubleQuoted? rest with
  | some contents =>
    obtain ⟨tail, htail, hread⟩ := read_doubleQuote_closed "" hcontents
    refine ⟨tail, ?_, ?_, ?_⟩
    · simp only [first, hcontents, literal, List.cons_append]
      exact List.cons_ne_nil _ _
    · simp only [first, hcontents, literal, List.cons_append, List.append_assoc, List.nil_append]
      rw [htail]
    · rw [hstep, hread, String.empty_append]
      simp only [first, hcontents, literal]
      rfl
  | none =>
    refine ⟨[], ?_, ?_, ?_⟩
    · simp only [first, hcontents, unterminated]
      exact List.cons_ne_nil _ _
    · simp only [first, hcontents, unterminated, List.append_nil]
    · rw [hstep, read_doubleQuote_open _ hcontents]
      simp only [first, hcontents, unterminated]
      rfl

/-- A backslash and the character after it, when there is one, are read as such. -/
theorem escape_readsAt (rest : List Char) : (first '\\' rest).ReadsAt ('\\' :: rest) := by
  cases rest with
  | nil => exact ⟨[], List.cons_ne_nil _ _, rfl, rfl⟩
  | cons d tail =>
    refine ⟨tail, List.cons_ne_nil _ _, rfl, ?_⟩
    have hread : normal.read ('\\' :: d :: tail) =
        withTokens [.literal (String.singleton d)] (normal.read tail) := withTokens_nil _
    rw [hread, String.singleton_eq_ofList]
    rfl

/-- The characters that begin something else than an ordinary bare word. -/
def leaders : List Char := [' ', '\x27', '\x22', '|', '>', '\\', '1', '2']

/-- An ordinary character begins a bare word, for the lexeme and for the lexer. -/
theorem ordinary_readsAt {c : Char} (hc : c ∉ leaders) (rest : List Char) :
    (first c rest).ReadsAt (c :: rest) := by
  have hfirst : first c rest = word (c :: rest) := by
    unfold first
    split <;> first | rfl | exact absurd (by decide) hc
  have hemit : emitNormal c = [] := by
    unfold emitNormal
    split <;> first | rfl | exact absurd (by decide) hc
  have hnext : stepNormal c = LexState.word (String.singleton c) := by
    unfold stepNormal
    split <;> first | rfl | exact absurd (by decide) hc
  have hstep : normal.step c = ([], LexState.word (String.singleton c)) := by
    rw [step, enterNormal, hemit, hnext, List.nil_append]
  have hends : c ∉ [' ', '\x27', '\x22', '|', '>'] := fun h =>
    hc (List.mem_append_left ['\\', '1', '2'] h)
  rw [hfirst]
  apply word_readsAt (fun h => hc (by rw [h]; decide)) hends
  rw [read_cons, hstep, withTokens_nil]

/-- The lexeme at the front of a text is read as such, whatever it is. -/
theorem first_readsAt (c : Char) (rest : List Char) : (first c rest).ReadsAt (c :: rest) := by
  by_cases hspecial : c ∈ leaders
  · simp only [leaders, List.mem_cons, List.not_mem_nil, or_false] at hspecial
    rcases hspecial with rfl | rfl | rfl | rfl | rfl | rfl | rfl | rfl
    · refine ⟨rest.dropWhile (· == ' '), List.cons_ne_nil _ _, ?_, ?_⟩
      · simp only [first, List.cons_append, List.takeWhile_append_dropWhile]
      · have hstep : normal.read (' ' :: rest) = withTokens [.space] (spaces.read rest) := rfl
        rw [hstep, read_spaces]
        rfl
    · exact singleQuote_readsAt rest
    · exact doubleQuote_readsAt rest
    · exact ⟨rest, List.cons_ne_nil _ _, rfl, rfl⟩
    · exact redirection_readsAt [] (withTokens_nil _)
    · exact escape_readsAt rest
    · exact numbered_readsAt (by decide)
    · exact numbered_readsAt (by decide)
  · exact ordinary_readsAt hspecial rest

end Lexeme

/-- The lexemes of a text: the one at its front, and those of the text after it. -/
def lexemes : List Char → List Lexeme
  | [] => []
  | c :: rest =>
    Lexeme.first c rest :: lexemes ((c :: rest).drop (Lexeme.first c rest).source.length)
termination_by cs => cs.length
decreasing_by
  obtain ⟨tail, hsource, -⟩ := Lexeme.first_readsAt c rest
  have hpos := List.length_pos_iff.mpr hsource
  simp only [List.length_drop, List.length_cons]
  omega

/-- Every character of a text belongs to exactly one of its lexemes. -/
theorem flatMap_source_lexemes (cs : List Char) : (lexemes cs).flatMap Lexeme.source = cs := by
  fun_induction lexemes cs with
  | case1 => rfl
  | case2 c rest ih =>
    obtain ⟨tail, -, htail, -⟩ := Lexeme.first_readsAt c rest
    have hdrop : (c :: rest).drop (Lexeme.first c rest).source.length = tail := by
      rw [htail, List.drop_left]
    rw [List.flatMap_cons, ih, hdrop, ← htail]

/-- The lexer reads the lexemes of a text one after the other. -/
theorem read_eq_tokens_lexemes (cs : List Char) :
    LexState.normal.read cs = Lexeme.tokens (lexemes cs) := by
  fun_induction lexemes cs with
  | case1 => rfl
  | case2 c rest ih =>
    obtain ⟨tail, -, htail, hread⟩ := Lexeme.first_readsAt c rest
    have hdrop : (c :: rest).drop (Lexeme.first c rest).source.length = tail := by
      rw [htail, List.drop_left]
    rw [hread, Lexeme.tokens, ← ih, hdrop]
    rfl

/-- No lexeme of a text is empty. -/
theorem source_ne_nil_of_mem_lexemes {cs : List Char} {lexeme : Lexeme}
    (hlexeme : lexeme ∈ lexemes cs) : lexeme.source ≠ [] := by
  fun_induction lexemes cs with
  | case1 => cases hlexeme
  | case2 c rest ih =>
    rcases List.mem_cons.mp hlexeme with rfl | hrest
    · obtain ⟨tail, hsource, -⟩ := Lexeme.first_readsAt c rest
      exact hsource
    · exact ih hrest

/-- The lexer is the one that takes the longest lexeme at the front of the remaining text and starts
afresh behind it. Its lexemes are not empty and cut the line up without a rest; one open quotation
among them makes the whole result an error. -/
theorem tokenize_eq_tokens_lexemes (line : String) :
    tokenize line = Lexeme.tokens (lexemes line.toList) ∧
      (lexemes line.toList).flatMap Lexeme.source = line.toList ∧
      [] ∉ (lexemes line.toList).map Lexeme.source := by
  refine ⟨?_, flatMap_source_lexemes _, ?_⟩
  · rw [tokenize, tokenizeChars_eq_read, read_eq_tokens_lexemes]
  · intro hempty
    obtain ⟨lexeme, hlexeme, hsource⟩ := List.mem_map.mp hempty
    exact source_ne_nil_of_mem_lexemes hlexeme hsource

example : tokenize "a\\'b 2 >>'c" = .error (.unterminatedQuote '\x27') := by rfl

example : tokenize "a\\'b 2 >>\"c\\\"\"\\" =
    .ok [.literal "a'b", .space, .redirect .append "stderr", .literal "c\""] := by rfl

end LineShell
