import SearchCompiler.Proofs.Patterns
import SearchCompiler.Proofs.PhraseScanning
import SearchCompiler.Proofs.TokenGroups

/-! What stands between quotes, read in steps: a plain character, or a backslash and the character
that it takes with it. The text that is meant replaces every `\"` wherever it occurs, without looking
at the steps, and comes to the same: a backslash that was taken by another one never stands before a
quote, because the quote would have closed the text. -/
namespace SearchCompiler.QuotedContent
open Query Text
open Patterns PhraseScanning TermScanning TokenGroups

/-! ## Steps -/

/-- One step through quoted content. -/
inductive Step where
  | plain (c : Char)
  /-- A backslash and the character behind it. -/
  | pair (c : Char)
  deriving DecidableEq, Repr

/-- The steps through some content. No quote stands outside of a pair, and no pair takes a newline. -/
inductive Reads : List Step → List Char → Prop
  | done : Reads [] []
  | plain {c : Char} {steps : List Step} {rest : List Char} (quote : c ≠ '"') (backslash : c ≠ '\\')
      (behind : Reads steps rest) : Reads (.plain c :: steps) (c :: rest)
  | pair {c : Char} {steps : List Step} {rest : List Char} (line : c ≠ '\n')
      (behind : Reads steps rest) : Reads (.pair c :: steps) ('\\' :: c :: rest)

/-- What a step means: a pair with a quote is the quote, and any other pair is both its characters. -/
def Step.meaning : Step → List Char
  | .plain c => [c]
  | .pair c => if c = '"' then ['"'] else ['\\', c]

def meaning (steps : List Step) : List Char := steps.flatMap Step.meaning

/-- Text that may stand between quotes. -/
def IsContent (text : List Char) : Prop := ∃ steps, Reads steps text

/-- Text in quotes, the last of which is the one that closes it. -/
def IsClosed (text : List Char) : Prop := ∃ content, IsContent content ∧ text = '"' :: content ++ ['"']

/-! ## Patterns -/

def isPlain (c : Char) : Bool := c != '"' && c != '\\'

/-- A plain character, or a backslash and any character but a newline. -/
def stepPattern : Pattern :=
  .either (.one isPlain) (.follow (.char '\\') (.one (· != '\n')))

/-- The pattern `(?:[^"\\]|\\.)*` of quoted content. -/
def contentPattern : Pattern := .many stepPattern

/-- The pattern `"(?:[^"\\]|\\.)*"` of text in quotes. -/
def literalPattern : Pattern := .follow (.char '"') (.follow contentPattern (.char '"'))

variable {steps others : List Step} {content text front rest : List Char} {c : Char}

theorem isPlain_iff : isPlain c = true ↔ c ≠ '"' ∧ c ≠ '\\' := by
  simp [isPlain]

theorem mem_rests_stepPattern :
    rest ∈ stepPattern.rests text ↔
      (∃ c, (c ≠ '"' ∧ c ≠ '\\') ∧ text = c :: rest) ∨ ∃ c, c ≠ '\n' ∧ text = '\\' :: c :: rest := by
  unfold stepPattern
  simp only [Pattern.mem_rests_either, Pattern.mem_rests_follow, Pattern.mem_rests_char,
    Pattern.mem_rests_one, isPlain_iff, bne_iff_ne]
  refine or_congr Iff.rfl ⟨?_, ?_⟩
  · rintro ⟨_, rfl, c, line, rfl⟩
    exact ⟨c, line, rfl⟩
  · rintro ⟨c, line, rfl⟩
    exact ⟨_, rfl, c, line, rfl⟩

theorem takes_stepPattern : stepPattern.Takes := by
  intro text rest left
  obtain ⟨c, _, rfl⟩ | ⟨c, _, rfl⟩ := mem_rests_stepPattern.mp left
  · exact Nat.lt_succ_self _
  · exact Nat.lt_add_of_pos_right (k := 2) Nat.two_pos

/-! ## Reading -/

/-- There is one way through content. -/
theorem Reads.unique (reads : Reads steps content) (also : Reads others content) :
    steps = others := by
  induction reads generalizing others with
  | done =>
    cases also with
    | done => rfl
  | plain quote backslash behind ih =>
    cases also with
    | plain _ _ alsoBehind => rw [ih alsoBehind]
    | pair => exact absurd rfl backslash
  | pair line behind ih =>
    cases also with
    | plain _ backslash => exact absurd rfl backslash
    | pair _ alsoBehind => rw [ih alsoBehind]

theorem not_quote_of_reads (reads : Reads steps content) : content.head? ≠ some '"' := by
  cases reads with
  | done => exact fun same => by cases same
  | plain quote => exact fun same => quote (Option.some.inj same)
  | pair => exact fun same => by cases same

/-- The first quote behind content closes it. -/
theorem IsContent.closes (isContent : IsContent content) (rest : List Char) :
    closeQuote (content ++ '"' :: rest) = some (content, rest) := by
  obtain ⟨steps, reads⟩ := isContent
  induction reads with
  | done => exact closeQuote_quote rest
  | plain quote backslash behind ih =>
    rw [List.cons_append, closeQuote_plain quote backslash, ih]
    rfl
  | pair line behind ih =>
    rw [List.cons_append, List.cons_append, closeQuote, if_neg (by decide), if_pos rfl]
    simp [line, ih]

/-- Where content ends in a text is decided by the text. -/
theorem IsContent.unique {other otherRest : List Char} (isContent : IsContent content)
    (alsoContent : IsContent other) (same : content ++ '"' :: rest = other ++ '"' :: otherRest) :
    content = other ∧ rest = otherRest := by
  have closed := isContent.closes rest
  rw [same, alsoContent.closes otherRest] at closed
  cases closed
  exact ⟨rfl, rfl⟩

/-- A text is closed by the quote behind its first content. -/
theorem closeQuote_eq_some_iff :
    closeQuote text = some (content, rest) ↔ IsContent content ∧ text = content ++ '"' :: rest := by
  constructor
  · intro closed
    refine ⟨?_, eq_append_of_closeQuote closed⟩
    fun_induction closeQuote text generalizing content with
    | case1 => cases closed
    | case2 => cases closed; exact ⟨[], .done⟩
    | case3 => cases closed
    | case4 => cases closed
    | case5 d more line _ ih =>
      obtain ⟨⟨left, right⟩, inner, halves⟩ := Option.map_eq_some_iff.mp closed
      cases halves
      obtain ⟨steps, reads⟩ := ih inner
      exact ⟨_, .pair line reads⟩
    | case6 c more quote backslash ih =>
      obtain ⟨⟨left, right⟩, inner, halves⟩ := Option.map_eq_some_iff.mp closed
      cases halves
      obtain ⟨steps, reads⟩ := ih inner
      exact ⟨_, .plain quote backslash reads⟩
  · rintro ⟨isContent, rfl⟩
    exact isContent.closes rest

/-- A text begins with at most one text in quotes. -/
theorem literal?_eq_some_iff {literal : List Char} :
    literal? text = some literal ↔ IsClosed literal ∧ literal <+: text := by
  constructor
  · intro found
    refine ⟨?_, literal?_begins found⟩
    unfold literal? at found
    split at found
    · cases found
    · split at found
      · obtain ⟨⟨content, rest⟩, closed, rfl⟩ := Option.map_eq_some_iff.mp found
        exact ⟨content, (closeQuote_eq_some_iff.mp closed).1, rfl⟩
      · cases found
  · rintro ⟨⟨content, isContent, rfl⟩, rest, rfl⟩
    have closed : closeQuote (content ++ '"' :: rest) = some (content, rest) := isContent.closes rest
    simpa using literal?_of_closeQuote closed

/-- The content pattern leaves what stands behind some content. -/
theorem mem_rests_contentPattern :
    rest ∈ contentPattern.rests text ↔ ∃ content, IsContent content ∧ text = content ++ rest := by
  constructor
  · intro left
    induction size : text.length using Nat.strong_induction_on generalizing text with
    | _ size ih =>
      rcases (Pattern.mem_rests_many takes_stepPattern).mp left with rfl | ⟨middle, stepped, left⟩
      · exact ⟨[], ⟨[], .done⟩, rfl⟩
      · have shorter := takes_stepPattern text middle stepped
        obtain ⟨content, ⟨steps, reads⟩, rfl⟩ := ih middle.length (size ▸ shorter) left rfl
        obtain ⟨c, ⟨quote, backslash⟩, rfl⟩ | ⟨c, line, rfl⟩ := mem_rests_stepPattern.mp stepped
        · exact ⟨_, ⟨_, .plain quote backslash reads⟩, rfl⟩
        · exact ⟨_, ⟨_, .pair line reads⟩, rfl⟩
  · rintro ⟨content, ⟨steps, reads⟩, rfl⟩
    induction reads with
    | done => exact (Pattern.mem_rests_many takes_stepPattern).mpr (.inl rfl)
    | plain quote backslash behind ih =>
      refine (Pattern.mem_rests_many takes_stepPattern).mpr (.inr ⟨_, ?_, ih⟩)
      exact mem_rests_stepPattern.mpr (.inl ⟨_, ⟨quote, backslash⟩, rfl⟩)
    | pair line behind ih =>
      refine (Pattern.mem_rests_many takes_stepPattern).mpr (.inr ⟨_, ?_, ih⟩)
      exact mem_rests_stepPattern.mpr (.inr ⟨_, line, rfl⟩)

/-- The pattern matches the whole of a text exactly where it is content. -/
theorem whole_contentPattern_iff : contentPattern.Whole text ↔ IsContent text := by
  unfold Pattern.Whole
  rw [mem_rests_contentPattern]
  simp

/-- The pattern of text in quotes leaves what stands behind such a text. -/
theorem mem_rests_literalPattern :
    rest ∈ literalPattern.rests text ↔ ∃ literal, IsClosed literal ∧ text = literal ++ rest := by
  unfold literalPattern IsClosed
  simp only [Pattern.mem_rests_follow, Pattern.mem_rests_char, mem_rests_contentPattern]
  constructor
  · rintro ⟨_, rfl, _, ⟨content, isContent, rfl⟩, rfl⟩
    exact ⟨_, ⟨content, isContent, rfl⟩, by simp⟩
  · rintro ⟨_, ⟨content, isContent, rfl⟩, rfl⟩
    exact ⟨content ++ '"' :: rest, by simp, '"' :: rest, ⟨content, isContent, rfl⟩, rfl⟩

theorem whole_literalPattern_iff : literalPattern.Whole text ↔ IsClosed text := by
  unfold Pattern.Whole
  rw [mem_rests_literalPattern]
  simp

/-- No quote stands behind a colon in quoted content: the colon does not take it. -/
theorem IsContent.uncoloned (isContent : IsContent content) :
    content ≠ front ++ ':' :: '"' :: rest := by
  obtain ⟨steps, reads⟩ := isContent
  induction reads generalizing front with
  | done => simp
  | plain quote backslash reads ih =>
    cases front with
    | nil =>
      intro same
      exact not_quote_of_reads reads (by rw [(List.cons.inj same).2]; rfl)
    | cons d others => exact fun same => ih (List.cons.inj same).2
  | pair line reads ih =>
    rcases front with _ | ⟨d, _ | ⟨e, others⟩⟩
    · intro same
      exact absurd (List.cons.inj same).1 (by decide)
    · intro same
      exact not_quote_of_reads reads (by rw [(List.cons.inj (List.cons.inj same).2).2]; rfl)
    · exact fun same => ih (List.cons.inj (List.cons.inj same).2).2

/-- A backslash behind whole content is without its character. -/
theorem IsContent.not_backslash (isContent : IsContent content) :
    ¬ IsContent (content ++ ['\\']) := by
  rintro ⟨others, also⟩
  obtain ⟨steps, reads⟩ := isContent
  induction reads generalizing others with
  | done =>
    cases also with
    | plain _ backslash => exact backslash rfl
  | @plain c _ rest quote backslash reads ih =>
    rw [List.cons_append] at also
    generalize rest ++ ['\\'] = longer at also ih
    cases also with
    | plain _ _ alsoReads => exact ih _ alsoReads
    | pair => exact backslash rfl
  | pair line reads ih =>
    rw [List.cons_append, List.cons_append] at also
    cases also with
    | plain _ backslash => exact backslash rfl
    | pair _ alsoReads => exact ih _ alsoReads

/-! ## Meaning -/

/-- Replacing quotes behind backslashes wherever they occur replaces exactly the pairs with a quote. -/
theorem unescape_of_reads (reads : Reads steps content) : unescape content = meaning steps := by
  change replaceFrom ['\\', '"'] ['"'] 0 content = meaning steps
  induction reads with
  | done => rfl
  | @plain c steps rest quote backslash behind ih =>
    have other : ¬ ['\\', '"'].isPrefixOf (c :: rest) = true := by
      simp [Ne.symm backslash]
    rw [replaceFrom, if_neg other, ih]
    rfl
  | @pair c steps rest line behind ih =>
    by_cases quote : c = '"'
    · subst quote
      simp [replaceFrom, meaning, Step.meaning, ih]
    · -- the second character of the pair could only begin an occurrence if a quote came next
      have other : ¬ ['\\', '"'].isPrefixOf (c :: rest) = true := by
        intro occurs
        obtain ⟨others, same⟩ := List.isPrefixOf_iff_prefix.mp occurs
        cases same
        exact not_quote_of_reads behind rfl
      have first : ¬ ['\\', '"'].isPrefixOf ('\\' :: c :: rest) = true := by
        simp [Ne.symm quote]
      rw [replaceFrom, if_neg first, replaceFrom, if_neg other, ih]
      simp [meaning, Step.meaning, quote]

/-- Both readers of quotes take some content for the same text: the tokenizer as a value and as a
word, and the search for phrases as a phrase, unless the text is empty. -/
structure Decodes (content meant : List Char) : Prop where
  unquoted : unquote ('"' :: content ++ ['"']) = (meant, true)
  keyword : ∀ (vocabulary : Vocabulary) (key : String), ':' ∉ key.toList →
    key ∈ vocabulary.keywords →
    vocabulary.token (key.toList ++ ':' :: '"' :: content ++ ['"']) =
      .keyword key [String.ofList meant]
  word : ∀ vocabulary : Vocabulary,
    (∀ key, key ∈ vocabulary.keywords ∨ key ∈ vocabulary.ranges → key.toList.head? ≠ some '"') →
    vocabulary.token ('"' :: content ++ ['"']) = .words meant
  phrase : ∀ rest, phrases ('"' :: content ++ '"' :: rest) =
    (phrase? meant).toList ++ phrases rest

theorem decodes_of_reads (reads : Reads steps content) : Decodes content (meaning steps) := by
  have meant : unescape content = meaning steps := unescape_of_reads reads
  have unquoted : unquote ('"' :: content ++ ['"']) = (meaning steps, true) := by
    rw [unquote_quoted, meant]
  refine ⟨unquoted, fun vocabulary key colonless known => ?_, fun vocabulary keys => ?_,
    fun rest => ?_⟩
  · have token := token_keyword colonless known ('"' :: content ++ ['"'])
    rw [keywordValues, unquoted] at token
    simpa using token
  · rw [List.cons_append, token_of_quote keys, ← List.cons_append, unquoted]
  · have closed : closeQuote (content ++ '"' :: rest) = some (content, rest) :=
      IsContent.closes ⟨steps, reads⟩ rest
    have literal : unescape (inside ('"' :: content ++ ['"'])) = meaning steps := by
      simp [inside, meant]
    rw [phrases, List.cons_append, phraseLiteralsFrom_literal closed, List.map_cons, literal, phrases,
      phrase?]
    cases meaning steps with
    | nil => rfl
    | cons c more => rfl

/-- **Quotes are unescaped pair by pair.** Content that the pattern matches completely has one
reading as plain characters and pairs. Replacing every backslash with a quote behind it, wherever it
occurs, turns the pairs with a quote into quotes and keeps all else, however many backslashes stand
in a row; and the tokenizer and the search for phrases decode the content to that same text. -/
theorem escapes_read_in_pairs (whole : contentPattern.Whole content) :
    ∃ steps, Reads steps content ∧ (∀ others, Reads others content → others = steps) ∧
      unescape content = meaning steps ∧ Decodes content (meaning steps) := by
  obtain ⟨steps, reads⟩ := whole_contentPattern_iff.mp whole
  exact ⟨steps, reads, fun others also => also.unique reads, unescape_of_reads reads,
    decodes_of_reads reads⟩

/-! ## Backslashes in a row -/

/-- Three backslashes and a quote, and then a backslash with a letter: `\\\"\d`. -/
def backslashes : List Char := ['\\', '\\', '\\', '"', '\\', 'd']

/-- The third backslash belongs to the quote, and only that one is taken off. -/
theorem backslashes_decoded :
    contentPattern.Whole backslashes ∧ Decodes backslashes ['\\', '\\', '"', '\\', 'd'] := by
  have whole : contentPattern.Whole backslashes := by decide
  have reads : Reads [.pair '\\', .pair '"', .pair 'd'] backslashes :=
    .pair (by decide) (.pair (by decide) (.pair (by decide) .done))
  obtain ⟨steps, _, unique, _, decodes⟩ := escapes_read_in_pairs whole
  rw [← unique _ reads] at decodes
  exact ⟨whole, decodes⟩

end SearchCompiler.QuotedContent
