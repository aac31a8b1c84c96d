import SearchCompiler.Proofs.TermScanning
import SearchCompiler.Proofs.TokenGroups
import SearchCompiler.Query.Phrase

/-! What a quoted phrase hides from the tokenizer. The fields named behind a phrase are read alike
whatever the phrase says, with one exception: where the phrase ends in a colon and holds no blank,
the quote that closes it is taken to open the value of a field, and all up to the next quote is
swallowed with it. -/
namespace SearchCompiler.PhraseOpacity
open Query Text
open TermScanning TokenGroups

/-- A quoted phrase, a space, and the rest of a query. -/
def quotedThen (phrase tail : List Char) : List Char := '"' :: phrase ++ '"' :: ' ' :: tail

/-- The quote that closes a phrase opens another quoted text: the phrase ends in a colon, no blank
stands between its quotes, and what follows holds a quote that closes the new text. -/
structure Reopens (phrase tail : List Char) : Prop where
  colon : phrase.getLast? = some ':'
  nonblank : ∀ c ∈ phrase, isBlank c = false
  closed : (closeQuote (' ' :: tail)).isSome = true

/-- Where reading goes on behind a phrase. -/
inductive GoesOn (phrase tail : List Char) : List Char → Prop
  | behindPhrase (shut : ¬ Reopens phrase tail) : GoesOn phrase tail tail
  | behindQuote {content rest : List Char} (reopens : Reopens phrase tail)
      (closed : closeQuote (' ' :: tail) = some (content, rest)) : GoesOn phrase tail rest

/-- Two queries that say the same of every field on both sides. -/
structure SameParsed (first second : ParsedQuery) : Prop where
  included : SameFields first.included second.included
  excluded : SameFields first.excluded second.excluded

theorem SameParsed.symm {first second : ParsedQuery} (same : SameParsed first second) :
    SameParsed second first := ⟨same.included.symm, same.excluded.symm⟩

theorem SameParsed.trans {first second third : ParsedQuery} (same : SameParsed first second)
    (others : SameParsed second third) : SameParsed first third :=
  ⟨same.included.trans others.included, same.excluded.trans others.excluded⟩

variable {phrase other tail rest : List Char}

/-- A phrase is a term by itself, unless it is reopened. -/
theorem terms_shut (quoteless : '"' ∉ phrase) (plain : '\\' ∉ phrase)
    (shut : ¬ Reopens phrase tail) :
    terms (quotedThen phrase tail) = ('"' :: phrase ++ ['"']) :: terms tail := by
  have unopened : phrase.getLast? = some ':' → (∀ c ∈ phrase, isBlank c = false) →
      literal? ('"' :: ' ' :: tail) = none := by
    intro colon nonblank
    cases closed : closeQuote (' ' :: tail) with
    | none => simp [literal?, closed]
    | some halves => exact absurd ⟨colon, nonblank, by simp [closed]⟩ shut
  have divided := terms_escaped (.inl rfl) plain (atGap_cons isBlank_space) unopened
  rw [escape_of_quoteless quoteless] at divided
  have behind : terms ([' '] ++ tail) = terms tail := terms_blanks (by simp)
  rw [← behind]
  exact divided

/-- A reopened phrase takes with it all that stands before the next quote. -/
theorem terms_reopened {content : List Char} (reopens : Reopens phrase tail)
    (closed : closeQuote (' ' :: tail) = some (content, rest)) :
    terms (quotedThen phrase tail) = ('"' :: phrase ++ '"' :: content ++ ['"']) :: terms rest := by
  obtain ⟨front, rfl⟩ := List.getLast?_eq_some_iff.mp reopens.colon
  have written := eq_append_of_closeQuote closed
  have nonblank : ∀ c ∈ '"' :: front, isBlank c = false := by
    refine List.forall_mem_cons.mpr ⟨isBlank_quote, fun c member => ?_⟩
    exact reopens.nonblank c (List.mem_append_left _ member)
  have gap : AtGap (content ++ '"' :: rest) := by
    rw [← written]
    exact atGap_cons isBlank_space
  have divided := terms_quotedValue (List.cons_ne_nil '"' front) nonblank
    (by rwa [← written]) (lastQuotedValue?_atGap gap)
  unfold quotedThen
  rw [written]
  simpa using divided

/-- Either way the phrase is one term, which begins with a quote. -/
theorem terms_quotedThen (quoteless : '"' ∉ phrase) (plain : '\\' ∉ phrase)
    (goesOn : GoesOn phrase tail rest) :
    ∃ swallowed, terms (quotedThen phrase tail) = ('"' :: swallowed) :: terms rest := by
  cases goesOn with
  | behindPhrase shut => exact ⟨_, terms_shut quoteless plain shut⟩
  | behindQuote reopens closed => exact ⟨_, terms_reopened reopens closed⟩

variable {vocabulary : Vocabulary}

/-- A phrase says nothing of the fields: they are read from where reading goes on. -/
theorem parsedOf_quotedThen (keys : ∀ key, key ∈ vocabulary.keywords ∨ key ∈ vocabulary.ranges →
      key.toList.head? ≠ some '"')
    (quoteless : '"' ∉ phrase) (plain : '\\' ∉ phrase) (goesOn : GoesOn phrase tail rest) :
    SameParsed (parsedOf vocabulary (quotedThen phrase tail)) (parsedOf vocabulary rest) := by
  obtain ⟨swallowed, divided⟩ := terms_quotedThen quoteless plain goesOn
  have unsigned : SignedTerm.ofTerm ('"' :: swallowed) = ⟨false, '"' :: swallowed⟩ := rfl
  have word := token_of_quote keys swallowed
  have included : tokensOf vocabulary false (quotedThen phrase tail) =
      .words (unquote ('"' :: swallowed)).1 :: tokensOf vocabulary false rest := by
    rw [← word]
    unfold tokensOf
    rw [divided, List.map_cons, unsigned]
    rfl
  have excluded : tokensOf vocabulary true (quotedThen phrase tail) =
      tokensOf vocabulary true rest := by
    unfold tokensOf
    rw [divided, List.map_cons, unsigned]
    rfl
  unfold parsedOf
  rw [included, excluded]
  exact ⟨sameFields_words [] _ _, ⟨rfl, rfl⟩⟩

/-- Where one phrase is reopened and another is not, they hide what they say only where the rest of
the query names the same fields without what the first one takes from it. -/
theorem sameParsed_reopened_iff {first second : ParsedQuery}
    (reopens : Reopens phrase tail) (shut : ¬ Reopens other tail)
    (read : ∀ rest, GoesOn phrase tail rest → SameParsed first (parsedOf vocabulary rest))
    (readOther : ∀ rest, GoesOn other tail rest → SameParsed second (parsedOf vocabulary rest)) :
    SameParsed first second ↔ ∀ content rest, closeQuote (' ' :: tail) = some (content, rest) →
      SameParsed (parsedOf vocabulary tail) (parsedOf vocabulary rest) := by
  have whole := readOther tail (.behindPhrase shut)
  constructor
  · intro same content rest closed
    exact whole.symm.trans (same.symm.trans (read rest (.behindQuote reopens closed)))
  · intro same
    obtain ⟨⟨content, rest⟩, closed⟩ := Option.isSome_iff_exists.mp reopens.closed
    have behind := read rest (.behindQuote reopens closed)
    exact behind.trans ((same content rest closed).symm.trans whole.symm)

/-- **What a phrase says is hidden, unless it is reopened.** Two phrases without quotes and
backslashes before the same rest of a query leave the same fields to be read exactly where both are
reopened or neither is, or where the rest names the same fields without what a reopened phrase takes
from it. -/
theorem phrases_hidden_iff (declared : vocabulary.keywords ≠ [] ∨ vocabulary.ranges ≠ [])
    (keys : ∀ key, key ∈ vocabulary.keywords ∨ key ∈ vocabulary.ranges →
      ∀ c ∈ key.toList, isWordChar c = true)
    (quoteless : '"' ∉ phrase) (plain : '\\' ∉ phrase)
    (otherQuoteless : '"' ∉ other) (otherPlain : '\\' ∉ other) (colon : ':' ∈ tail) :
    ∃ first second,
      tokenize vocabulary (String.ofList (quotedThen phrase tail)) = .structured first ∧
      tokenize vocabulary (String.ofList (quotedThen other tail)) = .structured second ∧
      (SameParsed first second ↔ (Reopens phrase tail ↔ Reopens other tail) ∨
        ∀ content rest, closeQuote (' ' :: tail) = some (content, rest) →
          SameParsed (parsedOf vocabulary tail) (parsedOf vocabulary rest)) := by
  have unopened key (member : key ∈ vocabulary.keywords ∨ key ∈ vocabulary.ranges) :
      key.toList.head? ≠ some '"' := fun opened =>
    absurd (keys key member '"' (List.mem_of_head? opened)) (by decide)
  have structured (phrase : List Char) :
      tokenize vocabulary (String.ofList (quotedThen phrase tail)) =
        .structured (parsedOf vocabulary (quotedThen phrase tail)) :=
    tokenize_colon declared (by simp [quotedThen, colon])
  have read rest (goesOn : GoesOn phrase tail rest) :=
    parsedOf_quotedThen unopened quoteless plain goesOn
  have readOther rest (goesOn : GoesOn other tail rest) :=
    parsedOf_quotedThen unopened otherQuoteless otherPlain goesOn
  refine ⟨_, _, structured phrase, structured other, ?_⟩
  by_cases reopens : Reopens phrase tail <;> by_cases reopensOther : Reopens other tail
  · obtain ⟨⟨content, rest⟩, closed⟩ := Option.isSome_iff_exists.mp reopens.closed
    have same := (read rest (.behindQuote reopens closed)).trans
      (readOther rest (.behindQuote reopensOther closed)).symm
    exact iff_of_true same (.inl (iff_of_true reopens reopensOther))
  · have differ : ¬ (Reopens phrase tail ↔ Reopens other tail) := fun both =>
      reopensOther (both.mp reopens)
    rw [or_iff_right differ]
    exact sameParsed_reopened_iff reopens reopensOther read readOther
  · have differ : ¬ (Reopens phrase tail ↔ Reopens other tail) := fun both =>
      reopens (both.mpr reopensOther)
    rw [or_iff_right differ, ← sameParsed_reopened_iff reopensOther reopens readOther read]
    exact ⟨SameParsed.symm, SameParsed.symm⟩
  · have same := (read tail (.behindPhrase reopens)).trans
      (readOther tail (.behindPhrase reopensOther)).symm
    exact iff_of_true same (.inl (iff_of_false reopens reopensOther))

/-! ## A tag behind a phrase -/

def tags : Vocabulary := ⟨["tag"], []⟩

/-- The text `tag:red "x"`. -/
def redTag : List Char := ['t', 'a', 'g', ':', 'r', 'e', 'd', ' ', '"', 'x', '"']

/-- A phrase that ends in a colon swallows the tag behind it; the same phrase without the colon does
not. -/
theorem colon_swallows_tag :
    (tokenize tags "\"a:\" tag:red \"x\"").parsed?.map (·.included.keywords.entries) = some [] ∧
      (tokenize tags "\"a\" tag:red \"x\"").parsed?.map (·.included.keywords.entries) =
        some [("tag", ["red"])] := by
  decide +kernel

/-- Both phrases are read, and differ for what the reopened one takes. -/
theorem colon_reopens :
    ∃ first second,
      tokenize tags (String.ofList (quotedThen ['a', ':'] redTag)) = .structured first ∧
      tokenize tags (String.ofList (quotedThen ['a'] redTag)) = .structured second ∧
      (SameParsed first second ↔ (Reopens ['a', ':'] redTag ↔ Reopens ['a'] redTag) ∨
        ∀ content rest, closeQuote (' ' :: redTag) = some (content, rest) →
          SameParsed (parsedOf tags redTag) (parsedOf tags rest)) := by
  refine phrases_hidden_iff (.inl (List.cons_ne_nil _ _)) ?_ (by decide) (by decide) (by decide)
    (by decide) (by decide)
  rintro key (keyword | range)
  · cases List.mem_singleton.mp keyword
    exact List.all_eq_true.mp (by decide +kernel)
  · cases range

end SearchCompiler.PhraseOpacity
