import SearchCompiler.Proofs.BuildSemantics
import SearchCompiler.Proofs.TokenGroups

/-! Queries read against the declared fields. The fields that a query may name are the declared
ones, so a query with a colon is read term by term wherever a field is declared; and what a build
does with the fields of a query depends only on the values and ends read for them. -/
namespace SearchCompiler.DefaultReading
open Build Query Settings Text
open BuildSemantics TokenGroups

/-- A query may name exactly the declared fields. -/
theorem mem_vocabulary {settings : Entity} {key : String} :
    key ∈ settings.vocabulary.keywords ∨ key ∈ settings.vocabulary.ranges ↔
      key ∈ settings.fields.names := by
  simp only [Entity.vocabulary, Entity.keywordKeys, Entity.rangeKeys, OrderedMap.names,
    List.mem_map, List.mem_filter]
  constructor
  · rintro (⟨entry, ⟨declared, _⟩, rfl⟩ | ⟨entry, ⟨declared, _⟩, rfl⟩)
    · exact ⟨entry, declared, rfl⟩
    · exact ⟨entry, declared, rfl⟩
  · rintro ⟨entry, declared, rfl⟩
    cases kind : entry.2.isRange with
    | false => exact .inl ⟨entry, ⟨declared, by simp [kind]⟩, rfl⟩
    | true => exact .inr ⟨entry, ⟨declared, kind⟩, rfl⟩

theorem vocabulary_nonempty {settings : Entity} (declared : settings.fields.names ≠ []) :
    settings.vocabulary.keywords ≠ [] ∨ settings.vocabulary.ranges ≠ [] := by
  obtain ⟨key, member⟩ := List.exists_mem_of_ne_nil _ declared
  obtain keyword | range := mem_vocabulary.mpr member
  · exact .inl (List.ne_nil_of_mem keyword)
  · exact .inr (List.ne_nil_of_mem range)

/-- Keywords are the declared fields that take no range. -/
theorem mem_vocabulary_keywords {settings : Entity} {key : String} :
    key ∈ settings.vocabulary.keywords ↔
      ∃ field, (key, field) ∈ settings.fields.entries ∧ field.kind ≠ .range := by
  simp [Entity.vocabulary, Entity.keywordKeys, Field.isRange]

/-- Ranges are the declared fields that take one. -/
theorem mem_vocabulary_ranges {settings : Entity} {key : String} :
    key ∈ settings.vocabulary.ranges ↔
      ∃ field, (key, field) ∈ settings.fields.entries ∧ field.kind = .range := by
  simp [Entity.vocabulary, Entity.rangeKeys, Field.isRange]

/-! ## What a query can name -/

/-- What a query that was read against some settings says on one side: it names declared fields
only, each as what it is declared to be, and has one free text or none. -/
structure Fits (settings : Entity) (group : TokenGroup) : Prop where
  keywords : ∀ key ∈ group.keywords.names,
    ∃ field, (key, field) ∈ settings.fields.entries ∧ field.kind ≠ .range
  ranges : ∀ key ∈ group.ranges.names,
    ∃ field, (key, field) ∈ settings.fields.entries ∧ field.kind = .range
  apart : ∀ key ∈ group.keywords.names, key ∉ group.ranges.names
  text : group.text = [] ∨ ∃ words, words ≠ "" ∧ group.text = [words]

theorem joinWords_ne_nil {word : List Char} (nonempty : word ≠ []) (rest : List (List Char)) :
    joinWords (word :: rest) ≠ [] := by
  intro empty
  have nothing := List.flatten_eq_nil_iff.mp empty word
  cases rest with
  | nil => exact nonempty (nothing List.mem_cons_self)
  | cons next others => exact nonempty (nothing List.mem_cons_self)

/-- Words in a row are one text, or none. -/
theorem joined_words {words : List (List Char)} (nonempty : ∀ word ∈ words, word ≠ []) :
    joined words = [] ∨ ∃ text, text ≠ "" ∧ joined words = [text] := by
  cases words with
  | nil => exact .inl rfl
  | cons word rest =>
    refine .inr ⟨_, fun blank => ?_, rfl⟩
    exact joinWords_ne_nil (nonempty word List.mem_cons_self) rest
      (String.ofList_eq_empty_iff.mp blank)

/-- What the terms of a text say fits the settings they are read against. -/
theorem fits_tokensOf (settings : Entity) (negated : Bool) (text : List Char) :
    Fits settings (.ofTokens (tokensOf settings.vocabulary negated text)) := by
  have gathers := gathers_ofTokens (tokensOf settings.vocabulary negated text)
  have keyword {key : String} (named : key ∈ (TokenGroup.ofTokens
      (tokensOf settings.vocabulary negated text)).keywords.names) :
      key ∈ settings.vocabulary.keywords := by
    rw [gathers.keywordOrder, List.mem_eraseDups] at named
    obtain ⟨token, read, names⟩ := List.mem_filterMap.mp named
    obtain ⟨term, _, rfl⟩ := List.mem_map.mp read
    exact keyword_declared names
  have range {key : String} (named : key ∈ (TokenGroup.ofTokens
      (tokensOf settings.vocabulary negated text)).ranges.names) :
      key ∈ settings.vocabulary.ranges ∧ key ∉ settings.vocabulary.keywords := by
    rw [gathers.rangeOrder, List.mem_eraseDups] at named
    obtain ⟨token, read, names⟩ := List.mem_filterMap.mp named
    obtain ⟨term, _, rfl⟩ := List.mem_map.mp read
    exact range_declared names
  refine ⟨fun key named => mem_vocabulary_keywords.mp (keyword named),
    fun key named => mem_vocabulary_ranges.mp (range named).1,
    fun key named other => (range other).2 (keyword named), ?_⟩
  rw [gathers.text]
  apply joined_words
  intro word kept
  obtain ⟨token, _, spoken⟩ := List.mem_filterMap.mp kept
  cases token with
  | words text =>
    rw [Token.words?, Option.ite_none_left_eq_some] at spoken
    obtain ⟨nonempty, same⟩ := spoken
    cases same
    exact fun empty => nonempty (List.isEmpty_iff.mpr empty)
  | keyword key values => cases spoken
  | range key endpoints => cases spoken

theorem fits_empty (settings : Entity) : Fits settings {} :=
  ⟨List.forall_mem_nil _, List.forall_mem_nil _, List.forall_mem_nil _, .inl rfl⟩

/-- A query that is read term by term fits the settings on both its sides. -/
theorem fits_tokenize {settings : Entity} {query : String} (polarity : Polarity) :
    Fits settings (side (tokenize settings.vocabulary query) polarity) := by
  unfold tokenize
  split
  · cases polarity with
    | included => exact fits_tokensOf settings false query.toList
    | excluded => exact fits_tokensOf settings true query.toList
  · exact fits_empty settings

/-! ## Queries with a colon -/

/-- With the default tokenizer a query with a colon is read term by term. -/
theorem readingOf_colon {compiler : Compiler} {query : String}
    (reads : compiler.tokenizer = tokenize) (declared : compiler.settings.fields.names ≠ [])
    (colon : ':' ∈ query.toList) :
    readingOf compiler query =
      .structured (parsedOf compiler.settings.vocabulary query.toList) := by
  have structured := tokenize_colon (vocabulary_nonempty declared) colon
  rw [String.ofList_toList] at structured
  rw [readingOf, reads, structured]

/-! ## Readings that agree on the fields -/

/-- Two readings that say the same of every field on both sides. -/
def SameSides (first second : Reading) : Prop :=
  ∀ polarity, SameFields (side first polarity) (side second polarity)

/-- What is asked of the fields depends only on the values given for each of them. -/
theorem requests_congr {settings : Entity} {first second : TokenGroup}
    (same : ∀ key, first.values? key = second.values? key) :
    requests settings first = requests settings second := by
  unfold requests
  simp only [same]

theorem requests_sameFields {settings : Entity} {first second : TokenGroup}
    (same : SameFields first second) : requests settings first = requests settings second :=
  requests_congr same.values?

theorem groupClauses_sameFields {compiler : Compiler} {polarity : Polarity}
    {first second : TokenGroup} (same : SameFields first second) :
    groupClauses compiler polarity first = groupClauses compiler polarity second := by
  unfold groupClauses unknownFields
  rw [same.fields, requests_sameFields same]

theorem groupClauses_empty_eq {compiler : Compiler} {polarity : Polarity} :
    groupClauses compiler polarity {} = pure [] := by
  unfold groupClauses
  rw [requests_empty]
  rfl

/-- The filter of a query is compiled from its two sides, which are empty where the query is bare. -/
theorem filterOf_sides (compiler : Compiler) (reading : Reading) :
    filterOf compiler reading =
      groupClauses compiler .included (side reading .included) >>= fun included =>
        groupClauses compiler .excluded (side reading .excluded) >>= fun excluded =>
          pure ⟨requiredClauses compiler.settings ++ included, excluded⟩ := by
  cases reading with
  | bare text =>
    simp only [side, groupClauses_empty_eq, pure_bind, List.append_nil]
    rfl
  | structured parsed => rfl

/-- Readings that agree on the fields are compiled alike. -/
theorem filterOf_sameSides {compiler : Compiler} {first second : Reading}
    (same : SameSides first second) : filterOf compiler first = filterOf compiler second := by
  rw [filterOf_sides, filterOf_sides, groupClauses_sameFields (same .included),
    groupClauses_sameFields (same .excluded)]

/-- Readings that agree on the fields have the same filter. -/
theorem plainFilter_sameSides {compiler : Compiler} {first second : Reading}
    (same : SameSides first second) : plainFilter compiler first = plainFilter compiler second := by
  have sides polarity :
      sideClauses compiler first polarity = sideClauses compiler second polarity := by
    unfold sideClauses
    rw [requests_sameFields (same polarity)]
  rw [plainFilter, plainFilter, sides, sides]

/-! ## A search box -/

/-- The shop with a search box: what is typed is read. -/
def searchBox : Compiler := { shop with tokenizer := tokenize }

end SearchCompiler.DefaultReading
