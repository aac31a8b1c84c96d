import SearchCompiler.Proofs.QuotedValues

/-! A blank phrase at the end of a query. Three parts of a build have their own notion of text that is
not there: the search for phrases leaves out the empty ones, any phrase that is left takes the place
of the free text, and free text counts only where it is not blank. The three agree on quotes around
nothing, which change nothing. Quotes around blanks are a phrase to the first two and no text to the
third, so what was typed before them is looked for no more. -/
namespace SearchCompiler.BlankPhrases
open Build Document Query Settings Text
open BuildPhases BuildSemantics DefaultReading DocumentParts NegatedPhrase PhraseScanning
open QuotedValues TermScanning TokenGroups

/-- A query with a quoted phrase at its end. -/
def quoting (query : String) (phrase : List Char) : String :=
  String.ofList (query.toList ++ ' ' :: '"' :: phrase ++ ['"'])

/-- Blanks are quoted behind a query with free text and without quotes, and the free text can be
looked for: in fields, and near to a vector where vector search is set up. -/
structure Blanked (compiler : Compiler) (query : String) (phrase : List Char) : Prop where
  reads : compiler.tokenizer = tokenize
  fields : compiler.settings.phraseFields ≠ []
  embeds : ∀ search embedder, vectorSearch? compiler.settings = some (search, embedder) →
    ∀ text, ∃ vector, embedder text = .ok vector
  unquoted : '"' ∉ query.toList
  spoken : (searchTextOf compiler query).isPresent = true
  blank : ∀ c ∈ phrase, isBlank c = true

/-- A document that looks for free text, by keywords or by a vector. -/
inductive LooksForText (settings : Entity) : Clause → Prop
  | phrase {filter : BoolFilter} (text : String)
      (required : phraseClause settings text ∈ filter.must) : LooksForText settings (.bool filter)
  | nearest (query : NearestQuery) : LooksForText settings (.nearest query)
  | hybrid (query : NearestQuery) (keyword : BoolFilter) :
    LooksForText settings (.hybrid query keyword)

/-! ## What is read -/

theorem quoting_toList (query : String) (phrase : List Char) :
    (quoting query phrase).toList = query.toList ++ ' ' :: ([] ++ '"' :: phrase ++ ['"']) := by
  simp [quoting]

variable {compiler : Compiler} {query : String} {phrase : List Char}

section

variable (blanked : Blanked compiler query phrase)
include blanked

theorem Blanked.not_mem {c : Char} (nonblank : isBlank c = false) : c ∉ phrase := by
  intro member
  rw [blanked.blank c member] at nonblank
  cases nonblank

theorem Blanked.quoteless : '"' ∉ phrase := blanked.not_mem isBlank_quote

theorem Blanked.plain : '\\' ∉ phrase := blanked.not_mem isBlank_backslash

/-- The phrase is one more word of what is asked for. -/
theorem Blanked.tokens (negated : Bool) :
    tokensOf compiler.settings.vocabulary negated (quoting query phrase).toList =
      tokensOf compiler.settings.vocabulary negated query.toList ++
        if negated then [] else [.words phrase] := by
  have colonless : ':' ∉ '"' :: phrase ++ ['"'] := by
    simp [blanked.not_mem isBlank_colon]
  have meaning : unquote ('"' :: phrase ++ ['"']) = (phrase, true) := by
    have escaped : unquote ('"' :: escape phrase ++ ['"']) = (phrase, true) :=
      unquote_escape blanked.plain
    rwa [escape_of_quoteless blanked.quoteless] at escaped
  have word : compiler.settings.vocabulary.token ('"' :: phrase ++ ['"']) = .words phrase := by
    rw [token_of_colonless colonless, meaning]
  have sign : SignedTerm.ofTerm ([] ++ '"' :: phrase ++ ['"']) =
      ⟨false, '"' :: phrase ++ ['"']⟩ := rfl
  unfold tokensOf
  rw [quoting_toList,
    terms_phrase_last (.inl rfl) blanked.unquoted blanked.quoteless blanked.plain,
    List.map_append, tokens_append, List.map_singleton, sign]
  congr 1
  cases negated with
  | false => exact congrArg (fun token => [token]) word
  | true => rfl

/-- A blank phrase has no colon, so it does not decide whether a query names fields. -/
theorem Blanked.applies : compiler.settings.vocabulary.applies (quoting query phrase).toList =
    compiler.settings.vocabulary.applies query.toList := by
  have colon : ':' ∈ (quoting query phrase).toList ↔ ':' ∈ query.toList := by
    simp [quoting, blanked.not_mem isBlank_colon]
  rw [Bool.eq_iff_iff, applies_iff, applies_iff, colon]

/-- Both queries are bare, or both are read term by term. -/
theorem Blanked.readings :
    (readingOf compiler (quoting query phrase) = .bare (quoting query phrase) ∧
      readingOf compiler query = .bare query) ∨
    (readingOf compiler (quoting query phrase) =
        .structured (parsedOf compiler.settings.vocabulary (quoting query phrase).toList) ∧
      readingOf compiler query =
        .structured (parsedOf compiler.settings.vocabulary query.toList)) := by
  rw [readingOf, readingOf, blanked.reads]
  by_cases applies : compiler.settings.vocabulary.applies query.toList = true
  · exact .inr ⟨tokenize_structured (blanked.applies.trans applies), tokenize_structured applies⟩
  · have quoted : ¬ compiler.settings.vocabulary.applies (quoting query phrase).toList = true := by
      rwa [blanked.applies]
    exact .inl ⟨if_neg quoted, if_neg applies⟩

/-- The fields that are asked for and excluded stay the same. -/
theorem Blanked.sameSides :
    SameSides (readingOf compiler (quoting query phrase)) (readingOf compiler query) := by
  obtain ⟨quoted, plain⟩ | ⟨quoted, plain⟩ := blanked.readings
  · rw [quoted, plain]
    rintro (_ | _) <;> exact ⟨rfl, rfl⟩
  · rw [quoted, plain]
    unfold parsedOf
    rw [blanked.tokens, blanked.tokens]
    rintro (_ | _)
    · have added := sameFields_words (tokensOf compiler.settings.vocabulary false query.toList) []
        phrase
      rwa [List.append_nil] at added
    · exact ⟨by simp [side], by simp [side]⟩

/-! ## What is looked for -/

/-- The search for phrases finds the blanks between the quotes, if there are any. -/
theorem Blanked.phrases :
    Query.phrases (quoting query phrase).toList = (phrase? phrase).toList := by
  rw [quoting_toList]
  exact phrases_last (.inl rfl) blanked.unquoted blanked.quoteless blanked.plain

/-- Blanks take the place of the free text. -/
theorem Blanked.replaced (nonempty : phrase ≠ []) :
    searchTextOf compiler (quoting query phrase) = ⟨String.ofList phrase, true⟩ := by
  unfold searchTextOf FreeText.ofQuery
  rw [blanked.phrases]
  simp [phrase?, nonempty, joinWords]

/-- Quotes around nothing leave the free text that was read, and a bare query is free text with the
quotes in it. -/
theorem Blanked.kept (empty : phrase = []) :
    (searchTextOf compiler (quoting query phrase)).isPresent = true := by
  have unphrased : Query.phrases (quoting query phrase).toList = [] := by
    rw [blanked.phrases, empty]
    rfl
  obtain ⟨quoted, _⟩ | ⟨quoted, plain⟩ := blanked.readings
  · have text : searchTextOf compiler (quoting query phrase) = ⟨quoting query phrase, false⟩ := by
      simp [searchTextOf, FreeText.ofQuery, unphrased, quoted]
    have quote : '"' ∈ (quoting query phrase).toList := by simp [quoting]
    rw [text, FreeText.isPresent, Bool.not_eq_true', isBlankText, List.all_eq_false]
    exact ⟨'"', quote, by simp⟩
  · have same : readingOf compiler (quoting query phrase) = readingOf compiler query := by
      rw [quoted, plain, parsedOf, blanked.tokens, blanked.tokens, empty]
      simp [parsedOf, ofTokens_wordless]
    have text : searchTextOf compiler (quoting query phrase) = searchTextOf compiler query := by
      simp [searchTextOf, FreeText.ofQuery, unphrased, phrases_of_quoteless blanked.unquoted, same,
        plain]
    rw [text]
    exact blanked.spoken

theorem Blanked.present_iff :
    (searchTextOf compiler (quoting query phrase)).isPresent = true ↔ phrase = [] := by
  refine ⟨fun present => ?_, blanked.kept⟩
  by_contra nonempty
  have absent : (FreeText.mk (String.ofList phrase) true).isPresent = false := by
    simpa [FreeText.isPresent, isBlankText] using blanked.blank
  rw [blanked.replaced nonempty, absent] at present
  cases present

end

/-! ## What is built -/

/-- No field looks for a phrase. -/
theorem plainFilter_phraseless {reading : Reading} :
    ¬ HasPhrase (.bool (plainFilter compiler reading)) :=
  phraseless_of_parts fun _ apart => plainFilter_parts (apart _)

/-- Where there are fields to look in, a document looks for the free text that is there. -/
theorem looksForText_iff {settings : Entity} {freeText : FreeText} {filter : BoolFilter}
    {mode : Mode} {document : Clause} (fields : settings.phraseFields ≠ [])
    (phraseless : ¬ HasPhrase (.bool filter))
    (assembled : Assembled settings freeText filter mode document) :
    LooksForText settings document ↔ freeText.isPresent = true := by
  cases assembled with
  | keyword =>
    constructor
    · rintro ⟨text, required⟩
      obtain ⟨field, sought, inside⟩ := hasPhrase_phraseClause.mpr fields
      exact ((hasPhrase_withPhrase phraseless).mp ⟨field, sought, .must required inside⟩).1
    · intro present
      rw [withPhrase, if_pos present]
      exact .phrase freeText.text (List.mem_append_right _ List.mem_cons_self)
  | vector searching made style => exact iff_of_true (.nearest _) searching.present
  | hybrid searching made style => exact iff_of_true (.hybrid _ _) searching.present

/-- The document of a query looks for its free text, where there are fields to look in. -/
theorem build_looksForText_iff {built : Built} (fields : compiler.settings.phraseFields ≠ [])
    (ended : (compiler.build query).outcome = .ok built) :
    LooksForText compiler.settings built.document ↔
      (searchTextOf compiler query).isPresent = true := by
  obtain ⟨_, _, _, assembled⟩ := build_ok_iff.mp ended
  exact looksForText_iff fields plainFilter_phraseless assembled

/-- Where the fields compile, the query with blanks in quotes is a search by the fields alone. -/
theorem Blanked.build_replaced (blanked : Blanked compiler query phrase) (nonempty : phrase ≠ [])
    (sides : ∀ polarity, ∃ clauses, (groupClauses compiler polarity
      (side (readingOf compiler (quoting query phrase)) polarity)).outcome = .ok clauses) :
    (compiler.build (quoting query phrase)).outcome =
      .ok ⟨.bool (plainFilter compiler (readingOf compiler query)),
        (readingOf compiler (quoting query phrase)).parsed?, .keyword⟩ := by
  have absent : (searchTextOf compiler (quoting query phrase)).isPresent = false :=
    Bool.eq_false_iff.mpr (mt blanked.present_iff.mp nonempty)
  rw [build_of_absent absent sides, plainFilter_sameSides blanked.sameSides]

/-- **Blanks in quotes take away the free text; quotes around nothing do not.** The query with the
phrase fails where the query without it does, and with the same failure. Where they end, the document
of the query looks for its free text, and that of the query with the phrase does exactly if the
phrase is empty; otherwise it is a keyword search by the fields alone. -/
theorem blank_phrase_harmless_iff (blanked : Blanked compiler query phrase) :
    (∀ failure, (compiler.build (quoting query phrase)).outcome = .error failure ↔
      (compiler.build query).outcome = .error failure) ∧
    (∀ built, (compiler.build query).outcome = .ok built →
      LooksForText compiler.settings built.document) ∧
    ∀ built, (compiler.build (quoting query phrase)).outcome = .ok built →
      (LooksForText compiler.settings built.document ↔ phrase = []) ∧
      (phrase ≠ [] → built.mode = .keyword ∧
        built.document = .bool (plainFilter compiler (readingOf compiler query))) := by
  refine ⟨fun failure => ?_, fun built ended => ?_, fun built ended => ⟨?_, fun nonempty => ?_⟩⟩
  · rw [build_error_iff_of_embeds fun search embedder searching =>
        blanked.embeds search embedder searching.found _,
      build_error_iff_of_embeds fun search embedder searching =>
        blanked.embeds search embedder searching.found _,
      filterOf_sameSides blanked.sameSides]
  · exact (build_looksForText_iff blanked.fields ended).mpr blanked.spoken
  · rw [build_looksForText_iff blanked.fields ended, blanked.present_iff]
  · rw [blanked.build_replaced nonempty (build_ok_iff.mp ended).1] at ended
    cases ended
    exact ⟨rfl, rfl⟩

/-! ## At the bar -/

theorem bar_blanked {phrase : List Char} (blank : ∀ c ∈ phrase, isBlank c = true) :
    Blanked bar "tag:red cola" phrase where
  reads := rfl
  fields := List.cons_ne_nil _ _
  embeds := by
    intro search embedder found
    cases found
  unquoted := by decide +kernel
  spoken := by decide +kernel
  blank := blank

theorem bar_build_cola :
    (bar.build "tag:red cola").outcome =
      .ok ⟨.bool (redDrinks.require (.anyOf [.phrase "title" "cola"])),
        (readingOf bar "tag:red cola").parsed?, .keyword⟩ := by
  rfl

/-- Whoever quotes a blank behind red cola is shown whatever is red. -/
theorem quoted_blank_loses_cola :
    Blanked bar "tag:red cola" [' '] ∧ quoting "tag:red cola" [' '] = "tag:red cola \" \"" ∧
    ∃ built quoted, (bar.build "tag:red cola").outcome = .ok built ∧
      (bar.build "tag:red cola \" \"").outcome = .ok quoted ∧
      LooksForText bar.settings built.document ∧
      quoted.document = .bool redDrinks ∧ ¬ LooksForText bar.settings quoted.document := by
  have blanked : Blanked bar "tag:red cola" [' '] :=
    bar_blanked (List.forall_mem_singleton.mpr isBlank_space)
  have typed : quoting "tag:red cola" [' '] = "tag:red cola \" \"" := by simp [quoting]
  have filter : plainFilter bar (readingOf bar "tag:red cola") = redDrinks := rfl
  have quoted := blanked.build_replaced (List.cons_ne_nil _ _) fun polarity => by
    rw [groupClauses_sameFields (blanked.sameSides polarity)]
    exact (build_ok_iff.mp bar_build_cola).1 polarity
  rw [typed, filter] at quoted
  refine ⟨blanked, typed, _, _, bar_build_cola, quoted, ?_, rfl, ?_⟩
  · exact .phrase "cola" (List.mem_append_right _ List.mem_cons_self)
  · rintro ⟨text, required⟩
    cases List.mem_singleton.mp required

/-- Quotes around nothing leave the cola to be looked for, quotes around an ideographic space do
not. -/
theorem bar_loses_cola_to_blanks :
    (∃ built, (bar.build (quoting "tag:red cola" [])).outcome = .ok built ∧
      LooksForText bar.settings built.document) ∧
    ∃ built, (bar.build (quoting "tag:red cola" ['\u3000'])).outcome = .ok built ∧
      built.document = .bool (plainFilter bar (readingOf bar "tag:red cola")) ∧
      ¬ LooksForText bar.settings built.document := by
  have ends {phrase : List Char} (blank : ∀ c ∈ phrase, isBlank c = true) :
      ∃ built, (bar.build (quoting "tag:red cola" phrase)).outcome = .ok built := by
    have failures := (blank_phrase_harmless_iff (bar_blanked blank)).1
    cases ended : (bar.build (quoting "tag:red cola" phrase)).outcome with
    | ok built => exact ⟨built, rfl⟩
    | error failure =>
      have failed := (failures failure).mp ended
      rw [bar_build_cola] at failed
      cases failed
  have empty : ∀ c ∈ ([] : List Char), isBlank c = true := List.forall_mem_nil _
  have space : ∀ c ∈ ['\u3000'], isBlank c = true := List.forall_mem_singleton.mpr (by decide)
  obtain ⟨plain, plainEnded⟩ := ends empty
  obtain ⟨blank, blankEnded⟩ := ends space
  have kept := (blank_phrase_harmless_iff (bar_blanked empty)).2.2 plain plainEnded
  have lost := (blank_phrase_harmless_iff (bar_blanked space)).2.2 blank blankEnded
  have nonempty : ['\u3000'] ≠ [] := List.cons_ne_nil _ _
  exact ⟨⟨plain, plainEnded, kept.1.mpr rfl⟩,
    ⟨blank, blankEnded, (lost.2 nonempty).2, mt lost.1.mp nonempty⟩⟩

end SearchCompiler.BlankPhrases
