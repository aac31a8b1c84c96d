import SearchCompiler.Proofs.DocumentParts
import SearchCompiler.Proofs.LoneFields
import SearchCompiler.Proofs.NegatedPhrase

/-! Quoted values of fields. The tokenizer knows a field by its whole key, and the search for quoted
phrases knows one only by the character before its colon, which has to be an ASCII letter, a digit or
an underscore. The two agree on keys that end in such a character. With any other key the value is
taken for a phrase as well, and what was typed as the value of a field is looked for in the text of
every document too. -/
namespace SearchCompiler.QuotedValues
open Build Document Query Settings Text
open BuildPhases BuildSemantics DefaultReading DocumentParts HookProtocol LoneFields NegatedPhrase
open OutputGrammar PhraseScanning TermScanning TokenGroups

/-- A query that gives one field a value in quotes. -/
def quotedQuery (polarity : Polarity) (key : String) (value : List Char) : String :=
  String.ofList (typedQuery polarity key ('"' :: value ++ ['"']))

/-- A value that can be given so to a declared field: the field takes values, its key holds no quote,
and neither quotes nor backslashes stand in the value. -/
structure Quotable (compiler : Compiler) (key : String) (field : Field) (value : List Char) :
    Prop where
  reads : compiler.tokenizer = tokenize
  declared : (key, field) ∈ compiler.settings.fields.entries
  kind : field.kind ≠ .range
  keyQuoteless : '"' ∉ key.toList
  nonempty : value ≠ []
  quoteless : '"' ∉ value
  plain : '\\' ∉ value

/-- The search for phrases knows the key of a field by its last character. -/
def EndsInWord (key : String) : Prop := key.toList.getLast?.any isWordChar = true

instance (key : String) : Decidable (EndsInWord key) := inferInstanceAs (Decidable (_ = true))

theorem endsInWord_iff {key : String} {last : Char} (ends : key.toList.getLast? = some last) :
    EndsInWord key ↔ isWordChar last = true := by
  rw [EndsInWord, ends, Option.any_some]

/-- A document looks for a phrase somewhere. -/
def HasPhrase (document : Clause) : Prop := ∃ field text, Within (.phrase field text) document

variable {compiler : Compiler} {key : String} {field : Field} {value : List Char}
variable {polarity : Polarity}

/-! ## What the tokenizer reads -/

/-- The value of one keyword and nothing else. -/
def valueOf (key : String) (value : List Char) : TokenGroup where
  keywords := ⟨[(key, [String.ofList value])], by simp⟩

theorem valueOf_values? (key : String) (value : List Char) :
    (valueOf key value).values? key = some (.list [String.ofList value]) := by
  simp [valueOf, TokenGroup.values?]

theorem valueOf_others {other : String} (apart : other ≠ key) :
    (valueOf key value).values? other = none := by
  simp [valueOf, TokenGroup.values?, apart]

variable (quotable : Quotable compiler key field value)
include quotable

theorem Quotable.named : key ∈ compiler.settings.fields.names :=
  List.mem_map_of_mem quotable.declared

theorem Quotable.typeable : Typeable key.toList :=
  typeable_of_declared compiler.usable quotable.named

theorem Quotable.closed : closeQuote (value ++ ['"']) = some (value, []) := by
  have escaped : closeQuote (escape value ++ ['"']) = some (escape value, []) :=
    closeQuote_escape quotable.plain
  rwa [escape_of_quoteless quotable.quoteless] at escaped

theorem Quotable.meaning : unescape value = value := by
  have escaped := unescape_escape quotable.plain
  rwa [escape_of_quoteless quotable.quoteless] at escaped

/-- The query is one term, quotes and all. -/
theorem Quotable.terms : Query.terms (typedQuery polarity key ('"' :: value ++ ['"'])) =
    [typedQuery polarity key ('"' :: value ++ ['"'])] := by
  obtain ⟨c, front, letters, _, nonblank⟩ := quotable.typeable.signed polarity
  have last : lastQuotedValue? (value ++ ['"']) = none := by
    have escaped : lastQuotedValue? (escape value ++ ['"']) = none :=
      lastQuotedValue?_escape atGap_nil fun _ _ => rfl
    rwa [escape_of_quoteless quotable.quoteless] at escaped
  have divided := terms_quotedValue (List.cons_ne_nil c front) nonblank quotable.closed last
  have nothing : Query.terms [] = [] := rfl
  rw [nothing] at divided
  rw [typedQuery, letters]
  simpa using divided

/-- What is read is the value of the field, on the side of the sign. -/
theorem Quotable.reading : readingOf compiler (quotedQuery polarity key value) =
    .structured (onSide polarity (valueOf key value)) := by
  have known : key ∈ compiler.settings.vocabulary.keywords :=
    mem_vocabulary_keywords.mpr ⟨field, quotable.declared, quotable.kind⟩
  have values : keywordValues ('"' :: value ++ ['"']) = [String.ofList value] := by
    rw [keywordValues, unquote_quoted, quotable.meaning]
    rfl
  rw [quotedQuery, readingOf, quotable.reads, tokenize_colon
      (vocabulary_nonempty (List.ne_nil_of_mem quotable.named)) (by simp [typedQuery]),
    parsedOf_alone quotable.typeable quotable.terms,
    token_keyword quotable.typeable.colonless known, values]
  rfl

/-! ## What the search for phrases finds -/

/-- Behind the last character of a key the value is passed over or found. -/
theorem Quotable.literals {last : Char} (quote : last ≠ '"') :
    phraseLiteralsFrom 0 (last :: ':' :: '"' :: value ++ ['"']) =
      if isWordChar last then [] else ['"' :: value ++ ['"']] := by
  split
  · next word => exact phraseLiteralsFrom_value word quotable.closed
  · next other =>
    have unnamed : fieldValue? last (':' :: '"' :: value ++ ['"']) = none :=
      (fieldValue?_colon last _).trans (if_neg other)
    have unvalued : fieldValue? ':' ('"' :: value ++ ['"']) = none :=
      fieldValue?_of_uncoloned (by simp)
    rw [List.cons_append, phraseLiteralsFrom_skip quote unnamed, List.cons_append,
      phraseLiteralsFrom_skip (by decide) unvalued]
    exact phraseLiteralsFrom_literal quotable.closed

/-- The value is found as a phrase where its key ends in no word character. -/
theorem Quotable.phrases : Query.phrases (quotedQuery polarity key value).toList =
    if EndsInWord key then [] else [value] := by
  have typeable := quotable.typeable
  obtain ⟨last, ends⟩ := Option.ne_none_iff_exists'.mp
    (List.getLast?_eq_none_iff.not.mpr typeable.nonempty)
  obtain ⟨front, letters⟩ := List.getLast?_eq_some_iff.mp ends
  have keyQuoteless := quotable.keyQuoteless
  have colonless := typeable.colonless
  rw [letters, List.mem_append, List.mem_singleton, not_or] at keyQuoteless colonless
  have passed : phraseLiteralsFrom 0 (quotedQuery polarity key value).toList =
      phraseLiteralsFrom 0 (last :: ':' :: '"' :: value ++ ['"']) := by
    have quoteless : '"' ∉ sign polarity ++ front := by
      simp [not_mem_sign, keyQuoteless.1]
    have unopened : (last :: ':' :: '"' :: value ++ ['"']).head? ≠ some '"' := fun quote =>
      keyQuoteless.2 (Option.some.inj quote).symm
    have uncoloned : (last :: ':' :: '"' :: value ++ ['"']).head? ≠ some ':' := fun colon =>
      colonless.2 (Option.some.inj colon).symm
    rw [← phraseLiteralsFrom_quoteless quoteless unopened uncoloned, quotedQuery,
      String.toList_ofList, typedQuery, letters]
    simp
  rw [Query.phrases, passed, quotable.literals (Ne.symm keyQuoteless.2)]
  simp only [endsInWord_iff ends]
  split
  · rfl
  · simp [inside, quotable.meaning, quotable.nonempty]

/-- The free text of the query: none, or the value itself. -/
theorem Quotable.searchText : searchTextOf compiler (quotedQuery polarity key value) =
    if EndsInWord key then ⟨"", false⟩ else ⟨String.ofList value, true⟩ := by
  unfold searchTextOf FreeText.ofQuery
  rw [quotable.phrases, quotable.reading]
  split
  · cases polarity <;> rfl
  · simp [joinWords]

/-! ## What is built -/

omit quotable

theorem phrase_apart {field text : String} (filter : BoolFilter) :
    .phrase field text ≠ Clause.bool filter := nofun

/-- Tests of values and choices between them look for no phrase. -/
theorem phraseless_of_parts {document : Clause}
    (parts : ∀ part, (∀ filter, part ≠ .bool filter) → Within part document → FilterPart part) :
    ¬ HasPhrase document := by
  rintro ⟨field, text, within⟩
  cases parts (.phrase field text) phrase_apart within

/-- Without free text nothing looks for a phrase. -/
theorem filterWith_phraseless {settings : Entity} {clauses : List Clause}
    (contributes : Contributes field clauses) :
    ¬ HasPhrase (.bool (filterWith settings polarity clauses)) := by
  refine phraseless_of_parts fun part apart within => ?_
  obtain ⟨clause, member, inside⟩ := (within_bool (apart _)).mp within
  have sides : clause ∈ requiredClauses settings ++ clauses := by
    cases polarity with
    | included => simpa [filterWith] using member
    | excluded => simpa [filterWith] using member
  rcases List.mem_append.mp sides with required | own
  · exact required_parts required inside
  · exact contributes_parts contributes own inside

theorem hasPhrase_phraseClause {settings : Entity} {text : String} :
    HasPhrase (phraseClause settings text) ↔ settings.phraseFields ≠ [] := by
  constructor
  · rintro ⟨field, sought, within⟩ fieldless
    rcases within_phraseClause.mp within with same | ⟨field, member, _⟩
    · cases same
    · simp [fieldless] at member
  · intro fields
    obtain ⟨field, member⟩ := List.exists_mem_of_ne_nil _ fields
    exact ⟨field, text, within_phraseClause.mpr (.inr ⟨field, member, rfl⟩)⟩

/-- Free text is looked for as a phrase wherever there are fields to look in. -/
theorem hasPhrase_withPhrase {settings : Entity} {freeText : FreeText} {filter : BoolFilter}
    (phraseless : ¬ HasPhrase (.bool filter)) :
    HasPhrase (.bool (withPhrase settings freeText filter)) ↔
      freeText.isPresent = true ∧ settings.phraseFields ≠ [] := by
  have split : HasPhrase (.bool (withPhrase settings freeText filter)) ↔
      HasPhrase (.bool filter) ∨
        freeText.isPresent = true ∧ HasPhrase (phraseClause settings freeText.text) := by
    simp only [HasPhrase, within_withPhrase phrase_apart, exists_or, exists_and_left]
  rw [split, or_iff_right phraseless, hasPhrase_phraseClause]

theorem withPhrase_eq_self_iff {settings : Entity} {freeText : FreeText} {filter : BoolFilter} :
    withPhrase settings freeText filter = filter ↔ ¬ freeText.isPresent = true := by
  have nothing : withPhrase settings ⟨"", false⟩ filter = filter := rfl
  have absent : (FreeText.mk "" false).isPresent = false := rfl
  have same : withPhrase settings freeText filter = withPhrase settings ⟨"", false⟩ filter ↔ _ :=
    withPhrase_eq_iff
  rw [nothing, absent] at same
  simpa using same

/-- What is built where the clauses of the field are these. -/
def builtOf (compiler : Compiler) (polarity : Polarity) (key : String) (value : List Char)
    (clauses : List Clause) : Built where
  document := .bool (withPhrase compiler.settings
    (searchTextOf compiler (quotedQuery polarity key value))
    (filterWith compiler.settings polarity clauses))
  parsed := some (onSide polarity (valueOf key value))
  mode := .keyword

/-- The query compiles as its field does, and asks functions of that field only. -/
theorem Quotable.build (quotable : Quotable compiler key field value) (polarity : Polarity) :
    (compiler.build (quotedQuery polarity key value)).outcome =
      (fieldClauses compiler.clock polarity key field (.list [String.ofList value])).outcome.map
        (builtOf compiler polarity key value) ∧
    calls (compiler.build (quotedQuery polarity key value)).journal =
      calls (fieldClauses compiler.clock polarity key field
        (.list [String.ofList value])).journal := by
  have reading : readingOf compiler (quotedQuery polarity key value) = _ := quotable.reading
  have asked : requests compiler.settings (valueOf key value) =
      [⟨key, field, .list [String.ofList value]⟩] :=
    requests_alone quotable.declared (valueOf_values? key value) fun _ => valueOf_others
  have known : unknownFields compiler.settings (valueOf key value) = [] := by
    have fields : (valueOf key value).fields = [key] := rfl
    simp [unknownFields, fields, OrderedMap.contains, quotable.named]
  have keyword : modeFor compiler.settings
      (searchTextOf compiler (quotedQuery polarity key value)) = .keyword := by
    rw [quotable.searchText]
    split
    · exact modeFor_absent rfl
    · exact modeFor_quoted rfl
  exact ⟨build_alone reading asked known keyword, build_alone_calls reading asked known keyword⟩

/-- **A quoted value stays the value of its field, where the key ends in a word character.** The query
is always a keyword search that embeds nothing, and fails only where its field does. Its document is
the filter of that field exactly where the key ends in a word character or the value is blank; with
any other key the value is looked for as a phrase too, in every field that is set up for phrases. -/
theorem quoted_value_kept_iff (quotable : Quotable compiler key field value)
    (polarity : Polarity) :
    (∀ text, .embed text ∉ calls (compiler.build (quotedQuery polarity key value)).journal) ∧
    (∀ failure, (compiler.build (quotedQuery polarity key value)).outcome = .error failure ↔
      (fieldClauses compiler.clock polarity key field (.list [String.ofList value])).outcome =
        .error failure) ∧
    ∀ built, (compiler.build (quotedQuery polarity key value)).outcome = .ok built →
      built.mode = .keyword ∧
      (¬ HasPhrase built.document ↔ EndsInWord key ∨ isBlankText value = true ∨
        compiler.settings.phraseFields = []) ∧
      ∃ clauses, (fieldClauses compiler.clock polarity key field
          (.list [String.ofList value])).outcome = .ok clauses ∧
        (built.document = .bool (filterWith compiler.settings polarity clauses) ↔
          EndsInWord key ∨ isBlankText value = true) := by
  obtain ⟨outcome, called⟩ := quotable.build polarity
  have present : (searchTextOf compiler (quotedQuery polarity key value)).isPresent = true ↔
      ¬ (EndsInWord key ∨ isBlankText value = true) := by
    rw [quotable.searchText]
    split
    · next word => simp [FreeText.isPresent, isBlankText, word]
    · next other => simp [FreeText.isPresent, other]
  refine ⟨fun text => ?_, fun failure => ?_, fun built ended => ?_⟩
  · rw [called]
    exact fieldClauses_unembedded quotable.kind text
  · rw [outcome]
    cases (fieldClauses compiler.clock polarity key field (.list [String.ofList value])).outcome <;>
      simp [Except.map]
  · rw [outcome] at ended
    cases own : (fieldClauses compiler.clock polarity key field
      (.list [String.ofList value])).outcome with
    | error failure =>
      rw [own] at ended
      cases ended
    | ok clauses =>
      rw [own] at ended
      cases ended
      have contributes : Contributes field clauses := fieldClauses_ok own ▸ combine_contributes
      refine ⟨rfl, ?_, clauses, rfl, ?_⟩
      · rw [builtOf, hasPhrase_withPhrase (filterWith_phraseless contributes), present, not_and_or,
          not_not, not_not, or_assoc]
      · rw [builtOf, Clause.bool.injEq, withPhrase_eq_self_iff, present, not_not]

/-! ## A city guide -/

/-- Places that are found by the café they are near to and by their city. -/
def guide : Compiler where
  settings :=
    { fields :=
        ⟨[("café", { kind := .term, indexField := "cafes" }),
          ("city", { kind := .term, indexField := "cities" })], by simp⟩
      phraseFields := ["title"] }
  usable := by
    have typeable : ["café", "city"].findSome? keyError? = none := by decide +kernel
    exact Option.or_eq_none_iff.mpr ⟨typeable, rfl⟩
  clock := .ofSeconds 0

def flore : List Char := ['F', 'l', 'o', 'r', 'e']

theorem guide_quotable {key indexField : String} {value : List Char}
    (declared : (key, { kind := .term, indexField }) ∈ guide.settings.fields.entries)
    (quoteless : '"' ∉ key.toList) (nonempty : value ≠ []) (unquoted : '"' ∉ value)
    (plain : '\\' ∉ value) : Quotable guide key { kind := .term, indexField } value :=
  ⟨rfl, declared, FieldKind.noConfusion, quoteless, nonempty, unquoted, plain⟩

/-- Whoever asks for places near to one café is shown those only that have it in their title. -/
theorem accented_key_leaks :
    ∃ built, (guide.build "café:\"Flore\"").outcome = .ok built ∧
      built.document =
        .bool ⟨[.term "cafes" "Flore", .anyOf [.phrase "title" "Flore"]], []⟩ ∧
      HasPhrase built.document := by
  have quotable : Quotable guide "café" { kind := .term, indexField := "cafes" } flore :=
    guide_quotable List.mem_cons_self (by decide +kernel) (List.cons_ne_nil _ _) (by decide)
      (by decide)
  have other : ¬ EndsInWord "café" := by decide +kernel
  have typed : quotedQuery .included "café" flore = "café:\"Flore\"" := by decide +kernel
  have text : searchTextOf guide "café:\"Flore\"" = ⟨String.ofList flore, true⟩ := by
    rw [← typed, quotable.searchText, if_neg other]
  have outcome := (quotable.build .included).1
  have document : (builtOf guide .included "café" flore [.term "cafes" "Flore"]).document =
      .bool ⟨[.term "cafes" "Flore", .anyOf [.phrase "title" "Flore"]], []⟩ := by
    rw [builtOf, typed, text]
    rfl
  rw [typed] at outcome
  refine ⟨builtOf guide .included "café" flore [.term "cafes" "Flore"], outcome, document, ?_⟩
  rw [document]
  exact ⟨"title", "Flore",
    .must (List.mem_cons_of_mem _ List.mem_cons_self) (.anyOf List.mem_cons_self .whole)⟩

/-- A city that is refused is refused, and nothing more. -/
theorem guide_refuses_city :
    ∃ built, (guide.build (quotedQuery .excluded "city" ['P', 'a', 'r', 'i', 's'])).outcome =
        .ok built ∧
      built.document = .bool ⟨[], [.term "cities" "Paris"]⟩ ∧ ¬ HasPhrase built.document := by
  have quotable : Quotable guide "city" { kind := .term, indexField := "cities" }
      ['P', 'a', 'r', 'i', 's'] :=
    guide_quotable (List.mem_cons_of_mem _ List.mem_cons_self) (by decide +kernel)
      (List.cons_ne_nil _ _) (by decide) (by decide)
  have word : EndsInWord "city" := by decide +kernel
  obtain ⟨_, failures, kept⟩ := quoted_value_kept_iff quotable .excluded
  cases ended : (guide.build (quotedQuery .excluded "city" ['P', 'a', 'r', 'i', 's'])).outcome with
  | error failure => cases (failures failure).mp ended
  | ok built =>
    obtain ⟨_, phraseless, clauses, own, alone⟩ := kept built ended
    cases own
    exact ⟨built, rfl, alone.mpr (.inl word), phraseless.mpr (.inl word)⟩

end SearchCompiler.QuotedValues
