import SearchCompiler.Proofs.BuildPhases
import SearchCompiler.Proofs.DefaultReading
import SearchCompiler.Proofs.PhraseScanning
import SearchCompiler.Proofs.QueryWords

/-! A query and its mirror image, in which every word is negated. What the one asks for the other
refuses: the tokenizer reads the same group, on the other side; its fields compile to the same
clauses, in the other place; and a resolver that fails fails both. Only the free text is lost on the
way, as excluded words constrain nothing, so the image is always a keyword search. -/
namespace SearchCompiler.NegationMirror
open Build Calendar Document Query Settings Text
open BuildPhases BuildSemantics DefaultReading DropReports HookProtocol PhraseScanning QueryWords
open TermScanning TokenGroups

/-! ## The mirror image -/

/-- Write a minus sign before each word. `inside` tells whether the text goes on within a word, which
has its sign already. -/
def negateFrom (inside : Bool) : List Char → List Char
  | [] => []
  | c :: rest =>
    if isBlank c then c :: negateFrom false rest
    else if inside then c :: negateFrom true rest
    else '-' :: c :: negateFrom true rest

/-- A query with a minus sign before each of its words. -/
def mirrored (query : String) : String := String.ofList (negateFrom false query.toList)

variable {word text rest : List Char}

/-- A word goes on up to the gap, and what follows has not begun. -/
theorem negateFrom_inside (nonblank : ∀ c ∈ word, isBlank c = false) (gap : AtGap rest) :
    negateFrom true (word ++ rest) = word ++ negateFrom false rest := by
  induction word with
  | nil =>
    cases rest with
    | nil => rfl
    | cons c more => simp [negateFrom, gap c rfl]
  | cons c more ih =>
    rw [List.forall_mem_cons] at nonblank
    rw [List.cons_append, negateFrom, nonblank.1, ih nonblank.2]
    rfl

theorem negateFrom_word (isWord : IsWord word) (gap : AtGap rest) :
    negateFrom false (word ++ rest) = ('-' :: word) ++ negateFrom false rest := by
  obtain ⟨nonempty, nonblank⟩ := isWord
  cases word with
  | nil => exact absurd rfl nonempty
  | cons c more =>
    rw [List.forall_mem_cons] at nonblank
    rw [List.cons_append, negateFrom, nonblank.1, negateFrom_inside nonblank.2 gap]
    rfl

theorem atGap_negateFrom (gap : AtGap rest) : AtGap (negateFrom false rest) := by
  cases rest with
  | nil => exact atGap_nil
  | cons c more =>
    have blank : isBlank c = true := gap c rfl
    rw [negateFrom, if_pos blank]
    exact atGap_cons blank

/-- The image has the words of the text, each with a minus sign. -/
theorem words_negateFrom (text : List Char) :
    words (negateFrom false text) = (words text).map ('-' :: ·) := by
  induction text using induction_words with
  | nil => rfl
  | blank c rest blank ih => rw [negateFrom, if_pos blank, words_blank blank, words_blank blank, ih]
  | word first rest isWord gap ih =>
    have signed : IsWord ('-' :: first) :=
      ⟨List.cons_ne_nil _ _, List.forall_mem_cons.mpr ⟨isBlank_minus, isWord.nonblank⟩⟩
    rw [negateFrom_word isWord gap, words_append signed (atGap_negateFrom gap),
      words_append isWord gap, ih, List.map_cons]

/-- No characters come into the image but minus signs. -/
theorem mem_negateFrom {c : Char} (nonblank : isBlank c = false) (other : c ≠ '-') :
    c ∈ negateFrom false text ↔ c ∈ text := by
  rw [mem_iff_mem_word nonblank, mem_iff_mem_word nonblank, words_negateFrom]
  simp [other]

/-! ## The two readings -/

/-- The attached functions of the fields answer alike on both sides of a query. -/
structure Steady (settings : Entity) : Prop where
  decodes : ∀ key field decode, (key, field) ∈ settings.fields.entries →
    field.decoder = some decode → decode .included = decode .excluded
  resolves : ∀ key field resolve, (key, field) ∈ settings.fields.entries →
    field.resolver = some resolve → resolve .included = resolve .excluded

/-- Queries that are mirrored: they name fields, quote nothing and negate no word, and are read by
the default tokenizer for fields whose functions do not mind the side. -/
structure Mirrorable (compiler : Compiler) (query : String) : Prop where
  reads : compiler.tokenizer = tokenize
  declared : compiler.settings.fields.names ≠ []
  steady : Steady compiler.settings
  colon : ':' ∈ query.toList
  quoteless : '"' ∉ query.toList
  unsigned : ∀ word ∈ words query.toList, word.head? ≠ some '-'

/-- Words of one sign all say something of the same side. -/
theorem tokens_of_sign (vocabulary : Vocabulary) (sign negated : Bool) (bodies : List (List Char)) :
    vocabulary.tokens negated (bodies.map (SignedTerm.mk sign)) =
      if negated = sign then bodies.map vocabulary.token else [] := by
  unfold Vocabulary.tokens
  by_cases same : negated = sign
  · rw [if_pos same, List.filter_eq_self.mpr (by simp [same]), List.map_map]
    rfl
  · rw [if_neg same, List.filter_eq_nil_iff.mpr (by simp [Ne.symm same])]
    rfl

/-- What the words of a text say, their signs apart. -/
def groupOf (vocabulary : Vocabulary) (text : List Char) : TokenGroup :=
  .ofTokens ((words text).map vocabulary.token)

variable {compiler : Compiler} {query : String}

theorem quoteless_mirrored (quoteless : '"' ∉ query.toList) : '"' ∉ (mirrored query).toList := by
  rw [mirrored, String.toList_ofList, mem_negateFrom isBlank_quote (by decide)]
  exact quoteless

/-- Unsigned words are read as what is asked for. -/
theorem reading_unsigned (mirrorable : Mirrorable compiler query) :
    readingOf compiler query =
      .structured { included := groupOf compiler.settings.vocabulary query.toList } := by
  have unsigned : (words query.toList).map SignedTerm.ofTerm =
      (words query.toList).map (SignedTerm.mk false) :=
    List.map_congr_left fun word member => ofTerm_unsigned (mirrorable.unsigned word member)
  rw [readingOf_colon mirrorable.reads mirrorable.declared mirrorable.colon, parsedOf,
    tokensOf_quoteless _ _ mirrorable.quoteless, tokensOf_quoteless _ _ mirrorable.quoteless,
    unsigned, tokens_of_sign, tokens_of_sign]
  rfl

/-- In the image the same words are read as what is refused. -/
theorem reading_mirrored (mirrorable : Mirrorable compiler query) :
    readingOf compiler (mirrored query) =
      .structured { excluded := groupOf compiler.settings.vocabulary query.toList } := by
  have colon : ':' ∈ (mirrored query).toList := by
    rw [mirrored, String.toList_ofList, mem_negateFrom isBlank_colon (by decide)]
    exact mirrorable.colon
  have quoteless := quoteless_mirrored mirrorable.quoteless
  have signed : (words (mirrored query).toList).map SignedTerm.ofTerm =
      (words query.toList).map (SignedTerm.mk true) := by
    rw [mirrored, String.toList_ofList, words_negateFrom, List.map_map]
    refine List.map_congr_left fun word member => ?_
    obtain ⟨c, more, rfl⟩ := List.exists_cons_of_ne_nil (isWord_of_mem member).nonempty
    rfl
  rw [readingOf_colon mirrorable.reads mirrorable.declared colon, parsedOf,
    tokensOf_quoteless _ _ quoteless, tokensOf_quoteless _ _ quoteless, signed, tokens_of_sign,
    tokens_of_sign]
  rfl

/-- The image has no free text. -/
theorem searchText_mirrored (mirrorable : Mirrorable compiler query) :
    (searchTextOf compiler (mirrored query)).isPresent = false := by
  have unquoted : phrases (mirrored query).toList = [] :=
    phrases_of_quoteless (quoteless_mirrored mirrorable.quoteless)
  unfold searchTextOf FreeText.ofQuery
  rw [unquoted, reading_mirrored mirrorable]
  rfl

/-! ## The two filters -/

variable {clock : Instant} {key : String} {field : Field}

/-- A field compiles alike on both sides. -/
theorem fieldClauses_steady {settings : Entity} (steady : Steady settings)
    (declared : (key, field) ∈ settings.fields.entries) (values : FieldValues) :
    fieldClauses clock .included key field values =
      fieldClauses clock .excluded key field values := by
  have decodes : decodedValues .included key field values =
      decodedValues .excluded key field values := by
    unfold decodedValues
    cases attached : field.decoder with
    | none => rfl
    | some decode => simp only [steady.decodes key field decode declared attached]
  have resolves (given : List String) : resolvedValues .included key field given =
      resolvedValues .excluded key field given := by
    unfold resolvedValues
    cases attached : field.resolver with
    | none => rfl
    | some resolve => simp only [steady.resolves key field resolve declared attached]
  unfold fieldClauses leafClauses termClauses
  simp only [decodes, resolves]

theorem clausesOf_steady {settings : Entity} (steady : Steady settings) {asked : List Request}
    (declared : ∀ request ∈ asked, (request.key, request.field) ∈ settings.fields.entries) :
    clausesOf clock .included asked = clausesOf clock .excluded asked := by
  induction asked with
  | nil => rfl
  | cons request others ih =>
    rw [List.forall_mem_cons] at declared
    rw [clausesOf, clausesOf, fieldClauses_steady steady declared.1, ih declared.2]

theorem groupClauses_steady (steady : Steady compiler.settings) (group : TokenGroup) :
    groupClauses compiler .included group = groupClauses compiler .excluded group := by
  unfold groupClauses
  rw [clausesOf_steady steady fun request asked => (mem_requests.mp asked).1]

/-- The filter of a query that refuses nothing fails as what it asks for does. -/
theorem filterOf_included_error_iff {group : TokenGroup} {failure : Failure} :
    (filterOf compiler (.structured { included := group })).outcome = .error failure ↔
      (groupClauses compiler .included group).outcome = .error failure := by
  simp only [filterOf, groupClauses_empty_eq, Recorded.bind_error_iff]
  simp [Recorded.pure_eq]

/-- The filter of a query that asks for nothing fails as what it refuses does. -/
theorem filterOf_excluded_error_iff {group : TokenGroup} {failure : Failure} :
    (filterOf compiler (.structured { excluded := group })).outcome = .error failure ↔
      (groupClauses compiler .excluded group).outcome = .error failure := by
  simp only [filterOf, groupClauses_empty_eq, pure_bind, Recorded.bind_error_iff]
  simp [Recorded.pure_eq]

/-! ## The two builds -/

/-- The image fails as the query does, the embedder apart, which it never asks. -/
theorem mirrored_error_iff (mirrorable : Mirrorable compiler query) {failure : Failure} :
    (compiler.build (mirrored query)).outcome = .error failure ↔
      (compiler.build query).outcome = .error failure ∧
        ∀ cause, failure ≠ .hook (.embedder cause) := by
  rw [build_error_iff_of_absent (searchText_mirrored mirrorable), ← filterOf_error_iff,
    reading_unsigned mirrorable, reading_mirrored mirrorable, filterOf_included_error_iff,
    filterOf_excluded_error_iff, groupClauses_steady mirrorable.steady]

theorem sideClauses_nothing {reading : Reading} {polarity : Polarity}
    (silent : side reading polarity = {}) : sideClauses compiler reading polarity = [] := by
  rw [sideClauses, silent, requests_empty]
  rfl

/-- Where the query compiles, the image compiles to the same clauses. -/
theorem mirrored_clauses (mirrorable : Mirrorable compiler query) {built : Built}
    (ended : (compiler.build query).outcome = .ok built) :
    (∀ polarity, ∃ clauses, (groupClauses compiler polarity
      (side (readingOf compiler (mirrored query)) polarity)).outcome = .ok clauses) ∧
    plainFilter compiler (readingOf compiler query) =
      { must := requiredClauses compiler.settings ++
          sideClauses compiler (readingOf compiler query) .included } ∧
    plainFilter compiler (readingOf compiler (mirrored query)) =
      { must := requiredClauses compiler.settings
        mustNot := sideClauses compiler (readingOf compiler query) .included } := by
  obtain ⟨sides, _, _, _⟩ := build_ok_iff.mp ended
  obtain ⟨clauses, compiles⟩ := sides .included
  have asked := groupClauses_ok compiles
  have refuses : (groupClauses compiler .excluded
      (side (readingOf compiler (mirrored query)) .excluded)).outcome = .ok clauses := by
    rw [reading_mirrored mirrorable]
    rw [reading_unsigned mirrorable, groupClauses_steady mirrorable.steady] at compiles
    exact compiles
  have refused := groupClauses_ok refuses
  have nothingRefused : side (readingOf compiler query) .excluded = {} := by
    rw [reading_unsigned mirrorable]
    rfl
  have nothingAsked : side (readingOf compiler (mirrored query)) .included = {} := by
    rw [reading_mirrored mirrorable]
    rfl
  refine ⟨?_, ?_, ?_⟩
  · rintro (_ | _)
    · rw [nothingAsked]
      exact ⟨[], groupClauses_empty⟩
    · exact ⟨clauses, refuses⟩
  · rw [plainFilter, sideClauses_nothing nothingRefused]
  · rw [plainFilter, sideClauses_nothing nothingAsked, List.append_nil, ← refused, asked]

/-- The image makes no call to the embedder. -/
theorem mirrored_unembedded (mirrorable : Mirrorable compiler query) {image : Built}
    (ended : (compiler.build (mirrored query)).outcome = .ok image) (text : String) :
    .embed text ∉ calls (compiler.build (mirrored query)).journal := by
  rw [calls_of_ok ended]
  intro called
  obtain ⟨step, planned, embeds⟩ := List.mem_map.mp called
  rcases List.mem_append.mp planned with asked | embedded
  · obtain ⟨_, _, rfl⟩ | ⟨_, _, _, _, _, _, _, rfl⟩ := fieldsPlan_shape asked <;> cases embeds
  · obtain ⟨_, _, searching, _⟩ := embedCall?_eq_some_iff.mp (Option.mem_toList.mp embedded)
    have present := searching.present
    rw [searchText_mirrored mirrorable] at present
    cases present

/-- **Negation mirrors a query.** The image of a query is read as the same group on the other side.
Where the query builds, so does its image, as a keyword search that requires the required terms and
nothing else, refuses exactly the clauses of the fields that the query asks for, and asks for no
vector. And it fails exactly where the query fails, with the same failure, unless the embedder is to
blame. -/
theorem negation_mirrors (mirrorable : Mirrorable compiler query) :
    (∃ group, readingOf compiler query = .structured { included := group } ∧
      readingOf compiler (mirrored query) = .structured { excluded := group }) ∧
    (∀ built, (compiler.build query).outcome = .ok built → ∃ clauses image,
      Assembled compiler.settings (searchTextOf compiler query)
        { must := requiredClauses compiler.settings ++ clauses } built.mode built.document ∧
      (compiler.build (mirrored query)).outcome = .ok image ∧ image.mode = .keyword ∧
      image.document = .bool { must := requiredClauses compiler.settings, mustNot := clauses } ∧
      ∀ text, .embed text ∉ calls (compiler.build (mirrored query)).journal) ∧
    ∀ failure, (compiler.build (mirrored query)).outcome = .error failure ↔
      (compiler.build query).outcome = .error failure ∧
        ∀ cause, failure ≠ .hook (.embedder cause) := by
  refine ⟨⟨_, reading_unsigned mirrorable, reading_mirrored mirrorable⟩, fun built ended => ?_,
    fun failure => mirrored_error_iff mirrorable⟩
  obtain ⟨_, _, _, assembled⟩ := build_ok_iff.mp ended
  obtain ⟨sides, asked, refused⟩ := mirrored_clauses mirrorable ended
  have image := build_of_absent (searchText_mirrored mirrorable) sides
  rw [refused] at image
  rw [asked] at assembled
  exact ⟨_, _, assembled, image, rfl, rfl, mirrored_unembedded mirrorable image⟩

/-! ## A search box -/

def sweetDrinks : String := "group:drinks cola tag:red,sweet"

theorem searchBox_build :
    (searchBox.build sweetDrinks).outcome = .ok
      { document := .hybrid { field := "embedding", vector := [], filter := { must := shopFilter.must } }
          (({ must := shopFilter.must } : BoolFilter).require (.anyOf [.phrase "title" "cola"]))
        parsed := (readingOf searchBox sweetDrinks).parsed?
        mode := .hybrid } := by
  rfl

theorem searchBox_mirrorable : Mirrorable searchBox sweetDrinks where
  reads := rfl
  declared := List.cons_ne_nil _ _
  steady := by
    constructor
    · intro key field decode declared attached
      rcases List.mem_cons.mp declared with same | other
      · cases same
        cases attached
      · cases List.mem_singleton.mp other
        cases attached
    · intro key field resolve declared attached
      rcases List.mem_cons.mp declared with same | other
      · cases same
        cases attached
      · cases List.mem_singleton.mp other
        cases attached
        rfl
  colon := by decide +kernel
  quoteless := by decide +kernel
  unsigned := by decide +kernel

theorem mirrored_sweetDrinks : mirrored sweetDrinks = "-group:drinks -cola -tag:red,sweet" := by
  decide +kernel

/-- Refused, the sweet drinks are looked for by keywords alone. -/
theorem searchBox_refuses_sweetDrinks :
    ∃ image, (searchBox.build "-group:drinks -cola -tag:red,sweet").outcome = .ok image ∧
      image.mode = .keyword ∧
      image.document = .bool
        { must := [.term "tenant" "acme"]
          mustNot := [.term "tags" "red", .term "tags" "sweet",
            .anyOf [.term "tag_ids" "drinks-1", .term "tag_ids" "drinks-2"]] } ∧
      ∀ text, .embed text ∉ calls (searchBox.build "-group:drinks -cola -tag:red,sweet").journal := by
  obtain ⟨_, builds, _⟩ := negation_mirrors searchBox_mirrorable
  obtain ⟨clauses, image, assembled, ended, mode, document, unembedded⟩ := builds _ searchBox_build
  rw [mirrored_sweetDrinks] at ended unembedded
  -- only the filter of the document is needed, and its vector search is no variable to case on
  generalize same : Clause.hybrid _ _ = built at assembled
  cases assembled with
  | hybrid searching made style =>
    have filters := congrArg NearestQuery.filter (Clause.hybrid.inj same).1
    have kept : shopFilter.must.tail = clauses := congrArg (fun filter => filter.must.tail) filters
    rw [← kept] at document
    exact ⟨image, ended, mode, document, unembedded⟩
end SearchCompiler.NegationMirror
