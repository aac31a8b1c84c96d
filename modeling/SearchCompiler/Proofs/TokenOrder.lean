import SearchCompiler.Proofs.BuildPhases
import SearchCompiler.Proofs.FittingQueries
import SearchCompiler.Proofs.PhraseScanning
import SearchCompiler.Proofs.QueryWords

/-! The order of words. Each word of a query without quotes belongs in one place: with its sign, to
the declared field it names or to the free text. What a query says in one place depends on the words
there and their order alone, so words of different places can change their order, and the blanks
between them can be any, without a change in the build. What is read may still differ, as fields are
listed in the order in which they are first named. -/
namespace SearchCompiler.TokenOrder
open Build Query Settings Text
open BuildPhases BuildSemantics DefaultReading FittingQueries PhraseScanning QueryWords
open TermScanning TokenGroups

/-! ## Places -/

/-- Where a word belongs: its sign and the declared field that it names. A word that names none is
free text. -/
structure Place where
  negated : Bool
  field : Option String
  deriving DecidableEq

/-- The declared field that a word without its sign names. -/
def namedField? (vocabulary : Vocabulary) (body : List Char) : Option String :=
  match cutFirst ':' body with
  | some (key, _) =>
    if String.ofList key ∈ vocabulary.keywords ++ vocabulary.ranges then some (String.ofList key)
    else none
  | none => none

def placeOf (vocabulary : Vocabulary) (word : List Char) : Place :=
  let term := SignedTerm.ofTerm word
  ⟨term.negated, namedField? vocabulary term.body⟩

/-- The words of one place, in their order. -/
def wordsAt (vocabulary : Vocabulary) (place : Place) (text : List (List Char)) :
    List (List Char) :=
  text.filter fun word => placeOf vocabulary word = place

/-- The same words in another order, which moves none past another of its place. -/
structure Rearranged (vocabulary : Vocabulary) (first second : List (List Char)) : Prop where
  perm : first.Perm second
  kept : ∀ place, wordsAt vocabulary place first = wordsAt vocabulary place second

variable {vocabulary : Vocabulary} {first second : List (List Char)}

/-- Only the places of words that occur have to be looked at. -/
theorem rearranged_iff : Rearranged vocabulary first second ↔
    first.Perm second ∧ ∀ word ∈ first, wordsAt vocabulary (placeOf vocabulary word) first =
      wordsAt vocabulary (placeOf vocabulary word) second := by
  constructor
  · rintro ⟨perm, kept⟩
    exact ⟨perm, fun word _ => kept _⟩
  · rintro ⟨perm, kept⟩
    refine ⟨perm, fun place => ?_⟩
    by_cases taken : ∃ word ∈ first, placeOf vocabulary word = place
    · obtain ⟨word, member, rfl⟩ := taken
      exact kept word member
    · have empty : wordsAt vocabulary place first = [] :=
        List.filter_eq_nil_iff.mpr fun word member here =>
          taken ⟨word, member, of_decide_eq_true here⟩
      rw [empty]
      exact (List.nil_perm.mp (empty ▸ perm.filter _)).symm

instance : Decidable (Rearranged vocabulary first second) := decidable_of_iff _ rearranged_iff.symm

/-! ## What is said in a place -/

/-- The field that a token names. -/
def Token.field? : Token → Option String
  | .keyword key _ | .range key _ => some key
  | .words _ => none

theorem field?_token (vocabulary : Vocabulary) (body : List Char) :
    Token.field? (vocabulary.token body) = namedField? vocabulary body := by
  unfold Vocabulary.token namedField?
  cases cutFirst ':' body with
  | none => rfl
  | some halves =>
    by_cases keyword : String.ofList halves.1 ∈ vocabulary.keywords
    · simp [keyword, Token.field?]
    · by_cases range : String.ofList halves.1 ∈ vocabulary.ranges <;>
        simp [keyword, range, Token.field?]

variable {α : Type}

/-- What some tokens of one sign say is said word by word. -/
theorem filterMap_tokens (say : Token → Option α) (negated : Bool) (text : List (List Char)) :
    (vocabulary.tokens negated (text.map SignedTerm.ofTerm)).filterMap say =
      text.filterMap fun word =>
        if (SignedTerm.ofTerm word).negated = negated then
          say (vocabulary.token (SignedTerm.ofTerm word).body)
        else none := by
  unfold Vocabulary.tokens
  rw [List.filter_map, List.map_map, List.filterMap_map, List.filterMap_filter]
  simp [Function.comp_def]

/-- What is said of one field, or in the free text, is said by the words of its place. -/
theorem said_rearranged (rearranged : Rearranged vocabulary first second) {field : Option String}
    {say : Token → Option α} (about : ∀ token, say token ≠ none → Token.field? token = field)
    (negated : Bool) :
    (vocabulary.tokens negated (first.map SignedTerm.ofTerm)).filterMap say =
      (vocabulary.tokens negated (second.map SignedTerm.ofTerm)).filterMap say := by
  have placed (text : List (List Char)) :
      (vocabulary.tokens negated (text.map SignedTerm.ofTerm)).filterMap say =
        (vocabulary.tokens negated
          ((wordsAt vocabulary ⟨negated, field⟩ text).map SignedTerm.ofTerm)).filterMap say := by
    rw [filterMap_tokens, filterMap_tokens, wordsAt, List.filterMap_filter]
    -- words of other places say nothing here, so they can be left out before anything is said
    congr 1
    funext word
    by_cases here : placeOf vocabulary word = ⟨negated, field⟩
    · simp only [here, decide_true, if_true]
    · simp only [here, decide_false, Bool.false_eq_true, if_false, ite_eq_right_iff]
      intro sign
      by_contra spoken
      have named := about _ spoken
      rw [field?_token] at named
      exact here (by rw [placeOf, sign, named])
  rw [placed, placed second, rearranged.kept]

variable {key : String}

theorem field?_of_valuesFor {token : Token} (spoken : valuesFor key token ≠ none) :
    Token.field? token = some key := by
  cases token with
  | keyword name values =>
    by_cases same : name = key
    · exact congrArg some same
    · simp [valuesFor, same] at spoken
  | range name ends => exact absurd rfl spoken
  | words text => exact absurd rfl spoken

theorem field?_of_endpointsFor {token : Token} (spoken : endpointsFor key token ≠ none) :
    Token.field? token = some key := by
  cases token with
  | range name ends =>
    by_cases same : name = key
    · exact congrArg some same
    · simp [endpointsFor, same] at spoken
  | keyword name values => exact absurd rfl spoken
  | words text => exact absurd rfl spoken

theorem field?_of_words? {token : Token} (spoken : token.words? ≠ none) :
    Token.field? token = none := by
  cases token with
  | words text => rfl
  | keyword name values => exact absurd rfl spoken
  | range name ends => exact absurd rfl spoken

/-! ## Groups and readings that say the same -/

/-- Two groups with the same values and ends of each field and the same free text. In which order
they name the fields is left open. -/
structure SaysAlike (first second : TokenGroup) : Prop where
  values : ∀ key, first.values? key = second.values? key
  text : first.text = second.text

theorem saysAlike_of_rearranged (rearranged : Rearranged vocabulary first second) (negated : Bool) :
    SaysAlike (.ofTokens (vocabulary.tokens negated (first.map SignedTerm.ofTerm)))
      (.ofTokens (vocabulary.tokens negated (second.map SignedTerm.ofTerm))) := by
  have before := gathers_ofTokens (vocabulary.tokens negated (first.map SignedTerm.ofTerm))
  have behind := gathers_ofTokens (vocabulary.tokens negated (second.map SignedTerm.ofTerm))
  refine ⟨fun key => ?_, ?_⟩
  · unfold TokenGroup.values?
    rw [before.values, behind.values, before.endpoints, behind.endpoints,
      said_rearranged rearranged (fun _ => field?_of_valuesFor),
      said_rearranged rearranged (fun _ => field?_of_endpointsFor)]
  · rw [before.text, behind.text, said_rearranged rearranged (fun _ => field?_of_words?)]

/-- Queries with the same words in each place are both read term by term, and say the same. -/
theorem readings_rearranged {compiler : Compiler} {query other : String}
    (reads : compiler.tokenizer = tokenize) (declared : compiler.settings.fields.names ≠ [])
    (colon : ':' ∈ query.toList) (quoteless : '"' ∉ query.toList)
    (rearranged : Rearranged compiler.settings.vocabulary (words query.toList)
      (words other.toList)) :
    '"' ∉ other.toList ∧ ∃ before behind, readingOf compiler query = .structured before ∧
      readingOf compiler other = .structured behind ∧
      SaysAlike before.included behind.included ∧ SaysAlike before.excluded behind.excluded := by
  have shared {c : Char} (nonblank : isBlank c = false) : c ∈ query.toList ↔ c ∈ other.toList := by
    rw [mem_iff_mem_word nonblank, mem_iff_mem_word nonblank]
    simp only [rearranged.perm.mem_iff]
  have unquoted : '"' ∉ other.toList := by rwa [← shared isBlank_quote]
  have said (negated : Bool) :
      SaysAlike (.ofTokens (tokensOf compiler.settings.vocabulary negated query.toList))
        (.ofTokens (tokensOf compiler.settings.vocabulary negated other.toList)) := by
    rw [tokensOf_quoteless _ _ quoteless, tokensOf_quoteless _ _ unquoted]
    exact saysAlike_of_rearranged rearranged negated
  exact ⟨unquoted, _, _, readingOf_colon reads declared colon,
    readingOf_colon reads declared ((shared isBlank_colon).mp colon), said false, said true⟩

/-! ## Builds -/

variable {compiler : Compiler}

/-- Fields are compiled in the order of their declaration, so the order in which a query names them
shows in its unknown fields only, and a query that fits has none. -/
theorem groupClauses_alike {polarity : Polarity} {before behind : TokenGroup}
    (alike : SaysAlike before behind) (fits : Fits compiler.settings before)
    (also : Fits compiler.settings behind) :
    groupClauses compiler polarity before = groupClauses compiler polarity behind := by
  unfold groupClauses
  rw [unknownFields_of_fits fits, unknownFields_of_fits also, requests_congr alike.values]

/-- **The order of words does not matter across fields.** Let a query without quotes name a field,
and let another have the same words, in an order that moves none past another of its sign and field,
nor past another of the free text of its sign, with any blanks between them. Then the two make the
same calls in the same order, and end alike: with the same mode and document, or with the same
failure. -/
theorem order_across_fields_free {query other : String} (reads : compiler.tokenizer = tokenize)
    (declared : compiler.settings.fields.names ≠ []) (colon : ':' ∈ query.toList)
    (quoteless : '"' ∉ query.toList)
    (rearranged : Rearranged compiler.settings.vocabulary (words query.toList)
      (words other.toList)) :
    BuildAlike (compiler.build query) (compiler.build other) := by
  obtain ⟨unquoted, before, behind, first, second, included, excluded⟩ :=
    readings_rearranged reads declared colon quoteless rearranged
  have fits (polarity : Polarity) : Fits compiler.settings (side (.structured before) polarity) :=
    first ▸ fits_reading reads polarity
  have also (polarity : Polarity) : Fits compiler.settings (side (.structured behind) polarity) :=
    second ▸ fits_reading reads polarity
  apply build_alike
  · rw [first, second, filterOf, filterOf,
      groupClauses_alike included (fits .included) (also .included),
      groupClauses_alike excluded (fits .excluded) (also .excluded)]
  · unfold searchTextOf FreeText.ofQuery
    rw [phrases_of_quoteless quoteless, phrases_of_quoteless unquoted, first, second]
    dsimp only
    rw [ParsedQuery.freeText?, included.text, ← ParsedQuery.freeText?]

/-! ## A search box -/

def redCola : String := "tag:red cola group:drinks -tag:beer tag:sweet"

/-- The words of the search for red cola in another order, with other blanks. -/
def colaRed : String := "group:drinks\t-tag:beer  tag:red tag:sweet\n cola"

/-- The two searches have one filter, though the first reads its tags before its groups and the
second reads its groups first. -/
theorem searchBox_orders_alike :
    (readingOf searchBox redCola).parsed?.map (·.included.fields) = some ["tag", "group"] ∧
    (readingOf searchBox colaRed).parsed?.map (·.included.fields) = some ["group", "tag"] ∧
    BuildAlike (searchBox.build redCola) (searchBox.build colaRed) := by
  refine ⟨by decide +kernel, by decide +kernel, ?_⟩
  exact order_across_fields_free rfl (List.cons_ne_nil _ _) (by decide +kernel)
    (by decide +kernel) (by decide +kernel)

end SearchCompiler.TokenOrder
