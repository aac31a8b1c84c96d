import SearchCompiler.Proofs.DefaultReading
import SearchCompiler.Proofs.HookProtocol
import SearchCompiler.Proofs.PhraseScanning

/-! A minus sign before a quoted phrase. The tokenizer reads the phrase as excluded, and excluded
words constrain nothing; the phrases of a query are looked for without its signs, and what is found
there takes the place of the free text. So a refused phrase is required: the document is that of a
keyword search for it, and the query is none the wiser only where it had been just that search
before. -/
namespace SearchCompiler.NegatedPhrase
open Build Document Query Settings Text
open BuildSemantics DefaultReading HookProtocol PhraseScanning TermScanning TokenGroups

/-- A query with a quoted phrase refused at its end. -/
def refusing (query : String) (phrase : List Char) : String :=
  String.ofList (query.toList ++ ' ' :: '-' :: '"' :: phrase ++ ['"'])

/-- Queries and phrases that can be put together so: the query names fields and quotes nothing, the
phrase holds neither a quote nor a backslash, and no field has a key that a phrase could begin. -/
structure Refusable (compiler : Compiler) (query : String) (phrase : List Char) : Prop where
  reads : compiler.tokenizer = tokenize
  declared : compiler.settings.fields.names ≠ []
  unopened : ∀ key ∈ compiler.settings.fields.names, key.toList.head? ≠ some '"'
  colon : ':' ∈ query.toList
  unquoted : '"' ∉ query.toList
  nonempty : phrase ≠ []
  quoteless : '"' ∉ phrase
  plain : '\\' ∉ phrase

/-- The phrase is not noticed: it is blank and the query has no free text, or the query searches for
the very same text by keywords, or for any text in no field at all. -/
inductive Unnoticed (settings : Entity) (freeText : FreeText) (phrase : String) : Prop
  | blank (absent : freeText.isPresent = false)
      (blank : (FreeText.mk phrase true).isPresent = false)
  | searched (present : freeText.isPresent = true)
      (visible : (FreeText.mk phrase true).isPresent = true)
      (byKeywords : settings.vectorSearch = none)
      (same : settings.phraseFields = [] ∨ freeText.text = phrase)

/-! ## The two scanners -/

/-- The phrase with its sign stands behind a blank. -/
theorem refusing_toList (query : String) (phrase : List Char) :
    (refusing query phrase).toList =
      query.toList ++ ' ' :: (['-'] ++ '"' :: phrase ++ ['"']) := by
  simp [refusing]

variable {compiler : Compiler} {query : String} {phrase : List Char}

/-- The tokenizer puts the phrase among the excluded words. -/
theorem tokensOf_refusing (refusable : Refusable compiler query phrase) (negated : Bool) :
    tokensOf compiler.settings.vocabulary negated (refusing query phrase).toList =
      tokensOf compiler.settings.vocabulary negated query.toList ++
        if negated then [.words (unquote ('"' :: phrase ++ ['"'])).1] else [] := by
  have word : compiler.settings.vocabulary.token ('"' :: phrase ++ ['"']) =
      .words (unquote ('"' :: phrase ++ ['"'])).1 :=
    token_of_quote (fun key declared => refusable.unopened key (mem_vocabulary.mp declared)) _
  have sign : SignedTerm.ofTerm (['-'] ++ '"' :: phrase ++ ['"']) =
      ⟨true, '"' :: phrase ++ ['"']⟩ := rfl
  unfold tokensOf
  rw [refusing_toList,
    terms_phrase_last (.inr rfl) refusable.unquoted refusable.quoteless refusable.plain,
    List.map_append, tokens_append, List.map_singleton, sign]
  congr 1
  cases negated with
  | false => rfl
  | true => exact congrArg (fun token => [token]) word

theorem refusing_sameSides (refusable : Refusable compiler query phrase) :
    SameSides (readingOf compiler (refusing query phrase)) (readingOf compiler query) := by
  have colon : ':' ∈ (refusing query phrase).toList := by
    simp [refusing, refusable.colon]
  rw [readingOf_colon refusable.reads refusable.declared colon,
    readingOf_colon refusable.reads refusable.declared refusable.colon]
  unfold parsedOf
  rw [tokensOf_refusing refusable, tokensOf_refusing refusable]
  rintro (_ | _)
  · exact ⟨by simp [side], by simp [side]⟩
  · have added := sameFields_words (tokensOf compiler.settings.vocabulary true query.toList) []
      (unquote ('"' :: phrase ++ ['"'])).1
    rwa [List.append_nil] at added

/-- The phrases of a query do not know about signs. -/
theorem refusing_searchText (refusable : Refusable compiler query phrase) :
    searchTextOf compiler (refusing query phrase) = ⟨String.ofList phrase, true⟩ := by
  have found := phrases_last (.inr rfl) refusable.unquoted refusable.quoteless refusable.plain
  unfold searchTextOf FreeText.ofQuery
  rw [refusing_toList, found]
  simp [phrase?, refusable.nonempty, joinWords]

/-! ## The documents -/

variable {settings : Entity} {freeText : FreeText} {filter : BoolFilter}

/-- Quoted text is searched for by keywords. -/
theorem modeFor_quoted (quoted : freeText.quoted = true) : modeFor settings freeText = .keyword := by
  obtain plain | ⟨_, _, searching⟩ := keyword_or_searching settings freeText
  · exact plain
  · rw [searching.unquoted] at quoted
    cases quoted

/-- Free text that is not quoted is searched for by keywords where no vector search is set up. -/
theorem modeFor_keyword_iff (unquoted : freeText.quoted = false) :
    modeFor compiler.settings freeText = .keyword ↔
      (freeText.isPresent = true → compiler.settings.vectorSearch = none) := by
  constructor
  · intro keyword present
    cases found : vectorSearch? compiler.settings with
    | none => simpa [found] using vectorSearch?_isSome compiler
    | some search => exact absurd keyword (Searching.not_keyword ⟨found, present, unquoted⟩)
  · intro unsearched
    obtain plain | ⟨search, embedder, searching⟩ := keyword_or_searching compiler.settings freeText
    · exact plain
    · have unfound := vectorSearch?_isSome compiler
      rw [searching.found, unsearched searching.present] at unfound
      cases unfound

/-- A keyword search has no other shape than its filter. -/
theorem assembled_keyword_iff {mode : Mode} {document : Clause} {found : BoolFilter}
    (assembled : Assembled settings freeText filter mode document) :
    (.keyword = mode ∧ .bool found = document) ↔
      mode = .keyword ∧ found = withPhrase settings freeText filter := by
  cases assembled <;> simp

/-- Two texts give the same filter where both are blank, or both are searched for and are the same
text or searched for in no field. -/
theorem withPhrase_eq_iff {other : FreeText} :
    withPhrase settings other filter = withPhrase settings freeText filter ↔
      other.isPresent = freeText.isPresent ∧
        (freeText.isPresent = true → settings.phraseFields = [] ∨ freeText.text = other.text) := by
  have grown (clause : Clause) : filter.require clause ≠ filter := fun same => by
    have longer := congrArg (fun found => found.must.length) same
    simp [BoolFilter.require] at longer
  have clauses : phraseClause settings other.text = phraseClause settings freeText.text ↔
      settings.phraseFields = [] ∨ freeText.text = other.text := by
    unfold phraseClause
    cases settings.phraseFields with
    | nil => simp
    | cons field rest => simpa [eq_comm] using fun same _ _ => same
  unfold withPhrase
  cases first : other.isPresent <;> cases second : freeText.isPresent
  · simp
  · simpa using (grown _).symm
  · simpa using grown _
  · simp [BoolFilter.require, clauses]

/-- Where a query compiles, so does the query with a phrase refused, as a search for the phrase. -/
theorem refusing_build (refusable : Refusable compiler query phrase) {built : Built}
    (ended : (compiler.build query).outcome = .ok built) :
    (compiler.build (refusing query phrase)).outcome = .ok
      { document := .bool (withPhrase compiler.settings ⟨String.ofList phrase, true⟩
          (plainFilter compiler (readingOf compiler query)))
        parsed := (readingOf compiler (refusing query phrase)).parsed?
        mode := .keyword } := by
  obtain ⟨sides, _, _, _⟩ := build_ok_iff.mp ended
  have same := refusing_sameSides refusable
  have text := refusing_searchText refusable
  refine build_ok_iff.mpr ⟨?_, ?_, rfl, ?_⟩
  · intro polarity
    obtain ⟨clauses, compiles⟩ := sides polarity
    exact ⟨clauses, by rw [groupClauses_sameFields (same polarity), compiles]⟩
  · rw [text, modeFor_quoted rfl]
  · rw [text, plainFilter_sameSides same]
    exact .keyword

/-- **A refused phrase is required.** Where a query compiles, so does the query with a phrase
refused at its end, as a keyword search whose free text is the phrase; it has the mode and the
document of the query itself exactly where the phrase is not noticed. -/
theorem refused_phrase_required (refusable : Refusable compiler query phrase) {built : Built}
    (ended : (compiler.build query).outcome = .ok built) :
    ∃ signed, (compiler.build (refusing query phrase)).outcome = .ok signed ∧
      signed.mode = .keyword ∧
      signed.document = .bool (withPhrase compiler.settings ⟨String.ofList phrase, true⟩
        (plainFilter compiler (readingOf compiler query))) ∧
      ((signed.mode = built.mode ∧ signed.document = built.document) ↔
        Unnoticed compiler.settings (searchTextOf compiler query) (String.ofList phrase)) := by
  obtain ⟨_, chosen, _, assembled⟩ := build_ok_iff.mp ended
  have unquoted : (searchTextOf compiler query).quoted = false :=
    searchTextOf_quoted.mpr (phrases_of_quoteless refusable.unquoted)
  refine ⟨_, refusing_build refusable ended, rfl, rfl, ?_⟩
  rw [assembled_keyword_iff assembled, chosen, modeFor_keyword_iff unquoted, withPhrase_eq_iff]
  constructor
  · rintro ⟨byKeywords, visible, same⟩
    cases present : (searchTextOf compiler query).isPresent with
    | false => exact .blank present (visible.trans present)
    | true => exact .searched present (visible.trans present) (byKeywords present) (same present)
  · rintro (⟨absent, blank⟩ | ⟨present, visible, byKeywords, same⟩)
    · exact ⟨by simp [absent], blank.trans absent.symm, by simp [absent]⟩
    · exact ⟨fun _ => byKeywords, visible.trans present.symm, fun _ => same⟩

/-! ## A bar -/

/-- Drinks that are found by their tags and by words in their titles. -/
def bar : Compiler where
  settings :=
    { fields := ⟨[("tag", { kind := .term, indexField := "tags" })], by simp⟩
      phraseFields := ["title"] }
  usable := by
    have typeable : ["tag"].findSome? keyError? = none := by decide +kernel
    exact Option.or_eq_none_iff.mpr ⟨typeable, rfl⟩
  clock := .ofSeconds 0

def beer : List Char := ['b', 'e', 'e', 'r']

/-- What the bar looks for where red drinks are asked for. -/
def redDrinks : BoolFilter := ⟨[.term "tags" "red"], []⟩

theorem bar_build :
    (bar.build "tag:red").outcome =
      .ok ⟨.bool redDrinks, (readingOf bar "tag:red").parsed?, .keyword⟩ := by
  rfl

theorem bar_plainFilter : plainFilter bar (readingOf bar "tag:red") = redDrinks := by
  rfl

theorem bar_refusable : Refusable bar "tag:red" beer where
  reads := rfl
  declared := List.cons_ne_nil _ _
  unopened := by
    intro key declared
    cases List.mem_singleton.mp declared
    decide +kernel
  colon := by decide +kernel
  unquoted := by decide +kernel
  nonempty := List.cons_ne_nil _ _
  quoteless := by decide
  plain := by decide

theorem refusing_beer : refusing "tag:red" beer = "tag:red -\"beer\"" := by decide +kernel

/-- Whoever wants red drinks and no beer is shown red drinks that are called beer. -/
theorem refused_beer_found :
    ∃ built signed, (bar.build "tag:red").outcome = .ok built ∧
      (bar.build "tag:red -\"beer\"").outcome = .ok signed ∧
      built.document = .bool redDrinks ∧
      signed.document = .bool (redDrinks.require (.anyOf [.phrase "title" "beer"])) ∧
      signed.document ≠ built.document := by
  have signed := refusing_build bar_refusable bar_build
  rw [refusing_beer, bar_plainFilter] at signed
  refine ⟨_, _, bar_build, signed, rfl, rfl, ?_⟩
  intro same
  cases same

/-- The bar notices the beer. -/
theorem bar_notices_beer :
    ∃ signed, (bar.build (refusing "tag:red" beer)).outcome = .ok signed ∧
      ((signed.mode = .keyword ∧ signed.document = .bool redDrinks) ↔
        Unnoticed bar.settings (searchTextOf bar "tag:red") (String.ofList beer)) := by
  obtain ⟨signed, ended, _, _, noticed⟩ := refused_phrase_required bar_refusable bar_build
  exact ⟨signed, ended, noticed⟩

end SearchCompiler.NegatedPhrase
