import Mathlib.Data.List.Forall2
import SearchCompiler.Proofs.TokenGroups

/-! Terms, grouped by what they name. What a query says is told here by its terms, without following
how they are read: each term goes to one place, on the side of its sign, and every place holds what
the terms that went there say, in their order. A reading is right exactly if it is this grouping. -/
namespace SearchCompiler.TermGrouping
open Query Text
open TokenGroups

/-! ## Where a term goes -/

/-- The places that the terms of one side go to. -/
inductive Place where
  | keyword (key : String)
  | range (key : String)
  | text
  deriving DecidableEq

def Place.keyword? : Place → Option String
  | .keyword key => some key
  | _ => none

def Place.range? : Place → Option String
  | .range key => some key
  | _ => none

/-- A term has one sign, or none, and a body. A minus sign alone is a body. -/
inductive Signed : List Char → Bool → List Char → Prop
  | minus {body : List Char} (nonempty : body ≠ []) : Signed ('-' :: body) true body
  | lone : Signed ['-'] false ['-']
  | plain {term : List Char} (unsigned : term.head? ≠ some '-') : Signed term false term

/-- The key stands before the first colon, and the value behind it. -/
structure Keyed (body : List Char) (key : String) (value : List Char) : Prop where
  divided : body = key.toList ++ ':' :: value
  first : ':' ∉ key.toList

/-- The place of a body, and what is read of it there. A key in both lists is a keyword. -/
inductive Goes (vocabulary : Vocabulary) (body : List Char) : Place → List Char → Prop
  | keyword {key : String} {value : List Char} (keyed : Keyed body key value)
      (known : key ∈ vocabulary.keywords) : Goes vocabulary body (.keyword key) value
  | range {key : String} {value : List Char} (keyed : Keyed body key value)
      (known : key ∈ vocabulary.ranges) (other : key ∉ vocabulary.keywords) :
    Goes vocabulary body (.range key) value
  | text (unnamed : ∀ key value, Keyed body key value →
      key ∉ vocabulary.keywords ∧ key ∉ vocabulary.ranges) : Goes vocabulary body .text body

/-- A term that has found its side and its place. -/
structure Routed where
  negated : Bool
  place : Place
  /-- What is read at that place: the value behind the key, or the whole body as free text. -/
  content : List Char

def Routes (vocabulary : Vocabulary) (term : List Char) (routed : Routed) : Prop :=
  ∃ body, Signed term routed.negated body ∧ Goes vocabulary body routed.place routed.content

/-! ## What is read there -/

/-- What text means that may stand in quotes. -/
inductive Means : List Char → List Char → Prop
  | quoted (content : List Char) : Means ('"' :: content ++ ['"']) (unescape content)
  | plain {text : List Char} (unquoted : ∀ content, text ≠ '"' :: content ++ ['"']) : Means text text

/-- The values that a keyword is given: one in quotes, or those between commas, without empty ones. -/
inductive SaysValues : List Char → List String → Prop
  | quoted (content : List Char) :
    SaysValues ('"' :: content ++ ['"']) [String.ofList (unescape content)]
  | listed {text : List Char} (unquoted : ∀ content, text ≠ '"' :: content ++ ['"']) :
    SaysValues text (((text.splitOn ',').filter fun value => !value.isEmpty).map String.ofList)

/-- The ends that a range is given. The first hyphen divides them; without one there is no stop. -/
inductive SaysEnds : List Char → Endpoints → Prop
  | both {value start stop : List Char} (means : Means value (start ++ '-' :: stop))
      (first : '-' ∉ start) : SaysEnds value ⟨String.ofList start, String.ofList stop⟩
  | start {value text : List Char} (means : Means value text) (undivided : '-' ∉ text) :
    SaysEnds value ⟨String.ofList text, ""⟩

/-! ## The grouping -/

/-- The terms of one sign, in order. -/
def onSide (negated : Bool) (routed : List Routed) : List Routed :=
  routed.filter fun term => term.negated == negated

/-- What is read at one place, term by term. -/
def contents (place : Place) (routed : List Routed) : List (List Char) :=
  (routed.filter fun term => term.place = place).map Routed.content

/-- A group that holds, place by place, what the terms of one side say. -/
structure Grouped (routed : List Routed) (group : TokenGroup) : Prop where
  /-- A keyword is there if a term went to it, with all the values of such terms in order. -/
  keywords : ∀ key values, group.keywords.get? key = some values ↔
    contents (.keyword key) routed ≠ [] ∧
      ∃ lists, List.Forall₂ SaysValues (contents (.keyword key) routed) lists ∧
        lists.flatten = values
  keywordOrder : group.keywords.names =
    (routed.filterMap fun term => term.place.keyword?).eraseDups
  /-- A range is there if a term went to it, with the ends of the last such term. -/
  ranges : ∀ key ends, group.ranges.get? key = some ends ↔
    ∃ last, (contents (.range key) routed).getLast? = some last ∧ SaysEnds last ends
  undivided : ∀ key ends, group.ranges.get? key = some ends → '-' ∉ ends.start.toList
  rangeOrder : group.ranges.names = (routed.filterMap fun term => term.place.range?).eraseDups
  /-- The free text is one entry or none: what all the other terms mean, with a space between any
  two, empty meanings left out. -/
  text : ∃ words, List.Forall₂ Means (contents .text routed) words ∧
    group.text = joined (words.filter fun word => !word.isEmpty)

/-- The reading that a query should have. -/
inductive ReadsAs (vocabulary : Vocabulary) (query : String) : Reading → Prop
  | bare (unnamed : ':' ∉ query.toList ∨ (vocabulary.keywords = [] ∧ vocabulary.ranges = [])) :
    ReadsAs vocabulary query (.bare query)
  | structured {routed : List Routed} {parsed : ParsedQuery} (colon : ':' ∈ query.toList)
      (declared : vocabulary.keywords ≠ [] ∨ vocabulary.ranges ≠ [])
      (routes : List.Forall₂ (Routes vocabulary) (terms query.toList) routed)
      (included : Grouped (onSide false routed) parsed.included)
      (excluded : Grouped (onSide true routed) parsed.excluded) :
    ReadsAs vocabulary query (.structured parsed)

/-! ## Routing -/

variable {vocabulary : Vocabulary} {term body : List Char}

theorem signed_iff {negated : Bool} :
    Signed term negated body ↔ SignedTerm.ofTerm term = ⟨negated, body⟩ := by
  constructor
  · intro signed
    cases signed with
    | minus nonempty =>
      obtain ⟨c, rest, rfl⟩ := List.exists_cons_of_ne_nil nonempty
      rfl
    | lone => rfl
    | plain unsigned => exact ofTerm_unsigned unsigned
  · intro read
    unfold SignedTerm.ofTerm at read
    split at read
    · cases read
      exact .minus (List.cons_ne_nil _ _)
    · next other =>
      cases read
      by_cases unsigned : term.head? = some '-'
      · obtain ⟨rest, rfl⟩ := List.head?_eq_some_iff.mp unsigned
        cases rest with
        | nil => exact .lone
        | cons c more => exact absurd rfl (other c more)
      · exact .plain unsigned

theorem keyed_iff {key : String} {value : List Char} :
    Keyed body key value ↔ cutFirst ':' body = some (key.toList, value) := by
  constructor
  · rintro ⟨rfl, first⟩
    exact cutFirst_append first value
  · intro cut
    obtain ⟨divided, first⟩ := eq_append_of_cutFirst cut
    exact ⟨divided, first⟩

theorem Keyed.unique {key other : String} {value rest : List Char} (keyed : Keyed body key value)
    (also : Keyed body other rest) : key = other ∧ value = rest := by
  have same := (keyed_iff.mp keyed).symm.trans (keyed_iff.mp also)
  obtain ⟨keys, values⟩ := Prod.mk.inj (Option.some.inj same)
  exact ⟨String.toList_inj.mp keys, values⟩

/-- A body has a place. -/
theorem goes_exists (vocabulary : Vocabulary) (body : List Char) :
    ∃ place content, Goes vocabulary body place content := by
  by_cases named : ∃ key value, Keyed body key value ∧
      (key ∈ vocabulary.keywords ∨ key ∈ vocabulary.ranges)
  · obtain ⟨key, value, keyed, known⟩ := named
    by_cases keyword : key ∈ vocabulary.keywords
    · exact ⟨_, _, .keyword keyed keyword⟩
    · exact ⟨_, _, .range keyed (known.resolve_left keyword) keyword⟩
  · refine ⟨_, _, .text fun key value keyed => ?_⟩
    exact not_or.mp fun known => named ⟨key, value, keyed, known⟩

/-- It has no other. -/
theorem Goes.unique {place other : Place} {content rest : List Char}
    (goes : Goes vocabulary body place content) (also : Goes vocabulary body other rest) :
    place = other ∧ content = rest := by
  cases goes with
  | keyword keyed known =>
    cases also with
    | keyword again _ =>
      obtain ⟨rfl, rfl⟩ := keyed.unique again
      exact ⟨rfl, rfl⟩
    | range again _ unknown =>
      obtain ⟨rfl, rfl⟩ := keyed.unique again
      exact absurd known unknown
    | text unnamed => exact absurd known (unnamed _ _ keyed).1
  | range keyed known unknown =>
    cases also with
    | keyword again keyword =>
      obtain ⟨rfl, rfl⟩ := keyed.unique again
      exact absurd keyword unknown
    | range again _ _ =>
      obtain ⟨rfl, rfl⟩ := keyed.unique again
      exact ⟨rfl, rfl⟩
    | text unnamed => exact absurd known (unnamed _ _ keyed).2
  | text unnamed =>
    cases also with
    | keyword again known => exact absurd known (unnamed _ _ again).1
    | range again known _ => exact absurd known (unnamed _ _ again).2
    | text _ => exact ⟨rfl, rfl⟩

/-- Every term goes to exactly one place, on exactly one side. -/
theorem routes_unique (vocabulary : Vocabulary) (term : List Char) :
    ∃! routed, Routes vocabulary term routed := by
  obtain ⟨place, content, goes⟩ := goes_exists vocabulary (SignedTerm.ofTerm term).body
  refine ⟨⟨_, place, content⟩, ⟨_, signed_iff.mpr rfl, goes⟩, ?_⟩
  rintro ⟨negated, other, rest⟩ ⟨body, signed, also⟩
  obtain ⟨rfl, rfl⟩ := SignedTerm.mk.inj (signed_iff.mp signed)
  obtain ⟨rfl, rfl⟩ := goes.unique also
  rfl

/-! ## Reading -/

/-- A relation that is a function relates lists by mapping. -/
theorem forall₂_iff_map {α β : Type} {relation : α → β → Prop} {function : α → β}
    (same : ∀ first second, relation first second ↔ function first = second)
    {firsts : List α} {seconds : List β} :
    List.Forall₂ relation firsts seconds ↔ firsts.map function = seconds := by
  have functional : relation = fun first second => function first = second := by
    funext first second
    exact propext (same first second)
  rw [functional, ← List.forall₂_map_left_iff (f := function) (R := Eq), List.forall₂_eq_eq_eq]

theorem isQuoted_eq_false {text : List Char} (unquoted : ∀ content, text ≠ '"' :: content ++ ['"']) :
    isQuoted text = false :=
  Bool.eq_false_iff.mpr fun quoted => by
    obtain ⟨content, same⟩ := isQuoted_iff.mp quoted
    exact unquoted content same

theorem means_iff {text meaning : List Char} : Means text meaning ↔ (unquote text).1 = meaning := by
  constructor
  · intro means
    cases means with
    | quoted content => rw [unquote_quoted]
    | plain unquoted => rw [unquote, isQuoted_eq_false unquoted]; rfl
  · rintro rfl
    by_cases quoted : ∃ content, text = '"' :: content ++ ['"']
    · obtain ⟨content, rfl⟩ := quoted
      rw [unquote_quoted]
      exact .quoted content
    · have unquoted := not_exists.mp quoted
      rw [unquote, isQuoted_eq_false unquoted]
      exact .plain unquoted

/-- The pieces between commas are those of the standard library. -/
theorem pieces_eq_splitOn (separator : Char) (text : List Char) :
    pieces separator text = text.splitOn separator := by
  rw [List.splitOn]
  induction text with
  | nil => rfl
  | cons c rest ih =>
    rw [pieces, ih, List.splitOnP_cons_eq_if_modifyHead]
    by_cases same : c = separator
    · simp [same]
    · cases divided : List.splitOnP (· == separator) rest with
      | nil => exact absurd divided (List.splitOnP_ne_nil _ _)
      | cons first others => simp [same]

theorem saysValues_iff {text : List Char} {values : List String} :
    SaysValues text values ↔ keywordValues text = values := by
  constructor
  · intro told
    cases told with
    | quoted content => rw [keywordValues, unquote_quoted]; rfl
    | listed unquoted =>
      rw [keywordValues, unquote, isQuoted_eq_false unquoted, ← pieces_eq_splitOn]
      rfl
  · rintro rfl
    by_cases quoted : ∃ content, text = '"' :: content ++ ['"']
    · obtain ⟨content, rfl⟩ := quoted
      rw [keywordValues, unquote_quoted]
      exact .quoted content
    · have unquoted := not_exists.mp quoted
      have listed := SaysValues.listed unquoted
      rw [← pieces_eq_splitOn] at listed
      rw [keywordValues, unquote, isQuoted_eq_false unquoted]
      exact listed

theorem saysEnds_iff {value : List Char} {ends : Endpoints} :
    SaysEnds value ends ↔ rangeEndpoints value = ends := by
  unfold rangeEndpoints
  dsimp only
  constructor
  · intro told
    cases told with
    | both means first => rw [means_iff.mp means, cutFirst_append first]
    | start means undivided => rw [means_iff.mp means, cutFirst_eq_none_iff.mpr undivided]
  · rintro rfl
    have means : Means value (unquote value).1 := means_iff.mpr rfl
    cases cut : cutFirst '-' (unquote value).1 with
    | none => exact .start means (cutFirst_eq_none_iff.mp cut)
    | some halves =>
      obtain ⟨divided, first⟩ := eq_append_of_cutFirst cut
      rw [divided] at means
      exact .both means first

theorem forall₂_means_iff {texts meanings : List (List Char)} :
    List.Forall₂ Means texts meanings ↔ (texts.map fun text => (unquote text).1) = meanings :=
  forall₂_iff_map fun text meaning => @means_iff text meaning

theorem forall₂_saysValues_iff {texts : List (List Char)} {lists : List (List String)} :
    List.Forall₂ SaysValues texts lists ↔ texts.map keywordValues = lists :=
  forall₂_iff_map fun text values => @saysValues_iff text values

theorem SaysEnds.undivided {value : List Char} {ends : Endpoints} (told : SaysEnds value ends) :
    '-' ∉ ends.start.toList := by
  cases told with
  | both means first => rwa [String.toList_ofList]
  | start means undivided => rwa [String.toList_ofList]

/-! ## Terms as tokens -/

/-- The token that a routed term is read as. -/
def Routed.token (routed : Routed) : Token :=
  match routed.place with
  | .keyword key => .keyword key (keywordValues routed.content)
  | .range key => .range key (rangeEndpoints routed.content)
  | .text => .words (unquote routed.content).1

theorem Goes.token {negated : Bool} {place : Place} {content : List Char}
    (goes : Goes vocabulary body place content) :
    vocabulary.token body = Routed.token ⟨negated, place, content⟩ := by
  cases goes with
  | keyword keyed known =>
    obtain ⟨rfl, first⟩ := keyed
    exact token_keyword first known content
  | range keyed known other =>
    obtain ⟨rfl, first⟩ := keyed
    exact token_range first known other content
  | text unnamed =>
    unfold Vocabulary.token
    cases cut : cutFirst ':' body with
    | none => rfl
    | some halves =>
      have keyed : Keyed body (String.ofList halves.1) halves.2 :=
        keyed_iff.mpr (by rw [cut, String.toList_ofList])
      obtain ⟨keyword, range⟩ := unnamed _ _ keyed
      simp only [List.contains_eq_mem, keyword, range, decide_false, Bool.false_eq_true, if_false]
      rfl

/-- The tokens of one sign are those of the terms on that side. -/
theorem tokens_routed {found : List (List Char)} {routed : List Routed}
    (routes : List.Forall₂ (Routes vocabulary) found routed) (negated : Bool) :
    vocabulary.tokens negated (found.map SignedTerm.ofTerm) =
      (onSide negated routed).map Routed.token := by
  unfold Vocabulary.tokens onSide
  induction routes with
  | nil => rfl
  | @cons term first others rest routes _ ih =>
    obtain ⟨body, signed, goes⟩ := routes
    rw [List.map_cons, signed_iff.mp signed, List.filter_cons, List.filter_cons]
    split
    · rw [List.map_cons, List.map_cons, ih, goes.token]
    · exact ih

variable {routed : List Routed}

theorem contents_cons (place : Place) (first : Routed) (rest : List Routed) :
    contents place (first :: rest) =
      if first.place = place then first.content :: contents place rest else contents place rest := by
  unfold contents
  rw [List.filter_cons]
  by_cases same : first.place = place <;> simp [same]

/-- What tokens say of one place is read of the terms that went there. -/
theorem filterMap_routed {α : Type} {said : Token → Option α} {place : Place}
    {read : List Char → Option α}
    (own : ∀ negated content, said (Routed.token ⟨negated, place, content⟩) = read content)
    (others : ∀ term : Routed, term.place ≠ place → said term.token = none) :
    (routed.map Routed.token).filterMap said = (contents place routed).filterMap read := by
  induction routed with
  | nil => rfl
  | cons first rest ih =>
    rw [List.map_cons, List.filterMap_cons, ih, contents_cons]
    by_cases here : first.place = place
    · obtain ⟨negated, _, content⟩ := first
      cases here
      rw [if_pos rfl, own, List.filterMap_cons]
    · rw [if_neg here, others first here]

theorem valuesFor_routed (key : String) :
    (routed.map Routed.token).filterMap (valuesFor key) =
      (contents (.keyword key) routed).map keywordValues := by
  have given : (routed.map Routed.token).filterMap (valuesFor key) =
      (contents (.keyword key) routed).filterMap (some ∘ keywordValues) := by
    refine filterMap_routed (fun negated content => if_pos rfl) fun term elsewhere => ?_
    obtain ⟨negated, place, content⟩ := term
    cases place with
    | keyword name => exact if_neg fun same => elsewhere (congrArg Place.keyword same)
    | range name => rfl
    | text => rfl
  rw [given, List.filterMap_eq_map]

theorem endpointsFor_routed (key : String) :
    (routed.map Routed.token).filterMap (endpointsFor key) =
      (contents (.range key) routed).map rangeEndpoints := by
  have given : (routed.map Routed.token).filterMap (endpointsFor key) =
      (contents (.range key) routed).filterMap (some ∘ rangeEndpoints) := by
    refine filterMap_routed (fun negated content => if_pos rfl) fun term elsewhere => ?_
    obtain ⟨negated, place, content⟩ := term
    cases place with
    | keyword name => rfl
    | range name => exact if_neg fun same => elsewhere (congrArg Place.range same)
    | text => rfl
  rw [given, List.filterMap_eq_map]

theorem words_routed :
    (routed.map Routed.token).filterMap Token.words? =
      ((contents .text routed).map fun content => (unquote content).1).filter
        fun word => !word.isEmpty := by
  have spoken : (routed.map Routed.token).filterMap Token.words? =
      (contents .text routed).filterMap fun content =>
        Option.guard (fun word => !word.isEmpty) (unquote content).1 := by
    refine filterMap_routed (fun negated content => ?_) fun term elsewhere => ?_
    · cases empty : (unquote content).1.isEmpty <;>
        simp [Routed.token, Token.words?, Option.guard, empty]
    · obtain ⟨negated, place, content⟩ := term
      cases place with
      | keyword name => rfl
      | range name => rfl
      | text => exact absurd rfl elsewhere
  rw [spoken, ← List.filterMap_eq_filter, List.filterMap_map]
  rfl

theorem keywordKeys_routed :
    (routed.map Routed.token).filterMap keywordKey? =
      routed.filterMap fun term => term.place.keyword? := by
  rw [List.filterMap_map]
  congr 1
  funext term
  obtain ⟨negated, place, content⟩ := term
  cases place <;> rfl

theorem rangeKeys_routed :
    (routed.map Routed.token).filterMap rangeKey? =
      routed.filterMap fun term => term.place.range? := by
  rw [List.filterMap_map]
  congr 1
  funext term
  obtain ⟨negated, place, content⟩ := term
  cases place <;> rfl

/-! ## Groups -/

theorem gathered_eq_some_iff {lists : List (List String)} {values : List String} :
    gathered lists = some values ↔ lists ≠ [] ∧ lists.flatten = values := by
  cases lists <;> simp [gathered]

/-- What the tokens of routed terms say together is their grouping. -/
theorem grouped_ofTokens (routed : List Routed) :
    Grouped routed (.ofTokens (routed.map Routed.token)) := by
  have gathers := gathers_ofTokens (routed.map Routed.token)
  have ranges (key : String) (ends : Endpoints) :
      (TokenGroup.ofTokens (routed.map Routed.token)).ranges.get? key = some ends ↔
        ∃ last, (contents (.range key) routed).getLast? = some last ∧ SaysEnds last ends := by
    simp only [gathers.endpoints, endpointsFor_routed, List.getLast?_map, Option.map_eq_some_iff,
      saysEnds_iff]
  refine ⟨fun key values => ?_, ?_, ranges, fun key ends given => ?_, ?_, ?_⟩
  · rw [gathers.values, valuesFor_routed, gathered_eq_some_iff]
    simp only [forall₂_saysValues_iff, exists_eq_left', ne_eq, List.map_eq_nil_iff]
  · rw [gathers.keywordOrder, keywordKeys_routed]
  · obtain ⟨last, _, told⟩ := (ranges key ends).mp given
    exact told.undivided
  · rw [gathers.rangeOrder, rangeKeys_routed]
  · exact ⟨_, forall₂_means_iff.mpr rfl, by rw [gathers.text, words_routed]⟩

/-- There is one grouping of the terms. -/
theorem Grouped.unique {group other : TokenGroup} (grouped : Grouped routed group)
    (also : Grouped routed other) : group = other := by
  have keywords : group.keywords = other.keywords := by
    refine OrderedMap.eq_of_get? (grouped.keywordOrder.trans also.keywordOrder.symm) fun key => ?_
    exact Option.ext fun values => (grouped.keywords key values).trans (also.keywords key values).symm
  have ranges : group.ranges = other.ranges := by
    refine OrderedMap.eq_of_get? (grouped.rangeOrder.trans also.rangeOrder.symm) fun key => ?_
    exact Option.ext fun ends => (grouped.ranges key ends).trans (also.ranges key ends).symm
  have text : group.text = other.text := by
    obtain ⟨words, mean, said⟩ := grouped.text
    obtain ⟨others, meanAlso, saidAlso⟩ := also.text
    have same : words = others :=
      (forall₂_means_iff.mp mean).symm.trans (forall₂_means_iff.mp meanAlso)
    rw [said, saidAlso, same]
  cases group
  cases other
  cases keywords
  cases ranges
  cases text
  rfl

/-! ## Queries -/

/-- What is read of a query that can name fields is the grouping of its terms. -/
theorem parsedOf_grouped {query : List Char}
    (routes : List.Forall₂ (Routes vocabulary) (terms query) routed) :
    Grouped (onSide false routed) (parsedOf vocabulary query).included ∧
      Grouped (onSide true routed) (parsedOf vocabulary query).excluded := by
  unfold parsedOf tokensOf
  rw [tokens_routed routes, tokens_routed routes]
  exact ⟨grouped_ofTokens _, grouped_ofTokens _⟩

/-- **Reading a query is grouping its terms.** Every term goes to exactly one keyword, range or free
text of exactly one side. A query is read as it is where it holds no colon or no field can be named;
any other query has exactly one reading, in which each side holds, place by place, what the terms
that went there say. -/
theorem terms_grouped (vocabulary : Vocabulary) (query : String) :
    (∀ term, ∃! routed, Routes vocabulary term routed) ∧
      ∀ reading, tokenize vocabulary query = reading ↔ ReadsAs vocabulary query reading := by
  refine ⟨routes_unique vocabulary, fun reading => ?_⟩
  constructor
  · rintro rfl
    by_cases applies : vocabulary.applies query.toList = true
    · obtain ⟨colon, declared⟩ := applies_iff.mp applies
      have placed (term : List Char) : ∃ routed, Routes vocabulary term routed :=
        (routes_unique vocabulary term).exists
      choose route routes using placed
      have routed : List.Forall₂ (Routes vocabulary) (terms query.toList)
          ((terms query.toList).map route) :=
        List.forall₂_map_right_iff.mpr (List.forall₂_same.mpr fun term _ => routes term)
      obtain ⟨included, excluded⟩ := parsedOf_grouped routed
      rw [tokenize_structured applies]
      exact .structured colon declared routed included excluded
    · rw [tokenize, if_neg applies]
      refine .bare ?_
      rw [applies_iff, not_and_or, not_or, not_not, not_not] at applies
      exact applies
  · intro reads
    cases reads with
    | bare unnamed =>
      refine if_neg fun applies => ?_
      obtain ⟨colon, declared⟩ := applies_iff.mp applies
      obtain missing | ⟨keywordless, rangeless⟩ := unnamed
      · exact missing colon
      · exact declared.elim (fun some => some keywordless) (fun some => some rangeless)
    | @structured routed parsed colon declared routes included excluded =>
      obtain ⟨first, second⟩ := parsedOf_grouped routes
      rw [tokenize_structured (applies_iff.mpr ⟨colon, declared⟩)]
      congr 1
      cases parsed
      cases first.unique included
      cases second.unique excluded
      rfl

end SearchCompiler.TermGrouping
