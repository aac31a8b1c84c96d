import Mathlib.Data.List.Nodup
import SearchCompiler.Document.Render
import SearchCompiler.OrderedMap

/-! Documents read back from the JSON they are rendered as. A reader that knows the shapes of the
query language, and nothing of the document, finds every clause again, so two documents with the
same JSON are the same. The names of fields are any strings; they stand only where the object has
one member, so none is taken for a word of the language. What JSON cannot hold is a number that is
not finite: it becomes null, and documents without such a number hold no null at all. -/
namespace SearchCompiler.FaithfulRendering
open Document
open Json (Value)

/-! ## Reading a document -/

def naturalOf? : Value → Option Nat
  | .number (.integer value) => some value.toNat
  | _ => none

def floatOf? : Value → Option Float
  | .number (.float value) => some value
  | _ => none

def vectorOf? : Value → Option (List Float)
  | .array elements => elements.mapM floatOf?
  | _ => none

/-- A clause that tests one field, from the word for its test. -/
def leafOf? (test : String) : Value → Option Clause
  | .object [(field, .string text)] =>
    if test = "term" then some (.term field text)
    else if test = "match" then some (.analyzed field text)
    else if test = "match_phrase" then some (.phrase field text)
    else none
  | .object [(field, .object [("gte", .string atLeast), ("lte", .string atMost)])] =>
    if test = "range" then some (.range field atLeast atMost) else none
  | _ => none

mutual

/-- The clause that a value renders. A disjunction and a filter share their word and differ in the
members below it. -/
def clauseOf? : Value → Option Clause
  | .object [(word, body)] =>
    if word = "bool" then
      ((disjunctionOf? body).map .anyOf).or ((filterOf? body).map .bool)
    else if word = "knn" then (nearestOf? body).map .nearest
    else if word = "hybrid" then hybridOf? body
    else leafOf? word body
  | _ => none

/-- The clauses of a disjunction. -/
def disjunctionOf? : Value → Option (List Clause)
  | .object [("minimum_should_match", .number (.integer 1)), ("should", .array clauses)] =>
    clausesOf? clauses
  | _ => none

/-- A Boolean filter, from the members below its word. -/
def filterOf? : Value → Option BoolFilter
  | .object [("must", .array must), ("must_not", .array mustNot)] => do
    let required ← clausesOf? must
    let refused ← clausesOf? mustNot
    some ⟨required, refused⟩
  | _ => none

/-- A vector search, from the object below its word: options that are not there are not set. -/
def nearestOf? : Value → Option NearestQuery
  | .object [(field, .object (("filter", .object [("bool", filter)]) :: options))] => do
    let filter ← filterOf? filter
    let vector ← (options.lookup "vector").bind vectorOf?
    some
      { field
        vector
        count := (options.lookup "k").bind naturalOf?
        maxDistance := (options.lookup "max_distance").bind floatOf?
        minScore := (options.lookup "min_score").bind floatOf?
        filter }
  | _ => none

/-- A hybrid search: the vector search first, then the filter. -/
def hybridOf? : Value → Option Clause
  | .object [("queries", .array [.object [("knn", vector)], .object [("bool", keyword)]])] => do
    let nearest ← nearestOf? vector
    let filter ← filterOf? keyword
    some (.hybrid nearest filter)
  | _ => none

/-- Several clauses, all of which have to be read. -/
def clausesOf? : List Value → Option (List Clause)
  | [] => some []
  | value :: rest => do
    let clause ← clauseOf? value
    let others ← clausesOf? rest
    some (clause :: others)

end

/-! ## Finite numbers and null -/

mutual

/-- Every number in a clause is finite. -/
def FiniteClause : Clause → Prop
  | .term _ _ | .range _ _ _ | .analyzed _ _ | .phrase _ _ => True
  | .anyOf clauses => FiniteClauses clauses
  | .bool filter => FiniteFilter filter
  | .nearest query => FiniteQuery query
  | .hybrid vector keyword => FiniteQuery vector ∧ FiniteFilter keyword

/-- Every number in a filter is finite. -/
def FiniteFilter : BoolFilter → Prop
  | ⟨must, mustNot⟩ => FiniteClauses must ∧ FiniteClauses mustNot

/-- Every number in a vector search is finite, in its filter too. -/
def FiniteQuery : NearestQuery → Prop
  | ⟨_, vector, _, maxDistance, minScore, filter⟩ =>
    (∀ x ∈ vector, Decimal.isFinite x = true) ∧
      (∀ x ∈ maxDistance, Decimal.isFinite x = true) ∧
      (∀ x ∈ minScore, Decimal.isFinite x = true) ∧ FiniteFilter filter

/-- Every number in several clauses is finite. -/
def FiniteClauses : List Clause → Prop
  | [] => True
  | clause :: rest => FiniteClause clause ∧ FiniteClauses rest

end

mutual

/-- Nowhere in a value does the text of a null stand, whether for null itself or for what cannot be
written. -/
def NullFree : Value → Prop
  | .null | .garbled => False
  | .bool _ | .number (.integer _) | .string _ => True
  | .number (.float x) => Decimal.isFinite x = true
  | .array elements => NullFreeElements elements
  | .object members => NullFreeMembers members

/-- No null stands in the elements of an array. -/
def NullFreeElements : List Value → Prop
  | [] => True
  | element :: rest => NullFree element ∧ NullFreeElements rest

/-- No null stands in the members of an object. -/
def NullFreeMembers : List (String × Value) → Prop
  | [] => True
  | (_, value) :: rest => NullFree value ∧ NullFreeMembers rest

end

/-! ## Equal numbers -/

/-- One number for all that are equal to it: the zeros are equal whatever their sign, and every other
finite number is equal to itself only. -/
def representative (x : Float) : Float := if x == 0 then 0 else x

mutual

/-- A value with one number for all that are equal. -/
def normalValue : Value → Value
  | .null => .null
  | .bool value => .bool value
  | .number (.integer value) => .number (.integer value)
  | .number (.float x) => .number (.float (representative x))
  | .string text => .string text
  | .array elements => .array (normalElements elements)
  | .object members => .object (normalMembers members)
  | .garbled => .garbled

def normalElements : List Value → List Value
  | [] => []
  | element :: rest => normalValue element :: normalElements rest

def normalMembers : List (String × Value) → List (String × Value)
  | [] => []
  | (name, value) :: rest => (name, normalValue value) :: normalMembers rest

end

mutual

/-- A clause with one number for all that are equal. -/
def normalClause : Clause → Clause
  | .term field value => .term field value
  | .range field atLeast atMost => .range field atLeast atMost
  | .analyzed field value => .analyzed field value
  | .phrase field text => .phrase field text
  | .anyOf clauses => .anyOf (normalClauses clauses)
  | .bool filter => .bool (normalFilter filter)
  | .nearest query => .nearest (normalQuery query)
  | .hybrid vector keyword => .hybrid (normalQuery vector) (normalFilter keyword)

def normalFilter : BoolFilter → BoolFilter
  | ⟨must, mustNot⟩ => ⟨normalClauses must, normalClauses mustNot⟩

def normalQuery : NearestQuery → NearestQuery
  | ⟨field, vector, count, maxDistance, minScore, filter⟩ =>
    ⟨field, vector.map representative, count, maxDistance.map representative,
      minScore.map representative, normalFilter filter⟩

def normalClauses : List Clause → List Clause
  | [] => []
  | clause :: rest => normalClause clause :: normalClauses rest

end

/-- Two values that are the same but for the signs of zeros. -/
def SameValue (first second : Value) : Prop := normalValue first = normalValue second

/-- Two clauses that are the same but for the signs of zeros. -/
def SameClause (first second : Clause) : Prop := normalClause first = normalClause second

/-! ## Values and options -/

theorem naturalOf?_natural (n : Nat) : naturalOf? (.natural n) = some n := rfl

theorem floatOf?_float {x : Float} (finite : Decimal.isFinite x = true) :
    floatOf? (.float x) = some x := by
  rw [Value.float, if_pos finite]
  rfl

theorem vectorOf?_vector {vector : List Float}
    (finite : ∀ x ∈ vector, Decimal.isFinite x = true) :
    vectorOf? (.array (vector.map Value.float)) = some vector :=
  Value.mapM_written fun x member => floatOf?_float (finite x member)

/-- An option that is set is found under its name, and no other name is touched by it. -/
theorem lookup_optional {α : Type} (name other : String) (write : α → Value) (value : Option α)
    (rest : List (String × Value)) :
    (Document.optional name write value ++ rest).lookup other =
      if other = name then (value.map write).or (rest.lookup other) else rest.lookup other := by
  cases value with
  | none => simp [Document.optional]
  | some set =>
    change ((name, write set) :: rest).lookup other = _
    rw [OrderedMap.lookup_entry]
    rfl

theorem option_read_back {α : Type} {write : α → Value} {read? : Value → Option α}
    {value : Option α} (reads : ∀ set ∈ value, read? (write set) = some set) :
    (value.map write).bind read? = value := by
  cases value with
  | none => rfl
  | some set => exact reads set rfl

theorem nullFree_natural (n : Nat) : NullFree (.natural n) := trivial

theorem nullFree_float {x : Float} (finite : Decimal.isFinite x = true) : NullFree (.float x) := by
  rw [Value.float, if_pos finite]
  exact finite

theorem nullFreeElements_vector {vector : List Float}
    (finite : ∀ x ∈ vector, Decimal.isFinite x = true) :
    NullFreeElements (vector.map Value.float) := by
  induction vector with
  | nil => trivial
  | cons x rest ih =>
    rw [List.forall_mem_cons] at finite
    exact ⟨nullFree_float finite.1, ih finite.2⟩

theorem nullFreeMembers_optional {α : Type} {name : String} {write : α → Value} {value : Option α}
    {rest : List (String × Value)} (set : ∀ given ∈ value, NullFree (write given))
    (others : NullFreeMembers rest) :
    NullFreeMembers (Document.optional name write value ++ rest) := by
  cases value with
  | none => exact others
  | some given => exact ⟨set given rfl, others⟩

/-! ## The shapes -/

/-- What a filter is rendered as, below its word. -/
def filterBody (filter : BoolFilter) : Value :=
  .object [("must", .array (filter.must.map Clause.json)),
    ("must_not", .array (filter.mustNot.map Clause.json))]

/-- The options of a vector search that are set, and its vector. -/
def searchOptions (query : NearestQuery) : List (String × Value) :=
  Document.optional "k" Value.natural query.count ++
    (Document.optional "max_distance" Value.float query.maxDistance ++
      (Document.optional "min_score" Value.float query.minScore ++
        [("vector", .array (query.vector.map Value.float))]))

/-- What a vector search is rendered as, below its word. -/
def nearestBody (query : NearestQuery) : Value :=
  keyed query.field (.object (("filter", query.filter.json) :: searchOptions query))

theorem jsonAll_eq_map (clauses : List Clause) : jsonAll clauses = clauses.map Clause.json := by
  induction clauses with
  | nil => rfl
  | cons clause rest ih => rw [jsonAll, ih, List.map_cons]

/-- Both lists of a filter are rendered, with every clause in its place. -/
theorem filter_json (filter : BoolFilter) : filter.json = keyed "bool" (filterBody filter) := by
  obtain ⟨must, mustNot⟩ := filter
  rw [BoolFilter.json, jsonAll_eq_map, jsonAll_eq_map]
  rfl

theorem nearest_json (query : NearestQuery) : query.json = keyed "knn" (nearestBody query) := by
  obtain ⟨field, vector, count, maxDistance, minScore, filter⟩ := query
  rw [NearestQuery.json, List.append_assoc, List.append_assoc]
  rfl

/-- The names of the options are those that are set, and the vector. -/
theorem mem_searchOptions (query : NearestQuery) (name : String) :
    name ∈ (searchOptions query).map Prod.fst ↔
      name = "k" ∧ query.count.isSome = true ∨
      name = "max_distance" ∧ query.maxDistance.isSome = true ∨
      name = "min_score" ∧ query.minScore.isSome = true ∨ name = "vector" := by
  have named {α : Type} (option : String) (write : α → Value) (value : Option α) :
      name ∈ (Document.optional option write value).map Prod.fst ↔
        name = option ∧ value.isSome = true := by
    cases value <;> simp [Document.optional]
  simp only [searchOptions, List.map_append, List.mem_append, named]
  simp

/-- No option is named twice. -/
theorem nodup_nearestMembers (query : NearestQuery) :
    (("filter", query.filter.json) :: searchOptions query |>.map Prod.fst).Nodup := by
  obtain ⟨field, vector, count, maxDistance, minScore, filter⟩ := query
  cases count <;> cases maxDistance <;> cases minScore <;> simp [searchOptions, Document.optional]

/-! ## Reading back -/

/-- A filter is no disjunction, though both stand under one word. -/
theorem disjunctionOf?_body (filter : BoolFilter) : disjunctionOf? (filterBody filter) = none := by
  simp [filterBody, disjunctionOf?]

theorem filterOf?_body {filter : BoolFilter}
    (must : clausesOf? (filter.must.map Clause.json) = some filter.must)
    (mustNot : clausesOf? (filter.mustNot.map Clause.json) = some filter.mustNot) :
    filterOf? (filterBody filter) = some filter := by
  obtain ⟨required, refused⟩ := filter
  rw [filterBody, filterOf?, must, mustNot]
  rfl

theorem nearestOf?_body {query : NearestQuery}
    (finite : FiniteQuery query) (filter : filterOf? (filterBody query.filter) = some query.filter) :
    nearestOf? (nearestBody query) = some query := by
  obtain ⟨field, vector, count, maxDistance, minScore, inside⟩ := query
  obtain ⟨vectorFinite, distanceFinite, scoreFinite, _⟩ := finite
  have counted : ((count.map Value.natural).bind naturalOf?) = count :=
    option_read_back fun n _ => naturalOf?_natural n
  have distanced : ((maxDistance.map Value.float).bind floatOf?) = maxDistance :=
    option_read_back fun x set => floatOf?_float (distanceFinite x set)
  have scored : ((minScore.map Value.float).bind floatOf?) = minScore :=
    option_read_back fun x set => floatOf?_float (scoreFinite x set)
  rw [nearestBody, filter_json, keyed, keyed, nearestOf?, filter]
  simp only [searchOptions, lookup_optional]
  simp [List.lookup_cons, vectorOf?_vector vectorFinite, counted, distanced, scored]

mutual

theorem clause_read_back : ∀ clause, FiniteClause clause → clauseOf? clause.json = some clause
  | .term _ _, _ | .range _ _ _, _ | .analyzed _ _, _ | .phrase _ _, _ => by
    simp [Clause.json, keyed, clauseOf?, leafOf?]
  | .anyOf clauses, finite => by
    rw [Clause.json, jsonAll_eq_map]
    simp [keyed, clauseOf?, disjunctionOf?, Value.natural, clauses_read_back clauses finite]
  | .bool filter, finite => by
    rw [Clause.json, filter_json]
    simp [keyed, clauseOf?, disjunctionOf?_body, filter_read_back filter finite]
  | .nearest query, finite => by
    rw [Clause.json, nearest_json]
    simp [keyed, clauseOf?, nearest_read_back query finite]
  | .hybrid vector keyword, finite => by
    rw [Clause.json, nearest_json, filter_json]
    simp [keyed, clauseOf?, hybridOf?, nearest_read_back vector finite.1,
      filter_read_back keyword finite.2]

theorem filter_read_back :
    ∀ filter, FiniteFilter filter → filterOf? (filterBody filter) = some filter
  | ⟨must, mustNot⟩, finite =>
    filterOf?_body (clauses_read_back must finite.1) (clauses_read_back mustNot finite.2)

theorem nearest_read_back :
    ∀ query, FiniteQuery query → nearestOf? (nearestBody query) = some query
  | ⟨_, _, _, _, _, filter⟩, finite =>
    nearestOf?_body finite (filter_read_back filter finite.2.2.2)

theorem clauses_read_back :
    ∀ clauses, FiniteClauses clauses → clausesOf? (clauses.map Clause.json) = some clauses
  | [], _ => rfl
  | clause :: rest, finite => by
    rw [List.map_cons, clausesOf?, clause_read_back clause finite.1,
      clauses_read_back rest finite.2]
    rfl

end

/-! ## No null -/

theorem nullFree_keyed {name : String} {value : Value} (free : NullFree value) :
    NullFree (keyed name value) := ⟨free, trivial⟩

theorem nullFree_filterBody {filter : BoolFilter}
    (must : NullFreeElements (filter.must.map Clause.json))
    (mustNot : NullFreeElements (filter.mustNot.map Clause.json)) :
    NullFree (filterBody filter) := ⟨must, mustNot, trivial⟩

theorem nullFree_nearestBody {query : NearestQuery} (finite : FiniteQuery query)
    (filter : NullFree query.filter.json) : NullFree (nearestBody query) := by
  obtain ⟨field, vector, count, maxDistance, minScore, inside⟩ := query
  obtain ⟨vectorFinite, distanceFinite, scoreFinite, _⟩ := finite
  apply nullFree_keyed
  refine ⟨filter, ?_⟩
  apply nullFreeMembers_optional fun n _ => nullFree_natural n
  apply nullFreeMembers_optional fun x set => nullFree_float (distanceFinite x set)
  apply nullFreeMembers_optional fun x set => nullFree_float (scoreFinite x set)
  exact ⟨nullFreeElements_vector vectorFinite, trivial⟩

mutual

theorem clause_nullFree : ∀ clause, FiniteClause clause → NullFree clause.json
  | .term _ _, _ | .analyzed _ _, _ | .phrase _ _, _ => ⟨⟨trivial, trivial⟩, trivial⟩
  | .range _ _ _, _ => ⟨⟨⟨trivial, trivial, trivial⟩, trivial⟩, trivial⟩
  | .anyOf clauses, finite => by
    rw [Clause.json, jsonAll_eq_map]
    exact nullFree_keyed ⟨trivial, clauses_nullFree clauses finite, trivial⟩
  | .bool filter, finite => by
    rw [Clause.json]
    exact filter_nullFree filter finite
  | .nearest query, finite => by
    rw [Clause.json]
    exact nearest_nullFree query finite
  | .hybrid vector keyword, finite => by
    rw [Clause.json]
    apply nullFree_keyed
    apply nullFree_keyed
    exact ⟨nearest_nullFree vector finite.1, filter_nullFree keyword finite.2, trivial⟩

theorem filter_nullFree : ∀ filter, FiniteFilter filter → NullFree filter.json
  | ⟨must, mustNot⟩, finite => by
    rw [filter_json]
    exact nullFree_keyed
      (nullFree_filterBody (clauses_nullFree must finite.1) (clauses_nullFree mustNot finite.2))

theorem nearest_nullFree : ∀ query, FiniteQuery query → NullFree query.json
  | ⟨_, _, _, _, _, filter⟩, finite => by
    rw [nearest_json]
    exact nullFree_keyed (nullFree_nearestBody finite (filter_nullFree filter finite.2.2.2))

theorem clauses_nullFree :
    ∀ clauses, FiniteClauses clauses → NullFreeElements (clauses.map Clause.json)
  | [], _ => trivial
  | clause :: rest, finite =>
    ⟨clause_nullFree clause finite.1, clauses_nullFree rest finite.2⟩

end

/-! ## Up to equal numbers -/

theorem finite_representative {x : Float} (finite : Decimal.isFinite x = true) :
    Decimal.isFinite (representative x) = true := by
  unfold representative
  split
  · decide +kernel
  · exact finite

mutual

theorem clause_normal_finite : ∀ clause, FiniteClause clause → FiniteClause (normalClause clause)
  | .term _ _, _ | .range _ _ _, _ | .analyzed _ _, _ | .phrase _ _, _ => trivial
  | .anyOf clauses, finite => clauses_normal_finite clauses finite
  | .bool filter, finite => filter_normal_finite filter finite
  | .nearest query, finite => query_normal_finite query finite
  | .hybrid vector keyword, finite =>
    ⟨query_normal_finite vector finite.1, filter_normal_finite keyword finite.2⟩

theorem filter_normal_finite : ∀ filter, FiniteFilter filter → FiniteFilter (normalFilter filter)
  | ⟨must, mustNot⟩, finite =>
    ⟨clauses_normal_finite must finite.1, clauses_normal_finite mustNot finite.2⟩

theorem query_normal_finite : ∀ query, FiniteQuery query → FiniteQuery (normalQuery query)
  | ⟨_, vector, _, maxDistance, minScore, filter⟩, finite => by
    obtain ⟨vectorFinite, distanceFinite, scoreFinite, filterFinite⟩ := finite
    refine ⟨?_, ?_, ?_, filter_normal_finite filter filterFinite⟩
    · exact List.forall_mem_map.mpr fun x member => finite_representative (vectorFinite x member)
    · intro x set
      obtain ⟨given, found, rfl⟩ := Option.map_eq_some_iff.mp set
      exact finite_representative (distanceFinite given found)
    · intro x set
      obtain ⟨given, found, rfl⟩ := Option.map_eq_some_iff.mp set
      exact finite_representative (scoreFinite given found)

theorem clauses_normal_finite :
    ∀ clauses, FiniteClauses clauses → FiniteClauses (normalClauses clauses)
  | [], _ => trivial
  | clause :: rest, finite =>
    ⟨clause_normal_finite clause finite.1, clauses_normal_finite rest finite.2⟩

end

theorem normalMembers_append (first second : List (String × Value)) :
    normalMembers (first ++ second) = normalMembers first ++ normalMembers second := by
  induction first with
  | nil => rfl
  | cons member rest ih =>
    rw [List.cons_append, normalMembers, normalMembers, ih]
    rfl

theorem normalValue_keyed (name : String) (value : Value) :
    normalValue (keyed name value) = keyed name (normalValue value) := rfl

theorem normalValue_float {x : Float} (finite : Decimal.isFinite x = true) :
    normalValue (.float x) = .float (representative x) := by
  rw [Value.float, Value.float, if_pos finite, if_pos (finite_representative finite)]
  rfl

theorem normalElements_vector {vector : List Float}
    (finite : ∀ x ∈ vector, Decimal.isFinite x = true) :
    normalElements (vector.map Value.float) = (vector.map representative).map Value.float := by
  induction vector with
  | nil => rfl
  | cons x rest ih =>
    rw [List.forall_mem_cons] at finite
    rw [List.map_cons, normalElements, normalValue_float finite.1, ih finite.2]
    rfl

theorem normalMembers_optional {name : String} {value : Option Float}
    (finite : ∀ x ∈ value, Decimal.isFinite x = true) :
    normalMembers (Document.optional name Value.float value) =
      Document.optional name Value.float (value.map representative) := by
  cases value with
  | none => rfl
  | some x =>
    change [(name, normalValue (.float x))] = [(name, .float (representative x))]
    rw [normalValue_float (finite x rfl)]

theorem searchOptions_normal {query : NearestQuery} (finite : FiniteQuery query) :
    normalMembers (searchOptions query) = searchOptions (normalQuery query) := by
  obtain ⟨field, vector, count, maxDistance, minScore, filter⟩ := query
  obtain ⟨vectorFinite, distanceFinite, scoreFinite, _⟩ := finite
  have counted : normalMembers (Document.optional "k" Value.natural count) =
      Document.optional "k" Value.natural count := by cases count <;> rfl
  unfold searchOptions
  rw [normalMembers_append, normalMembers_append, normalMembers_append, counted,
    normalMembers_optional distanceFinite, normalMembers_optional scoreFinite, normalMembers,
    normalValue, normalElements_vector vectorFinite]
  rfl

mutual

/-- Rendering a clause and choosing one number for all that are equal can be exchanged. -/
theorem clause_json_normal :
    ∀ clause, FiniteClause clause → normalValue clause.json = (normalClause clause).json
  | .term _ _, _ | .range _ _ _, _ | .analyzed _ _, _ | .phrase _ _, _ => by
    rw [normalClause, Clause.json]
    rfl
  | .anyOf clauses, finite => by
    rw [normalClause, Clause.json, Clause.json, jsonAll_eq_map, jsonAll_eq_map,
      ← clauses_json_normal clauses finite]
    rfl
  | .bool filter, finite => by
    rw [normalClause, Clause.json, Clause.json, filter_json_normal filter finite]
  | .nearest query, finite => by
    rw [normalClause, Clause.json, Clause.json, query_json_normal query finite]
  | .hybrid vector keyword, finite => by
    rw [normalClause, Clause.json, Clause.json, ← query_json_normal vector finite.1,
      ← filter_json_normal keyword finite.2]
    rfl

theorem filter_json_normal :
    ∀ filter, FiniteFilter filter → normalValue filter.json = (normalFilter filter).json
  | ⟨must, mustNot⟩, finite => by
    rw [filter_json, filter_json, normalValue_keyed, filterBody, filterBody, normalFilter,
      ← clauses_json_normal must finite.1, ← clauses_json_normal mustNot finite.2]
    rfl

theorem query_json_normal :
    ∀ query, FiniteQuery query → normalValue query.json = (normalQuery query).json
  | ⟨field, vector, count, maxDistance, minScore, filter⟩, finite => by
    rw [nearest_json, nearest_json, nearestBody, nearestBody, ← searchOptions_normal finite,
      normalQuery, ← filter_json_normal filter finite.2.2.2]
    rfl

theorem clauses_json_normal :
    ∀ clauses, FiniteClauses clauses →
      normalElements (clauses.map Clause.json) = (normalClauses clauses).map Clause.json
  | [], _ => rfl
  | clause :: rest, finite => by
    rw [List.map_cons, normalElements, normalClauses, List.map_cons,
      clause_json_normal clause finite.1, clauses_json_normal rest finite.2]

end

/-! ## Faithfulness -/

theorem json_injective {first second : Clause} (finite : FiniteClause first)
    (otherFinite : FiniteClause second) (same : first.json = second.json) : first = second := by
  have read := clause_read_back first finite
  rw [same, clause_read_back second otherFinite] at read
  exact (Option.some.inj read).symm

/-- **Rendering is faithful.** A document whose numbers are finite is read back from its JSON, which
holds no null, and no other such document has the same JSON; where the JSON of two is the same but
for the signs of zeros, so are they. A filter shows both its lists with all
clauses in order; a vector search has a member for its vector, one for its filter, and one for each
limit that is set; a hybrid search is two queries, the vector search first. -/
theorem rendering_faithful :
    (∀ clause, FiniteClause clause →
      clauseOf? clause.json = some clause ∧ NullFree clause.json) ∧
    (∀ first second : Clause, FiniteClause first → FiniteClause second →
      (first.json = second.json → first = second) ∧
      (SameValue first.json second.json → SameClause first second)) ∧
    (∀ filter : BoolFilter, filter.json = keyed "bool" (.object
      [("must", .array (filter.must.map Clause.json)),
        ("must_not", .array (filter.mustNot.map Clause.json))])) ∧
    (∀ query : NearestQuery, ∃ members,
      query.json = keyed "knn" (keyed query.field (.object members)) ∧
      (members.map Prod.fst).Nodup ∧
      ∀ name, name ∈ members.map Prod.fst ↔
        name = "filter" ∨ name = "k" ∧ query.count.isSome = true ∨
        name = "max_distance" ∧ query.maxDistance.isSome = true ∨
        name = "min_score" ∧ query.minScore.isSome = true ∨ name = "vector") ∧
    ∀ vector keyword, (Clause.hybrid vector keyword).json =
      keyed "hybrid" (keyed "queries" (.array [vector.json, keyword.json])) := by
  refine ⟨?_, ?_, filter_json, ?_, ?_⟩
  · intro clause finite
    exact ⟨clause_read_back clause finite, clause_nullFree clause finite⟩
  · intro first second firstFinite secondFinite
    refine ⟨json_injective firstFinite secondFinite, fun same => ?_⟩
    unfold SameValue at same
    rw [clause_json_normal first firstFinite, clause_json_normal second secondFinite] at same
    exact json_injective (clause_normal_finite first firstFinite)
      (clause_normal_finite second secondFinite) same
  · intro query
    refine ⟨("filter", query.filter.json) :: searchOptions query, nearest_json query,
      nodup_nearestMembers query, fun name => ?_⟩
    rw [List.map_cons, List.mem_cons, mem_searchOptions]
  · intro vector keyword
    rw [Clause.json]

/-- A search whose field has a word of the query language for its name. -/
def awkwardSearch : Clause :=
  .hybrid
    { field := "knn", vector := [0.5, -1.25], minScore := some 0.75
      filter := ⟨[.term "bool" "must"], [.anyOf []]⟩ }
    ⟨[.anyOf [.phrase "" "cola", .range "filter" "" "\""]], []⟩

theorem awkwardSearch_finite : FiniteClause awkwardSearch := by
  refine ⟨⟨?_, ?_, ?_, ⟨⟨trivial, trivial⟩, trivial, trivial⟩⟩, ⟨⟨trivial, trivial, trivial⟩, trivial⟩,
    trivial⟩
  · simp only [List.forall_mem_cons]
    exact ⟨by decide +kernel, by decide +kernel, fun _ none => by cases none⟩
  · intro x unset
    cases unset
  · intro x set
    cases set
    decide +kernel

theorem awkwardSearch_read_back :
    clauseOf? awkwardSearch.json = some awkwardSearch ∧ NullFree awkwardSearch.json :=
  rendering_faithful.1 awkwardSearch awkwardSearch_finite

end SearchCompiler.FaithfulRendering
