import Mathlib.Data.List.Forall2
import SearchCompiler.Proofs.RequiredTerms

/-! The grammar of documents. A build can end with few shapes of clauses only: leaves on the fields of
the index that are declared or required, disjunctions of several leaves of one field, one disjunction
of phrases for the free text, and around them a filter, a vector search or both side by side. Clauses
of other shapes, which the search engine would refuse or misread, are never put together. -/
namespace SearchCompiler.OutputGrammar
open Build Calendar Document Query Settings
open BuildSemantics RequiredTerms

/-! ## The grammar -/

/-- The clause that a field makes of one value, unless it takes the ends of a range. -/
def leafOf? (field : Field) : Option (String → Clause) :=
  match field.kind with
  | .term => some (.term field.indexField)
  | .text => some (.analyzed field.indexField)
  | .range => none

/-- The clauses that one field can put on one side of a filter. Several values are alternatives to
each other where any of them is enough, and separate clauses where all of them are needed. -/
inductive Contributes (field : Field) : List Clause → Prop where
  | nothing : Contributes field []
  | range (kind : field.kind = .range) (first last : String) :
    Contributes field [.range field.indexField first last]
  | separate {leaf : String → Clause} (makes : leafOf? field = some leaf) (values : List String)
      (apart : field.connect = .all ∨ values.length = 1) : Contributes field (values.map leaf)
  | alternatives {leaf : String → Clause} (makes : leafOf? field = some leaf)
      (values : List String) (any : field.connect = .any) (several : 2 ≤ values.length) :
    Contributes field [.anyOf (values.map leaf)]

/-- The clauses of one side of a filter: what each of the declared fields puts there, in the order of
their declaration. -/
def SideShape (settings : Entity) (clauses : List Clause) : Prop :=
  ∃ parts, List.Forall₂ (fun entry part => Contributes entry.2 part) settings.fields.entries parts ∧
    clauses = parts.flatten

/-- The filter of a document, free text apart. Required terms are never refused. -/
structure FilterShape (settings : Entity) (filter : BoolFilter) : Prop where
  must : ∃ asked, SideShape settings asked ∧
    filter.must = (settings.required.entries.map fun entry => .term entry.1 entry.2) ++ asked
  mustNot : SideShape settings filter.mustNot

/-- A filter with the free text added to it, or as it is. -/
structure Extends (settings : Entity) (filter full : BoolFilter) : Prop where
  must : ∃ last, AtMostPhrase settings last ∧ full.must = filter.must ++ last
  mustNot : full.mustNot = filter.mustNot

/-- A vector search that sets one limit at most. -/
def AtMostOneLimit (nearest : NearestQuery) : Prop :=
  [nearest.count.isSome, nearest.maxDistance.isSome, nearest.minScore.isSome].count true ≤ 1

/-- What a document can look like in each mode. -/
inductive DocumentShape (settings : Entity) : Mode → Clause → Prop where
  | keyword {filter full : BoolFilter} (shape : FilterShape settings filter)
      (extended : Extends settings filter full) : DocumentShape settings .keyword (.bool full)
  | vector {nearest : NearestQuery} (shape : FilterShape settings nearest.filter)
      (limited : AtMostOneLimit nearest) : DocumentShape settings .vector (.nearest nearest)
  | hybrid {nearest : NearestQuery} {full : BoolFilter}
      (shape : FilterShape settings nearest.filter) (limited : AtMostOneLimit nearest)
      (extended : Extends settings nearest.filter full) :
    DocumentShape settings .hybrid (.hybrid nearest full)

/-! ## Fields -/

variable {clock : Instant} {polarity : Polarity} {field : Field} {values : FieldValues}

/-- A field makes no leaf, the one of its range, or one of each value. -/
theorem leaves_shape :
    leaves clock polarity field values = [] ∨
    (∃ first last, field.kind = .range ∧
      leaves clock polarity field values = [.range field.indexField first last]) ∨
    ∃ leaf, ∃ found : List String, leafOf? field = some leaf ∧
      leaves clock polarity field values = found.map leaf := by
  unfold leaves leafOf?
  cases kind : field.kind <;> cases decoded polarity field values
  case term.list given =>
    dsimp only
    cases lookedFor polarity field given with
    | ok found => exact .inr (.inr ⟨_, found, rfl, rfl⟩)
    | error cause => exact .inl rfl
  case text.list given => exact .inr (.inr ⟨_, given, rfl, rfl⟩)
  case range.range ends =>
    dsimp only
    split
    · exact .inr (.inl ⟨_, _, rfl, rfl⟩)
    · exact .inl rfl
  all_goals exact .inl rfl

/-- One clause or none is left as it is, whatever the field asks for. -/
theorem combine_of_short {connect : Connect} {clauses : List Clause} (short : clauses.length ≤ 1) :
    combine connect clauses = clauses := by
  cases connect with
  | all => rfl
  | any => exact if_neg (Nat.not_lt.mpr short)

theorem combine_contributes :
    Contributes field (combine field.connect (leaves clock polarity field values)) := by
  obtain none_made | ⟨first, last, kind, made⟩ | ⟨leaf, found, makes, made⟩ := leaves_shape
  · rw [none_made, combine_of_short (Nat.zero_le _)]
    exact .nothing
  · rw [made, combine_of_short (Nat.le_refl _)]
    exact .range kind first last
  · rw [made]
    cases connect : field.connect with
    | all => exact .separate makes found (.inl connect)
    | any =>
      by_cases several : 1 < found.length
      · rw [combine, if_pos (by simpa using several)]
        exact .alternatives makes found connect several
      · rw [combine_of_short (by simpa using several)]
        cases found with
        | nil => exact .nothing
        | cons value rest =>
          refine .separate makes _ (.inr ?_)
          rw [List.length_cons] at several ⊢
          omega

/-! ## Filters -/

variable {compiler : Compiler} {reading : Reading}

/-- Each declared field puts its clauses on a side, and a field without values puts none there. -/
theorem sideClauses_shape : SideShape compiler.settings (sideClauses compiler reading polarity) := by
  unfold SideShape sideClauses requests
  induction compiler.settings.fields.entries with
  | nil => exact ⟨[], .nil, rfl⟩
  | cons entry rest ih =>
    obtain ⟨parts, shaped, same⟩ := ih
    cases given : (side reading polarity).values? entry.1 with
    | none =>
      refine ⟨[] :: parts, .cons .nothing shaped, ?_⟩
      rw [List.filterMap_cons_none (by rw [given]; rfl), same]
      rfl
    | some values =>
      have contributed : Contributes entry.2
          (combine entry.2.connect (leaves compiler.clock polarity entry.2 values)) :=
        combine_contributes
      refine ⟨_ :: parts, .cons contributed shaped, ?_⟩
      rw [List.filterMap_cons_some (by rw [given]; rfl), List.flatMap_cons, same]
      rfl

theorem plainFilter_shape : FilterShape compiler.settings (plainFilter compiler reading) where
  must := ⟨_, sideClauses_shape, rfl⟩
  mustNot := sideClauses_shape

/-- Every clause of the filter is a required term, or what a field contributes. -/
theorem plainFilter_member {clause : Clause}
    (member : clause ∈ (plainFilter compiler reading).must ++
      (plainFilter compiler reading).mustNot) :
    (∃ indexField value, clause = .term indexField value) ∨
      ∃ field clauses, Contributes field clauses ∧ clause ∈ clauses := by
  have contributed {polarity : Polarity} (own : clause ∈ sideClauses compiler reading polarity) :
      ∃ field clauses, Contributes field clauses ∧ clause ∈ clauses := by
    obtain ⟨_, _, _, _, _, combined⟩ := mem_sideClauses.mp own
    exact ⟨_, _, combine_contributes, combined⟩
  rcases List.mem_append.mp member with asked | refused
  · rcases List.mem_append.mp asked with required | included
    · obtain ⟨entry, _, rfl⟩ := List.mem_map.mp required
      exact .inl ⟨_, _, rfl⟩
    · exact .inr (contributed included)
  · exact .inr (contributed refused)

variable {settings : Entity} {freeText : FreeText} {filter : BoolFilter}

theorem withPhrase_extends : Extends settings filter (withPhrase settings freeText filter) := by
  unfold withPhrase
  split
  · exact ⟨⟨_, .inr ⟨freeText.text, rfl⟩, rfl⟩, rfl⟩
  · exact ⟨⟨[], .inl rfl, (List.append_nil _).symm⟩, rfl⟩

/-! ## Documents -/

/-- Settings that can be used limit a vector search in one way at most. -/
theorem nearestTo_limited {search : VectorSearch} {embedder : Embedder} {vector : List Float}
    (found : vectorSearch? compiler.settings = some (search, embedder)) :
    AtMostOneLimit (nearestTo search vector filter) := by
  have accepted := (Option.or_eq_none_iff.mp compiler.usable).2
  obtain ⟨configured, setUp, attached⟩ := Option.bind_eq_some_iff.mp found
  obtain ⟨_, embeds, same⟩ := Option.bind_eq_some_iff.mp attached
  cases same
  rw [setUp, Option.bind_some, VectorSearch.error?, embeds] at accepted
  have limited : search.limits ≤ 1 := by
    by_contra exceeds
    rw [if_neg (by simp), if_pos (Nat.lt_of_not_le exceeds)] at accepted
    cases accepted
  unfold VectorSearch.limits at limited
  unfold AtMostOneLimit nearestTo
  dsimp only
  revert limited
  cases search.count.isSome <;> cases search.maxDistance.isSome <;>
    cases search.minScore.isSome <;> decide

/-- **Documents follow the grammar.** Whatever the tokenizer and the attached functions answer, a
build that ends does so with a filter, a vector search or both, as its mode says. Inside is always the
same filter, of the required terms and what each declared field puts there, to which only keyword
search adds a clause, the last one, with a phrase for each of the fields set up for free text. -/
theorem documents_follow_grammar {query : String} {built : Built}
    (ended : (compiler.build query).outcome = .ok built) :
    DocumentShape compiler.settings built.mode built.document := by
  obtain ⟨_, _, _, assembled⟩ := build_ok_iff.mp ended
  obtain ⟨document, parsed, mode⟩ := built
  cases assembled with
  | keyword => exact .keyword plainFilter_shape withPhrase_extends
  | vector searching made style =>
    exact .vector plainFilter_shape (nearestTo_limited searching.found)
  | hybrid searching made style =>
    exact .hybrid plainFilter_shape (nearestTo_limited searching.found) withPhrase_extends

/-- The search for cola in the shop: one filter for both its parts, with the phrase in one of them. -/
theorem shop_follows_grammar :
    FilterShape shop.settings shopFilter ∧
      AtMostOneLimit { field := "embedding", vector := [], filter := shopFilter } ∧
      Extends shop.settings shopFilter (shopFilter.require (.anyOf [.phrase "title" "cola"])) := by
  have shaped : DocumentShape shop.settings .hybrid
      (.hybrid { field := "embedding", vector := [], filter := shopFilter }
        (shopFilter.require (.anyOf [.phrase "title" "cola"]))) :=
    documents_follow_grammar shop_build
  cases shaped with
  | hybrid shape limited extended => exact ⟨shape, limited, extended⟩

end SearchCompiler.OutputGrammar
