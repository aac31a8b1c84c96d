import Mathlib.Logic.Basic
import SearchCompiler.Proofs.BuildSemantics

/-! What a document means. Leaves may be true or false as they like; a disjunction is true where one
of its clauses is, and a filter where all that must hold is true and nothing that must not. Under
every such assignment the filters of a document say the same as the query: the required terms hold,
every included field holds as its values are connected, no leaf of an excluded field holds, and,
where keywords are searched for, the free text is found in one of its fields. -/
namespace SearchCompiler.DocumentMeaning
open Build Document Query Settings
open BuildSemantics

/-! ## Truth -/

mutual

/-- The truth of a clause, given that of the leaves. A vector search ranks documents and tests
none, so it counts as a leaf here; no filter of a built document holds one. -/
def Holds (truth : Clause → Prop) : Clause → Prop
  | .anyOf clauses => SomeHold truth clauses
  | .bool filter => FilterHolds truth filter
  | .term field value => truth (.term field value)
  | .range field atLeast atMost => truth (.range field atLeast atMost)
  | .analyzed field value => truth (.analyzed field value)
  | .phrase field text => truth (.phrase field text)
  | .nearest query => truth (.nearest query)
  | .hybrid vector keyword => truth (.hybrid vector keyword)

/-- A filter is true where every clause that must hold is true and none that must not. -/
def FilterHolds (truth : Clause → Prop) : BoolFilter → Prop
  | ⟨must, mustNot⟩ => AllHold truth must ∧ ¬ SomeHold truth mustNot

/-- One of the clauses is true. -/
def SomeHold (truth : Clause → Prop) : List Clause → Prop
  | [] => False
  | clause :: rest => Holds truth clause ∨ SomeHold truth rest

/-- All of the clauses are true. -/
def AllHold (truth : Clause → Prop) : List Clause → Prop
  | [] => True
  | clause :: rest => Holds truth clause ∧ AllHold truth rest

end

variable {truth : Clause → Prop}

theorem someHold_iff {clauses : List Clause} :
    SomeHold truth clauses ↔ ∃ clause ∈ clauses, Holds truth clause := by
  induction clauses with
  | nil => simp [SomeHold]
  | cons clause rest ih => simp [SomeHold, ih]

theorem allHold_iff {clauses : List Clause} :
    AllHold truth clauses ↔ ∀ clause ∈ clauses, Holds truth clause := by
  induction clauses with
  | nil => simp [AllHold]
  | cons clause rest ih => simp [AllHold, ih]

theorem filterHolds_iff {filter : BoolFilter} :
    FilterHolds truth filter ↔
      (∀ clause ∈ filter.must, Holds truth clause) ∧
        ∀ clause ∈ filter.mustNot, ¬ Holds truth clause := by
  obtain ⟨must, mustNot⟩ := filter
  simp [FilterHolds, allHold_iff, someHold_iff]

/-! ## What a query says -/

/-- The leaves of an included field, as its values are connected: all of them are true, or there
are none or one of them is true. -/
def Connected (truth : Clause → Prop) : Connect → List Clause → Prop
  | .all, found => ∀ leaf ∈ found, truth leaf
  | .any, found => found = [] ∨ ∃ leaf ∈ found, truth leaf

/-- What a query that has been read says, free text apart. How the values of a field are connected
matters only where the field is asked for: an excluded field has no true leaf at all. -/
structure FieldsHold (compiler : Compiler) (reading : Reading) (truth : Clause → Prop) : Prop where
  required : ∀ field value, (field, value) ∈ compiler.settings.required.entries →
    truth (.term field value)
  included : ∀ key field values, (key, field) ∈ compiler.settings.fields.entries →
    (side reading .included).values? key = some values →
    Connected truth field.connect (leaves compiler.clock .included field values)
  excluded : ∀ key field values, (key, field) ∈ compiler.settings.fields.entries →
    (side reading .excluded).values? key = some values →
    ∀ leaf ∈ leaves compiler.clock .excluded field values, ¬ truth leaf

/-- The free text, where there is any, is found as a phrase in one of the fields set up for it. -/
def PhraseFound (settings : Entity) (freeText : FreeText) (truth : Clause → Prop) : Prop :=
  freeText.isPresent = true → ∃ field ∈ settings.phraseFields, truth (.phrase field freeText.text)

/-! ## The filters of a document -/

private theorem holds_leaf {clock : Calendar.Instant} {polarity : Polarity} {field : Field}
    {values : FieldValues} {leaf : Clause} (member : leaf ∈ leaves clock polarity field values) :
    Holds truth leaf ↔ truth leaf := by
  unfold leaves at member
  split at member
  · split at member
    · obtain ⟨value, _, rfl⟩ := List.mem_map.mp member
      exact Iff.rfl
    · cases member
  · obtain ⟨value, _, rfl⟩ := List.mem_map.mp member
    exact Iff.rfl
  · split at member
    · cases List.mem_singleton.mp member
      exact Iff.rfl
    · cases member
  · cases member

/-- In its place among the clauses that must hold, a combined field says what its connection says,
for no clause, one and many. -/
theorem combine_all_hold_iff {connect : Connect} {found : List Clause}
    (leaf : ∀ clause ∈ found, Holds truth clause ↔ truth clause) :
    (∀ clause ∈ combine connect found, Holds truth clause) ↔ Connected truth connect found := by
  cases connect with
  | all => exact forall₂_congr leaf
  | any =>
    have wrapped : Holds truth (.anyOf found) ↔ ∃ clause ∈ found, truth clause :=
      someHold_iff.trans (exists_congr fun clause => and_congr_right (leaf clause))
    match found with
    | [] => simp [combine, Connected]
    | [clause] => simp [combine, Connected, leaf clause List.mem_cons_self]
    | first :: second :: rest => simp [combine, Connected, wrapped]

/-- In its place among the clauses that must not hold, a combined field denies each of its leaves,
since a disjunction is false only where all its clauses are. -/
theorem combine_none_hold_iff {connect : Connect} {found : List Clause}
    (leaf : ∀ clause ∈ found, Holds truth clause ↔ truth clause) :
    (∀ clause ∈ combine connect found, ¬ Holds truth clause) ↔ ∀ clause ∈ found, ¬ truth clause := by
  have separate : (∀ clause ∈ found, ¬ Holds truth clause) ↔ ∀ clause ∈ found, ¬ truth clause :=
    forall₂_congr fun clause member => not_congr (leaf clause member)
  have wrapped : ¬ Holds truth (.anyOf found) ↔ ∀ clause ∈ found, ¬ Holds truth clause := by
    simp [Holds, someHold_iff]
  rw [← separate]
  cases connect with
  | all => exact Iff.rfl
  | any =>
    by_cases several : 1 < found.length
    · rw [combine, if_pos several, List.forall_mem_singleton]
      exact wrapped
    · rw [combine, if_neg several]

/-- The filter of a query says what the query says on its fields. -/
theorem plainFilter_holds_iff {compiler : Compiler} {reading : Reading} :
    FilterHolds truth (plainFilter compiler reading) ↔ FieldsHold compiler reading truth := by
  have asked {polarity : Polarity} {P : Clause → Prop} :
      (∀ clause ∈ sideClauses compiler reading polarity, P clause) ↔
        ∀ key field values, (key, field) ∈ compiler.settings.fields.entries →
          (side reading polarity).values? key = some values →
          ∀ clause ∈ combine field.connect (leaves compiler.clock polarity field values),
            P clause := by
    simp only [mem_sideClauses]
    constructor
    · intro every key field values declared given clause member
      exact every clause ⟨key, field, values, declared, given, member⟩
    · rintro every clause ⟨key, field, values, declared, given, member⟩
      exact every key field values declared given clause member
  have required : (∀ clause ∈ requiredClauses compiler.settings, Holds truth clause) ↔
      ∀ field value, (field, value) ∈ compiler.settings.required.entries →
        truth (.term field value) := by
    rw [requiredClauses, List.forall_mem_map]
    exact ⟨fun every field value member => every (field, value) member,
      fun every entry member => every entry.1 entry.2 member⟩
  rw [filterHolds_iff]
  simp only [plainFilter, List.forall_mem_append, required, asked,
    combine_all_hold_iff fun _ => holds_leaf, combine_none_hold_iff fun _ => holds_leaf]
  constructor
  · rintro ⟨⟨required, included⟩, excluded⟩
    exact ⟨required, included, excluded⟩
  · rintro ⟨required, included, excluded⟩
    exact ⟨⟨required, included⟩, excluded⟩

/-- The phrase clause adds to a filter that the free text is found. -/
theorem withPhrase_holds_iff {settings : Entity} {freeText : FreeText} {filter : BoolFilter} :
    FilterHolds truth (withPhrase settings freeText filter) ↔
      FilterHolds truth filter ∧ PhraseFound settings freeText truth := by
  unfold withPhrase PhraseFound
  split
  · rename_i present
    have found : Holds truth (phraseClause settings freeText.text) ↔
        ∃ field ∈ settings.phraseFields, truth (.phrase field freeText.text) := by
      simp [phraseClause, Holds, someHold_iff]
    rw [filterHolds_iff, filterHolds_iff]
    simp only [BoolFilter.require, List.forall_mem_append, List.forall_mem_singleton, found,
      present, true_imp_iff]
    exact and_right_comm
  · rename_i absent
    exact (and_iff_left fun present => absurd present absent).symm

/-- **A document means what the query says.** Whatever is true of the leaves, the filter inside a
vector search is true exactly where the required terms and the fields of the query say so, and the
filter of a keyword search where the free text is found besides. The three shapes are those of the
three modes. -/
theorem document_means_query {compiler : Compiler} {query : String} {built : Built}
    (ended : (compiler.build query).outcome = .ok built) (truth : Clause → Prop) :
    match built.document with
    | .bool keyword => built.mode = .keyword ∧
      (FilterHolds truth keyword ↔ FieldsHold compiler (readingOf compiler query) truth ∧
        PhraseFound compiler.settings (searchTextOf compiler query) truth)
    | .nearest vector => built.mode = .vector ∧
      (FilterHolds truth vector.filter ↔ FieldsHold compiler (readingOf compiler query) truth)
    | .hybrid vector keyword => built.mode = .hybrid ∧
      (FilterHolds truth vector.filter ↔ FieldsHold compiler (readingOf compiler query) truth) ∧
      (FilterHolds truth keyword ↔ FieldsHold compiler (readingOf compiler query) truth ∧
        PhraseFound compiler.settings (searchTextOf compiler query) truth)
    | _ => False := by
  obtain ⟨_, _, _, assembled⟩ := build_ok_iff.mp ended
  obtain ⟨document, parsed, mode⟩ := built
  have plain : FilterHolds truth (plainFilter compiler (readingOf compiler query)) ↔
      FieldsHold compiler (readingOf compiler query) truth := plainFilter_holds_iff
  have phrased : FilterHolds truth (withPhrase compiler.settings (searchTextOf compiler query)
      (plainFilter compiler (readingOf compiler query))) ↔
        FieldsHold compiler (readingOf compiler query) truth ∧
          PhraseFound compiler.settings (searchTextOf compiler query) truth :=
    withPhrase_holds_iff.trans (and_congr_left' plain)
  cases assembled with
  | keyword => exact ⟨rfl, phrased⟩
  | vector searching made style => exact ⟨rfl, plain⟩
  | hybrid searching made style => exact ⟨rfl, plain, phrased⟩

/-- What is true of a red and sweet drink of the shop that is called cola. -/
def isRedCola : Clause → Prop
  | .term "tenant" "acme" | .term "tags" "red" | .term "tags" "sweet" => True
  | .term "tag_ids" "drinks-2" | .phrase "title" "cola" => True
  | _ => False

/-- The shop finds the drink, and the drink is what was asked for. -/
theorem shop_finds_red_cola :
    FilterHolds isRedCola shopFilter ∧ FieldsHold shop (readingOf shop "cola") isRedCola ∧
      PhraseFound shop.settings (searchTextOf shop "cola") isRedCola := by
  obtain ⟨_, plain, phrased⟩ := document_means_query shop_build isRedCola
  have found : FilterHolds isRedCola shopFilter := by
    simp [shopFilter, filterHolds_iff, Holds, someHold_iff, isRedCola]
  have called : FilterHolds isRedCola (shopFilter.require (.anyOf [.phrase "title" "cola"])) := by
    simp [shopFilter, BoolFilter.require, filterHolds_iff, Holds, someHold_iff, isRedCola]
  exact ⟨found, phrased.mp called⟩

end SearchCompiler.DocumentMeaning
