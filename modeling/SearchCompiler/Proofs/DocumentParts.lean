import SearchCompiler.Proofs.OutputGrammar

/-! The parts of a document: the document itself and every clause that disjunctions, filters and
searches lead to from it. What stands in a filter, free text apart, tests values, one at a time or
several as alternatives. The free text adds the disjunction of its phrases and nothing else. -/
namespace SearchCompiler.DocumentParts
open Build Document Query Settings
open BuildSemantics OutputGrammar

/-- A clause stands somewhere in another one, or is that one. -/
inductive Within (part : Clause) : Clause → Prop
  | whole : Within part part
  | anyOf {clauses : List Clause} {clause : Clause} (member : clause ∈ clauses)
      (inside : Within part clause) : Within part (.anyOf clauses)
  | must {filter : BoolFilter} {clause : Clause} (member : clause ∈ filter.must)
      (inside : Within part clause) : Within part (.bool filter)
  | mustNot {filter : BoolFilter} {clause : Clause} (member : clause ∈ filter.mustNot)
      (inside : Within part clause) : Within part (.bool filter)
  | nearest {query : NearestQuery} (inside : Within part (.bool query.filter)) :
    Within part (.nearest query)
  | vector {query : NearestQuery} {keyword : BoolFilter}
      (inside : Within part (.bool query.filter)) : Within part (.hybrid query keyword)
  | keyword {query : NearestQuery} {keyword : BoolFilter} (inside : Within part (.bool keyword)) :
    Within part (.hybrid query keyword)

/-- The clauses that stand directly in a clause. -/
def children : Clause → List Clause
  | .anyOf clauses => clauses
  | .bool filter => filter.must ++ filter.mustNot
  | .nearest query => [.bool query.filter]
  | .hybrid query keyword => [.bool query.filter, .bool keyword]
  | .term _ _ | .range _ _ _ | .analyzed _ _ | .phrase _ _ => []

/-- What stands in a filter without free text: tests of values, and choices between several. -/
inductive FilterPart : Clause → Prop
  | term (field value : String) : FilterPart (.term field value)
  | range (field atLeast atMost : String) : FilterPart (.range field atLeast atMost)
  | analyzed (field value : String) : FilterPart (.analyzed field value)
  | choice {clauses : List Clause} (several : 2 ≤ clauses.length) : FilterPart (.anyOf clauses)

variable {part clause : Clause} {clauses : List Clause} {filter : BoolFilter}

/-! ## Parts of a clause -/

/-- A part is the clause itself, or a part of a clause that stands directly in it. -/
theorem within_iff :
    Within part clause ↔ part = clause ∨ ∃ child ∈ children clause, Within part child := by
  constructor
  · intro within
    cases within with
    | whole => exact .inl rfl
    | anyOf member inside => exact .inr ⟨_, member, inside⟩
    | must member inside => exact .inr ⟨_, List.mem_append_left _ member, inside⟩
    | mustNot member inside => exact .inr ⟨_, List.mem_append_right _ member, inside⟩
    | nearest inside => exact .inr ⟨_, List.mem_cons_self, inside⟩
    | vector inside => exact .inr ⟨_, List.mem_cons_self, inside⟩
    | keyword inside => exact .inr ⟨_, List.mem_cons_of_mem _ List.mem_cons_self, inside⟩
  · rintro (rfl | ⟨child, member, inside⟩)
    · exact .whole
    · cases clause with
      | anyOf clauses => exact .anyOf member inside
      | bool filter =>
        rcases List.mem_append.mp member with asked | refused
        · exact .must asked inside
        · exact .mustNot refused inside
      | nearest query =>
        cases List.mem_singleton.mp member
        exact .nearest inside
      | hybrid query keyword =>
        rcases List.mem_cons.mp member with rfl | other
        · exact .vector inside
        · cases List.mem_singleton.mp other
          exact .keyword inside
      | term => cases member
      | range => cases member
      | analyzed => cases member
      | phrase => cases member

theorem within_leaf (leaf : children clause = []) : Within part clause ↔ part = clause := by
  rw [within_iff, leaf]
  simp

theorem within_anyOf :
    Within part (.anyOf clauses) ↔
      part = .anyOf clauses ∨ ∃ clause ∈ clauses, Within part clause :=
  within_iff

/-- What is no filter stands in a filter where it stands in one of its clauses. -/
theorem within_bool (apart : part ≠ .bool filter) :
    Within part (.bool filter) ↔ ∃ clause ∈ filter.must ++ filter.mustNot, Within part clause :=
  within_iff.trans (or_iff_right apart)

theorem within_nearest {query : NearestQuery} (apart : part ≠ .nearest query) :
    Within part (.nearest query) ↔ Within part (.bool query.filter) := by
  rw [within_iff, or_iff_right apart]
  simp [children]

theorem within_hybrid {query : NearestQuery} {keyword : BoolFilter}
    (apart : part ≠ .hybrid query keyword) :
    Within part (.hybrid query keyword) ↔
      Within part (.bool query.filter) ∨ Within part (.bool keyword) := by
  rw [within_iff, or_iff_right apart]
  simp [children]

/-! ## Parts of a filter -/

variable {compiler : Compiler} {reading : Reading} {settings : Entity} {freeText : FreeText}
variable {field : Field}

theorem children_leaf {leaf : String → Clause} (makes : leafOf? field = some leaf)
    (value : String) : children (leaf value) = [] := by
  unfold leafOf? at makes
  split at makes <;> cases makes <;> rfl

theorem filterPart_leaf {leaf : String → Clause} (makes : leafOf? field = some leaf)
    (value : String) : FilterPart (leaf value) := by
  unfold leafOf? at makes
  split at makes <;> cases makes
  · exact .term _ _
  · exact .analyzed _ _

/-- The clauses of a field are tests of its values, or one choice between them. -/
theorem contributes_parts (contributes : Contributes field clauses) (member : clause ∈ clauses)
    (within : Within part clause) : FilterPart part := by
  have leafPart {leaf : String → Clause} (makes : leafOf? field = some leaf) {value : String}
      (within : Within part (leaf value)) : FilterPart part := by
    rw [(within_leaf (children_leaf makes value)).mp within]
    exact filterPart_leaf makes value
  cases contributes with
  | nothing => cases member
  | range kind first last =>
    cases List.mem_singleton.mp member
    rw [(within_leaf rfl).mp within]
    exact .range _ _ _
  | separate makes values apart =>
    obtain ⟨value, _, rfl⟩ := List.mem_map.mp member
    exact leafPart makes within
  | alternatives makes values any several =>
    cases List.mem_singleton.mp member
    rcases within_anyOf.mp within with rfl | ⟨alternative, chosen, inside⟩
    · exact .choice (by rwa [List.length_map])
    · obtain ⟨value, _, rfl⟩ := List.mem_map.mp chosen
      exact leafPart makes inside

theorem required_parts (member : clause ∈ requiredClauses settings) (within : Within part clause) :
    FilterPart part := by
  obtain ⟨entry, _, rfl⟩ := List.mem_map.mp member
  rw [(within_leaf rfl).mp within]
  exact .term _ _

theorem plainFilter_parts (apart : part ≠ .bool (plainFilter compiler reading))
    (within : Within part (.bool (plainFilter compiler reading))) : FilterPart part := by
  obtain ⟨clause, member, inside⟩ := (within_bool apart).mp within
  obtain ⟨_, _, rfl⟩ | ⟨field, clauses, contributes, own⟩ := plainFilter_member member
  · rw [(within_leaf rfl).mp inside]
    exact .term _ _
  · exact contributes_parts contributes own inside

/-! ## Parts of the free text -/

theorem within_phraseClause {text : String} :
    Within part (phraseClause settings text) ↔
      part = phraseClause settings text ∨
        ∃ field ∈ settings.phraseFields, part = .phrase field text := by
  have phrase (field : String) : Within part (.phrase field text) ↔ part = .phrase field text :=
    within_leaf rfl
  rw [phraseClause, within_anyOf]
  simp [phrase]

theorem within_withPhrase (apart : ∀ filter, part ≠ .bool filter) :
    Within part (.bool (withPhrase settings freeText filter)) ↔
      Within part (.bool filter) ∨
        freeText.isPresent = true ∧ Within part (phraseClause settings freeText.text) := by
  unfold withPhrase
  split
  · next present =>
    simp only [within_bool (apart _), BoolFilter.require, List.mem_append, List.mem_singleton,
      or_and_right, exists_or, exists_eq_left, present, true_and]
    exact or_right_comm
  · next absent => simp [absent]

end SearchCompiler.DocumentParts
