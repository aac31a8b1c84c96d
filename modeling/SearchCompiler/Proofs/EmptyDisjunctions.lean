import SearchCompiler.Proofs.DocumentParts

/-! Disjunctions that leave nothing to choose. A disjunction without clauses matches no document, and
one that must hold makes a search for nothing. Where values of a field are alternatives to each other
there are at least two of them, so no field and no attached function leads to an empty disjunction.
The other disjunction of a document looks for the free text in the fields set up for it, and settings
may set up none. -/
namespace SearchCompiler.EmptyDisjunctions
open Build Document Query Settings
open BuildSemantics DocumentParts

variable {compiler : Compiler} {reading : Reading} {settings : Entity} {freeText : FreeText}
variable {filter : BoolFilter} {choices : List Clause}

theorem choice_apart (filter : BoolFilter) : .anyOf choices ≠ Clause.bool filter := nofun

/-- Every disjunction of the filter is of several values of one field. -/
theorem plainFilter_choices
    (within : Within (.anyOf choices) (.bool (plainFilter compiler reading))) :
    2 ≤ choices.length := by
  cases plainFilter_parts (choice_apart _) within with
  | choice several => exact several

/-- The disjunction of the free text is the only one that it adds. -/
theorem choice_withPhrase :
    Within (.anyOf choices) (.bool (withPhrase settings freeText filter)) ↔
      Within (.anyOf choices) (.bool filter) ∨
        freeText.isPresent = true ∧ .anyOf choices = phraseClause settings freeText.text := by
  rw [within_withPhrase choice_apart, within_phraseClause]
  simp

/-- A document has the disjunctions of its filter, and with a keyword search that of its free text. -/
theorem choice_assembled {mode : Mode} {document : Clause}
    (assembled : Assembled settings freeText filter mode document) :
    Within (.anyOf choices) document ↔
      Within (.anyOf choices) (.bool filter) ∨
        (mode ≠ .vector ∧ freeText.isPresent = true) ∧
          .anyOf choices = phraseClause settings freeText.text := by
  cases assembled with
  | keyword => simp [choice_withPhrase]
  | vector searching made style => simp [within_nearest, nearestTo]
  | hybrid searching made style => simp [within_hybrid, choice_withPhrase, nearestTo]

/-- **Only free text is looked for in nothing.** Every disjunction of a document leaves a choice
between several clauses or is that of the free text, with one clause for each field set up for it. So
an empty one is in the document exactly where the settings set up no field for free text, the query
has free text, and the mode looks for it by keywords. -/
theorem empty_disjunction_iff {query : String} {built : Built}
    (ended : (compiler.build query).outcome = .ok built) :
    (∀ choices, Within (.anyOf choices) built.document → 2 ≤ choices.length ∨
      .anyOf choices = phraseClause compiler.settings (searchTextOf compiler query).text) ∧
    (Within (.anyOf []) built.document ↔
      compiler.settings.phraseFields = [] ∧
        (searchTextOf compiler query).isPresent = true ∧ built.mode ≠ .vector) := by
  obtain ⟨_, _, _, assembled⟩ := build_ok_iff.mp ended
  refine ⟨fun choices within => ?_, ?_⟩
  · rcases (choice_assembled assembled).mp within with filtered | ⟨_, phrased⟩
    · exact .inl (plainFilter_choices filtered)
    · exact .inr phrased
  · have chosen : ¬ Within (.anyOf [])
        (.bool (plainFilter compiler (readingOf compiler query))) :=
      fun within => absurd (plainFilter_choices within) (by decide)
    have fieldless : .anyOf [] =
        phraseClause compiler.settings (searchTextOf compiler query).text ↔
          compiler.settings.phraseFields = [] := by
      rw [phraseClause, Clause.anyOf.injEq, eq_comm, List.map_eq_nil_iff]
    rw [choice_assembled assembled, or_iff_right chosen, fieldless, and_comm,
      and_comm (a := built.mode ≠ .vector)]

/-- The shop leaves a choice between groups of drinks and looks for free text in their titles. -/
theorem shop_leaves_choices :
    Within (.anyOf [.term "tag_ids" "drinks-1", .term "tag_ids" "drinks-2"]) shopBuilt.document ∧
      Within (.anyOf [.phrase "title" "cola"]) shopBuilt.document ∧
      ¬ Within (.anyOf []) shopBuilt.document := by
  refine ⟨.vector (.must ?_ .whole), .keyword (.must ?_ .whole), fun empty => ?_⟩
  · simp [shopFilter]
  · simp [BoolFilter.require]
  · obtain ⟨fieldless, _⟩ := (empty_disjunction_iff shop_build).2.mp empty
    cases fieldless

/-- Settings that set up nothing at all can be used. -/
def unset : Compiler where
  settings := {}
  usable := rfl
  clock := .ofSeconds 0

/-- There, whoever looks for cola finds nothing. -/
theorem unset_finds_nothing :
    ∃ built, (unset.build "cola").outcome = .ok built ∧ built.mode = .keyword ∧
      built.document = .bool ⟨[.anyOf []], []⟩ ∧ Within (.anyOf []) built.document := by
  refine ⟨⟨.bool ⟨[.anyOf []], []⟩, none, .keyword⟩, rfl, rfl, rfl, ?_⟩
  exact .must List.mem_cons_self .whole

end SearchCompiler.EmptyDisjunctions
