import SearchCompiler.Proofs.BuildSemantics

/-! Required terms are kept apart from the query. Whatever the tokenizer makes of it, each filter of
a document begins with the required terms, and what a query excludes can add to the clauses that
must not hold but can neither remove nor move one that must. -/
namespace SearchCompiler.RequiredTerms
open Build Document Query Settings
open BuildSemantics

/-- The clause was compiled from a declared field that this side of the query has values for. -/
def CompiledFrom (compiler : Compiler) (reading : Reading) (polarity : Polarity)
    (clause : Clause) : Prop :=
  ∃ key field values, (key, field) ∈ compiler.settings.fields.entries ∧
    (side reading polarity).values? key = some values ∧
    clause ∈ combine field.connect (leaves compiler.clock polarity field values)

/-- The required terms come first, one for each entry of the settings and in their order, then
clauses of the query and at the end the clauses given. Nothing else is required or refused. -/
structure RequiredLead (compiler : Compiler) (reading : Reading) (filter : BoolFilter)
    (last : List Clause) : Prop where
  must : ∃ included, filter.must =
      (compiler.settings.required.entries.map fun entry => .term entry.1 entry.2) ++
        included ++ last ∧
    ∀ clause ∈ included, CompiledFrom compiler reading .included clause
  mustNot : ∀ clause ∈ filter.mustNot, CompiledFrom compiler reading .excluded clause

/-- No clause, or the free text as a phrase in any of the fields set up for it. -/
def AtMostPhrase (settings : Entity) (last : List Clause) : Prop :=
  last = [] ∨ ∃ text, last = [.anyOf (settings.phraseFields.map fun field => .phrase field text)]

/-- A query without what it excludes. -/
def includedOnly : Reading → Reading
  | .bare text => .bare text
  | .structured parsed => .structured { parsed with excluded := {} }

/-- A compiler that does not see what a query excludes. -/
def withoutExcluded (compiler : Compiler) : Compiler :=
  { compiler with
    tokenizer := fun vocabulary query => includedOnly (compiler.tokenizer vocabulary query) }

/-- A filter that refuses nothing. -/
def unrefused (filter : BoolFilter) : BoolFilter := { filter with mustNot := [] }

/-- A document in which no filter refuses anything. -/
def unrefusedDocument : Clause → Clause
  | .bool filter => .bool (unrefused filter)
  | .nearest query => .nearest { query with filter := unrefused query.filter }
  | .hybrid vector keyword =>
    .hybrid { vector with filter := unrefused vector.filter } (unrefused keyword)
  | leaf => leaf

variable {compiler : Compiler} {reading : Reading}

theorem plainFilter_lead : RequiredLead compiler reading (plainFilter compiler reading) [] where
  must := by
    refine ⟨sideClauses compiler reading .included, ?_, fun clause => mem_sideClauses.mp⟩
    rw [List.append_nil]
    rfl
  mustNot := fun clause => mem_sideClauses.mp

/-- The phrase clause goes behind everything else. -/
theorem withPhrase_lead {freeText : FreeText} {filter : BoolFilter}
    (lead : RequiredLead compiler reading filter []) :
    ∃ last, AtMostPhrase compiler.settings last ∧
      RequiredLead compiler reading (withPhrase compiler.settings freeText filter) last := by
  unfold withPhrase
  split
  · obtain ⟨included, must, compiled⟩ := lead.must
    refine ⟨[phraseClause compiler.settings freeText.text], .inr ⟨freeText.text, rfl⟩,
      ⟨included, ?_, compiled⟩, lead.mustNot⟩
    rw [BoolFilter.require, must, List.append_nil]
  · exact ⟨[], .inl rfl, lead⟩

theorem includedOnly_side :
    side (includedOnly reading) .included = side reading .included ∧
      side (includedOnly reading) .excluded = {} := by
  cases reading <;> exact ⟨rfl, rfl⟩

/-- Leaving out what is excluded leaves the required part of the filter as it is. -/
theorem includedOnly_plainFilter :
    plainFilter (withoutExcluded compiler) (includedOnly reading) =
      unrefused (plainFilter compiler reading) := by
  have refused : sideClauses (withoutExcluded compiler) (includedOnly reading) .excluded = [] := by
    rw [sideClauses, includedOnly_side.2, requests_empty]
    rfl
  have asked : sideClauses (withoutExcluded compiler) (includedOnly reading) .included =
      sideClauses compiler reading .included := by
    rw [sideClauses, includedOnly_side.1]
    rfl
  rw [plainFilter, refused, asked]
  rfl

/-- The free text is what a query asks for, so it stays. -/
theorem includedOnly_searchText {query : String} :
    searchTextOf (withoutExcluded compiler) query = searchTextOf compiler query := by
  have same (reading : Reading) :
      FreeText.ofQuery query (includedOnly reading) = FreeText.ofQuery query reading := by
    cases reading <;> rfl
  exact same _

theorem withPhrase_unrefused {settings : Entity} {freeText : FreeText} {filter : BoolFilter} :
    withPhrase settings freeText (unrefused filter) =
      unrefused (withPhrase settings freeText filter) := by
  unfold withPhrase
  split <;> rfl

/-- The assembly moves a filter into a document and does not look into what it refuses. -/
theorem assembled_unrefused {settings : Entity} {freeText : FreeText} {filter : BoolFilter}
    {mode : Mode} {document : Clause} (assembled : Assembled settings freeText filter mode document) :
    Assembled settings freeText (unrefused filter) mode (unrefusedDocument document) := by
  cases assembled with
  | keyword =>
    rw [unrefusedDocument, ← withPhrase_unrefused]
    exact .keyword
  | vector searching made style => exact .vector searching made style
  | hybrid searching made style =>
    rw [unrefusedDocument, ← withPhrase_unrefused]
    exact .hybrid searching made style

/-- **The required terms lead every filter.** They are followed only by clauses of included fields
and at most one phrase clause at the end, which a filter inside a vector search does not have; all
that is refused comes from excluded fields; and the same query without what it excludes has the same
document, except that nothing is refused. -/
theorem required_terms_lead {query : String} {built : Built}
    (ended : (compiler.build query).outcome = .ok built) :
    (match built.document with
      | .bool keyword => ∃ last, AtMostPhrase compiler.settings last ∧
        RequiredLead compiler (readingOf compiler query) keyword last
      | .nearest vector => RequiredLead compiler (readingOf compiler query) vector.filter []
      | .hybrid vector keyword =>
        RequiredLead compiler (readingOf compiler query) vector.filter [] ∧
        ∃ last, AtMostPhrase compiler.settings last ∧
          RequiredLead compiler (readingOf compiler query) keyword last
      | _ => False) ∧
    ∃ asked, ((withoutExcluded compiler).build query).outcome = .ok asked ∧
      asked.mode = built.mode ∧ asked.document = unrefusedDocument built.document := by
  obtain ⟨sides, chosen, parsed, assembled⟩ := build_ok_iff.mp ended
  refine ⟨?_, ⟨unrefusedDocument built.document,
    (includedOnly (readingOf compiler query)).parsed?, built.mode⟩, ?_, rfl, rfl⟩
  · obtain ⟨document, _, mode⟩ := built
    have plain : RequiredLead compiler (readingOf compiler query)
        (plainFilter compiler (readingOf compiler query)) [] := plainFilter_lead
    cases assembled with
    | keyword => exact withPhrase_lead plain
    | vector searching made style => exact plain
    | hybrid searching made style => exact ⟨plain, withPhrase_lead plain⟩
  · refine build_ok_iff.mpr ⟨?_, ?_, rfl, ?_⟩
    · change ∀ polarity, ∃ clauses, (groupClauses (withoutExcluded compiler) polarity
        (side (includedOnly (readingOf compiler query)) polarity)).outcome = .ok clauses
      rintro (_ | _)
      · rw [includedOnly_side.1]
        exact sides .included
      · rw [includedOnly_side.2]
        exact ⟨[], groupClauses_empty⟩
    · rw [includedOnly_searchText]
      exact chosen
    · rw [includedOnly_searchText]
      exact includedOnly_plainFilter ▸ assembled_unrefused assembled

/-- The shop looks among the drinks of its tenant, and still does where no beers are excluded. -/
theorem shop_keeps_tenant :
    RequiredLead shop (readingOf shop "cola") shopFilter [] ∧
      ∃ asked, ((withoutExcluded shop).build "cola").outcome = .ok asked ∧
        asked.mode = .hybrid ∧ asked.document = unrefusedDocument shopBuilt.document := by
  obtain ⟨⟨lead, _⟩, asked⟩ := required_terms_lead shop_build
  exact ⟨lead, asked⟩

end SearchCompiler.RequiredTerms
