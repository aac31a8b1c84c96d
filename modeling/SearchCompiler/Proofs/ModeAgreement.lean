import SearchCompiler.Proofs.HookProtocol

/-! The three modes compile the same filter. Without vector search a compiler makes of every query a
keyword search; with it, the document differs only in where that search stands: the keyword half of
a hybrid document is that search, and the filter inside a vector search is that search without the
phrase clause at its end. The fields are decoded and resolved alike in both. -/
namespace SearchCompiler.ModeAgreement
open Build Document Query Settings
open BuildSemantics HookProtocol

/-- The settings without vector search can still be used. -/
theorem usable_without_vectorSearch {settings : Entity} (usable : settings.error? = none) :
    Entity.error? { settings with vectorSearch := none } = none :=
  Option.or_eq_none_iff.mpr ⟨(Option.or_eq_none_iff.mp usable).1, rfl⟩

/-- A compiler with its vector search removed. -/
def keywordOnly (compiler : Compiler) : Compiler where
  settings := { compiler.settings with vectorSearch := none }
  usable := usable_without_vectorSearch compiler.usable
  clock := compiler.clock
  tokenizer := compiler.tokenizer

/-- Whether a decoder or a resolver is called. -/
def isFieldCall : Call → Bool
  | .decode _ _ | .resolve _ _ => true
  | .embed _ => false

/-- The filter is the keyword search without its last clause, which looks for the free text. -/
structure LacksPhrase (settings : Entity) (freeText : FreeText) (keyword filter : BoolFilter) :
    Prop where
  last : keyword.must.getLast? = some (phraseClause settings freeText.text)
  must : filter.must = keyword.must.dropLast
  mustNot : filter.mustNot = keyword.mustNot

variable {compiler : Compiler} {query : String}

theorem keywordOnly_reading : readingOf (keywordOnly compiler) query = readingOf compiler query := rfl

theorem keywordOnly_searchText :
    searchTextOf (keywordOnly compiler) query = searchTextOf compiler query := rfl

theorem keywordOnly_plainFilter {reading : Reading} :
    plainFilter (keywordOnly compiler) reading = plainFilter compiler reading := rfl

theorem keywordOnly_fieldsPlan {reading : Reading} :
    fieldsPlan (keywordOnly compiler) reading = fieldsPlan compiler reading := rfl

theorem keywordOnly_mode {freeText : FreeText} :
    modeFor (keywordOnly compiler).settings freeText = .keyword := by
  obtain plain | ⟨_, _, searching⟩ := keyword_or_searching (keywordOnly compiler).settings freeText
  · exact plain
  · cases searching.found

/-- The two compilers make the same calls, the embedder apart. -/
theorem keywordOnly_calls {built plain : Built}
    (ended : (compiler.build query).outcome = .ok built)
    (endedPlain : ((keywordOnly compiler).build query).outcome = .ok plain) :
    calls ((keywordOnly compiler).build query).journal =
      (calls (compiler.build query).journal).filter isFieldCall := by
  have fields : ((fieldsPlan compiler (readingOf compiler query)).map Planned.call).filter
      isFieldCall = (fieldsPlan compiler (readingOf compiler query)).map Planned.call := by
    refine List.filter_eq_self.mpr fun call member => ?_
    obtain ⟨step, planned, rfl⟩ := List.mem_map.mp member
    obtain ⟨_, _, rfl⟩ | ⟨_, _, _, _, _, _, _, rfl⟩ := fieldsPlan_shape planned <;> rfl
  have embeds : ((embedCall? compiler.settings (searchTextOf compiler query)).toList.map
      Planned.call).filter isFieldCall = [] := by
    cases planned : embedCall? compiler.settings (searchTextOf compiler query) with
    | none => rfl
    | some step =>
      obtain ⟨_, _, _, rfl⟩ := embedCall?_eq_some_iff.mp planned
      rfl
  rw [calls_of_ok ended, calls_of_ok endedPlain, plan, plan, List.map_append, List.map_append,
    List.filter_append, fields, embeds, keywordOnly_reading, keywordOnly_fieldsPlan]
  rfl

/-- Where there is free text, the phrase clause is the last one required. -/
theorem withPhrase_lacks {settings : Entity} {freeText : FreeText} {filter : BoolFilter}
    (present : freeText.isPresent = true) :
    LacksPhrase settings freeText (withPhrase settings freeText filter) filter := by
  rw [withPhrase, if_pos present]
  exact ⟨List.getLast?_concat, List.dropLast_concat.symm, rfl⟩

/-- **The modes agree.** Where a compiler makes a document of a query, so does the same compiler
without vector search: a keyword search, read from the same query with the same calls to decoders
and resolvers. The document of the first holds that search in the place that its mode gives it, the
mode tells the shape of the document, and only the keyword mode comes without a vector search. -/
theorem modes_agree {built : Built} (ended : (compiler.build query).outcome = .ok built) :
    (∃ keyword, ((keywordOnly compiler).build query).outcome =
        .ok ⟨.bool keyword, built.parsed, .keyword⟩ ∧
      calls ((keywordOnly compiler).build query).journal =
        (calls (compiler.build query).journal).filter isFieldCall ∧
      match built.mode with
      | .hybrid => ∃ nearest, built.document = .hybrid nearest keyword ∧
        LacksPhrase compiler.settings (searchTextOf compiler query) keyword nearest.filter
      | .vector => ∃ nearest, built.document = .nearest nearest ∧
        LacksPhrase compiler.settings (searchTextOf compiler query) keyword nearest.filter
      | .keyword => built.document = .bool keyword) ∧
    (built.mode = .keyword ↔ ∃ keyword, built.document = .bool keyword) ∧
    (built.mode = .vector ↔ ∃ nearest, built.document = .nearest nearest) ∧
    (built.mode = .hybrid ↔ ∃ nearest keyword, built.document = .hybrid nearest keyword) ∧
    (built.mode ≠ .keyword → (vectorSearch? compiler.settings).isSome = true ∧
      (searchTextOf compiler query).isPresent = true) := by
  obtain ⟨sides, chosen, parsed, assembled⟩ := build_ok_iff.mp ended
  have endedPlain : ((keywordOnly compiler).build query).outcome =
      .ok ⟨.bool (withPhrase compiler.settings (searchTextOf compiler query)
        (plainFilter compiler (readingOf compiler query))), built.parsed, .keyword⟩ := by
    refine build_ok_iff.mpr ⟨sides, keywordOnly_mode.symm, parsed, ?_⟩
    rw [keywordOnly_searchText, keywordOnly_reading, keywordOnly_plainFilter]
    exact .keyword
  have called := keywordOnly_calls ended endedPlain
  obtain ⟨document, _, mode⟩ := built
  cases assembled with
  | keyword =>
    refine ⟨⟨_, endedPlain, called, rfl⟩, ?_⟩
    simp
  | vector searching made style =>
    refine ⟨⟨_, endedPlain, called, _, rfl, withPhrase_lacks searching.present⟩, ?_⟩
    simp [searching.found, searching.present]
  | hybrid searching made style =>
    refine ⟨⟨_, endedPlain, called, _, rfl, withPhrase_lacks searching.present⟩, ?_⟩
    simp [searching.found, searching.present]

/-- The shop without vector search looks among the same drinks. -/
theorem shop_modes_agree :
    ∃ keyword, ((keywordOnly shop).build "cola").outcome =
        .ok ⟨.bool keyword, shopBuilt.parsed, .keyword⟩ ∧
      LacksPhrase shop.settings (searchTextOf shop "cola") keyword shopFilter := by
  obtain ⟨⟨keyword, ended, _, _, same, lacks⟩, _⟩ := modes_agree shop_build
  cases same
  exact ⟨_, ended, lacks⟩

end SearchCompiler.ModeAgreement
