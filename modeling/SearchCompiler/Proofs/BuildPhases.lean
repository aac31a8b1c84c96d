import SearchCompiler.Proofs.DropReports

/-! The two phases of a build. The filter of the query is compiled first, which decodes and resolves
its fields; what is left then depends on the free text, and only the embedder can fail in it. So two
queries with the same filter and the same free text build alike, whatever else tells them apart. -/
namespace SearchCompiler.BuildPhases
open Build Document Query Settings
open BuildSemantics DropReports HookProtocol

variable {compiler : Compiler} {query : String} {reading : Reading} {filter : BoolFilter}
variable {failure : Failure}

theorem build_outcome :
    (compiler.build query).outcome =
      (filterOf compiler (readingOf compiler query) >>= finish compiler query).outcome := rfl

/-- What is noted around the two phases is no call. -/
theorem build_calls :
    calls (compiler.build query).journal =
      calls (filterOf compiler (readingOf compiler query) >>= finish compiler query).journal := by
  change calls (_ ++ _ ++ _) = _
  rw [calls_append, calls_append]
  exact List.append_nil _

/-- The document of a filter, put together for the free text of a query. -/
def assembleFor (compiler : Compiler) (query : String) (filter : BoolFilter) :
    Recorded Failure Clause :=
  assemble compiler.settings (modeFor compiler.settings (searchTextOf compiler query))
    (searchTextOf compiler query) filter

theorem finish_outcome :
    (finish compiler query filter).outcome =
      (assembleFor compiler query filter).outcome.map fun document =>
        { document
          parsed := (readingOf compiler query).parsed?
          mode := modeFor compiler.settings (searchTextOf compiler query) } := by
  unfold finish assembleFor
  dsimp only
  rw [Recorded.note_bind]
  cases ended : (assemble compiler.settings (modeFor compiler.settings (searchTextOf compiler query))
    (searchTextOf compiler query) filter).outcome with
  | error failure => rw [Recorded.bind_of_error ended]; rfl
  | ok document => rw [Recorded.bind_of_ok ended]; rfl

/-- A step that makes no call leaves those made before it. -/
theorem calls_bind_silent {α β : Type} {first : Recorded Failure α}
    {next : α → Recorded Failure β} (silent : ∀ value, calls (next value).journal = []) :
    calls (first >>= next).journal = calls first.journal := by
  cases ended : first.outcome with
  | error failure =>
    have joined : first >>= next = _ := Recorded.bind_of_error ended
    rw [joined]
  | ok value =>
    have joined : first >>= next = _ := Recorded.bind_of_ok ended
    rw [joined, calls_append, silent, List.append_nil]

theorem finish_calls :
    calls (finish compiler query filter).journal =
      calls (assembleFor compiler query filter).journal := by
  unfold finish assembleFor
  dsimp only
  rw [Recorded.note_bind, calls_append, calls_bind_silent fun _ => rfl]
  exact List.nil_append _

/-! ## Failures -/

/-- Behind the filter only the embedder can fail, and only where it is asked. -/
theorem finish_failure (failed : (finish compiler query filter).outcome = .error failure) :
    ∃ search embedder cause,
      Searching compiler.settings (searchTextOf compiler query) search embedder ∧
        embedder (searchTextOf compiler query).text = .error cause ∧
        failure = .hook (.embedder cause) := by
  have assembling : (assembleFor compiler query filter).outcome = .error failure := by
    rw [finish_outcome] at failed
    cases ended : (assembleFor compiler query filter).outcome with
    | error other =>
      rw [ended] at failed
      cases failed
      rfl
    | ok document =>
      rw [ended] at failed
      cases failed
  unfold assembleFor at assembling
  obtain plain | ⟨search, embedder, searching⟩ :=
    keyword_or_searching compiler.settings (searchTextOf compiler query)
  · rw [plain, assemble_keyword] at assembling
    cases assembling
  · rw [searching.assemble] at assembling
    rcases Recorded.bind_error_iff.mp assembling with unanswered | ⟨_, _, ended⟩
    · unfold nearestQuery at unanswered
      rw [Recorded.note_bind] at unanswered
      cases answer : embedder (searchTextOf compiler query).text with
      | ok vector =>
        rw [answer] at unanswered
        cases unanswered
      | error cause =>
        rw [answer] at unanswered
        cases unanswered
        exact ⟨search, embedder, cause, searching, answer, rfl⟩
    · cases ended

/-- A filter fails by a date or by the resolver of a field. -/
theorem filterOf_failure (failed : (filterOf compiler reading).outcome = .error failure) :
    (∃ fault, failure = .date fault) ∨ ∃ key cause, failure = .hook (.resolver key cause) := by
  cases failure with
  | date fault => exact .inl ⟨fault, rfl⟩
  | hook error =>
    have carried : CarriesOut (filterOf compiler reading) (fieldsPlan compiler reading) := by
      refine filterOf_follows fun fault other => ?_
      rw [failed] at other
      cases other
    obtain ⟨step, planned, blamed⟩ :=
      List.exists_of_findSome?_eq_some ((carried.failed error).mp failed)
    obtain ⟨_, _, rfl⟩ | ⟨_, _, _, _, _, _, _, rfl⟩ := fieldsPlan_shape planned
    · cases blamed
    · obtain ⟨cause, _, rfl⟩ := failureOf_eq_some_iff.mp blamed
      exact .inr ⟨_, cause, rfl⟩

/-- What a build fails with is a failure of its filter, the embedder's apart. -/
theorem filterOf_error_iff :
    (filterOf compiler (readingOf compiler query)).outcome = .error failure ↔
      (compiler.build query).outcome = .error failure ∧
        ∀ cause, failure ≠ .hook (.embedder cause) := by
  rw [build_outcome, Recorded.bind_error_iff]
  constructor
  · intro failed
    refine ⟨.inl failed, fun cause same => ?_⟩
    obtain ⟨_, rfl⟩ | ⟨_, _, rfl⟩ := filterOf_failure failed <;> cases same
  · rintro ⟨failed | ⟨_, _, failed⟩, blameless⟩
    · exact failed
    · obtain ⟨_, _, cause, _, _, same⟩ := finish_failure failed
      exact absurd same (blameless cause)

/-- Without free text there is nothing to embed. -/
theorem modeFor_absent {settings : Entity} {freeText : FreeText}
    (absent : freeText.isPresent = false) : modeFor settings freeText = .keyword := by
  obtain plain | ⟨_, _, searching⟩ := keyword_or_searching settings freeText
  · exact plain
  · rw [searching.present] at absent
    cases absent

/-- A query without free text whose sides compile is a keyword search with its filter. -/
theorem build_of_absent (absent : (searchTextOf compiler query).isPresent = false)
    (sides : ∀ polarity, ∃ clauses, (groupClauses compiler polarity
      (side (readingOf compiler query) polarity)).outcome = .ok clauses) :
    (compiler.build query).outcome =
      .ok ⟨.bool (plainFilter compiler (readingOf compiler query)),
        (readingOf compiler query).parsed?, .keyword⟩ := by
  have unphrased : withPhrase compiler.settings (searchTextOf compiler query)
      (plainFilter compiler (readingOf compiler query)) =
        plainFilter compiler (readingOf compiler query) := by
    rw [withPhrase, absent]
    rfl
  have shaped : Assembled compiler.settings (searchTextOf compiler query)
      (plainFilter compiler (readingOf compiler query)) .keyword
      (.bool (withPhrase compiler.settings (searchTextOf compiler query)
        (plainFilter compiler (readingOf compiler query)))) := .keyword
  rw [unphrased] at shaped
  exact build_ok_iff.mpr ⟨sides, (modeFor_absent absent).symm, rfl, shaped⟩

/-- Where no embedder is asked that fails, a build fails only with its filter. -/
theorem build_error_iff_of_embeds
    (embeds : ∀ search embedder,
      Searching compiler.settings (searchTextOf compiler query) search embedder →
        ∃ vector, embedder (searchTextOf compiler query).text = .ok vector) :
    (compiler.build query).outcome = .error failure ↔
      (filterOf compiler (readingOf compiler query)).outcome = .error failure := by
  rw [build_outcome, Recorded.bind_error_iff]
  refine or_iff_left ?_
  rintro ⟨filter, _, failed⟩
  obtain ⟨search, embedder, cause, searching, unanswered, _⟩ := finish_failure failed
  obtain ⟨vector, answered⟩ := embeds search embedder searching
  rw [answered] at unanswered
  cases unanswered

/-- A build without free text fails only with its filter. -/
theorem build_error_iff_of_absent (absent : (searchTextOf compiler query).isPresent = false) :
    (compiler.build query).outcome = .error failure ↔
      (filterOf compiler (readingOf compiler query)).outcome = .error failure := by
  refine build_error_iff_of_embeds fun search embedder searching => ?_
  rw [searching.present] at absent
  cases absent

/-! ## Queries that build alike -/

/-- Two builds with the same calls and the same answer: one mode and one document, or one failure.
What was read of the queries may differ. -/
structure BuildAlike (first second : Recorded Failure Built) : Prop where
  calls : calls first.journal = calls second.journal
  answer : first.outcome.map (fun built => (built.mode, built.document)) =
    second.outcome.map fun built => (built.mode, built.document)

theorem BuildAlike.bind {α : Type} {first : Recorded Failure α}
    {next other : α → Recorded Failure Built}
    (alike : ∀ value, BuildAlike (next value) (other value)) :
    BuildAlike (first >>= next) (first >>= other) := by
  cases ended : first.outcome with
  | error failure =>
    rw [Recorded.bind_of_error ended, Recorded.bind_of_error ended]
    exact ⟨rfl, rfl⟩
  | ok value =>
    rw [Recorded.bind_of_ok ended, Recorded.bind_of_ok ended]
    refine ⟨?_, (alike value).answer⟩
    rw [calls_append, calls_append, (alike value).calls]

/-- Behind the filter only the free text of a query counts. -/
theorem finish_alike {first second : String}
    (text : searchTextOf compiler first = searchTextOf compiler second) (filter : BoolFilter) :
    BuildAlike (finish compiler first filter) (finish compiler second filter) := by
  have assembled : assembleFor compiler first filter = assembleFor compiler second filter := by
    rw [assembleFor, text, ← assembleFor]
  constructor
  · rw [finish_calls, finish_calls, assembled]
  · rw [finish_outcome, finish_outcome, assembled, text]
    cases (assembleFor compiler second filter).outcome <;> rfl

/-- Queries with one filter and one free text build alike. -/
theorem build_alike {first second : String}
    (filters : filterOf compiler (readingOf compiler first) =
      filterOf compiler (readingOf compiler second))
    (text : searchTextOf compiler first = searchTextOf compiler second) :
    BuildAlike (compiler.build first) (compiler.build second) := by
  have phases : BuildAlike (filterOf compiler (readingOf compiler first) >>= finish compiler first)
      (filterOf compiler (readingOf compiler second) >>= finish compiler second) := by
    rw [filters]
    exact .bind (finish_alike text)
  constructor
  · rw [build_calls, build_calls, phases.calls]
  · rw [build_outcome, build_outcome, phases.answer]

end SearchCompiler.BuildPhases
