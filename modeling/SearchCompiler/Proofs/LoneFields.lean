import SearchCompiler.Proofs.BuildPhases
import SearchCompiler.Proofs.DefaultReading
import SearchCompiler.Proofs.TermScanning
import SearchCompiler.Settings.Check

/-! Queries that name one field and say nothing else. What such a query says stands on the side of its
sign, and the filter that is made of it holds, besides the required terms, the clauses of that field
and no others. -/
namespace SearchCompiler.LoneFields
open Build Calendar Document Query Settings Text
open BuildPhases BuildSemantics DefaultReading DropReports HookProtocol TermScanning TokenGroups

/-- The sign that is typed before what a query asks for or excludes. -/
def sign : Polarity → List Char
  | .included => []
  | .excluded => ['-']

theorem sign_eq (polarity : Polarity) :
    sign polarity = [] ∨ sign polarity = ['-'] := by
  cases polarity
  · exact .inl rfl
  · exact .inr rfl

theorem not_mem_sign {c : Char} (other : c ≠ '-') (polarity : Polarity) : c ∉ sign polarity := by
  cases polarity <;> simp [sign, other]

/-- A query that says something on one side only. -/
def onSide (polarity : Polarity) (group : TokenGroup) : ParsedQuery :=
  match polarity with
  | .included => { included := group }
  | .excluded => { excluded := group }

/-- A key, a colon, and what is typed behind it. -/
def typedQuery (polarity : Polarity) (key : String) (text : List Char) : List Char :=
  sign polarity ++ key.toList ++ ':' :: text

/-- A filter with clauses on one side, besides the required terms. -/
def filterWith (settings : Entity) (polarity : Polarity) (clauses : List Clause) : BoolFilter :=
  match polarity with
  | .included => { must := requiredClauses settings ++ clauses }
  | .excluded => { must := requiredClauses settings, mustNot := clauses }

/-! ## Keys -/

/-- A key that usable settings can declare. -/
structure Typeable (key : List Char) : Prop where
  nonempty : key ≠ []
  unsigned : key.head? ≠ some '-'
  colonless : ':' ∉ key
  nonblank : ∀ c ∈ key, isBlank c = false

theorem isTypeable_iff {key : List Char} : isTypeable key = true ↔ Typeable key := by
  simp only [isTypeable, Bool.and_eq_true, Bool.not_eq_true', bne_iff_ne, List.any_eq_false,
    Bool.not_eq_true, List.contains_eq_mem, decide_eq_false_iff_not, List.isEmpty_eq_false_iff]
  constructor
  · rintro ⟨⟨⟨nonempty, unsigned⟩, colonless⟩, nonblank⟩
    exact ⟨nonempty, unsigned, colonless, nonblank⟩
  · rintro ⟨nonempty, unsigned, colonless, nonblank⟩
    exact ⟨⟨⟨nonempty, unsigned⟩, colonless⟩, nonblank⟩

variable {settings : Entity} {key : String} {polarity : Polarity}

theorem typeable_of_declared (usable : settings.error? = none)
    (declared : key ∈ settings.fields.names) : Typeable key.toList := by
  have accepted := (Option.or_eq_none_iff.mp usable).1
  have faultless := List.findSome?_eq_none_iff.mp accepted key declared
  unfold keyError? at faultless
  split at faultless
  · cases faultless
  · split at faultless
    · next typeable => exact isTypeable_iff.mp typeable
    · cases faultless

/-- A key is the same key behind a sign. -/
theorem Typeable.signed (typeable : Typeable key.toList) (polarity : Polarity) :
    ∃ c front, sign polarity ++ key.toList = c :: front ∧ ':' ∉ front ∧
      ∀ d ∈ c :: front, isBlank d = false := by
  cases polarity with
  | included =>
    obtain ⟨c, front, letters⟩ := List.exists_cons_of_ne_nil typeable.nonempty
    have colonless := typeable.colonless
    have nonblank := typeable.nonblank
    rw [letters] at colonless nonblank
    exact ⟨c, front, letters, fun colon => colonless (List.mem_cons_of_mem c colon), nonblank⟩
  | excluded =>
    exact ⟨'-', key.toList, rfl, typeable.colonless,
      List.forall_mem_cons.mpr ⟨isBlank_minus, typeable.nonblank⟩⟩

/-! ## Queries of one term -/

variable {vocabulary : Vocabulary} {text body : List Char}

/-- What is typed for a field does not begin with a sign of its own. -/
theorem Typeable.unsigned_append (typeable : Typeable key.toList) (text : List Char) :
    (key.toList ++ text).head? ≠ some '-' := by
  obtain ⟨c, rest, letters⟩ := List.exists_cons_of_ne_nil typeable.nonempty
  have unsigned := typeable.unsigned
  rw [letters] at unsigned ⊢
  exact unsigned

theorem ofTerm_sign (nonempty : body ≠ []) (unsigned : body.head? ≠ some '-') :
    SignedTerm.ofTerm (sign polarity ++ body) = ⟨polarity == .excluded, body⟩ := by
  cases polarity with
  | included => exact ofTerm_unsigned unsigned
  | excluded =>
    obtain ⟨c, more, rfl⟩ := List.exists_cons_of_ne_nil nonempty
    rfl

/-- A typed field that is one term says what its term says, on the side of its sign. -/
theorem parsedOf_alone (typeable : Typeable key.toList)
    (alone : terms (typedQuery polarity key text) = [typedQuery polarity key text]) :
    parsedOf vocabulary (typedQuery polarity key text) =
      onSide polarity (.ofTokens [vocabulary.token (key.toList ++ ':' :: text)]) := by
  have nonempty : key.toList ++ ':' :: text ≠ [] :=
    List.append_ne_nil_of_left_ne_nil typeable.nonempty _
  have term : SignedTerm.ofTerm (typedQuery polarity key text) =
      ⟨polarity == .excluded, key.toList ++ ':' :: text⟩ := by
    rw [typedQuery, List.append_assoc]
    exact ofTerm_sign nonempty (typeable.unsigned_append _)
  unfold parsedOf tokensOf
  rw [alone, List.map_singleton, term]
  cases polarity <;> rfl

/-! ## What is made of one field -/

variable {compiler : Compiler} {group : TokenGroup} {field : Field} {values : FieldValues}

/-- A group that has values for one declared field asks for that field. -/
theorem requests_alone (declared : (key, field) ∈ settings.fields.entries)
    (given : group.values? key = some values)
    (alone : ∀ other, other ≠ key → group.values? other = none) :
    requests settings group = [⟨key, field, values⟩] := by
  obtain ⟨before, behind, entries⟩ := List.append_of_mem declared
  have distinct := settings.fields.distinct
  rw [entries, List.map_append, List.map_cons, List.nodup_append] at distinct
  obtain ⟨_, others, apart⟩ := distinct
  have unasked {entries : List (String × Field)} (absent : key ∉ entries.map Prod.fst) :
      entries.filterMap (fun entry => (group.values? entry.1).map fun values =>
        (⟨entry.1, entry.2, values⟩ : Request)) = [] := by
    refine List.filterMap_eq_nil_iff.mpr fun entry member => ?_
    rw [alone entry.1 fun same => absent (same ▸ List.mem_map_of_mem member)]
    rfl
  have first : key ∉ before.map Prod.fst := fun member =>
    apart key member key List.mem_cons_self rfl
  rw [requests, entries, List.filterMap_append, unasked first, List.filterMap_cons, given,
    Option.map_some, unasked (List.nodup_cons.mp others).1]
  rfl

/-- A group that names declared fields only, and asks for one, has the clauses of that one. -/
theorem groupClauses_alone {request : Request}
    (asked : requests compiler.settings group = [request])
    (known : unknownFields compiler.settings group = []) :
    groupClauses compiler polarity group =
      fieldClauses compiler.clock polarity request.key request.field request.values := by
  unfold groupClauses
  rw [known, asked, clausesOf, clausesOf, List.flatMap_nil]
  simp only [pure_bind, List.append_nil, bind_pure]
  exact Recorded.note_bind [] _

/-- The filter of a query that names one field is made of the clauses of that field. -/
theorem filterOf_alone {request : Request}
    (asked : requests compiler.settings group = [request])
    (known : unknownFields compiler.settings group = []) :
    filterOf compiler (.structured (onSide polarity group)) =
      filterWith compiler.settings polarity <$>
        fieldClauses compiler.clock polarity request.key request.field request.values := by
  rw [map_eq_pure_bind, filterOf_sides]
  cases polarity with
  | included =>
    simp only [onSide, side, groupClauses_alone asked known, groupClauses_empty_eq, pure_bind]
    rfl
  | excluded =>
    simp only [onSide, side, groupClauses_alone asked known, groupClauses_empty_eq, pure_bind,
      List.append_nil]
    rfl

/-- A field that takes no range meets no date. -/
theorem fieldClauses_undated {clock : Instant} (kind : field.kind ≠ .range) (fault : DateFault) :
    (fieldClauses clock polarity key field values).outcome ≠ .error (.date fault) := by
  intro failed
  rcases Recorded.bind_error_iff.mp failed with undecoded | ⟨given, _, failed⟩
  · rw [decodedValues_outcome] at undecoded
    cases undecoded
  rcases Recorded.bind_error_iff.mp failed with uncompiled | ⟨_, _, combined⟩
  · unfold leafClauses at uncompiled
    split at uncompiled
    · unfold Recorded.rescue at uncompiled
      split at uncompiled <;> cases uncompiled
    · cases uncompiled
    · exact kind ‹_›
    · cases uncompiled
  · cases combined

/-- A field that takes no range asks its decoder and its resolver, and no embedder. -/
theorem fieldClauses_unembedded {clock : Instant} (kind : field.kind ≠ .range) (text : String) :
    .embed text ∉ calls (fieldClauses clock polarity key field values).journal := by
  intro embedded
  let request : Request := ⟨key, field, values⟩
  have carried : CarriesOut (fieldClauses clock polarity key field values)
      (fieldPlan polarity request) := fieldClauses_follows request (fieldClauses_undated kind)
  rw [carried.calls] at embedded
  obtain ⟨step, planned, embeds⟩ := List.mem_map.mp embedded
  rcases List.mem_append.mp (made_subset planned) with decodes | resolves
  · obtain ⟨_, _, rfl⟩ := Option.map_eq_some_iff.mp (Option.mem_toList.mp decodes)
    cases embeds
  · have resolved := Option.mem_toList.mp resolves
    unfold resolveCall? at resolved
    split at resolved
    · cases resolved
      cases embeds
    · cases resolved

/-! ## What is built -/

variable {query : String} {request : Request}

/-- What is dropped of a query that names one field is dropped of that field. -/
theorem build_alone_drops (reading : readingOf compiler query = .structured (onSide polarity group))
    (asked : requests compiler.settings group = [request])
    (known : unknownFields compiler.settings group = []) :
    drops (compiler.build query).journal =
      drops (fieldClauses compiler.clock polarity request.key request.field
        request.values).journal := by
  rw [build_drops_filterOf, reading, filterOf_alone asked known, map_eq_pure_bind,
    drops_bind_silent fun _ => rfl]

section Keyword

variable (reading : readingOf compiler query = .structured (onSide polarity group))
variable (asked : requests compiler.settings group = [request])
variable (known : unknownFields compiler.settings group = [])
variable (keyword : modeFor compiler.settings (searchTextOf compiler query) = .keyword)
include reading asked known keyword

/-- A keyword search that names one field ends as that field does: in its failure, or in a document
with its clauses, and with the free text where there is any. -/
theorem build_alone :
    (compiler.build query).outcome =
      (fieldClauses compiler.clock polarity request.key request.field request.values).outcome.map
        fun clauses =>
          { document := .bool (withPhrase compiler.settings (searchTextOf compiler query)
              (filterWith compiler.settings polarity clauses))
            parsed := some (onSide polarity group)
            mode := .keyword } := by
  rw [build_outcome, reading, filterOf_alone asked known, bind_map_left]
  cases ended : (fieldClauses compiler.clock polarity request.key request.field
    request.values).outcome with
  | error failure => rw [Recorded.bind_of_error ended]; rfl
  | ok clauses =>
    rw [Recorded.bind_of_ok ended]
    dsimp only
    rw [finish_outcome, assembleFor, keyword, assemble_keyword, reading]
    rfl

/-- Only the field is asked of attached functions. -/
theorem build_alone_calls :
    calls (compiler.build query).journal =
      calls (fieldClauses compiler.clock polarity request.key request.field
        request.values).journal := by
  rw [build_calls, reading, filterOf_alone asked known, bind_map_left]
  refine calls_bind_silent fun clauses => ?_
  rw [finish_calls, assembleFor, keyword, assemble_keyword]
  rfl

end Keyword

end SearchCompiler.LoneFields
