import SearchCompiler.Proofs.BuildAccounts
import SearchCompiler.Proofs.PhraseScanning
import SearchCompiler.Proofs.TypedFields

/-! Ranges are whole or dropped. Of a range that is typed for a declared field, in ASCII and without
quotes or blanks, the first hyphen divides the ends, whatever stands behind it. Where both ends mean
an instant the document asks for, or excludes, the range between them and nothing else that was not
required; where one means none the document says nothing of the range, and the journal reports it
once. -/
namespace SearchCompiler.WholeRanges
open Build Calendar Document Query Settings Text
open BuildAccounts BuildPhases BuildSemantics DefaultReading DropReports HookProtocol LoneFields
open OffsetCuts PhraseScanning QueryLanguage TermScanning TokenGroups TypedFields

/-- A range from one text to another as it is typed for a declared field. No decoder changes it and
nothing in it is quoted. -/
structure RangeTyped (compiler : Compiler) (key : String) (field : Field) (start stop : List Char) :
    Prop where
  reads : compiler.tokenizer = tokenize
  declared : (key, field) ∈ compiler.settings.fields.entries
  kind : field.kind = .range
  undecoded : field.decoder = none
  keyQuoteless : '"' ∉ key.toList
  /-- The first hyphen ends the start, so the stop may have hyphens of its own. -/
  undivided : '-' ∉ start
  bareStart : IsBare start
  bareStop : IsBare stop
  ascii : ∀ c ∈ start ++ stop, c.utf8Size = 1

/-- The range, asked for or excluded. -/
def rangeQuery (polarity : Polarity) (key : String) (start stop : List Char) : String :=
  String.ofList (typedQuery polarity key (start ++ '-' :: stop))

/-- The clauses that a range stands for: one from instant to instant, or none where an end means no
instant. -/
inductive Covers (clock : Instant) (field : Field) (start stop : List Char) : List Clause → Prop
  | whole {first last : Instant} (starts : DateTerm.resolve clock start = .ok (some first))
      (stops : DateTerm.resolve clock stop = .ok (some last)) :
      Covers clock field start stop
        [.range field.indexField (String.ofList first.iso) (String.ofList last.iso)]
  | nothing {first last : Option Instant} (starts : DateTerm.resolve clock start = .ok first)
      (stops : DateTerm.resolve clock stop = .ok last) (missing : first = none ∨ last = none) :
      Covers clock field start stop []

/-- What is reported of a range that stands for these clauses: that it was dropped, where there are
none. -/
def reportsFor (field : Field) (start stop : List Char) (clauses : List Clause) : List Report :=
  if clauses.isEmpty then
    [⟨.rangeDropped field.indexField (String.ofList start) (String.ofList stop), .unparseableRange⟩]
  else []

variable {compiler : Compiler} {key : String} {field : Field} {start stop : List Char}
variable {polarity : Polarity} {clock : Instant} {clauses : List Clause}

/-! ## The clauses of a range -/

/-- The ends of one range and nothing else. -/
def rangeOf (key : String) (start stop : List Char) : TokenGroup where
  ranges := ⟨[(key, ⟨String.ofList start, String.ofList stop⟩)], by simp⟩

theorem rangeOf_values? (key : String) (start stop : List Char) :
    (rangeOf key start stop).values? key =
      some (.range ⟨String.ofList start, String.ofList stop⟩) := by
  simp [rangeOf, TokenGroup.values?]

theorem rangeOf_others {other : String} (apart : other ≠ key) :
    (rangeOf key start stop).values? other = none := by
  simp [rangeOf, TokenGroup.values?, apart]

/-- The one field that is asked for. -/
def requestOf (key : String) (field : Field) (start stop : List Char) : Request where
  key := key
  field := field
  values := .range ⟨String.ofList start, String.ofList stop⟩

/-- Once both ends are read, whether they mean something is all that is left. -/
theorem covers_iff : Covers clock field start stop clauses ↔
    ∃ first last, DateTerm.resolve clock start = .ok first ∧ DateTerm.resolve clock stop = .ok last ∧
      clauses = match first, last with
        | some first, some last =>
          [.range field.indexField (String.ofList first.iso) (String.ofList last.iso)]
        | _, _ => [] := by
  constructor
  · intro covers
    cases covers with
    | whole starts stops => exact ⟨_, _, starts, stops, rfl⟩
    | @nothing first last starts stops missing =>
      refine ⟨first, last, starts, stops, ?_⟩
      rcases missing with rfl | rfl
      · rfl
      · cases first <;> rfl
  · rintro ⟨first, last, starts, stops, rfl⟩
    cases first with
    | none => exact .nothing starts stops (.inl rfl)
    | some first =>
      cases last with
      | none => exact .nothing starts stops (.inr rfl)
      | some last => exact .whole starts stops

/-- A range in ASCII stands for some clauses: both its ends are read to their end. -/
theorem covers_exists (clock : Instant) (field : Field)
    (ascii : ∀ c ∈ start ++ stop, c.utf8Size = 1) :
    ∃ clauses, Covers clock field start stop clauses := by
  obtain ⟨asciiStart, asciiStop⟩ := List.forall_mem_append.mp ascii
  obtain ⟨first, starts⟩ := resolve_ok_iff.mpr (not_splitsDigit asciiStart)
  obtain ⟨last, stops⟩ := resolve_ok_iff.mpr (not_splitsDigit asciiStop)
  exact ⟨_, covers_iff.mpr ⟨first, last, starts, stops, rfl⟩⟩

/-- One clause or none is the same however clauses are combined. -/
theorem Covers.combine (covers : Covers clock field start stop clauses) (connect : Connect) :
    combine connect clauses = clauses := by
  cases covers with
  | whole starts stops => exact combine_singleton connect _
  | nothing starts stops missing => exact combine_nil connect

theorem rangeClauses_covers :
    (rangeClauses clock field ⟨String.ofList start, String.ofList stop⟩).outcome = .ok clauses ↔
      Covers clock field start stop clauses := by
  rw [rangeClauses_ok_iff, String.toList_ofList, String.toList_ofList]
  exact covers_iff.symm

/-- A range field without a decoder compiles to what its range stands for. -/
theorem fieldClauses_of_covers (kind : field.kind = .range) (undecoded : field.decoder = none)
    (covers : Covers clock field start stop clauses) :
    (fieldClauses clock polarity key field
      (.range ⟨String.ofList start, String.ofList stop⟩)).outcome = .ok clauses := by
  have plain : decoded polarity field (.range ⟨String.ofList start, String.ofList stop⟩) =
      .range ⟨String.ofList start, String.ofList stop⟩ := by rw [decoded, undecoded]
  have leaves : (leafClauses clock polarity key field
      (.range ⟨String.ofList start, String.ofList stop⟩)).outcome = .ok clauses := by
    unfold leafClauses
    rw [kind]
    exact (Recorded.rescue_ok_iff fun _ failed => by cases failed).mpr
      (rangeClauses_covers.mpr covers)
  refine Recorded.bind_ok_iff.mpr ⟨_, decodedValues_outcome, Recorded.bind_ok_iff.mpr ?_⟩
  rw [plain]
  exact ⟨clauses, leaves, congrArg Except.ok (covers.combine _)⟩

/-- It is reported exactly where it stands for nothing. -/
theorem report_of_covers (kind : field.kind = .range) (undecoded : field.decoder = none)
    (covers : Covers clock field start stop clauses) :
    ((Mention.declared polarity (requestOf key field start stop)).report? clock).toList =
      reportsFor field start stop clauses := by
  rw [Mention.report?, requestOf]
  dsimp only
  rw [decoded, undecoded]
  dsimp only
  rw [valuesReport?, kind]
  dsimp only
  rw [String.toList_ofList, String.toList_ofList]
  obtain ⟨first, last, starts, stops, rfl⟩ := covers_iff.mp covers
  rw [starts, stops]
  cases first <;> cases last <;> rfl

/-! ## Reading it -/

section Typed

variable (typed : RangeTyped compiler key field start stop)
include typed

theorem RangeTyped.asTyped :
    Typed compiler.settings key (start ++ '-' :: stop) (rangeOf key start stop) :=
  .range typed.declared typed.kind typed.undivided typed.bareStart typed.bareStop

theorem RangeTyped.named : key ∈ compiler.settings.fields.names :=
  typed.asTyped.declared

/-- What is read is the range of the field, on the side of the sign. -/
theorem RangeTyped.reading : readingOf compiler (rangeQuery polarity key start stop) =
    .structured (onSide polarity (rangeOf key start stop)) := by
  have unquoted : literal? key.toList = none := by
    have unopened : literal? (key.toList ++ []) = none :=
      literal?_of_quoteless typed.keyQuoteless atGap_nil
    rwa [List.append_nil] at unopened
  rw [rangeQuery, readingOf, typed.reads, tokenize_colon
      (vocabulary_nonempty (List.ne_nil_of_mem typed.named)) (by simp [typedQuery]),
    parsedOf_typed compiler.usable typed.asTyped unquoted]

/-- There is no free text. -/
theorem RangeTyped.searchText :
    searchTextOf compiler (rangeQuery polarity key start stop) = ⟨"", false⟩ := by
  have quoteless : '"' ∉ (rangeQuery polarity key start stop).toList := by
    have text := typed.asTyped.bare.quoteless
    rw [rangeQuery, String.toList_ofList, typedQuery]
    simp only [List.mem_append, List.mem_cons, not_or] at text ⊢
    exact ⟨⟨not_mem_sign (by decide) polarity, typed.keyQuoteless⟩, by decide, text⟩
  unfold searchTextOf FreeText.ofQuery
  rw [phrases_of_quoteless quoteless, typed.reading]
  cases polarity <;> rfl

/-- The field is the only one that is asked for, and no other is named. -/
theorem RangeTyped.asked :
    requests compiler.settings (rangeOf key start stop) = [requestOf key field start stop] :=
  requests_alone typed.declared (rangeOf_values? key start stop) fun _ => rangeOf_others

theorem RangeTyped.known : unknownFields compiler.settings (rangeOf key start stop) = [] := by
  have fields : (rangeOf key start stop).fields = [key] := rfl
  simp [unknownFields, fields, OrderedMap.contains, typed.named]

/-! ## Building it -/

theorem RangeTyped.compiles (covers : Covers compiler.clock field start stop clauses) :
    (fieldClauses compiler.clock polarity key field (requestOf key field start stop).values).outcome =
      .ok clauses :=
  fieldClauses_of_covers typed.kind typed.undecoded covers

theorem RangeTyped.build (covers : Covers compiler.clock field start stop clauses) :
    (compiler.build (rangeQuery polarity key start stop)).outcome =
      .ok { document := .bool (filterWith compiler.settings polarity clauses)
            parsed := some (onSide polarity (rangeOf key start stop))
            mode := .keyword } := by
  have keyword : modeFor compiler.settings
      (searchTextOf compiler (rangeQuery polarity key start stop)) = .keyword := by
    rw [typed.searchText]
    exact modeFor_absent rfl
  rw [build_alone typed.reading typed.asked typed.known keyword, typed.searchText]
  exact congrArg (Except.map _) (typed.compiles covers)

theorem RangeTyped.drops (covers : Covers compiler.clock field start stop clauses) :
    drops (compiler.build (rangeQuery polarity key start stop)).journal =
      written (reportsFor field start stop clauses) := by
  rw [build_alone_drops typed.reading typed.asked typed.known, fieldClauses_drops,
    report_of_covers typed.kind typed.undecoded covers]
  intro fault failed
  cases (typed.compiles covers).symm.trans failed

end Typed

/-- **Ranges are whole or dropped.** A range typed for a field always builds a keyword search. Asked
for, it stands behind the required terms in the document, and excluded it is all that must not hold:
as one range from instant to instant where both ends mean one, and as nothing where an end does not.
What the journal then says of anything dropped is one report on the range, if nothing was emitted,
counted once. -/
theorem ranges_whole_or_dropped (typed : RangeTyped compiler key field start stop) :
    ∃ clauses, Covers compiler.clock field start stop clauses ∧ ∀ polarity,
      (compiler.build (rangeQuery polarity key start stop)).outcome =
        .ok { document := .bool (filterWith compiler.settings polarity clauses)
              parsed := some (onSide polarity (rangeOf key start stop))
              mode := .keyword } ∧
      drops (compiler.build (rangeQuery polarity key start stop)).journal =
        written (reportsFor field start stop clauses) ∧
      counter (.dropped DropReason.unparseableRange.label)
        (compiler.build (rangeQuery polarity key start stop)).journal =
          if clauses.isEmpty then 1 else 0 := by
  obtain ⟨clauses, covers⟩ := covers_exists compiler.clock field typed.ascii
  refine ⟨clauses, covers, fun polarity => ⟨typed.build covers, typed.drops covers, ?_⟩⟩
  rw [counter, count_dropped .unparseableRange (typed.drops covers)]
  cases clauses <;> rfl

/-! ## A page of the diary -/

/-- The field of the diary that is found by dates. -/
def created : Field where
  kind := .range
  indexField := "created"

theorem diary_typed {start stop : List Char} (undivided : '-' ∉ start) (bareStart : IsBare start)
    (bareStop : IsBare stop) (ascii : (start ++ stop).all (fun c => c.utf8Size == 1) = true) :
    RangeTyped diary "date" created start stop := by
  have single (c : Char) (member : c ∈ start ++ stop) : c.utf8Size = 1 :=
    beq_iff_eq.mp (List.all_eq_true.mp ascii c member)
  exact ⟨rfl, List.mem_singleton_self _, rfl, rfl, by decide +kernel, undivided, bareStart, bareStop,
    single⟩

/-- From a number of seconds to a time in the middle of the Atlantic: the hyphen in the offset does
not divide the range again. -/
theorem diary_excludes_night :
    RangeTyped diary "date" created "1699834414".toList "2024_01_01T00:00:00-02:00".toList ∧
      (diary.build "-date:1699834414-2024_01_01T00:00:00-02:00").outcome.map Built.document =
        .ok (.bool ⟨[], [.range "created" "2023-11-13T00:13:34.000Z" "2024-01-01T02:00:00.000Z"]⟩) ∧
      counter (.dropped DropReason.unparseableRange.label)
        (diary.build "-date:1699834414-2024_01_01T00:00:00-02:00").journal = 0 := by
  have typed : RangeTyped diary "date" created "1699834414".toList
      "2024_01_01T00:00:00-02:00".toList :=
    diary_typed (by decide +kernel) (by decide +kernel) (by decide +kernel) (by decide +kernel)
  have starts : DateTerm.resolve (.ofSeconds 0) "1699834414".toList =
      .ok (some (.ofSeconds 1699834414)) := by decide +kernel
  have stops : DateTerm.resolve (.ofSeconds 0) "2024_01_01T00:00:00-02:00".toList =
      .ok (some (.ofSeconds 1704074400)) := by decide +kernel
  have query : rangeQuery .excluded "date" "1699834414".toList
      "2024_01_01T00:00:00-02:00".toList = "-date:1699834414-2024_01_01T00:00:00-02:00" := by
    decide +kernel
  refine ⟨typed, ?_⟩
  obtain ⟨clauses, covers, built⟩ := ranges_whole_or_dropped typed
  obtain ⟨outcome, _, counted⟩ := built .excluded
  rw [query] at outcome counted
  rw [outcome, counted]
  cases covers with
  | whole startsAgain stopsAgain =>
    cases starts.symm.trans startsAgain
    cases stops.symm.trans stopsAgain
    exact ⟨rfl, rfl⟩
  | nothing startsAgain stopsAgain missing =>
    cases starts.symm.trans startsAgain
    cases stops.symm.trans stopsAgain
    rcases missing with other | other <;> cases other

end SearchCompiler.WholeRanges
