import Mathlib.Data.List.Nodup
import SearchCompiler.Proofs.DefaultReading
import SearchCompiler.Proofs.DropReports
import SearchCompiler.Proofs.OffsetCuts

/-! Queries read by the default tokenizer fit the settings they are compiled with. They name
declared fields only, each with values of the shape that its kind takes, so a build has no unknown
field to report and, where no decoder changes shapes, none of the wrong shape. What is left to be
dropped is a range with an end that means no date. -/
namespace SearchCompiler.FittingQueries
open Build Calendar Query Settings
open BuildSemantics DefaultReading DropReports OffsetCuts

variable {settings : Entity} {group : TokenGroup} {compiler : Compiler} {query : String}

/-! ## Fields asked for -/

/-- A name is declared once. -/
theorem field_unique {key : String} {field other : Field}
    (declared : (key, field) ∈ settings.fields.entries)
    (again : (key, other) ∈ settings.fields.entries) : field = other := by
  have same := List.inj_on_of_nodup_map settings.fields.distinct declared again rfl
  exact congrArg Prod.snd same

theorem mem_names_of_get? {α : Type} {map : OrderedMap α} {key : String} {value : α}
    (found : map.get? key = some value) : key ∈ map.names :=
  List.mem_map_of_mem (OrderedMap.get?_eq_some_iff.mp found)

/-- A query that fits gives a range to range fields and a list to the others. -/
theorem shape_of_fits (fits : Fits settings group) {request : Request}
    (asked : request ∈ requests settings group) :
    request.field.kind = .range ↔ ∃ ends, request.values = .range ends := by
  obtain ⟨declared, given⟩ := mem_requests.mp asked
  unfold TokenGroup.values? at given
  cases listed : group.keywords.get? request.key with
  | some values =>
    rw [listed] at given
    have list : FieldValues.list values = request.values := Option.some.inj given
    obtain ⟨field, again, kind⟩ := fits.keywords _ (mem_names_of_get? listed)
    rw [field_unique declared again, ← list]
    apply iff_of_false kind
    rintro ⟨ends, same⟩
    cases same
  | none =>
    rw [listed] at given
    obtain ⟨ends, ranged, same⟩ := Option.map_eq_some_iff.mp given
    obtain ⟨field, again, kind⟩ := fits.ranges _ (mem_names_of_get? ranged)
    rw [field_unique declared again]
    exact iff_of_true kind ⟨ends, same.symm⟩

theorem unknownFields_of_fits (fits : Fits settings group) :
    unknownFields settings group = [] := by
  refine List.filter_eq_nil_iff.mpr fun key named => ?_
  have declared : ∃ field, (key, field) ∈ settings.fields.entries := by
    rcases List.mem_append.mp named with keyword | range
    · obtain ⟨field, declared, _⟩ := fits.keywords key keyword
      exact ⟨field, declared⟩
    · obtain ⟨field, declared, _⟩ := fits.ranges key range
      exact ⟨field, declared⟩
  obtain ⟨field, declared⟩ := declared
  have known : key ∈ settings.fields.names := List.mem_map.mpr ⟨_, declared, rfl⟩
  simp [OrderedMap.contains, known]

theorem requests_distinct :
    (requests settings group).Pairwise fun first second => first.key ≠ second.key := by
  refine List.Pairwise.filterMap _ (fun first second apart request found other also => ?_)
    (List.pairwise_map.mp settings.fields.distinct)
  obtain ⟨_, _, rfl⟩ := Option.map_eq_some_iff.mp found
  obtain ⟨_, _, rfl⟩ := Option.map_eq_some_iff.mp also
  exact apart

/-! ## Lost ranges -/

/-- A range that a query gives for a field on one of its sides. -/
structure GivenRange where
  polarity : Polarity
  key : String
  field : Field
  ends : Endpoints

/-- An end of a range means no date. -/
def Meaningless (clock : Instant) (ends : Endpoints) : Prop :=
  DateTerm.resolve clock ends.start.toList = .ok none ∨
    DateTerm.resolve clock ends.stop.toList = .ok none

/-- The range is given for a declared range field, and has an end that means no date. -/
structure GivenRange.Lost (compiler : Compiler) (query : String) (given : GivenRange) : Prop where
  declared : (given.key, given.field) ∈ compiler.settings.fields.entries
  kind : given.field.kind = .range
  asked : (side (readingOf compiler query) given.polarity).values? given.key =
    some (.range given.ends)
  meaningless : Meaningless compiler.clock given.ends

def GivenRange.report (given : GivenRange) : Report :=
  ⟨.rangeDropped given.field.indexField given.ends.start given.ends.stop, .unparseableRange⟩

/-- The range that is given for a field, where it does not stand for two dates. -/
def lostRange? (clock : Instant) (polarity : Polarity) (request : Request) : Option GivenRange :=
  match request.values with
  | .list _ => none
  | .range ends =>
    match DateTerm.resolve clock ends.start.toList, DateTerm.resolve clock ends.stop.toList with
    | .ok (some _), .ok (some _) => none
    | _, _ => some ⟨polarity, request.key, request.field, ends⟩

def sideLosses (compiler : Compiler) (query : String) (polarity : Polarity) : List GivenRange :=
  (requests compiler.settings (side (readingOf compiler query) polarity)).filterMap
    (lostRange? compiler.clock polarity)

def losses (compiler : Compiler) (query : String) : List GivenRange :=
  sideLosses compiler query .included ++ sideLosses compiler query .excluded

theorem lostRange?_origin {clock : Instant} {polarity : Polarity} {request : Request}
    {given : GivenRange} (lost : lostRange? clock polarity request = some given) :
    given.polarity = polarity ∧ given.key = request.key := by
  unfold lostRange? at lost
  split at lost
  · cases lost
  · split at lost <;> cases lost
    exact ⟨rfl, rfl⟩

/-- No field loses two ranges on one side. -/
theorem losses_distinct :
    ((losses compiler query).map fun given => (given.polarity, given.key)).Nodup := by
  have side polarity : (sideLosses compiler query polarity).Pairwise fun first second =>
      (first.polarity, first.key) ≠ (second.polarity, second.key) := by
    refine List.Pairwise.filterMap _ (fun first second apart given lost other also => ?_)
      requests_distinct
    rw [(lostRange?_origin lost).2, (lostRange?_origin also).2]
    exact fun same => apart (congrArg Prod.snd same)
  refine List.pairwise_map.mpr (List.pairwise_append.mpr ⟨side _, side _, ?_⟩)
  intro given asked other refused same
  obtain ⟨_, _, lost⟩ := List.mem_filterMap.mp asked
  obtain ⟨_, _, also⟩ := List.mem_filterMap.mp refused
  have polarities := congrArg Prod.fst same
  rw [(lostRange?_origin lost).1, (lostRange?_origin also).1] at polarities
  cases polarities

/-- No declared field has a decoder. -/
def Undecoded (settings : Entity) : Prop :=
  ∀ key field, (key, field) ∈ settings.fields.entries → field.decoder = none

theorem Undecoded.decoded (plain : Undecoded settings) {request : Request}
    (asked : request ∈ requests settings group) (polarity : Polarity) :
    decoded polarity request.field request.values = request.values := by
  rw [BuildSemantics.decoded, plain _ _ (mem_requests.mp asked).1]

theorem lostRange?_eq_some_iff {clock : Instant} {polarity : Polarity} {request : Request}
    {ends : Endpoints} {first last : Option Instant} {given : GivenRange}
    (ranged : request.values = .range ends)
    (start : DateTerm.resolve clock ends.start.toList = .ok first)
    (stop : DateTerm.resolve clock ends.stop.toList = .ok last) :
    lostRange? clock polarity request = some given ↔
      given = ⟨polarity, request.key, request.field, ends⟩ ∧ Meaningless clock ends := by
  unfold lostRange? Meaningless
  rw [ranged, start, stop]
  dsimp only
  rw [start, stop]
  cases first <;> cases last <;> simp [eq_comm]

theorem lostRange?_report {clock : Instant} {polarity : Polarity} {request : Request}
    {ends : Endpoints} (kind : request.field.kind = .range) (ranged : request.values = .range ends) :
    (lostRange? clock polarity request).map GivenRange.report =
      valuesReport? clock request.key request.field (.range ends) := by
  unfold lostRange? valuesReport?
  rw [ranged, kind]
  dsimp only
  cases DateTerm.resolve clock ends.start.toList with
  | error fault => rfl
  | ok first =>
    cases DateTerm.resolve clock ends.stop.toList with
    | error fault => cases first <;> rfl
    | ok last => cases first <;> cases last <;> rfl

/-- Behind a build that ends with a document, the losses are the ranges that are lost. -/
theorem mem_losses {built : Built} (ended : (compiler.build query).outcome = .ok built)
    (plain : Undecoded compiler.settings)
    (fits : ∀ polarity, Fits compiler.settings (side (readingOf compiler query) polarity))
    {given : GivenRange} : given ∈ losses compiler query ↔ given.Lost compiler query := by
  have read {polarity : Polarity} {request : Request} {ends : Endpoints}
      (asked : request ∈ requests compiler.settings (side (readingOf compiler query) polarity))
      (ranged : request.values = .range ends) : request.field.kind = .range ∧ ∃ first last,
        DateTerm.resolve compiler.clock ends.start.toList = .ok first ∧
          DateTerm.resolve compiler.clock ends.stop.toList = .ok last := by
    have kind := (shape_of_fits (fits polarity) asked).mpr ⟨ends, ranged⟩
    obtain ⟨clauses, compiles⟩ := compiles_of_ok ended asked
    exact ⟨kind, ends_read kind ((plain.decoded asked polarity).trans ranged) compiles⟩
  have aside (polarity : Polarity) : given ∈ sideLosses compiler query polarity ↔
      given.polarity = polarity ∧ given.Lost compiler query := by
    constructor
    · intro member
      obtain ⟨request, asked, lost⟩ := List.mem_filterMap.mp member
      obtain ⟨declared, values⟩ := mem_requests.mp asked
      cases ranged : request.values with
      | list values =>
        rw [lostRange?, ranged] at lost
        cases lost
      | range ends =>
        obtain ⟨kind, first, last, start, stop⟩ := read asked ranged
        obtain ⟨rfl, meaningless⟩ := (lostRange?_eq_some_iff ranged start stop).mp lost
        exact ⟨rfl, declared, kind, ranged ▸ values, meaningless⟩
    · rintro ⟨rfl, lost⟩
      have asked : ⟨given.key, given.field, .range given.ends⟩ ∈ requests compiler.settings
          (side (readingOf compiler query) given.polarity) :=
        mem_requests.mpr ⟨lost.declared, lost.asked⟩
      obtain ⟨_, first, last, start, stop⟩ := read asked rfl
      refine List.mem_filterMap.mpr ⟨_, asked, ?_⟩
      exact (lostRange?_eq_some_iff rfl start stop).mpr ⟨rfl, lost.meaningless⟩
  rw [losses, List.mem_append, aside, aside]
  cases given.polarity <;> simp

/-- What fits has no shape to report, so all that a build reports are its losses. -/
theorem reportsOn_losses (plain : Undecoded compiler.settings)
    (fits : ∀ polarity, Fits compiler.settings (side (readingOf compiler query) polarity)) :
    reportsOn compiler.clock (mentions compiler (readingOf compiler query)) =
      (losses compiler query).map GivenRange.report := by
  have aside (polarity : Polarity) :
      reportsOn compiler.clock (sideMentions compiler (readingOf compiler query) polarity) =
        (sideLosses compiler query polarity).map GivenRange.report := by
    rw [sideMentions, unknownFields_of_fits (fits polarity), List.map_nil, List.nil_append,
      sideLosses, reportsOn, List.filterMap_map, List.map_filterMap]
    refine List.filterMap_congr fun request asked => ?_
    have shape := shape_of_fits (fits polarity) asked
    unfold Function.comp Mention.report?
    dsimp only
    rw [plain.decoded asked polarity]
    cases ranged : request.values with
    | list values =>
      have kind : request.field.kind ≠ .range := by
        rw [Ne, shape, ranged]
        rintro ⟨ends, same⟩
        cases same
      rw [lostRange?, ranged, valuesReport?]
      cases same : request.field.kind with
      | range => exact absurd same kind
      | _ => rfl
    | range ends => exact (lostRange?_report (shape.mpr ⟨ends, ranged⟩) ranged).symm
  rw [mentions, reportsOn_append, aside, aside, losses, List.map_append]

/-! ## Builds -/

theorem fits_reading (reads : compiler.tokenizer = tokenize) (polarity : Polarity) :
    Fits compiler.settings (side (readingOf compiler query) polarity) := by
  rw [readingOf, reads]
  exact fits_tokenize polarity

/-- A query that fits mentions declared fields only, and none is reported as unknown. -/
theorem unknown_unreported
    (fits : ∀ polarity, Fits compiler.settings (side (readingOf compiler query) polarity))
    {report : Report}
    (member : report ∈ reportsOn compiler.clock (mentions compiler (readingOf compiler query))) :
    report.reason ≠ .unknownField := by
  obtain ⟨mention, mentioned, found⟩ := List.mem_filterMap.mp member
  cases mention with
  | declared polarity request => exact valuesReport?_reason found
  | undeclared key =>
    unfold mentions sideMentions at mentioned
    rw [unknownFields_of_fits (fits .included), unknownFields_of_fits (fits .excluded)] at mentioned
    simp at mentioned

/-- **Queries read by the default tokenizer fit the settings.** On either side a query names declared
fields only, as keywords those that take no range and as ranges those that do, none as both, and has
one text or none. So a build that ends with a document never reports an unknown field; and where no
field has a decoder, it never reports a wrong shape, and all that it drops are the ranges with an
end that means no date, each of them once. -/
theorem queries_fit_settings (reads : compiler.tokenizer = tokenize) (query : String) :
    (∀ polarity, Fits compiler.settings (side (readingOf compiler query) polarity)) ∧
    ∀ built, (compiler.build query).outcome = .ok built →
      .dropped DropReason.unknownField.label ∉ metrics (compiler.build query).journal ∧
      (Undecoded compiler.settings →
        .dropped DropReason.shapeMismatch.label ∉ metrics (compiler.build query).journal ∧
        ∃ lost : List GivenRange, (∀ given, given ∈ lost ↔ given.Lost compiler query) ∧
          (lost.map fun given => (given.polarity, given.key)).Nodup ∧
          drops (compiler.build query).journal = written (lost.map GivenRange.report)) := by
  have fits (polarity : Polarity) :
      Fits compiler.settings (side (readingOf compiler query) polarity) := fits_reading reads polarity
  refine ⟨fits, fun built ended => ?_⟩
  have reported := build_drops (read_of_ok ended)
  rw [settled_of_ok ended] at reported
  refine ⟨?_, fun plain => ?_⟩
  · rw [dropped_mem_metrics reported]
    rintro ⟨report, member, unknown⟩
    exact unknown_unreported fits member unknown
  · rw [reportsOn_losses plain fits] at reported
    refine ⟨?_, losses compiler query, fun given => mem_losses ended plain fits, losses_distinct,
      reported⟩
    rw [dropped_mem_metrics reported]
    rintro ⟨report, member, mismatched⟩
    obtain ⟨given, _, rfl⟩ := List.mem_map.mp member
    cases mismatched

/-! ## A diary -/

theorem diary_undecoded : Undecoded diary.settings := diary_hooksAnswer.undecoded

/-- Of a day that is asked for and one that is excluded, the diary loses the one that is no date. -/
theorem diary_loses_someday :
    ∃ built, (diary.build "date:someday-now -date:2023_10_01-now").outcome = .ok built ∧
      .dropped DropReason.shapeMismatch.label ∉
        metrics (diary.build "date:someday-now -date:2023_10_01-now").journal ∧
      drops (diary.build "date:someday-now -date:2023_10_01-now").journal =
        dropped (.rangeDropped "created" "someday" "now") .unparseableRange := by
  have ended : ∃ built,
      (diary.build "date:someday-now -date:2023_10_01-now").outcome = .ok built := ⟨_, rfl⟩
  obtain ⟨built, ended⟩ := ended
  have shapes := ((queries_fit_settings rfl _).2 built ended).2 diary_undecoded
  exact ⟨built, ended, shapes.1, by decide +kernel⟩

end SearchCompiler.FittingQueries
