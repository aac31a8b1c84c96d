import Mathlib.Data.List.TakeWhile
import Mathlib.Logic.Function.Basic
import SearchCompiler.Proofs.HookProtocol

/-! What a build reports as dropped. A query mentions fields, declared ones with what it says of
them and others; a build deals with its mentions one by one, asked before excluded, until a resolver
fails. Every undeclared field is reported, and so is a declared one whose values have the wrong
shape or whose range has an end without a meaning. The journal holds these reports in the order of
the mentions, each as an event and a count, and no others. -/
namespace SearchCompiler.DropReports
open Build Calendar Query Settings
open BuildSemantics HookProtocol

/-! ## Mentions -/

/-- A field that a query mentions on one of its sides. -/
inductive Mention where
  | undeclared (key : String)
  | declared (polarity : Polarity) (request : Request)

/-- The fields that are mentioned on one side, those not declared first. -/
def sideMentions (compiler : Compiler) (reading : Reading) (polarity : Polarity) : List Mention :=
  (unknownFields compiler.settings (side reading polarity)).map .undeclared ++
    (requests compiler.settings (side reading polarity)).map (.declared polarity)

/-- What is mentioned, in the order in which a build deals with it. -/
def mentions (compiler : Compiler) (reading : Reading) : List Mention :=
  sideMentions compiler reading .included ++ sideMentions compiler reading .excluded

/-- Every field that a side has values for is mentioned there. -/
theorem mem_mentions {compiler : Compiler} {reading : Reading} {polarity : Polarity}
    {request : Request} :
    .declared polarity request ∈ mentions compiler reading ↔
      request ∈ requests compiler.settings (side reading polarity) := by
  have aside (other : Polarity) : .declared polarity request ∈ sideMentions compiler reading other ↔
      request ∈ requests compiler.settings (side reading other) ∧ other = polarity := by
    simp [sideMentions]
  rw [mentions, List.mem_append, aside, aside]
  cases polarity <;> simp

/-- Whether a build goes on behind a mention, which only a resolver that fails prevents. -/
def Mention.fine : Mention → Bool
  | .undeclared _ => true
  | .declared polarity request => ((fieldPlan polarity request).findSome? Planned.failure).isNone

/-- The mentions before the first field whose resolver fails. -/
def settled (mentioned : List Mention) : List Mention := mentioned.takeWhile Mention.fine

theorem settled_append {first rest : List Mention} (fine : ∀ mention ∈ first, mention.fine = true) :
    settled (first ++ rest) = first ++ settled rest :=
  List.takeWhile_append_of_pos fine

/-- Where nothing fails, all mentions are dealt with. -/
theorem settled_of_fine {mentioned : List Mention}
    (fine : ∀ mention ∈ mentioned, mention.fine = true) : settled mentioned = mentioned :=
  List.takeWhile_eq_self_iff.mpr fine

theorem mem_settled_singleton {mention other : Mention} :
    other ∈ settled [mention] ↔ mention.fine = true ∧ other = mention := by
  cases fine : mention.fine <;> simp [settled, fine]

theorem settled_append_of_failed {first rest : List Mention}
    (failed : ∃ mention ∈ first, mention.fine = false) : settled (first ++ rest) = settled first := by
  induction first with
  | nil =>
    obtain ⟨mention, member, _⟩ := failed
    cases member
  | cons mention others ih =>
    unfold settled at ih ⊢
    rw [List.cons_append, List.takeWhile_cons, List.takeWhile_cons]
    cases goesOn : mention.fine with
    | false => rfl
    | true =>
      obtain ⟨stop, member, stops⟩ := failed
      rcases List.mem_cons.mp member with rfl | later
      · rw [goesOn] at stops
        cases stops
      · rw [if_pos rfl, if_pos rfl, ih ⟨stop, later, stops⟩]

/-! ## Reports -/

/-- A report of something dropped: what it says, and the reason it is counted under. -/
structure Report where
  event : Event
  reason : DropReason

def Report.entries (report : Report) : List Entry := dropped report.event report.reason

/-- The report on the values of a field behind its decoder, where they give no clause. -/
def valuesReport? (clock : Instant) (key : String) (field : Field) : FieldValues → Option Report
  | .list _ =>
    match field.kind with
    | .range => some ⟨.shapeMismatch key .range, .shapeMismatch⟩
    | _ => none
  | .range ends =>
    match field.kind with
    | .range =>
      match DateTerm.resolve clock ends.start.toList, DateTerm.resolve clock ends.stop.toList with
      | .ok (some _), .ok (some _) => none
      | _, _ =>
        some ⟨.rangeDropped field.indexField ends.start ends.stop, .unparseableRange⟩
    | kind => some ⟨.shapeMismatch key kind, .shapeMismatch⟩

/-- The report on a mention, where it gives no clause for want of a field or of a meaning. -/
def Mention.report? (clock : Instant) : Mention → Option Report
  | .undeclared key => some ⟨.unknownField key, .unknownField⟩
  | .declared polarity request =>
    valuesReport? clock request.key request.field
      (decoded polarity request.field request.values)

def reportsOn (clock : Instant) (mentioned : List Mention) : List Report :=
  mentioned.filterMap (Mention.report? clock)

/-- Whether an entry belongs to a report of something dropped. -/
def isDrop : Entry → Bool
  | .event (.unknownField _) | .event (.shapeMismatch _ _) | .event (.rangeDropped _ _ _) => true
  | .metric (.dropped _) => true
  | _ => false

/-- The reports of something dropped that a journal holds. -/
def drops (journal : List Entry) : List Entry := journal.filter isDrop

/-- What is written of some reports. -/
def written (reports : List Report) : List Entry := reports.flatMap Report.entries

theorem drops_append (first second : List Entry) :
    drops (first ++ second) = drops first ++ drops second := List.filter_append ..

theorem written_append (first second : List Report) :
    written (first ++ second) = written first ++ written second := List.flatMap_append

theorem reportsOn_append (clock : Instant) (first second : List Mention) :
    reportsOn clock (first ++ second) = reportsOn clock first ++ reportsOn clock second :=
  List.filterMap_append

theorem reportsOn_undeclared (clock : Instant) (keys : List String) :
    reportsOn clock (keys.map .undeclared) =
      keys.map fun key => ⟨.unknownField key, .unknownField⟩ := by
  induction keys with
  | nil => rfl
  | cons key rest ih => exact congrArg (_ :: ·) ih

/-- A field whose resolver fails has values of the right shape, so nothing else is said of it. -/
theorem report?_of_failed {clock : Instant} {mention : Mention} (failed : mention.fine = false) :
    mention.report? clock = none := by
  cases mention with
  | undeclared key => cases failed
  | declared polarity request =>
    -- only a resolver can fail here, and it is asked for the list of a term field only
    have asked : resolveCall? polarity request.key request.field
        (decoded polarity request.field request.values) ≠ none := by
      intro unasked
      rw [Mention.fine, fieldPlan, unasked, decodeCall?] at failed
      cases attached : request.field.decoder <;> rw [attached] at failed <;> cases failed
    unfold resolveCall? at asked
    unfold Mention.report? valuesReport?
    split at asked
    · next kind shape _ =>
      dsimp only
      rw [shape, kind]
    · exact absurd rfl asked

/-- What is said of a declared field is never that it is unknown. -/
theorem valuesReport?_reason {clock : Instant} {key : String} {field : Field} {values : FieldValues}
    {report : Report} (found : valuesReport? clock key field values = some report) :
    report.reason ≠ .unknownField := by
  unfold valuesReport? at found
  split at found
  · split at found <;> cases found
    exact DropReason.noConfusion
  · split at found
    · split at found <;> cases found
      exact DropReason.noConfusion
    · cases found
      exact DropReason.noConfusion

theorem reason_label_injective : Function.Injective DropReason.label := by
  intro first second
  cases first <;> cases second <;> decide

theorem metrics_written (reports : List Report) :
    metrics (written reports) = reports.map fun report => .dropped report.reason.label := by
  induction reports with
  | nil => rfl
  | cons report rest ih => exact congrArg (.dropped report.reason.label :: ·) ih

/-- A journal counts the reasons of its reports. -/
theorem count_dropped {journal : List Entry} {reports : List Report} (reason : DropReason)
    (holds : drops journal = written reports) :
    (metrics journal).count (.dropped reason.label) =
      reports.countP fun report => report.reason == reason := by
  have kept : (metrics journal).count (.dropped reason.label) =
      (metrics (drops journal)).count (.dropped reason.label) := by
    unfold metrics drops List.count
    rw [List.filterMap_filter, List.countP_filterMap, List.countP_filterMap]
    refine List.countP_congr fun entry _ => ?_
    cases entry with
    | metric metric => cases metric <;> simp [isDrop]
    | _ => simp
  rw [kept, holds, metrics_written, List.count, List.countP_map]
  refine List.countP_congr fun report _ => ?_
  simp [reason_label_injective.eq_iff]

/-- A journal counts just the reasons that occur in its reports. -/
theorem dropped_mem_metrics {journal : List Entry} {reports : List Report} {reason : DropReason}
    (holds : drops journal = written reports) :
    .dropped reason.label ∈ metrics journal ↔ ∃ report ∈ reports, report.reason = reason := by
  rw [← List.count_pos_iff, count_dropped reason holds, List.countP_pos_iff]
  simp only [beq_iff_eq]

/-! ## Runs -/

variable {α β : Type}

/-- A run writes the reports on some mentions up to the first that fails, and compiles the fields
among them. It ends with a value only where none fails, and with the failure of a function only
where one does. -/
structure DealsWith (clock : Instant) (run : Recorded Failure α) (mentioned : List Mention) :
    Prop where
  drops : drops run.journal = written (reportsOn clock (settled mentioned))
  compiled : ∀ polarity request, .declared polarity request ∈ settled mentioned → ∃ clauses,
    (fieldClauses clock polarity request.key request.field request.values).outcome = .ok clauses
  fine : ∀ value, run.outcome = .ok value → ∀ mention ∈ mentioned, mention.fine = true
  failed : ∀ error, run.outcome = .error (.hook error) →
    ∃ mention ∈ mentioned, mention.fine = false

/-- A run reports on some mentions unless it meets a date term that cannot be read to its end. -/
def Reports (clock : Instant) (run : Recorded Failure α) (mentioned : List Mention) : Prop :=
  (∀ fault, run.outcome ≠ .error (.date fault)) → DealsWith clock run mentioned

variable {clock : Instant}

theorem reports_pure (value : α) : Reports clock (pure value) [] := by
  intro _
  refine ⟨rfl, fun _ _ member => ?_, fun _ _ => List.forall_mem_nil _, fun _ failed => ?_⟩
  · cases member
  · cases failed

/-- Mentions are dealt with one after the other as long as none fails. -/
theorem Reports.bind {first : Recorded Failure α} {next : α → Recorded Failure β}
    {mentioned rest : List Mention} (reports : Reports clock first mentioned)
    (goesOn : ∀ value, Reports clock (next value) rest) :
    Reports clock (first >>= next) (mentioned ++ rest) := by
  intro read
  cases ended : first.outcome with
  | ok value =>
    have joined : first >>= next = _ := Recorded.bind_of_ok ended
    rw [joined] at read ⊢
    have before := reports fun fault failed => by rw [ended] at failed; cases failed
    have behind := goesOn value read
    have fine := before.fine value ended
    refine ⟨?_, fun polarity request member => ?_, fun result succeeded => ?_,
      fun error failed => ?_⟩
    · rw [drops_append, before.drops, behind.drops, settled_append fine, settled_of_fine fine,
        reportsOn_append, written_append]
    · rw [settled_append fine] at member
      rcases List.mem_append.mp member with earlier | later
      · rw [← settled_of_fine fine] at earlier
        exact before.compiled polarity request earlier
      · exact behind.compiled polarity request later
    · exact List.forall_mem_append.mpr ⟨fine, behind.fine result succeeded⟩
    · obtain ⟨mention, member, stops⟩ := behind.failed error failed
      exact ⟨mention, List.mem_append_right _ member, stops⟩
  | error failure =>
    have joined : first >>= next = _ := Recorded.bind_of_error ended
    rw [joined] at read ⊢
    cases failure with
    | date fault => exact absurd rfl (read fault)
    | hook error =>
      have before := reports fun fault failed => by rw [ended] at failed; cases failed
      have stop := before.failed error ended
      refine ⟨?_, ?_, fun result succeeded => (by cases succeeded), fun _ _ => ?_⟩
      · rw [settled_append_of_failed stop]
        exact before.drops
      · rw [settled_append_of_failed stop]
        exact before.compiled
      · obtain ⟨mention, member, stops⟩ := stop
        exact ⟨mention, List.mem_append_left _ member, stops⟩

theorem Reports.then_silent {first : Recorded Failure α} {next : α → Recorded Failure β}
    {mentioned : List Mention} (reports : Reports clock first mentioned)
    (silent : ∀ value, Reports clock (next value) []) : Reports clock (first >>= next) mentioned := by
  rw [← List.append_nil mentioned]
  exact reports.bind silent

/-! ## The steps of a build -/

variable {polarity : Polarity} {key : String} {field : Field} {values : FieldValues}
variable {compiler : Compiler} {reading : Reading}

/-- A step that writes no report leaves those written before it. -/
theorem drops_bind_silent {first : Recorded Failure α} {next : α → Recorded Failure β}
    (silent : ∀ value, drops (next value).journal = []) :
    drops (first >>= next).journal = drops first.journal := by
  cases ended : first.outcome with
  | ok value =>
    have joined : first >>= next = _ := Recorded.bind_of_ok ended
    rw [joined, drops_append, silent, List.append_nil]
  | error failure =>
    have joined : first >>= next = _ := Recorded.bind_of_error ended
    rw [joined]

theorem decodedValues_drops : drops (decodedValues polarity key field values).journal = [] := by
  unfold decodedValues
  cases field.decoder <;> rfl

theorem termClauses_drops {given : List String} :
    drops ((termClauses polarity key field given).rescue fun cause => do
      .note [.event (.resolverFailed key cause)]
      .fail (.hook (.resolver key cause)) : Recorded Failure (List Document.Clause)).journal = [] := by
  unfold termClauses resolvedValues
  cases field.resolver with
  | none => rfl
  | some resolve =>
    dsimp only
    cases resolve polarity given <;> rfl

/-- Both ends of a range that compiles can be read, whether they mean a date or not. -/
theorem ends_read {ends : Endpoints} {clauses : List Document.Clause} (kind : field.kind = .range)
    (given : decoded polarity field values = .range ends)
    (compiles : (fieldClauses clock polarity key field values).outcome = .ok clauses) :
    ∃ first last, DateTerm.resolve clock ends.start.toList = .ok first ∧
      DateTerm.resolve clock ends.stop.toList = .ok last := by
  obtain ⟨after, decodes, compiles⟩ := Recorded.bind_ok_iff.mp compiles
  rw [decodedValues_outcome, given] at decodes
  cases decodes
  obtain ⟨found, compiles, _⟩ := Recorded.bind_ok_iff.mp compiles
  unfold leafClauses at compiles
  rw [kind] at compiles
  obtain ⟨first, last, start, stop, _⟩ := rangeClauses_ok_iff.mp
    ((Recorded.rescue_ok_iff fun _ failed => by cases failed).mp compiles)
  exact ⟨first, last, start, stop⟩

/-- A field writes the report on its values. -/
theorem leafClauses_drops
    (read : ∀ fault, (leafClauses clock polarity key field values).outcome ≠ .error (.date fault)) :
    drops (leafClauses clock polarity key field values).journal =
      written (valuesReport? clock key field values).toList := by
  unfold leafClauses valuesReport? at *
  cases kind : field.kind <;> cases values
  case term.list given => exact termClauses_drops
  case range.range ends =>
    rw [kind] at read
    dsimp only at read ⊢
    unfold rangeClauses Recorded.ofExcept at read ⊢
    cases start : DateTerm.resolve clock ends.start.toList with
    | error fault =>
      rw [start] at read
      exact absurd rfl (read fault)
    | ok first =>
      cases stop : DateTerm.resolve clock ends.stop.toList with
      | error fault =>
        rw [start, stop] at read
        exact absurd rfl (read fault)
      | ok last => cases first <;> cases last <;> rfl
  all_goals rfl

theorem fieldClauses_drops (request : Request)
    (read : ∀ fault, (fieldClauses clock polarity request.key request.field request.values).outcome ≠
      .error (.date fault)) :
    drops (fieldClauses clock polarity request.key request.field request.values).journal =
      written ((Mention.declared polarity request).report? clock).toList := by
  have joined : fieldClauses clock polarity request.key request.field request.values = _ :=
    Recorded.bind_of_ok decodedValues_outcome
  have leavesRead (fault : DateFault) : (leafClauses clock polarity request.key request.field
      (decoded polarity request.field request.values)).outcome ≠ .error (.date fault) := by
    intro failed
    apply read fault
    rw [joined]
    have stopped : (leafClauses clock polarity request.key request.field
        (decoded polarity request.field request.values) >>= fun found =>
          pure (combine request.field.connect found)) = _ := Recorded.bind_of_error failed
    exact congrArg Recorded.outcome stopped
  rw [joined]
  rw [drops_append, decodedValues_drops, List.nil_append, drops_bind_silent fun _ => rfl]
  exact leafClauses_drops leavesRead

theorem reportsOn_declared {request : Request} :
    reportsOn clock (settled [.declared polarity request]) =
      ((Mention.declared polarity request).report? clock).toList := by
  cases fine : (Mention.declared polarity request).fine with
  | false =>
    rw [report?_of_failed fine, settled, List.takeWhile_cons, fine]
    rfl
  | true =>
    rw [settled_of_fine (List.forall_mem_singleton.mpr fine), reportsOn]
    cases found : (Mention.declared polarity request).report? clock with
    | none => exact List.filterMap_cons_none found
    | some report => exact List.filterMap_cons_some found

theorem fieldClauses_reports (request : Request) :
    Reports clock (fieldClauses clock polarity request.key request.field request.values)
      [.declared polarity request] := by
  intro read
  have carried : CarriesOut _ (fieldPlan polarity request) := fieldClauses_follows request read
  refine ⟨?_, fun asked other member => ?_, fun clauses ended => ?_, fun error ended => ?_⟩
  · rw [reportsOn_declared]
    exact fieldClauses_drops request read
  · obtain ⟨fine, same⟩ := mem_settled_singleton.mp member
    cases same
    rw [Mention.fine, Option.isNone_iff_eq_none] at fine
    cases ended : (fieldClauses clock polarity request.key request.field request.values).outcome with
    | ok clauses => exact ⟨clauses, rfl⟩
    | error failure =>
      cases failure with
      | date fault => exact absurd ended (read fault)
      | hook error =>
        rw [(carried.failed error).mp ended] at fine
        cases fine
  · rw [List.forall_mem_singleton, Mention.fine, carried.fine ended]
    rfl
  · refine ⟨_, List.mem_singleton_self _, ?_⟩
    rw [Mention.fine, (carried.failed error).mp ended]
    rfl

theorem clausesOf_reports (asked : List Request) :
    Reports clock (clausesOf clock polarity asked) (asked.map (.declared polarity)) := by
  induction asked with
  | nil => exact reports_pure _
  | cons request rest ih =>
    rw [List.map_cons]
    refine (fieldClauses_reports request).bind fun first => ?_
    exact ih.then_silent fun others => reports_pure _

/-- Fields that are not declared are reported before any other is compiled. -/
theorem unknownFields_reports (unknown : List String) :
    Reports clock (.note (unknown.flatMap fun key => dropped (.unknownField key) .unknownField))
      (unknown.map .undeclared) := by
  intro read
  clear read
  have fine : ∀ mention ∈ unknown.map Mention.undeclared, mention.fine = true := by
    intro mention member
    obtain ⟨key, _, rfl⟩ := List.mem_map.mp member
    rfl
  refine ⟨?_, fun polarity request member => ?_, fun _ _ => fine, fun error failed => ?_⟩
  · rw [settled_of_fine fine]
    clear fine
    -- on the names, since both the notes and the reports are made of them one by one
    induction unknown with
    | nil => rfl
    | cons key rest ih =>
      exact congrArg (dropped (.unknownField key) .unknownField ++ ·) ih
  · rw [settled_of_fine fine] at member
    obtain ⟨key, _, same⟩ := List.mem_map.mp member
    cases same
  · cases failed

theorem groupClauses_reports (reading : Reading) (polarity : Polarity) :
    Reports compiler.clock (groupClauses compiler polarity (side reading polarity))
      (sideMentions compiler reading polarity) :=
  (unknownFields_reports _).bind fun _ => clausesOf_reports _

theorem sideMentions_bare {text : String} : sideMentions compiler (.bare text) polarity = [] := by
  rw [sideMentions, side, requests_empty]
  rfl

/-- What is asked for is dealt with before what is excluded. -/
theorem filterOf_reports :
    Reports compiler.clock (filterOf compiler reading) (mentions compiler reading) := by
  unfold mentions
  cases reading with
  | bare text =>
    rw [sideMentions_bare, sideMentions_bare]
    exact reports_pure _
  | structured parsed =>
    refine (groupClauses_reports (.structured parsed) .included).bind fun included => ?_
    refine (groupClauses_reports (.structured parsed) .excluded).then_silent fun excluded => ?_
    exact reports_pure _

/-! ## A build -/

theorem nearestQuery_drops {search : VectorSearch} {embedder : Embedder} {text : String}
    {filter : Document.BoolFilter} :
    drops (nearestQuery search embedder text filter).journal = [] := by
  unfold nearestQuery
  cases embedder text <;> rfl

theorem assemble_drops {settings : Entity} {freeText : FreeText} {filter : Document.BoolFilter} :
    drops (assemble settings (modeFor settings freeText) freeText filter).journal = [] := by
  obtain plain | ⟨search, embedder, searching⟩ := keyword_or_searching settings freeText
  · rw [plain, assemble_keyword]
    rfl
  · rw [searching.assemble, drops_bind_silent fun _ => rfl, nearestQuery_drops]

/-- What a build does with the filter of its query. It is kept apart, as it reports nothing more but
may still fail: by the embedder, with all that the query mentions dealt with. -/
def finish (compiler : Compiler) (query : String) (filter : Document.BoolFilter) :
    Recorded Failure Built := do
  let freeText := searchTextOf compiler query
  let mode := modeFor compiler.settings freeText
  .note [.event (.decided mode),
    .event (.assembling mode filter.must.length filter.mustNot.length freeText.quoted)]
  let document ← assemble compiler.settings mode freeText filter
  .note [.metric (.built mode.label)]
  pure
    { document
      parsed := (readingOf compiler query).parsed?
      mode }

/-- A build compiles the filter of its query, then does the rest. -/
theorem compile_eq {query : String} :
    compile compiler query = (do
      .note [.event (.opened query)]
      let filter ← filterOf compiler (readingOf compiler query)
      finish compiler query filter) := rfl

theorem finish_drops {query : String} {filter : Document.BoolFilter} :
    drops (finish compiler query filter).journal = [] := by
  unfold finish
  dsimp only
  rw [Recorded.note_bind, drops_append, drops_bind_silent fun _ => rfl, assemble_drops]
  rfl

theorem build_drops_filterOf {query : String} :
    drops (compiler.build query).journal =
      drops (filterOf compiler (readingOf compiler query)).journal := by
  change drops ((compile compiler query).journal ++ [.metric .timed]) = _
  rw [drops_append, compile_eq, Recorded.note_bind, drops_append,
    drops_bind_silent fun _ => finish_drops]
  exact List.append_nil _

/-- Where a build can read its dates, so can its filter. -/
theorem filterOf_read {query : String}
    (read : ∀ fault, (compiler.build query).outcome ≠ .error (.date fault)) (fault : DateFault) :
    (filterOf compiler (readingOf compiler query)).outcome ≠ .error (.date fault) := by
  intro failed
  have stopped : filterOf compiler (readingOf compiler query) >>= finish compiler query = _ :=
    Recorded.bind_of_error failed
  apply read fault
  change (compile compiler query).outcome = _
  rw [compile_eq, Recorded.note_bind, stopped]

theorem read_of_ok {query : String} {built : Built}
    (ended : (compiler.build query).outcome = .ok built) (fault : DateFault) :
    (compiler.build query).outcome ≠ .error (.date fault) := by
  intro failed
  rw [ended] at failed
  cases failed

/-- A build that ends with a document has compiled the filter of its query. -/
theorem filterOf_of_ok {query : String} {built : Built}
    (ended : (compiler.build query).outcome = .ok built) :
    ∃ filter, (filterOf compiler (readingOf compiler query)).outcome = .ok filter := by
  change (compile compiler query).outcome = _ at ended
  rw [compile_eq, Recorded.note_bind] at ended
  obtain ⟨filter, compiled, _⟩ := Recorded.bind_ok_iff.mp ended
  exact ⟨filter, compiled⟩

/-- A build writes the reports on what its query mentions, up to the first field whose resolver
fails, and reports nothing else as dropped. -/
theorem build_drops {query : String}
    (read : ∀ fault, (compiler.build query).outcome ≠ .error (.date fault)) :
    drops (compiler.build query).journal = written
      (reportsOn compiler.clock (settled (mentions compiler (readingOf compiler query)))) := by
  rw [build_drops_filterOf]
  exact (filterOf_reports (filterOf_read read)).drops

theorem build_compiles {query : String}
    (read : ∀ fault, (compiler.build query).outcome ≠ .error (.date fault)) {request : Request}
    (member : .declared polarity request ∈ settled (mentions compiler (readingOf compiler query))) :
    ∃ clauses, (fieldClauses compiler.clock polarity request.key request.field
      request.values).outcome = .ok clauses :=
  (filterOf_reports (filterOf_read read)).compiled polarity request member

/-- A build that ends with a document has dealt with all that its query mentions. -/
theorem settled_of_ok {query : String} {built : Built}
    (ended : (compiler.build query).outcome = .ok built) :
    settled (mentions compiler (readingOf compiler query)) =
      mentions compiler (readingOf compiler query) := by
  obtain ⟨filter, compiled⟩ := filterOf_of_ok ended
  have reports := filterOf_reports (filterOf_read (read_of_ok ended))
  exact settled_of_fine (reports.fine filter compiled)

theorem compiles_of_ok {query : String} {built : Built}
    (ended : (compiler.build query).outcome = .ok built) {request : Request}
    (asked : request ∈ requests compiler.settings (side (readingOf compiler query) polarity)) :
    ∃ clauses, (fieldClauses compiler.clock polarity request.key request.field
      request.values).outcome = .ok clauses := by
  apply build_compiles (read_of_ok ended)
  rw [settled_of_ok ended]
  exact mem_mentions.mpr asked

end SearchCompiler.DropReports
