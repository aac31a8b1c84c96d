import SearchCompiler.Proofs.DropReports

/-! The accounts of a build. Its measurements agree with its events, with the calls it makes and
with how it ends: each step of a build leaves a journal whose counts fit together, and counts that
fit stay so when journals are joined. What is dropped is counted against the mentions of the query,
of which a build deals with those before the first field whose resolver fails. -/
namespace SearchCompiler.BuildAccounts
open Build Calendar Query Settings
open BuildSemantics HookProtocol DropReports

/-! ## Counts -/

def severity? (event : Event) : Option Severity := event.notice?.map Prod.fst

/-- Why something is dropped, where an event reports that. -/
def dropReason? : Event → Option DropReason
  | .unknownField _ => some .unknownField
  | .shapeMismatch _ _ => some .shapeMismatch
  | .rangeDropped _ _ _ => some .unparseableRange
  | _ => none

/-- The function that failed, where an event reports that. -/
def failedHook? : Event → Option Hook
  | .resolverFailed _ _ => some .resolver
  | .embedderFailed _ _ => some .embedder
  | _ => none

/-- The function that is called, where it is one that is counted. -/
def calledHook? : Call → Option Hook
  | .decode _ _ => none
  | .resolve _ _ => some .resolver
  | .embed _ => some .embedder

/-- The function whose failure this is. -/
def culprit? : Failure → Option Hook
  | .hook (.resolver _ _) => some .resolver
  | .hook (.embedder _) => some .embedder
  | .date _ => none

/-- The function whose failure ends a build. -/
def blamed? {α : Type} : Except Failure α → Option Hook
  | .ok _ => none
  | .error failure => culprit? failure

def counter (metric : Metric) (journal : List Entry) : Nat := (metrics journal).count metric

def callsTo (hook : Hook) (journal : List Entry) : Nat :=
  (calls journal).countP fun call => calledHook? call == some hook

/-- The warnings that a function failed. -/
def warnings (hook : Hook) (journal : List Entry) : Nat :=
  (events journal).countP fun event =>
    severity? event == some .warning && failedHook? event == some hook

/-- The reports of something dropped for a reason. -/
def notices (reason : DropReason) (journal : List Entry) : Nat :=
  (events journal).countP fun event =>
    severity? event == some .debug && dropReason? event == some reason

/-- Whether a measurement is of the build as a whole. -/
def isFrame : Metric → Bool
  | .built _ | .timed => true
  | _ => false

theorem counter_append (metric : Metric) (first second : List Entry) :
    counter metric (first ++ second) = counter metric first + counter metric second := by
  rw [counter, metrics_append, List.count_append]
  rfl

theorem callsTo_append (hook : Hook) (first second : List Entry) :
    callsTo hook (first ++ second) = callsTo hook first + callsTo hook second := by
  rw [callsTo, calls_append, List.countP_append]
  rfl

theorem warnings_append (hook : Hook) (first second : List Entry) :
    warnings hook (first ++ second) = warnings hook first + warnings hook second := by
  rw [warnings, events_append, List.countP_append]
  rfl

theorem notices_append (reason : DropReason) (first second : List Entry) :
    notices reason (first ++ second) = notices reason first + notices reason second := by
  rw [notices, events_append, List.countP_append]
  rfl

theorem hook_label_injective : Function.Injective Hook.label := by
  intro first second
  cases first <;> cases second <;> decide

/-! ## Journals -/

/-- The counts of a journal fit together: every answer is to a call, the only failure counted is the
one behind the journal, and failures and drops are counted as often as they are reported. -/
structure Accounted (journal : List Entry) (failing : Option Hook) (frame : List Metric) : Prop where
  framed : (metrics journal).filter isFrame = frame
  answered : ∀ hook, counter (.called hook.label true) journal +
    counter (.called hook.label false) journal = callsTo hook journal
  failed : ∀ hook, counter (.called hook.label false) journal = if failing = some hook then 1 else 0
  warned : ∀ hook, warnings hook journal = counter (.called hook.label false) journal
  reported : ∀ reason, counter (.dropped reason.label) journal = notices reason journal

/-- Journals of which at most one is followed by a failure can be joined. -/
theorem Accounted.append {first second : List Entry} {failing other : Option Hook}
    {before behind : List Metric} (account : Accounted first failing before)
    (next : Accounted second other behind) (once : failing = none ∨ other = none) :
    Accounted (first ++ second) (failing.or other) (before ++ behind) where
  framed := by rw [metrics_append, List.filter_append, account.framed, next.framed]
  answered hook := by
    rw [counter_append, counter_append, callsTo_append, ← account.answered, ← next.answered]
    omega
  failed hook := by
    rw [counter_append, account.failed, next.failed]
    rcases once with rfl | rfl
    · exact Nat.zero_add _
    · rw [Option.or_none]
      rfl
  warned hook := by rw [warnings_append, counter_append, account.warned, next.warned]
  reported reason := by rw [counter_append, notices_append, account.reported, next.reported]

theorem accounted_nil : Accounted [] none [] :=
  ⟨rfl, fun _ => rfl, fun _ => rfl, fun _ => rfl, fun _ => rfl⟩

/-- An event that tells of no failure and no drop counts nothing. -/
theorem accounted_event {event : Event} (fine : failedHook? event = none)
    (kept : dropReason? event = none) : Accounted [.event event] none [] where
  framed := rfl
  answered _ := rfl
  failed _ := rfl
  warned hook := by simp [warnings, counter, events, metrics, fine]
  reported reason := by simp [notices, counter, events, metrics, kept]

theorem accounted_frame {metric : Metric} (ofBuild : isFrame metric = true) :
    Accounted [.metric metric] none [metric] := by
  cases metric <;> cases ofBuild <;>
    exact ⟨rfl, fun _ => rfl, fun _ => rfl, fun _ => rfl, fun _ => rfl⟩

/-- What is dropped is reported and counted. -/
theorem accounted_dropped {event : Event} {reason : DropReason}
    (told : severity? event = some .debug) (same : dropReason? event = some reason) :
    Accounted (dropped event reason) none [] where
  framed := rfl
  answered _ := rfl
  failed _ := rfl
  warned hook := by simp [dropped, warnings, counter, events, metrics, told]
  reported other := by
    simp [dropped, notices, counter, events, metrics, told, same, List.count_singleton,
      reason_label_injective.eq_iff]

/-- A call that is answered is counted as a success. -/
theorem accounted_success {call : Call} {hook : Hook} (called : calledHook? call = some hook) :
    Accounted [.call call, .metric (.called hook.label true)] none [] where
  framed := rfl
  answered other := by
    simp [callsTo, counter, calls, metrics, called, List.count_singleton,
      hook_label_injective.eq_iff]
  failed other := by simp [counter, metrics]
  warned other := by simp [counter, warnings, events, metrics]
  reported _ := rfl

/-- A call that fails is counted as a failure and reported. -/
theorem accounted_failure {call : Call} {hook : Hook} {event : Event}
    (called : calledHook? call = some hook) (warns : severity? event = some .warning)
    (same : failedHook? event = some hook) :
    Accounted [.call call, .metric (.called hook.label false), .event event] (some hook) [] where
  framed := rfl
  answered other := by
    simp [callsTo, counter, calls, metrics, called, List.count_singleton,
      hook_label_injective.eq_iff]
  failed other := by simp [counter, metrics, List.count_singleton, hook_label_injective.eq_iff]
  warned other := by
    simp [counter, warnings, events, metrics, warns, same, List.count_singleton,
      hook_label_injective.eq_iff]
  reported reason := by simp [counter, notices, events, metrics, warns]

/-! ## Runs -/

variable {α β : Type}

/-- What is measured of the build as a whole where a run ends with a value. -/
def framed (frame : α → List Metric) : Except Failure α → List Metric
  | .ok value => frame value
  | .error _ => []

/-- The counts of a run fit together, those of its failure included. -/
def Balanced (run : Recorded Failure α) (frame : α → List Metric) : Prop :=
  Accounted run.journal (blamed? run.outcome) (framed frame run.outcome)

/-- A run that measures nothing of the build as a whole. -/
def Level (run : Recorded Failure α) : Prop := Balanced run fun _ => []

theorem Level.bind {first : Recorded Failure α} {next : α → Recorded Failure β}
    {frame : β → List Metric} (level : Level first)
    (goesOn : ∀ value, Balanced (next value) frame) : Balanced (first >>= next) frame := by
  unfold Level Balanced at *
  cases ended : first.outcome with
  | ok value =>
    have joined : first >>= next = _ := Recorded.bind_of_ok ended
    rw [ended] at level
    rw [joined]
    exact level.append (goesOn value) (.inl rfl)
  | error failure =>
    have joined : first >>= next = _ := Recorded.bind_of_error ended
    rw [ended] at level
    rw [joined]
    exact level

theorem level_pure (value : α) : Level (pure value) := accounted_nil

theorem level_note {entries : List Entry} (account : Accounted entries none []) :
    Level (.note entries) := account

/-! ## The steps of a build -/

variable {clock : Instant} {polarity : Polarity} {key : String} {field : Field}
variable {values : FieldValues}

theorem decodedValues_level : Level (decodedValues polarity key field values) := by
  unfold decodedValues
  cases field.decoder with
  | none => exact level_pure values
  | some decode => exact ⟨rfl, fun _ => rfl, fun _ => rfl, fun _ => rfl, fun _ => rfl⟩

theorem termClauses_level {given : List String} :
    Level ((termClauses polarity key field given).rescue fun cause => do
      .note [.event (.resolverFailed key cause)]
      .fail (.hook (.resolver key cause))) := by
  unfold termClauses resolvedValues
  cases field.resolver with
  | none => exact level_pure _
  | some resolve =>
    dsimp only
    cases resolve polarity given with
    | ok found => exact accounted_success rfl
    | error cause => exact accounted_failure rfl rfl rfl

/-- A range whose ends cannot be read ends a build without blaming a function. -/
theorem rangeClauses_level {ends : Endpoints} :
    Level ((rangeClauses clock field ends).rescue fun fault => .fail (.date fault)) := by
  unfold rangeClauses Recorded.ofExcept
  cases DateTerm.resolve clock ends.start.toList with
  | error fault => exact accounted_nil
  | ok first =>
    cases DateTerm.resolve clock ends.stop.toList with
    | error fault => exact accounted_nil
    | ok last =>
      cases first <;> cases last
      case some.some => exact accounted_nil
      all_goals exact accounted_dropped rfl rfl

theorem leafClauses_level : Level (leafClauses clock polarity key field values) := by
  unfold leafClauses
  cases field.kind <;> cases values
  case term.list given => exact termClauses_level
  case text.list given => exact level_pure _
  case range.range ends => exact rangeClauses_level
  all_goals exact accounted_dropped rfl rfl

theorem fieldClauses_level (request : Request) :
    Level (fieldClauses clock polarity request.key request.field request.values) :=
  decodedValues_level.bind fun _ => leafClauses_level.bind fun _ => level_pure _

theorem clausesOf_level (asked : List Request) : Level (clausesOf clock polarity asked) := by
  induction asked with
  | nil => exact level_pure _
  | cons request rest ih =>
    exact (fieldClauses_level request).bind fun first => ih.bind fun others => level_pure _

variable {compiler : Compiler}

theorem groupClauses_level (group : TokenGroup) : Level (groupClauses compiler polarity group) := by
  have unknown (keys : List String) : Accounted
      (keys.flatMap fun key => dropped (.unknownField key) .unknownField) none [] := by
    induction keys with
    | nil => exact accounted_nil
    | cons key rest ih => exact (accounted_dropped rfl rfl).append ih (.inl rfl)
  exact (level_note (unknown _)).bind fun _ => clausesOf_level _

theorem filterOf_level (reading : Reading) : Level (filterOf compiler reading) := by
  unfold filterOf
  cases reading with
  | bare text => exact level_pure _
  | structured parsed =>
    refine (groupClauses_level parsed.included).bind fun included => ?_
    exact (groupClauses_level parsed.excluded).bind fun excluded => level_pure _

theorem nearestQuery_level {search : VectorSearch} {embedder : Embedder} {text : String}
    {filter : Document.BoolFilter} : Level (nearestQuery search embedder text filter) := by
  unfold nearestQuery
  cases embedder text with
  | ok vector => exact accounted_success rfl
  | error cause => exact accounted_failure rfl rfl rfl

theorem assemble_level {settings : Entity} {freeText : FreeText} {filter : Document.BoolFilter} :
    Level (assemble settings (modeFor settings freeText) freeText filter) := by
  obtain plain | ⟨search, embedder, searching⟩ := keyword_or_searching settings freeText
  · rw [plain, assemble_keyword]
    exact level_pure _
  · rw [searching.assemble]
    exact nearestQuery_level.bind fun nearest => level_pure _

/-- A build is counted under the mode of its document, where it ends with one. -/
theorem compile_balanced (query : String) :
    Balanced (compile compiler query) fun built => [.built built.mode.label] := by
  refine (level_note (accounted_event rfl rfl)).bind fun _ => ?_
  refine (filterOf_level _).bind fun filter => ?_
  have decided (mode : Mode) : Accounted [.event (.decided mode)] none [] := accounted_event rfl rfl
  refine (level_note ((decided _).append (accounted_event rfl rfl) (.inl rfl))).bind fun _ => ?_
  refine assemble_level.bind fun document => ?_
  generalize modeFor compiler.settings _ = mode
  exact accounted_frame rfl

/-! ## Unknown fields -/

/-- How many names of a group are not declared. -/
def undeclared (settings : Entity) (group : TokenGroup) : Nat :=
  (group.keywords.names ++ group.ranges.names).countP fun key =>
    !settings.fields.names.contains key

theorem unknownFields_length (settings : Entity) (group : TokenGroup) :
    (unknownFields settings group).length = undeclared settings group :=
  List.countP_eq_length_filter.symm

/-- The names that are reported as unknown are those that are not declared. -/
theorem count_unknown (reading : Reading) (polarity : Polarity) :
    (reportsOn clock (sideMentions compiler reading polarity)).countP
      (fun report => report.reason == .unknownField) =
        undeclared compiler.settings (side reading polarity) := by
  have known : ∀ report ∈ reportsOn clock
      ((requests compiler.settings (side reading polarity)).map (.declared polarity)),
      ¬ (report.reason == .unknownField) = true := by
    intro report member
    obtain ⟨mention, mentioned, found⟩ := List.mem_filterMap.mp member
    obtain ⟨request, _, rfl⟩ := List.mem_map.mp mentioned
    rw [beq_iff_eq]
    exact valuesReport?_reason found
  have unknown (keys : List String) : (reportsOn clock (keys.map .undeclared)).countP
      (fun report => report.reason == .unknownField) = keys.length := by
    rw [reportsOn_undeclared, List.countP_map, List.countP_eq_length]
    exact fun _ _ => rfl
  rw [sideMentions, reportsOn_append, List.countP_append, unknown, unknownFields_length,
    List.countP_eq_zero.mpr known, Nat.add_zero]

/-! ## Ranges -/

/-- What becomes of the range of a field. -/
inductive Fate where
  | emitted
  | unparseable
  | mismatched

/-- A range field compiles to one range and nothing is reported of it, or it compiles to nothing and
is reported for one of two reasons. -/
def Meets (clock : Instant) (polarity : Polarity) (request : Request) : Fate → Prop
  | .emitted => (∃ first last, (fieldClauses clock polarity request.key request.field
      request.values).outcome = .ok [.range request.field.indexField first last]) ∧
      (Mention.declared polarity request).report? clock = none
  | .unparseable => (fieldClauses clock polarity request.key request.field
      request.values).outcome = .ok [] ∧
      ∃ ends : Endpoints, (Mention.declared polarity request).report? clock =
        some ⟨.rangeDropped request.field.indexField ends.start ends.stop, .unparseableRange⟩
  | .mismatched => (fieldClauses clock polarity request.key request.field
      request.values).outcome = .ok [] ∧
      (Mention.declared polarity request).report? clock =
        some ⟨.shapeMismatch request.key .range, .shapeMismatch⟩

/-- The reason that a range is dropped for, where it is. -/
def Fate.reason? : Fate → Option DropReason
  | .emitted => none
  | .unparseable => some .unparseableRange
  | .mismatched => some .shapeMismatch

theorem Meets.reason? {request : Request} {fate : Fate} (meets : Meets clock polarity request fate) :
    ((Mention.declared polarity request).report? clock).map Report.reason = fate.reason? := by
  cases fate with
  | emitted => rw [meets.2]; rfl
  | unparseable =>
    obtain ⟨_, ends, reported⟩ := meets
    rw [reported]
    rfl
  | mismatched => rw [meets.2]; rfl

theorem combine_nil (connect : Connect) : combine connect [] = [] := by
  cases connect <;> rfl

theorem combine_singleton (connect : Connect) (clause : Document.Clause) :
    combine connect [clause] = [clause] := by
  cases connect <;> rfl

/-- A range that compiles has its fate, and no other. -/
theorem range_meets {request : Request} {clauses : List Document.Clause}
    (kind : request.field.kind = .range)
    (compiles : (fieldClauses clock polarity request.key request.field request.values).outcome =
      .ok clauses) : ∃! fate, Meets clock polarity request fate := by
  have only {fate other : Fate} (meets : Meets clock polarity request fate)
      (also : Meets clock polarity request other) : other = fate := by
    have reasons := meets.reason?.symm.trans also.reason?
    cases fate <;> cases other <;> cases reasons <;> rfl
  suffices found : ∃ fate, Meets clock polarity request fate by
    obtain ⟨fate, meets⟩ := found
    exact ⟨fate, meets, fun other also => only meets also⟩
  have combined := fieldClauses_ok compiles
  cases given : decoded polarity request.field request.values with
  | list values =>
    rw [leaves, kind, given] at combined
    rw [combined.trans (combine_nil _)] at compiles
    refine ⟨.mismatched, compiles, ?_⟩
    rw [Mention.report?, given, valuesReport?, kind]
  | range ends =>
    -- no end is unreadable, so what is left is whether both mean a date
    obtain ⟨first, last, start, stop⟩ := ends_read kind given compiles
    have reported : (Mention.declared polarity request).report? clock = valuesReport? clock
        request.key request.field (.range ends) := by rw [Mention.report?, given]
    rw [valuesReport?, kind] at reported
    rw [leaves, kind, given] at combined
    dsimp only at combined reported
    rw [start, stop] at combined reported
    cases first with
    | none =>
      rw [combined.trans (combine_nil _)] at compiles
      exact ⟨.unparseable, compiles, ends, reported⟩
    | some first =>
      cases last with
      | none =>
        rw [combined.trans (combine_nil _)] at compiles
        exact ⟨.unparseable, compiles, ends, reported⟩
      | some last =>
        rw [combined.trans (combine_singleton _ _)] at compiles
        exact ⟨.emitted, ⟨_, _, compiles⟩, reported⟩

/-! ## Builds -/

/-- The clauses that the fields of one side compile to, in order. -/
def compiledSide (compiler : Compiler) (reading : Reading) (polarity : Polarity) :
    List Document.Clause :=
  (requests compiler.settings (side reading polarity)).flatMap fun request =>
    match (fieldClauses compiler.clock polarity request.key request.field request.values).outcome with
    | .ok clauses => clauses
    | .error _ => []

/-- The accounts of one build. -/
structure Accounts (compiler : Compiler) (query : String) : Prop where
  /-- The time is taken once. -/
  timed : counter .timed (compiler.build query).journal = 1
  /-- A build is counted once, under the mode of its document, where it ends with one. -/
  counted : ∀ label, counter (.built label) (compiler.build query).journal =
    match (compiler.build query).outcome with
    | .ok built => if built.mode.label = label then 1 else 0
    | .error _ => 0
  /-- Every call of a resolver or the embedder is counted as a success or as a failure. -/
  answered : ∀ hook, counter (.called hook.label true) (compiler.build query).journal +
    counter (.called hook.label false) (compiler.build query).journal =
      callsTo hook (compiler.build query).journal
  /-- A failure is counted where it ends the build, and nowhere else. -/
  failed : ∀ hook, counter (.called hook.label false) (compiler.build query).journal =
    if blamed? (compiler.build query).outcome = some hook then 1 else 0
  /-- A failure that is counted is warned of. -/
  warned : ∀ hook, warnings hook (compiler.build query).journal =
    counter (.called hook.label false) (compiler.build query).journal
  /-- What is counted as dropped is reported. -/
  reported : ∀ reason, counter (.dropped reason.label) (compiler.build query).journal =
    notices reason (compiler.build query).journal
  /-- Behind a document, every name that is not declared has been counted. -/
  unknown : ∀ built, (compiler.build query).outcome = .ok built →
    counter (.dropped DropReason.unknownField.label) (compiler.build query).journal =
      undeclared compiler.settings (side (readingOf compiler query) .included) +
        undeclared compiler.settings (side (readingOf compiler query) .excluded)
  /-- The reports are those on what the query mentions before the first field whose resolver
  fails. -/
  drops : drops (compiler.build query).journal = written
    (reportsOn compiler.clock (settled (mentions compiler (readingOf compiler query))))
  /-- Each range field among these compiles to one range or is counted for one reason. -/
  ranges : ∀ polarity request,
    .declared polarity request ∈ settled (mentions compiler (readingOf compiler query)) →
    request.field.kind = .range → ∃! fate, Meets compiler.clock polarity request fate
  /-- Behind a document these are all that the query mentions, and the document is assembled from
  what they compile to. -/
  whole : ∀ built, (compiler.build query).outcome = .ok built →
    settled (mentions compiler (readingOf compiler query)) =
        mentions compiler (readingOf compiler query) ∧
      Assembled compiler.settings (searchTextOf compiler query)
        ⟨requiredClauses compiler.settings ++
            compiledSide compiler (readingOf compiler query) .included,
          compiledSide compiler (readingOf compiler query) .excluded⟩ built.mode built.document

theorem build_accounted (query : String) :
    Accounted (compiler.build query).journal (blamed? (compiler.build query).outcome)
      (framed (fun built => [.built built.mode.label]) (compiler.build query).outcome ++
        [.timed]) := by
  have compiled : Balanced (compile compiler query) _ := compile_balanced query
  have timed : Accounted [.metric .timed] none [.timed] := accounted_frame rfl
  have account := compiled.append timed (.inr rfl)
  rw [Option.or_none] at account
  exact account

/-- A measurement of the build as a whole is counted in its frame. -/
theorem Accounted.counter_frame {journal : List Entry} {failing : Option Hook} {frame : List Metric}
    (account : Accounted journal failing frame) {metric : Metric} (ofBuild : isFrame metric = true) :
    counter metric journal = frame.count metric := by
  rw [counter, ← account.framed, List.count_filter ofBuild]

theorem sideClauses_compiled {query : String} {built : Built}
    (ended : (compiler.build query).outcome = .ok built) (polarity : Polarity) :
    sideClauses compiler (readingOf compiler query) polarity =
      compiledSide compiler (readingOf compiler query) polarity := by
  refine congrArg List.flatten (List.map_congr_left fun request asked => ?_)
  obtain ⟨clauses, compiles⟩ := compiles_of_ok ended asked
  rw [compiles]
  exact (fieldClauses_ok compiles).symm

/-- **Measurements, events and outcome agree.** The accounts of a build hold whatever its query, its
tokenizer and its attached functions, as long as no date term cuts it short. -/
theorem build_accounts {query : String}
    (read : ∀ fault, (compiler.build query).outcome ≠ .error (.date fault)) :
    Accounts compiler query where
  timed := by
    rw [(build_accounted query).counter_frame rfl]
    cases (compiler.build query).outcome <;> simp [framed]
  counted label := by
    rw [(build_accounted query).counter_frame rfl]
    cases (compiler.build query).outcome <;> simp [framed, List.count_cons]
  answered := (build_accounted query).answered
  failed := (build_accounted query).failed
  warned := (build_accounted query).warned
  reported := (build_accounted query).reported
  unknown built ended := by
    have reported := build_drops (read_of_ok ended)
    rw [settled_of_ok ended] at reported
    rw [counter, count_dropped .unknownField reported, mentions, reportsOn_append, List.countP_append,
      count_unknown, count_unknown]
  drops := build_drops read
  ranges polarity request member kind := by
    obtain ⟨clauses, compiles⟩ := build_compiles read member
    exact range_meets kind compiles
  whole built ended := by
    refine ⟨settled_of_ok ended, ?_⟩
    obtain ⟨_, _, _, assembled⟩ := build_ok_iff.mp ended
    rw [plainFilter, sideClauses_compiled ended, sideClauses_compiled ended] at assembled
    exact assembled

theorem shop_accounts :
    (∀ fault, (shop.build "cola").outcome ≠ .error (.date fault)) ∧ Accounts shop "cola" ∧
      counter (.built "hybrid") (shop.build "cola").journal = 1 := by
  have read := read_of_ok shop_build
  have accounts := build_accounts read
  refine ⟨read, accounts, ?_⟩
  rw [accounts.counted, shop_build]
  rfl

/-! ## An archive -/

/-- Papers that are found by their tags, of which none is known, and by their dates. -/
def archive : Compiler where
  settings :=
    { fields :=
        ⟨[("tag",
            { kind := .term, indexField := "tags", resolver := some fun _ _ => .error "unknown" }),
          ("date", { kind := .range, indexField := "created" })], by simp⟩
      phraseFields := ["title"] }
  usable := by
    have typeable : ["tag", "date"].findSome? keyError? = none := by decide +kernel
    exact Option.or_eq_none_iff.mpr ⟨typeable, rfl⟩
  clock := .ofSeconds 0

/-- A date that is none. -/
def never : Request where
  key := "date"
  field := { kind := .range, indexField := "created" }
  values := .range ⟨"never", ""⟩

/-- The tag stops the build before its date is dealt with: the date is asked for, but it stands for
no range, and is not counted as dropped for either reason. -/
theorem archive_leaves_date :
    never ∈ requests archive.settings (side (readingOf archive "tag:red date:never") .included) ∧
      (archive.build "tag:red date:never").outcome = .error (.hook (.resolver "tag" "unknown")) ∧
      (fieldClauses archive.clock .included never.key never.field never.values).outcome = .ok [] ∧
      counter (.dropped DropReason.unparseableRange.label)
        (archive.build "tag:red date:never").journal = 0 ∧
      counter (.dropped DropReason.shapeMismatch.label)
        (archive.build "tag:red date:never").journal = 0 := by
  have asked : (side (readingOf archive "tag:red date:never") .included).values? "date" =
      some (.range ⟨"never", ""⟩) := by decide +kernel
  have declared : (never.key, never.field) ∈ archive.settings.fields.entries :=
    List.mem_cons_of_mem _ (List.mem_singleton_self _)
  exact ⟨mem_requests.mpr ⟨declared, asked⟩, rfl, rfl, rfl, rfl⟩

end SearchCompiler.BuildAccounts
