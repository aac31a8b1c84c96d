import SearchCompiler.Proofs.BuildSemantics

/-! Which attached functions a build calls, with what, and how a call ends it. The plan of a build
is written down from the settings and the query as it was read, with the answer that each call gets;
a build makes the calls of its plan up to the first that fails, and fails exactly then. -/
namespace SearchCompiler.HookProtocol
open Build Calendar Query Settings
open BuildSemantics

/-! ## Plans -/

/-- A call to be made, and the failure of the build where its answer is one. -/
structure Planned where
  call : Call
  failure : Option HookError

/-- The calls made of a plan: all up to the first that fails, and that one. -/
def made : List Planned → List Planned
  | [] => []
  | step :: rest => if step.failure.isSome then [step] else step :: made rest

/-- The failure that an answer is, named for the function that gave it. -/
def failureOf {α : Type} (blame : String → HookError) : Except String α → Option HookError
  | .ok _ => none
  | .error cause => some (blame cause)

/-- A decoder is given the values of its field and does not fail. -/
def decodeCall? (key : String) (field : Field) (values : FieldValues) : Option Planned :=
  field.decoder.map fun _ => ⟨.decode key values, none⟩

/-- The resolver of a term field is given a list of values; no other field and no range is
resolved. -/
def resolveCall? (polarity : Polarity) (key : String) (field : Field) (values : FieldValues) :
    Option Planned :=
  match field.kind, values, field.resolver with
  | .term, .list given, some resolve =>
    some ⟨.resolve key given, failureOf (.resolver key) (resolve polarity given)⟩
  | _, _, _ => none

/-- The embedder is given free text that is there and not quoted. -/
def embedCall? (settings : Entity) (freeText : FreeText) : Option Planned :=
  match vectorSearch? settings, freeText.isPresent, freeText.quoted with
  | some (_, embedder), true, false =>
    some ⟨.embed freeText.text, failureOf .embedder (embedder freeText.text)⟩
  | _, _, _ => none

/-- A field is decoded, and what it is decoded to resolved. -/
def fieldPlan (polarity : Polarity) (request : Request) : List Planned :=
  (decodeCall? request.key request.field request.values).toList ++
    (resolveCall? polarity request.key request.field
      (decoded polarity request.field request.values)).toList

/-- One side of a query, field by field in the order of declaration. -/
def sidePlan (compiler : Compiler) (reading : Reading) (polarity : Polarity) : List Planned :=
  (requests compiler.settings (side reading polarity)).flatMap (fieldPlan polarity)

/-- What is asked for, then what is excluded. -/
def fieldsPlan (compiler : Compiler) (reading : Reading) : List Planned :=
  sidePlan compiler reading .included ++ sidePlan compiler reading .excluded

/-- The fields of the query, then its free text. -/
def plan (compiler : Compiler) (query : String) : List Planned :=
  fieldsPlan compiler (readingOf compiler query) ++
    (embedCall? compiler.settings (searchTextOf compiler query)).toList

theorem made_append {first rest : List Planned} (fine : first.findSome? Planned.failure = none) :
    made (first ++ rest) = first ++ made rest := by
  induction first with
  | nil => rfl
  | cons step others ih =>
    have passes : step.failure = none := List.findSome?_eq_none_iff.mp fine step List.mem_cons_self
    rw [List.findSome?_cons, passes] at fine
    rw [List.cons_append, made, passes, ih fine]
    rfl

/-- Where no call fails, all are made. -/
theorem made_of_fine {steps : List Planned} (fine : steps.findSome? Planned.failure = none) :
    made steps = steps := by
  have all : made (steps ++ []) = steps ++ made [] := made_append fine
  rwa [List.append_nil, made, List.append_nil] at all

/-- Behind a call that fails, none is made. -/
theorem made_append_of_failed {first rest : List Planned} {error : HookError}
    (failed : first.findSome? Planned.failure = some error) :
    made (first ++ rest) = made first := by
  induction first with
  | nil => cases failed
  | cons step others ih =>
    rw [List.cons_append, made, made]
    cases answer : step.failure with
    | some cause => rfl
    | none =>
      rw [List.findSome?_cons, answer] at failed
      rw [ih failed]

/-- The first failure of a plan is that of the last call made. -/
theorem failed_iff_last_made {steps : List Planned} {error : HookError} :
    steps.findSome? Planned.failure = some error ↔
      ∃ last, (made steps).getLast? = some last ∧ last.failure = some error := by
  induction steps with
  | nil => simp [made]
  | cons step rest ih =>
    cases answer : step.failure with
    | some cause => simp [made, answer]
    | none =>
      rw [List.findSome?_cons, answer, ih, made, answer]
      cases others : made rest with
      | nil => simp [answer]
      | cons second more => simp [List.getLast?_cons_cons]

/-! ## Runs -/

/-- A run makes the calls of a plan up to the first that fails, and ends with that failure, where
there is one. -/
structure CarriesOut {α : Type} (run : Recorded Failure α) (steps : List Planned) : Prop where
  calls : calls run.journal = (made steps).map Planned.call
  failed : ∀ error, run.outcome = .error (.hook error) ↔
    steps.findSome? Planned.failure = some error

/-- A run carries out a plan unless it meets a date term that cannot be read to its end. -/
def Follows {α : Type} (run : Recorded Failure α) (steps : List Planned) : Prop :=
  (∀ fault, run.outcome ≠ .error (.date fault)) → CarriesOut run steps

variable {α β : Type}

theorem CarriesOut.fine {run : Recorded Failure α} {steps : List Planned} {value : α}
    (carried : CarriesOut run steps) (ended : run.outcome = .ok value) :
    steps.findSome? Planned.failure = none := by
  cases stop : steps.findSome? Planned.failure with
  | none => rfl
  | some error =>
    have failed := (carried.failed error).mpr stop
    rw [ended] at failed
    cases failed

/-- A run that makes no call and blames none follows the empty plan. -/
theorem follows_nil {run : Recorded Failure α} (silent : calls run.journal = [])
    (blameless : ∀ error, run.outcome ≠ .error (.hook error)) : Follows run [] := by
  intro _
  refine ⟨silent, fun error => ?_⟩
  constructor
  · intro failed
    exact absurd failed (blameless error)
  · intro planned
    cases planned

theorem follows_pure (value : α) : Follows (pure value) [] :=
  follows_nil rfl fun _ failed => by cases failed

theorem follows_note {entries : List Entry} (silent : calls entries = []) :
    Follows (.note entries) [] :=
  follows_nil silent fun _ failed => by cases failed

theorem follows_answered {run : Recorded Failure α} {call : Call} {value : α}
    (called : calls run.journal = [call]) (ended : run.outcome = .ok value) :
    Follows run [⟨call, none⟩] := by
  intro _
  refine ⟨called, fun error => ?_⟩
  rw [ended]
  constructor
  · intro failed
    cases failed
  · intro planned
    cases planned

theorem follows_failed {run : Recorded Failure α} {call : Call} {error : HookError}
    (called : calls run.journal = [call]) (ended : run.outcome = .error (.hook error)) :
    Follows run [⟨call, some error⟩] := by
  intro _
  refine ⟨called, fun other => ?_⟩
  rw [ended]
  constructor
  · intro failed
    cases failed
    rfl
  · intro planned
    cases planned
    rfl

/-- Plans are carried out one after the other as long as none fails. -/
theorem Follows.bind {first : Recorded Failure α} {next : α → Recorded Failure β}
    {steps rest : List Planned} (follows : Follows first steps)
    (goesOn : ∀ value, first.outcome = .ok value → Follows (next value) rest) :
    Follows (first >>= next) (steps ++ rest) := by
  intro read
  cases ended : first.outcome with
  | ok value =>
    have joined : first >>= next = _ := Recorded.bind_of_ok ended
    rw [joined] at read ⊢
    have before := follows fun fault failed => by rw [ended] at failed; cases failed
    have behind := goesOn value ended read
    have fine := before.fine ended
    refine ⟨?_, fun error => ?_⟩
    · rw [calls_append, before.calls, behind.calls, made_append fine, made_of_fine fine,
        List.map_append]
    · rw [List.findSome?_append, fine, Option.none_or]
      exact behind.failed error
  | error failure =>
    have joined : first >>= next = _ := Recorded.bind_of_error ended
    rw [joined] at read ⊢
    cases failure with
    | date fault => exact absurd rfl (read fault)
    | hook error =>
      have before := follows fun fault failed => by rw [ended] at failed; cases failed
      have stop := (before.failed error).mp ended
      refine ⟨?_, fun other => ?_⟩
      · rw [made_append_of_failed stop]
        exact before.calls
      · rw [List.findSome?_append, stop, Option.some_or]
        simp

theorem Follows.then_silent {first : Recorded Failure α} {next : α → Recorded Failure β}
    {steps : List Planned} (follows : Follows first steps)
    (silent : ∀ value, Follows (next value) []) : Follows (first >>= next) steps := by
  rw [← List.append_nil steps]
  exact follows.bind fun value _ => silent value

/-! ## The steps of a build -/

variable {clock : Instant} {polarity : Polarity} {key : String} {field : Field}
variable {values : FieldValues}

theorem calls_dropped (event : Event) (reason : DropReason) : calls (dropped event reason) = [] := rfl

theorem decodedValues_follows :
    Follows (decodedValues polarity key field values) (decodeCall? key field values).toList := by
  unfold decodedValues decodeCall?
  cases field.decoder with
  | none => exact follows_pure values
  | some decode => exact follows_answered rfl rfl

/-- A term field blames its resolver for an answer that is none. -/
theorem termClauses_follows {given : List String} (kind : field.kind = .term) :
    Follows
      ((termClauses polarity key field given).rescue fun cause => do
        .note [.event (.resolverFailed key cause)]
        .fail (.hook (.resolver key cause)))
      (resolveCall? polarity key field (.list given)).toList := by
  unfold termClauses resolvedValues resolveCall?
  rw [kind]
  cases field.resolver with
  | none => exact follows_pure _
  | some resolve =>
    dsimp only [Option.toList]
    cases answer : resolve polarity given with
    | ok found => exact follows_answered rfl rfl
    | error cause => exact follows_failed rfl rfl

/-- A range field calls nothing, whatever becomes of its ends. -/
theorem rangeClauses_follows {ends : Endpoints} :
    Follows ((rangeClauses clock field ends).rescue fun fault => .fail (.date fault)) [] := by
  unfold rangeClauses Recorded.ofExcept
  cases DateTerm.resolve clock ends.start.toList with
  | error fault => exact follows_nil rfl fun _ failed => by cases failed
  | ok start =>
    cases DateTerm.resolve clock ends.stop.toList with
    | error fault => exact follows_nil rfl fun _ failed => by cases failed
    | ok stop =>
      cases start <;> cases stop <;> exact follows_nil rfl fun _ failed => by cases failed

theorem leafClauses_follows :
    Follows (leafClauses clock polarity key field values)
      (resolveCall? polarity key field values).toList := by
  unfold leafClauses
  cases kind : field.kind <;> cases values
  case term.list given => exact termClauses_follows kind
  case range.range ends =>
    unfold resolveCall?
    rw [kind]
    exact rangeClauses_follows
  all_goals
    unfold resolveCall?
    rw [kind]
    exact follows_nil rfl fun _ failed => by cases failed

theorem fieldClauses_follows (request : Request) :
    Follows (fieldClauses clock polarity request.key request.field request.values)
      (fieldPlan polarity request) := by
  refine decodedValues_follows.bind fun given decodes => ?_
  rw [decodedValues_outcome] at decodes
  cases decodes
  exact leafClauses_follows.then_silent fun found => follows_pure _

/-- Fields are compiled in the order asked, and none behind one that failed. -/
theorem clausesOf_follows (asked : List Request) :
    Follows (clausesOf clock polarity asked) (asked.flatMap (fieldPlan polarity)) := by
  induction asked with
  | nil => exact follows_pure _
  | cons request rest ih =>
    rw [List.flatMap_cons]
    refine (fieldClauses_follows request).bind fun first _ => ?_
    exact ih.then_silent fun others => follows_pure _

variable {compiler : Compiler} {reading : Reading}

theorem groupClauses_follows (reading : Reading) (polarity : Polarity) :
    Follows (groupClauses compiler polarity (side reading polarity))
      (sidePlan compiler reading polarity) := by
  have silent (unknown : List String) :
      calls (unknown.flatMap fun key => dropped (.unknownField key) .unknownField) = [] := by
    induction unknown with
    | nil => rfl
    | cons key rest ih => rw [List.flatMap_cons, calls_append, calls_dropped, ih]; rfl
  exact (follows_note (silent _)).bind fun _ _ => clausesOf_follows _

theorem sidePlan_bare {text : String} : sidePlan compiler (.bare text) polarity = [] := by
  rw [sidePlan, side, requests_empty]
  rfl

/-- What is asked for is compiled before what is excluded. -/
theorem filterOf_follows :
    Follows (filterOf compiler reading) (fieldsPlan compiler reading) := by
  unfold fieldsPlan
  cases reading with
  | bare text =>
    rw [sidePlan_bare, sidePlan_bare]
    exact follows_pure _
  | structured parsed =>
    refine (groupClauses_follows (.structured parsed) .included).bind fun included _ => ?_
    refine (groupClauses_follows (.structured parsed) .excluded).then_silent fun excluded => ?_
    exact follows_pure _

variable {settings : Entity} {freeText : FreeText} {filter : Document.BoolFilter}

theorem nearestQuery_follows {search : VectorSearch} {embedder : Embedder} {text : String} :
    Follows (nearestQuery search embedder text filter)
      [⟨.embed text, failureOf .embedder (embedder text)⟩] := by
  unfold nearestQuery
  cases embedder text with
  | ok vector => exact follows_answered rfl rfl
  | error cause => exact follows_failed rfl rfl

/-- The embedder is called for exactly the free text that a vector search is made for. -/
theorem embedCall?_eq_some_iff {step : Planned} :
    embedCall? settings freeText = some step ↔
      ∃ search embedder, Searching settings freeText search embedder ∧
        step = ⟨.embed freeText.text, failureOf .embedder (embedder freeText.text)⟩ := by
  constructor
  · intro planned
    unfold embedCall? at planned
    split at planned
    · rename_i search embedder found present unquoted
      cases planned
      exact ⟨search, embedder, ⟨found, present, unquoted⟩, rfl⟩
    · cases planned
  · rintro ⟨search, embedder, searching, rfl⟩
    rw [embedCall?, searching.found, searching.present, searching.unquoted]

theorem assemble_follows :
    Follows (assemble settings (modeFor settings freeText) freeText filter)
      (embedCall? settings freeText).toList := by
  obtain plain | ⟨search, embedder, searching⟩ := keyword_or_searching settings freeText
  · have unasked : embedCall? settings freeText = none := by
      refine Option.eq_none_iff_forall_ne_some.mpr fun step planned => ?_
      obtain ⟨_, _, searching, _⟩ := embedCall?_eq_some_iff.mp planned
      exact searching.not_keyword plain
    rw [plain, assemble_keyword, unasked]
    exact follows_pure _
  · rw [searching.assemble, embedCall?_eq_some_iff.mpr ⟨search, embedder, searching, rfl⟩]
    exact nearestQuery_follows.then_silent fun nearest => follows_pure _

/-- A build follows its plan. -/
theorem build_follows {query : String} : Follows (compiler.build query) (plan compiler query) := by
  have compiled : Follows (compile compiler query) (plan compiler query) := by
    refine (follows_note rfl).bind fun _ _ => ?_
    refine filterOf_follows.bind fun filter _ => ?_
    refine (follows_note rfl).bind fun _ _ => ?_
    refine assemble_follows.then_silent fun document => ?_
    exact (follows_note rfl).then_silent fun _ => follows_pure _
  intro read
  obtain ⟨called, failed⟩ := compiled read
  refine ⟨?_, failed⟩
  change calls ((compile compiler query).journal ++ [.metric .timed]) = _
  rw [calls_append, called]
  exact List.append_nil _

/-- A build that ends with a document has made all the calls of its plan. -/
theorem calls_of_ok {query : String} {built : Built}
    (ended : (compiler.build query).outcome = .ok built) :
    calls (compiler.build query).journal = (plan compiler query).map Planned.call := by
  have carried : CarriesOut (compiler.build query) (plan compiler query) := by
    refine build_follows fun fault failed => ?_
    rw [ended] at failed
    cases failed
  rw [carried.calls, made_of_fine (carried.fine ended)]

/-! ## The protocol -/

/-- The failure names the function that was called, the field it belongs to, and its answer. -/
def Blames (compiler : Compiler) (error : HookError) : Call → Prop
  | .decode _ _ => False
  | .resolve key values => ∃ field resolve polarity cause,
      (key, field) ∈ compiler.settings.fields.entries ∧ field.resolver = some resolve ∧
      resolve polarity values = .error cause ∧ error = .resolver key cause
  | .embed text => ∃ search embedder cause,
      vectorSearch? compiler.settings = some (search, embedder) ∧
      embedder text = .error cause ∧ error = .embedder cause

theorem failureOf_eq_some_iff {blame : String → HookError} {answer : Except String α}
    {error : HookError} :
    failureOf blame answer = some error ↔ ∃ cause, answer = .error cause ∧ error = blame cause := by
  cases answer <;> simp [failureOf, eq_comm]

theorem mem_fieldsPlan {step : Planned} :
    step ∈ fieldsPlan compiler reading ↔ ∃ polarity, step ∈ sidePlan compiler reading polarity := by
  rw [fieldsPlan, List.mem_append]
  constructor
  · rintro (asked | refused)
    · exact ⟨.included, asked⟩
    · exact ⟨.excluded, refused⟩
  · rintro ⟨_ | _, member⟩
    · exact .inl member
    · exact .inr member

/-- Fields plan only their own decoders and resolvers. -/
theorem fieldsPlan_shape {step : Planned} (member : step ∈ fieldsPlan compiler reading) :
    (∃ key values, step = ⟨.decode key values, none⟩) ∨
      ∃ key field resolve polarity given, (key, field) ∈ compiler.settings.fields.entries ∧
        field.resolver = some resolve ∧
        step = ⟨.resolve key given, failureOf (.resolver key) (resolve polarity given)⟩ := by
  obtain ⟨polarity, member⟩ := mem_fieldsPlan.mp member
  obtain ⟨request, asked, member⟩ := List.mem_flatMap.mp member
  have declared := (mem_requests.mp asked).1
  rcases List.mem_append.mp member with decodes | resolves
  · obtain ⟨_, _, rfl⟩ := Option.map_eq_some_iff.mp (Option.mem_toList.mp decodes)
    exact .inl ⟨_, _, rfl⟩
  · have planned := Option.mem_toList.mp resolves
    unfold resolveCall? at planned
    split at planned
    · rename_i given resolve _ _ attached
      cases planned
      exact .inr ⟨_, _, _, _, _, declared, attached, rfl⟩
    · cases planned

theorem plan_blames {query : String} {step : Planned} {error : HookError}
    (member : step ∈ plan compiler query) (failed : step.failure = some error) :
    Blames compiler error step.call := by
  rcases List.mem_append.mp member with asked | embeds
  · obtain ⟨key, values, rfl⟩ | ⟨key, field, resolve, polarity, given, declared, attached, rfl⟩ :=
      fieldsPlan_shape asked
    · cases failed
    · obtain ⟨cause, answer, same⟩ := failureOf_eq_some_iff.mp failed
      exact ⟨field, resolve, polarity, cause, declared, attached, answer, same⟩
  · obtain ⟨search, embedder, searching, rfl⟩ :=
      embedCall?_eq_some_iff.mp (Option.mem_toList.mp embeds)
    obtain ⟨cause, answer, same⟩ := failureOf_eq_some_iff.mp failed
    exact ⟨search, embedder, cause, searching.found, answer, same⟩

theorem made_subset {steps : List Planned} : made steps ⊆ steps := by
  induction steps with
  | nil => exact List.Subset.refl _
  | cons step rest ih =>
    rw [made]
    split
    · exact List.cons_subset_cons _ (List.nil_subset _)
    · exact List.cons_subset_cons _ ih

/-- Settings that can be used have an embedder wherever vector search is set up. -/
theorem vectorSearch?_isSome (compiler : Compiler) :
    (vectorSearch? compiler.settings).isSome = compiler.settings.vectorSearch.isSome := by
  cases setUp : compiler.settings.vectorSearch with
  | none => simp [vectorSearch?, setUp]
  | some search =>
    have accepted := (Option.or_eq_none_iff.mp compiler.usable).2
    rw [setUp] at accepted
    cases attached : search.embedder with
    | none => simp [VectorSearch.error?, attached] at accepted
    | some embedder => simp [vectorSearch?, setUp, attached]

theorem searchTextOf_quoted {query : String} :
    (searchTextOf compiler query).quoted = false ↔ phrases query.toList = [] := by
  unfold searchTextOf FreeText.ofQuery
  cases found : phrases query.toList with
  | nil => cases readingOf compiler query <;> simp
  | cons phrase rest => simp

/-- The embedder is planned for where vector search is set up, nothing is quoted and there is free
text. -/
theorem embed_planned_iff {query text : String} :
    (∃ step, embedCall? compiler.settings (searchTextOf compiler query) = some step ∧
      step.call = .embed text) ↔
      compiler.settings.vectorSearch.isSome = true ∧ phrases query.toList = [] ∧
        (searchTextOf compiler query).isPresent = true ∧
        text = (searchTextOf compiler query).text := by
  rw [← vectorSearch?_isSome, ← searchTextOf_quoted]
  simp only [embedCall?_eq_some_iff]
  constructor
  · rintro ⟨_, ⟨search, embedder, searching, rfl⟩, same⟩
    cases same
    exact ⟨by rw [searching.found]; rfl, searching.unquoted, searching.present, rfl⟩
  · rintro ⟨found, unquoted, present, rfl⟩
    obtain ⟨⟨search, embedder⟩, found⟩ := Option.isSome_iff_exists.mp found
    exact ⟨_, ⟨search, embedder, ⟨found, present, unquoted⟩, rfl⟩, rfl⟩

/-- The embedder is called last, where no resolver failed. -/
theorem embed_made_iff {query text : String} :
    .embed text ∈ (made (plan compiler query)).map Planned.call ↔
      (fieldsPlan compiler (readingOf compiler query)).findSome? Planned.failure = none ∧
      ∃ step, embedCall? compiler.settings (searchTextOf compiler query) = some step ∧
        step.call = .embed text := by
  have others {step : Planned} (member : step ∈ fieldsPlan compiler (readingOf compiler query)) :
      step.call ≠ .embed text := by
    obtain ⟨_, _, rfl⟩ | ⟨_, _, _, _, _, _, _, rfl⟩ := fieldsPlan_shape member <;>
      exact Call.noConfusion
  rw [List.mem_map, plan]
  constructor
  · rintro ⟨step, member, embeds⟩
    cases stop : (fieldsPlan compiler (readingOf compiler query)).findSome? Planned.failure with
    | none =>
      rw [made_append stop] at member
      rcases List.mem_append.mp member with asked | planned
      · exact absurd embeds (others asked)
      · exact ⟨rfl, step, Option.mem_toList.mp (made_subset planned), embeds⟩
    | some error =>
      rw [made_append_of_failed stop] at member
      exact absurd embeds (others (made_subset member))
  · rintro ⟨fine, step, planned, embeds⟩
    refine ⟨step, ?_, embeds⟩
    rw [made_append fine, planned, Option.toList, made, made, ite_self]
    exact List.mem_append_right _ List.mem_cons_self

/-- **Which functions are called, and how a call ends a build.** A build that can read its dates
makes the calls of its plan up to the first that fails. The embedder is among them exactly where no
resolver fails, vector search is set up, nothing is quoted and there is free text, which is what it
is given. And a build fails exactly where the last call made did, with the answer of that call. -/
theorem hook_protocol {query : String}
    (read : ∀ fault, (compiler.build query).outcome ≠ .error (.date fault)) :
    calls (compiler.build query).journal = (made (plan compiler query)).map Planned.call ∧
    (∀ text, .embed text ∈ calls (compiler.build query).journal ↔
      (∀ polarity, ∀ step ∈ sidePlan compiler (readingOf compiler query) polarity,
        step.failure = none) ∧
      compiler.settings.vectorSearch.isSome = true ∧ phrases query.toList = [] ∧
      (searchTextOf compiler query).isPresent = true ∧
      text = (searchTextOf compiler query).text) ∧
    ∀ failure, (compiler.build query).outcome = .error failure ↔
      ∃ last error, (made (plan compiler query)).getLast? = some last ∧
        last.failure = some error ∧ Blames compiler error last.call ∧ failure = .hook error := by
  obtain ⟨called, failed⟩ := build_follows read
  refine ⟨called, fun text => ?_, fun failure => ?_⟩
  · have fine : (fieldsPlan compiler (readingOf compiler query)).findSome? Planned.failure = none ↔
        ∀ polarity, ∀ step ∈ sidePlan compiler (readingOf compiler query) polarity,
          step.failure = none := by
      rw [List.findSome?_eq_none_iff, forall_comm]
      simp only [mem_fieldsPlan, forall_exists_index]
    rw [called, embed_made_iff, fine, embed_planned_iff]
  · constructor
    · intro ended
      cases failure with
      | date fault => exact absurd ended (read fault)
      | hook error =>
        obtain ⟨last, isLast, answer⟩ := failed_iff_last_made.mp ((failed error).mp ended)
        have planned := made_subset (List.mem_of_getLast? isLast)
        exact ⟨last, error, isLast, answer, plan_blames planned answer, rfl⟩
    · rintro ⟨last, error, isLast, answer, _, rfl⟩
      exact (failed error).mpr (failed_iff_last_made.mpr ⟨last, isLast, answer⟩)

/-- The shop whose resolver does not know what is excluded. -/
def beerlessShop : Compiler := shopWith fun
  | .included, groups => .ok groups
  | .excluded, _ => .error "unknown"

/-- Without its beers, which are asked for last, the shop embeds no text. -/
theorem unknown_beers_stop_build :
    (beerlessShop.build "cola").outcome = .error (.hook (.resolver "group" "unknown")) ∧
      calls (beerlessShop.build "cola").journal =
        [.resolve "group" ["drinks"], .resolve "group" ["beers"]] := by
  have failed : (beerlessShop.build "cola").outcome =
      .error (.hook (.resolver "group" "unknown")) := rfl
  refine ⟨failed, (hook_protocol fun fault other => ?_).1⟩
  rw [failed] at other
  cases other

end SearchCompiler.HookProtocol
