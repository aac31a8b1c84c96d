import SearchCompiler.Proofs.WrittenSettings

/-! Settings that are put together step by step, in any order and as often as one likes. A field
stands where its key was declared first and is what was declared last, with the functions that were
attached to it since; a function for a key that is not declared is lost. The vector search is the
last one, with the embedder attached to it since. So what a session ends with is told from its steps
alone. -/
namespace SearchCompiler.SettingsSessions
open Settings WrittenSettings

/-! ## Steps -/

/-- One step of putting settings together. -/
inductive Step where
  | declare (key : String) (field : Field)
  | require (indexField value : String)
  | resolveWith (key : String) (resolver : Resolver)
  | decodeWith (key : String) (decoder : Decoder)
  | embedWith (embedder : Embedder)
  | searchVectors (search : VectorSearch)

namespace Step

def take (settings : Entity) : Step → Entity
  | .declare key field => settings.declare key field
  | .require indexField value => settings.requireTerm indexField value
  | .resolveWith key resolver => settings.attachResolver key resolver
  | .decodeWith key decoder => settings.attachDecoder key decoder
  | .embedWith embedder => settings.attachEmbedder embedder
  | .searchVectors search => settings.withVectorSearch search

/-- The key that a step declares. -/
def declared? : Step → Option String
  | .declare key _ => some key
  | _ => none

/-- The term that a step requires. -/
def required? : Step → Option (String × String)
  | .require indexField value => some (indexField, value)
  | _ => none

/-- The key that a step attaches a function to. -/
def attachedTo? : Step → Option String
  | .resolveWith key _ => some key
  | .decodeWith key _ => some key
  | _ => none

def resolverFor? (key : String) : Step → Option Resolver
  | .resolveWith name resolver => if name = key then some resolver else none
  | _ => none

def decoderFor? (key : String) : Step → Option Decoder
  | .decodeWith name decoder => if name = key then some decoder else none
  | _ => none

def embedder? : Step → Option Embedder
  | .embedWith embedder => some embedder
  | _ => none

def search? : Step → Option VectorSearch
  | .searchVectors search => some search
  | _ => none

end Step

/-- The settings after some steps, begun with the fields that free text is looked for in. -/
def session (phraseFields : List String) (steps : List Step) : Entity :=
  steps.foldl Step.take { phraseFields }

/-- The last of what some steps say, or what was there before them. -/
def latest {α : Type} (said? : Step → Option α) (steps : List Step) (before : Option α) :
    Option α :=
  (steps.filterMap said?).getLast?.or before

/-- A field with the functions that some steps attach to it. -/
def attached (key : String) (steps : List Step) (field : Field) : Field :=
  { field with
    resolver := latest (Step.resolverFor? key) steps field.resolver
    decoder := latest (Step.decoderFor? key) steps field.decoder }

/-- A vector search with the embedder that some steps attach to it. -/
def embedded (steps : List Step) (search : VectorSearch) : VectorSearch :=
  { search with embedder := latest Step.embedder? steps search.embedder }

variable {phraseFields : List String} {steps earlier : List Step} {step : Step}

theorem session_concat :
    session phraseFields (earlier ++ [step]) = step.take (session phraseFields earlier) :=
  List.foldl_concat ..

/-- What later steps say goes before what was said. -/
theorem latest_append {α : Type} (said? : Step → Option α) (before : Option α) (later : List Step) :
    latest said? (earlier ++ later) before = latest said? later (latest said? earlier before) := by
  unfold latest
  rw [List.filterMap_append, List.getLast?_append, Option.or_assoc]

theorem latest_singleton {α : Type} (said? : Step → Option α) (before : Option α) :
    latest said? [step] before = (said? step).or before := by
  unfold latest
  rw [List.filterMap_cons]
  cases said? step <;> rfl

theorem attached_append (key : String) (later : List Step) (field : Field) :
    attached key (earlier ++ later) field = attached key later (attached key earlier field) := by
  unfold attached
  rw [latest_append, latest_append]

theorem embedded_append (later : List Step) (search : VectorSearch) :
    embedded (earlier ++ later) search = embedded later (embedded earlier search) := by
  unfold embedded
  rw [latest_append]

/-! ## One step -/

variable {settings : Entity} {key : String}

/-- A step writes no key but the one that it declares. -/
theorem names_take (settings : Entity) (step : Step) :
    (step.take settings).fields.names = match step.declared? with
      | none => settings.fields.names
      | some key =>
        if key ∈ settings.fields.names then settings.fields.names
        else settings.fields.names ++ [key] := by
  cases step with
  | declare key field => exact OrderedMap.names_alter settings.fields key _
  | resolveWith key resolver => exact OrderedMap.names_modify settings.fields key _
  | decodeWith key decoder => exact OrderedMap.names_modify settings.fields key _
  | _ => rfl

theorem field_declared (field : Field) :
    ((Step.declare key field).take settings).fields.get? key = some field := by
  change (settings.fields.alter key _).get? key = _
  rw [OrderedMap.get?_alter, if_pos rfl]

/-- Changing the field under one name is, for the field under a key, to attach what the step says
for that key. -/
theorem field_modify {name : String} {change : Field → Field}
    (said : key = name → change = attached key [step])
    (unsaid : key ≠ name → ∀ field, field = attached key [step] field) :
    (settings.fields.modify name change).get? key =
      (settings.fields.get? key).map (attached key [step]) := by
  rw [OrderedMap.get?_modify]
  by_cases same : key = name
  · subst same
    rw [if_pos rfl, said rfl]
  · rw [if_neg same, ← funext (unsaid same)]
    exact (Option.map_id' ..).symm

/-- A step that does not declare a key leaves its field as it is, apart from the function that the
step attaches to it. -/
theorem field_take (other : step.declared? ≠ some key) :
    (step.take settings).fields.get? key =
      (settings.fields.get? key).map (attached key [step]) := by
  cases step with
  | declare name field =>
    have differs : key ≠ name := fun same => other (congrArg some same.symm)
    change (settings.fields.alter name _).get? key = _
    rw [OrderedMap.get?_alter, if_neg differs]
    exact (Option.map_id' ..).symm
  | resolveWith name resolver =>
    apply field_modify
    · rintro rfl
      funext field
      simp [attached, latest_singleton, Step.resolverFor?, Step.decoderFor?]
    · intro differs field
      simp [attached, latest_singleton, Step.resolverFor?, Step.decoderFor?, Ne.symm differs]
  | decodeWith name decoder =>
    apply field_modify
    · rintro rfl
      funext field
      simp [attached, latest_singleton, Step.resolverFor?, Step.decoderFor?]
    · intro differs field
      simp [attached, latest_singleton, Step.resolverFor?, Step.decoderFor?, Ne.symm differs]
  | _ => exact (Option.map_id' ..).symm

/-- A function attached to a key that is not declared is lost. -/
theorem take_of_undeclared (attaches : step.attachedTo? = some key)
    (undeclared : key ∉ settings.fields.names) : step.take settings = settings := by
  cases step with
  | resolveWith name resolver =>
    cases attaches
    change { settings with fields := settings.fields.modify key _ } = settings
    rw [OrderedMap.modify_of_absent undeclared]
  | decodeWith name decoder =>
    cases attaches
    change { settings with fields := settings.fields.modify key _ } = settings
    rw [OrderedMap.modify_of_absent undeclared]
  | _ => cases attaches

/-- A step that sets no vector search leaves it as it is, apart from an embedder. -/
theorem search_take (other : step.search? = none) :
    (step.take settings).vectorSearch = settings.vectorSearch.map (embedded [step]) := by
  cases step with
  | searchVectors search => cases other
  | embedWith embedder => rfl
  | _ => exact (Option.map_id' ..).symm

/-! ## Sessions -/

theorem names_session :
    (session phraseFields steps).fields.names = (steps.filterMap Step.declared?).eraseDups :=
  TokenGroups.names_foldl (fun settings : Entity => settings.fields.names) rfl names_take steps

theorem phraseFields_session : (session phraseFields steps).phraseFields = phraseFields := by
  induction steps using List.reverseRecOn with
  | nil => rfl
  | append_singleton earlier step ih =>
    rw [session_concat]
    cases step <;> exact ih

/-- What is required is written into a map, term by term. -/
theorem required_session :
    (session phraseFields steps).required = .ofList (steps.filterMap Step.required?) := by
  induction steps using List.reverseRecOn with
  | nil => rfl
  | append_singleton earlier step ih =>
    rw [session_concat, List.filterMap_append]
    cases step with
    | require indexField value =>
      change (session phraseFields earlier).required.insert indexField value = _
      rw [ih]
      exact (OrderedMap.ofList_concat _ (indexField, value)).symm
    | _ => exact ih.trans (congrArg _ (List.append_nil _).symm)

/-- Behind its last declaration a field only takes on functions. -/
theorem field_run {field : Field} (held : settings.fields.get? key = some field)
    (undeclared : key ∉ steps.filterMap Step.declared?) :
    (steps.foldl Step.take settings).fields.get? key = some (attached key steps field) := by
  induction steps using List.reverseRecOn with
  | nil => exact held
  | append_singleton earlier step ih =>
    rw [List.filterMap_append, List.mem_append, not_or] at undeclared
    have other : step.declared? ≠ some key := by
      intro declares
      exact undeclared.2 (List.mem_filterMap.mpr ⟨step, List.mem_singleton_self _, declares⟩)
    rw [List.foldl_concat, field_take other, ih undeclared.1, Option.map_some, attached_append]

/-- Behind the last vector search only its embedder changes. -/
theorem search_run {search : VectorSearch} (held : settings.vectorSearch = some search)
    (unset : steps.filterMap Step.search? = []) :
    (steps.foldl Step.take settings).vectorSearch = some (embedded steps search) := by
  induction steps using List.reverseRecOn with
  | nil => exact held
  | append_singleton earlier step ih =>
    rw [List.filterMap_append, List.append_eq_nil_iff] at unset
    have other : step.search? = none :=
      List.filterMap_eq_nil_iff.mp unset.2 step (List.mem_singleton_self _)
    rw [List.foldl_concat, search_take other, ih unset.1, Option.map_some, embedded_append]

/-! ## Keywords and ranges -/

/-- The two kinds of keys divide the keys. -/
theorem keys_perm (settings : Entity) :
    (settings.keywordKeys ++ settings.rangeKeys).Perm settings.fields.names := by
  have halves := List.filter_append_perm (fun entry : String × Field => !entry.2.isRange)
    settings.fields.entries
  simp only [Bool.not_not] at halves
  have keys := halves.map Prod.fst
  rwa [List.map_append] at keys

theorem keys_disjoint (settings : Entity) :
    settings.keywordKeys.Disjoint settings.rangeKeys := by
  have distinct : (settings.keywordKeys ++ settings.rangeKeys).Nodup :=
    (keys_perm settings).nodup_iff.mpr settings.fields.distinct
  exact List.disjoint_of_nodup_append distinct

/-- The ranges are the fields that take one. -/
theorem mem_rangeKeys_iff {field : Field} (found : settings.fields.get? key = some field) :
    key ∈ settings.rangeKeys ↔ field.kind = .range := by
  constructor
  · intro ranged
    obtain ⟨entry, kept, rfl⟩ := List.mem_map.mp ranged
    obtain ⟨declared, takesRange⟩ := List.mem_filter.mp kept
    have same : settings.fields.get? entry.1 = some entry.2 :=
      OrderedMap.get?_eq_some_iff.mpr declared
    rw [found] at same
    cases same
    exact of_decide_eq_true takesRange
  · intro kind
    have declared := OrderedMap.get?_eq_some_iff.mp found
    apply List.mem_map.mpr
    exact ⟨(key, field), List.mem_filter.mpr ⟨declared, decide_eq_true kind⟩, rfl⟩

/-! ## What a session comes to -/

/-- What the settings are after some steps. -/
structure Settles (phraseFields : List String) (steps : List Step) (settings : Entity) : Prop where
  distinct : settings.fields.names.Nodup
  /-- Keys stand in the order in which they were first declared. -/
  order : settings.fields.names = (steps.filterMap Step.declared?).eraseDups
  /-- A field is what was declared last, with the functions attached to it since. -/
  fields : ∀ before key field after, steps = before ++ .declare key field :: after →
    key ∉ after.filterMap Step.declared? →
    settings.fields.get? key = some (attached key after field)
  /-- Attaching adds no key and moves none, and changes nothing before the key is declared. -/
  attaching : ∀ before step after key, steps = before ++ step :: after →
    step.attachedTo? = some key →
    (session phraseFields (before ++ [step])).fields.names =
      (session phraseFields before).fields.names ∧
    (key ∉ before.filterMap Step.declared? →
      session phraseFields (before ++ [step]) = session phraseFields before)
  unsearched : steps.filterMap Step.search? = [] → settings.vectorSearch = none
  /-- The vector search is the last one, with the embedder attached to it since. -/
  searching : ∀ before search after, steps = before ++ .searchVectors search :: after →
    after.filterMap Step.search? = [] → settings.vectorSearch = some (embedded after search)
  /-- A required term stands where its field came first, with the value that came last. -/
  required : Keeps settings.required (steps.filterMap Step.required?)
  phraseFields : settings.phraseFields = phraseFields
  keywords : settings.keywordKeys.Sublist settings.fields.names
  ranges : settings.rangeKeys.Sublist settings.fields.names
  apart : settings.keywordKeys.Disjoint settings.rangeKeys
  /-- Every key is of one kind, and its field says of which. -/
  together : (settings.keywordKeys ++ settings.rangeKeys).Perm settings.fields.names
  kinds : ∀ key field, settings.fields.get? key = some field →
    (key ∈ settings.rangeKeys ↔ field.kind = .range)

theorem session_append {later : List Step} :
    session phraseFields (earlier ++ later) =
      later.foldl Step.take (session phraseFields earlier) := List.foldl_append ..

theorem unsearched_session (unset : steps.filterMap Step.search? = []) :
    (session phraseFields steps).vectorSearch = none := by
  induction steps using List.reverseRecOn with
  | nil => rfl
  | append_singleton earlier step ih =>
    rw [List.filterMap_append, List.append_eq_nil_iff] at unset
    have other : step.search? = none :=
      List.filterMap_eq_nil_iff.mp unset.2 step (List.mem_singleton_self _)
    rw [session_concat, search_take other, ih unset.1]
    rfl

theorem names_attaching (attaches : step.attachedTo? = some key) :
    (step.take settings).fields.names = settings.fields.names := by
  rw [names_take]
  cases step with
  | declare name field => cases attaches
  | _ => rfl

/-- **Sessions come to what their steps say.** However declarations, requirements and attached
functions are mixed, the settings at the end are told by the last declaration of each key, the last
vector search, and what was attached behind them; keys keep the order of their first declarations,
and each is a keyword or a range. -/
theorem session_settles (phraseFields : List String) (steps : List Step) :
    Settles phraseFields steps (session phraseFields steps) where
  distinct := (session phraseFields steps).fields.distinct
  order := names_session
  fields := by
    rintro before key field after rfl undeclared
    rw [session_append, List.foldl_cons]
    exact field_run (field_declared field) undeclared
  attaching := by
    rintro before step after key rfl attaches
    rw [session_concat]
    refine ⟨names_attaching attaches, fun undeclared => ?_⟩
    apply take_of_undeclared attaches
    rw [names_session, List.mem_eraseDups]
    exact undeclared
  unsearched := unsearched_session
  searching := by
    rintro before search after rfl unset
    rw [session_append, List.foldl_cons]
    exact search_run rfl unset
  required := by
    rw [required_session]
    exact keeps_ofList _
  phraseFields := phraseFields_session
  keywords := List.filter_sublist.map Prod.fst
  ranges := List.filter_sublist.map Prod.fst
  apart := keys_disjoint _
  together := keys_perm _
  kinds _ _ := mem_rangeKeys_iff

/-- A session that attaches too early, declares a key again and sets its vector search late. -/
def cellarSteps : List Step :=
  [.resolveWith "grape" fun _ _ => .error "early",
    .declare "grape" { kind := .term, indexField := "grapes" },
    .declare "year" { kind := .range, indexField := "years" },
    .resolveWith "grape" fun _ _ => .error "replaced",
    .embedWith fun _ => .error "early",
    .declare "grape" { kind := .text, indexField := "names", resolver := some fun _ => .ok },
    .decodeWith "grape" fun _ values => values,
    .searchVectors { embeddingField := "taste", embedder := some fun _ => .error "replaced" },
    .embedWith fun _ => .ok []]

/-- The grape stands first and is what was declared last, with its own resolver and the decoder that
came behind it. -/
theorem cellar_settles :
    (session [] cellarSteps).fields.names = ["grape", "year"] ∧
      (session [] cellarSteps).fields.get? "grape" =
        some { kind := .text, indexField := "names", resolver := some fun _ => .ok,
               decoder := some fun _ values => values } ∧
      (session [] cellarSteps).vectorSearch =
        some { embeddingField := "taste", embedder := some fun _ => .ok [] } := by
  have settles := session_settles [] cellarSteps
  refine ⟨settles.order, ?_, ?_⟩
  · exact settles.fields (cellarSteps.take 5) "grape" _ (cellarSteps.drop 6) rfl (by decide)
  · exact settles.searching (cellarSteps.take 7) _ (cellarSteps.drop 8) rfl rfl

end SearchCompiler.SettingsSessions
