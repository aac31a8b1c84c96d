import SearchCompiler.Build.Mode
import SearchCompiler.Query.Values
import SearchCompiler.Settings.Field

/-!
What can be observed of a build besides its result: the events it reports, the calls it makes to
attached functions and the measurements it records. All three go into one journal, in order, and
`Recorded` is a computation that keeps such a journal and may fail; what was written before a
failure stays.
-/

namespace SearchCompiler.Build

open Query Settings

inductive Event where
  | opened (query : String)
  | decided (mode : Mode)
  | unknownField (key : String)
  | shapeMismatch (key : String) (kind : FieldKind)
  /-- An end of a range has no meaning. -/
  | rangeDropped (indexField start stop : String)
  | resolverFailed (key cause : String)
  | embedderFailed (embeddingField cause : String)
  /-- The document is put together from so many clauses. -/
  | assembling (mode : Mode) (must mustNot : Nat) (quoted : Bool)
  deriving DecidableEq, Repr

inductive Severity where
  | debug
  | warning
  deriving DecidableEq, Repr

/-- The severity and wording of an event. The first two events only frame the others. -/
def Event.notice? : Event → Option (Severity × String)
  | .opened _ | .decided _ => none
  | .unknownField _ => some (.debug, "Ignoring token for unconfigured field")
  | .shapeMismatch _ _ => some (.debug, "Token shape does not match field type")
  | .rangeDropped _ _ _ => some (.debug, "Dropping range filter with unparseable endpoint")
  | .resolverFailed _ _ => some (.warning, "Field resolver failed")
  | .embedderFailed _ _ => some (.warning, "Embedding generation failed")
  | .assembling _ _ _ _ => some (.debug, "Assembling query")

inductive Call where
  | decode (key : String) (values : FieldValues)
  | resolve (key : String) (values : List String)
  | embed (text : String)
  deriving DecidableEq, Repr

inductive DropReason where
  | unparseableRange
  | unknownField
  | shapeMismatch
  deriving DecidableEq, Repr

def DropReason.label : DropReason → String
  | .unparseableRange => "unparseable_range"
  | .unknownField => "unknown_field"
  | .shapeMismatch => "shape_mismatch"

/-- The attached functions that are counted. -/
inductive Hook where
  | resolver
  | embedder
  deriving DecidableEq, Repr

def Hook.label : Hook → String
  | .resolver => "resolver"
  | .embedder => "embedder"

inductive Metric where
  | built (mode : String)
  | timed
  | dropped (reason : String)
  /-- The attached function of this name was called. -/
  | called (hook : String) (succeeded : Bool)
  deriving DecidableEq, Repr

def Metric.name : Metric → String
  | .built _ => "query_dsl_builds_total"
  | .timed => "query_dsl_build_seconds"
  | .dropped _ => "query_dsl_dropped_filters_total"
  | .called _ _ => "query_dsl_hook_calls_total"

/-- The labels that divide the measurements of one name, in the order of the labels. -/
def Metric.labels : Metric → List (String × String)
  | .built mode => [("mode", mode)]
  | .timed => []
  | .dropped reason => [("reason", reason)]
  | .called hook succeeded => [("hook", hook), ("status", if succeeded then "success" else "error")]

inductive Entry where
  | event (event : Event)
  | call (call : Call)
  | metric (metric : Metric)
  deriving DecidableEq, Repr

def events (journal : List Entry) : List Event :=
  journal.filterMap fun
    | .event event => some event
    | _ => none

def calls (journal : List Entry) : List Call :=
  journal.filterMap fun
    | .call call => some call
    | _ => none

def metrics (journal : List Entry) : List Metric :=
  journal.filterMap fun
    | .metric metric => some metric
    | _ => none

@[simp]
theorem calls_append (first second : List Entry) :
    calls (first ++ second) = calls first ++ calls second :=
  List.filterMap_append

@[simp]
theorem events_append (first second : List Entry) :
    events (first ++ second) = events first ++ events second :=
  List.filterMap_append

@[simp]
theorem metrics_append (first second : List Entry) :
    metrics (first ++ second) = metrics first ++ metrics second :=
  List.filterMap_append

/-- A computation that keeps a journal and ends with a value or a failure. -/
structure Recorded (ε α : Type) where
  journal : List Entry
  outcome : Except ε α

namespace Recorded

variable {ε ε' α β : Type}

protected def pure (value : α) : Recorded ε α := ⟨[], .ok value⟩

protected def bind (first : Recorded ε α) (next : α → Recorded ε β) : Recorded ε β :=
  match first.outcome with
  | .ok value => ⟨first.journal ++ (next value).journal, (next value).outcome⟩
  | .error failure => ⟨first.journal, .error failure⟩

instance : Monad (Recorded ε) where
  pure := Recorded.pure
  bind := Recorded.bind

def note (entries : List Entry) : Recorded ε Unit := ⟨entries, .ok ()⟩

def fail (failure : ε) : Recorded ε α := ⟨[], .error failure⟩

def ofExcept (outcome : Except ε α) : Recorded ε α := ⟨[], outcome⟩

/-- Go on with the failure, where there is one. -/
def rescue (first : Recorded ε α) (next : ε → Recorded ε' α) : Recorded ε' α :=
  match first.outcome with
  | .ok value => ⟨first.journal, .ok value⟩
  | .error failure => ⟨first.journal ++ (next failure).journal, (next failure).outcome⟩

/-- Write to the journal at the end, however the computation ends. -/
def alwaysNote (first : Recorded ε α) (entries : List Entry) : Recorded ε α :=
  ⟨first.journal ++ entries, first.outcome⟩

theorem pure_eq (value : α) : (pure value : Recorded ε α) = ⟨[], .ok value⟩ := rfl

/-- Going on from a value keeps both journals. -/
theorem bind_of_ok {first : Recorded ε α} {next : α → Recorded ε β} {value : α}
    (ended : first.outcome = .ok value) :
    first >>= next = ⟨first.journal ++ (next value).journal, (next value).outcome⟩ := by
  change Recorded.bind first next = _
  simp [Recorded.bind, ended]

/-- Nothing is done after a failure. -/
theorem bind_of_error {first : Recorded ε α} {next : α → Recorded ε β} {failure : ε}
    (ended : first.outcome = .error failure) :
    first >>= next = ⟨first.journal, .error failure⟩ := by
  change Recorded.bind first next = _
  simp [Recorded.bind, ended]

/-- What is noted comes before what follows. -/
theorem note_bind (entries : List Entry) (next : Unit → Recorded ε α) :
    (note entries >>= next) = ⟨entries ++ (next ()).journal, (next ()).outcome⟩ := rfl

/-- A sequence ends with a value when both its parts do. -/
theorem bind_ok_iff {first : Recorded ε α} {next : α → Recorded ε β} {value : β} :
    (first >>= next).outcome = .ok value ↔
      ∃ middle, first.outcome = .ok middle ∧ (next middle).outcome = .ok value := by
  cases ended : first.outcome with
  | ok middle => simp [bind_of_ok ended]
  | error failure => simp [bind_of_error ended]

/-- A sequence fails where its first part does, or where its second does behind it. -/
theorem bind_error_iff {first : Recorded ε α} {next : α → Recorded ε β} {failure : ε} :
    (first >>= next).outcome = .error failure ↔
      first.outcome = .error failure ∨
        ∃ middle, first.outcome = .ok middle ∧ (next middle).outcome = .error failure := by
  cases ended : first.outcome with
  | ok middle => simp [bind_of_ok ended]
  | error other => simp [bind_of_error ended]

/-- A rescue that itself fails ends with a value only where nothing had to be rescued. -/
theorem rescue_ok_iff {first : Recorded ε α} {next : ε → Recorded ε' α} {value : α}
    (fails : ∀ failure, (next failure).outcome ≠ .ok value) :
    (first.rescue next).outcome = .ok value ↔ first.outcome = .ok value := by
  unfold rescue
  cases first.outcome with
  | ok other => simp
  | error failure => simp [fails failure]

private theorem map_id_eq (first : Recorded ε α) : id <$> first = first := by
  change Recorded.bind first Recorded.pure = first
  obtain ⟨journal, outcome⟩ := first
  cases outcome <;> simp [Recorded.bind, Recorded.pure]

private theorem bind_assoc_eq {γ : Type} (first : Recorded ε α) (next : α → Recorded ε β)
    (last : β → Recorded ε γ) :
    first >>= next >>= last = first >>= fun value => next value >>= last := by
  change Recorded.bind (Recorded.bind first next) last =
    Recorded.bind first fun value => Recorded.bind (next value) last
  obtain ⟨journal, outcome⟩ := first
  cases outcome with
  | error failure => rfl
  | ok value =>
    simp only [Recorded.bind]
    cases ended : (next value).outcome <;> simp [List.append_assoc]

instance : LawfulMonad (Recorded ε) :=
  LawfulMonad.mk' (Recorded ε) map_id_eq (fun _ _ => rfl) bind_assoc_eq

end Recorded

end SearchCompiler.Build
