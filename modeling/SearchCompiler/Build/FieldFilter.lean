import SearchCompiler.Build.Journal
import SearchCompiler.Calendar.DateTerm
import SearchCompiler.Document.Clause
import SearchCompiler.Settings.Field

/-!
The clauses of one field. The decoder comes first, then the kind of the field decides: a term field
expands its values through its resolver, a text field matches each value, a range field needs both
its ends. Values of the wrong shape and ranges without meaning give no clause and are only
reported; a failing resolver is the one way to fail for which a caller can be blamed.
-/

namespace SearchCompiler.Build

open Calendar Document Query Settings

inductive HookError where
  | resolver (key cause : String)
  | embedder (cause : String)
  deriving DecidableEq, Repr

def HookError.message : HookError → String
  | .resolver key cause => "Resolver for field '" ++ key ++ "' failed: " ++ cause
  | .embedder cause => "Embedding generation failed: " ++ cause

inductive Failure where
  | hook (error : HookError)
  /-- A date term could not be read to its end. -/
  | date (fault : DateFault)
  deriving DecidableEq, Repr

/-- The values that a term field looks for: what its resolver makes of them, where it has one. -/
def resolvedValues (polarity : Polarity) (key : String) (field : Field) (values : List String) :
    Recorded String (List String) :=
  match field.resolver with
  | none => pure values
  | some resolve => do
    .note [.call (.resolve key values)]
    match resolve polarity values with
    | .ok resolved => do
      .note [.metric (.called Hook.resolver.label true)]
      pure resolved
    | .error cause => do
      .note [.metric (.called Hook.resolver.label false)]
      .fail cause

/-- The clauses of a term field, one for each value it looks for. -/
def termClauses (polarity : Polarity) (key : String) (field : Field) (values : List String) :
    Recorded String (List Clause) := do
  let resolved ← resolvedValues polarity key field values
  pure (resolved.map fun value => .term field.indexField value)

/-- The clauses of a text field, one for each value. -/
def textClauses (field : Field) (values : List String) : List Clause :=
  values.map fun value => .analyzed field.indexField value

def dropped (event : Event) (reason : DropReason) : List Entry :=
  [.event event, .metric (.dropped reason.label)]

/-- The clause of a range field, where both ends have a meaning. -/
def rangeClauses (clock : Instant) (field : Field) (endpoints : Endpoints) :
    Recorded DateFault (List Clause) := do
  let start ← .ofExcept (DateTerm.resolve clock endpoints.start.toList)
  let stop ← .ofExcept (DateTerm.resolve clock endpoints.stop.toList)
  match start, stop with
  | some first, some last =>
    pure [.range field.indexField (String.ofList first.iso) (String.ofList last.iso)]
  | _, _ => do
    .note (dropped (.rangeDropped field.indexField endpoints.start endpoints.stop)
      .unparseableRange)
    pure []

/-- Combine the clauses of one field: where any match is enough, several become one. -/
def combine (connect : Connect) (clauses : List Clause) : List Clause :=
  match connect with
  | .all => clauses
  | .any => if 1 < clauses.length then [.anyOf clauses] else clauses

def decodedValues (polarity : Polarity) (key : String) (field : Field) (values : FieldValues) :
    Recorded Failure FieldValues :=
  match field.decoder with
  | none => pure values
  | some decode => do
    .note [.call (.decode key values)]
    pure (decode polarity values)

/-- The clauses of a field before they are combined. -/
def leafClauses (clock : Instant) (polarity : Polarity) (key : String) (field : Field)
    (values : FieldValues) : Recorded Failure (List Clause) :=
  match field.kind, values with
  | .term, .list values =>
    (termClauses polarity key field values).rescue fun cause => do
      .note [.event (.resolverFailed key cause)]
      .fail (.hook (.resolver key cause))
  | .text, .list values => pure (textClauses field values)
  | .range, .range endpoints =>
    (rangeClauses clock field endpoints).rescue fun fault => .fail (.date fault)
  | kind, _ => do
    .note (dropped (.shapeMismatch key kind) .shapeMismatch)
    pure []

def fieldClauses (clock : Instant) (polarity : Polarity) (key : String) (field : Field)
    (values : FieldValues) : Recorded Failure (List Clause) := do
  let decoded ← decodedValues polarity key field values
  let leaves ← leafClauses clock polarity key field decoded
  pure (combine field.connect leaves)

end SearchCompiler.Build
