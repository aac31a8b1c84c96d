import SearchCompiler.Query.Values

/-!
Settings of one field: what kind of values it takes, which field of the index it stands for, how
several values combine, and the functions that a caller attaches to it.

An attached function may keep a state of its own, so it may answer the same question differently the
second time. A build asks it at most once for each side of a query; what it is then given includes
the side, and its answer is any function of that.
-/

namespace SearchCompiler.Settings

open Query

/-- Expands the values of a term field into the values to look for, which replace them; it may fail
with a text. -/
abbrev Resolver := Polarity → List String → Except String (List String)

/-- Changes the values of a field before anything else is done with them. -/
abbrev Decoder := Polarity → FieldValues → FieldValues

/-- Turns free text into the vector to search near to; it may fail with a text. A build asks at most
once. -/
abbrev Embedder := String → Except String (List Float)

/-- What a field is compared by. -/
inductive FieldKind where
  /-- Exact values. -/
  | term
  | range
  /-- Analyzed text. -/
  | text
  deriving DecidableEq, Repr

inductive Connect where
  | all
  | any
  deriving DecidableEq, Repr

structure Field where
  kind : FieldKind
  /-- The field of the index. -/
  indexField : String
  connect : Connect := .any
  resolver : Option Resolver := none
  decoder : Option Decoder := none

/-- Whether a field takes the ends of a range rather than a list of values. -/
def Field.isRange (field : Field) : Bool := decide (field.kind = .range)

end SearchCompiler.Settings
