/-!
What a query says about one field: a list of values, or the two ends of a range, to be asked for or
to be excluded.
-/

namespace SearchCompiler.Query

/-- The two sides of a query. -/
inductive Polarity where
  | included
  | excluded
  deriving DecidableEq, Repr

/-- The two ends of a range as they were typed. A missing end is empty. -/
structure Endpoints where
  start : String
  stop : String
  deriving DecidableEq, Repr

inductive FieldValues where
  /-- Values in query order. -/
  | list (values : List String)
  | range (endpoints : Endpoints)
  deriving DecidableEq, Repr

/-- Change every value of a list. A range stays as it is. -/
def FieldValues.mapList (change : String → String) : FieldValues → FieldValues
  | .list values => .list (values.map change)
  | .range endpoints => .range endpoints

/-- Change both ends of a range. A list stays as it is. -/
def FieldValues.mapRange (change : String → String) : FieldValues → FieldValues
  | .list values => .list values
  | .range endpoints => .range ⟨change endpoints.start, change endpoints.stop⟩

end SearchCompiler.Query
