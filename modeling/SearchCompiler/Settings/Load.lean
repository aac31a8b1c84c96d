import SearchCompiler.Json.Reader
import SearchCompiler.Settings.Entity

/-!
Settings read from JSON text. A record is an object whose known members occur once each, unknown
members being passed over, or an array of its members in their order, from which members at the end
may be missing. A choice is a string, or an object with that one name and null. Maps keep the place
of the first member of a name and the value of the last. Functions are attached afterwards.
-/

namespace SearchCompiler.Settings

open Json (Value)

/-! ## Parts of a record -/

/-- The members of a record with these names, in this order. -/
def record? (names : List String) : Value → Option (List (String × Value))
  | .object members =>
    if ((members.map Prod.fst).filter fun name => names.contains name).Nodup then some members
    else none
  | .array elements => if elements.length ≤ names.length then some (names.zip elements) else none
  | _ => none

/-- A member that has to be there. -/
def needed {α : Type} (name : String) (read : Value → Option α) (record : List (String × Value)) :
    Option α :=
  (record.lookup name).bind read

/-- A member that may be missing. -/
def defaulted {α : Type} (name : String) (value : α) (read : Value → Option α)
    (record : List (String × Value)) : Option α :=
  match record.lookup name with
  | some found => read found
  | none => some value

def text? : Value → Option String
  | .string text => some text
  | _ => none

def texts? : Value → Option (List String)
  | .array elements => elements.mapM text?
  | _ => none

def natural? : Value → Option Nat
  | .number (.integer value) => if 0 ≤ value then some value.toNat else none
  | _ => none

/-- A number as a float; one that is too great for a float is refused. -/
def float? : Value → Option Float
  | .number (.integer value) =>
    let size := (UInt64.ofNat value.natAbs).toFloat
    some (if value < 0 then -size else size)
  | .number (.float value) => if Decimal.isFinite value then some value else none
  | _ => none

/-- A value that may be null. -/
def nullable {α : Type} (read : Value → Option α) : Value → Option (Option α)
  | .null => some none
  | value => (read value).map some

/-- One of several choices. -/
def choice? {α : Type} (choices : List (String × α)) : Value → Option α
  | .string name => choices.lookup name
  | .object [(name, .null)] => choices.lookup name
  | _ => none

/-- A map with values of one kind. -/
def map? {α : Type} (read : Value → Option α) : Value → Option (OrderedMap α)
  | .object members => do
    let pairs ← members.mapM fun member => (read member.2).map fun value => (member.1, value)
    some (.ofList pairs)
  | _ => none

/-! ## Records -/

def kindNames : List (String × FieldKind) := [("term", .term), ("range", .range), ("text", .text)]

def connectNames : List (String × Connect) := [("AND", .all), ("OR", .any)]

def styleNames : List (String × VectorStyle) := [("vector", .replacing), ("hybrid", .hybrid)]

def Field.ofJson? (value : Value) : Option Field := do
  let record ← record? ["type", "index_field", "logical_connect"] value
  let kind ← needed "type" (choice? kindNames) record
  let indexField ← needed "index_field" text? record
  let connect ← defaulted "logical_connect" .any (choice? connectNames) record
  some { kind, indexField, connect }

def VectorSearch.ofJson? (value : Value) : Option VectorSearch := do
  let record ← record? ["embedding_field", "k", "max_distance", "min_score", "mode"] value
  let embeddingField ← needed "embedding_field" text? record
  let count ← defaulted "k" none (nullable natural?) record
  let maxDistance ← defaulted "max_distance" none (nullable float?) record
  let minScore ← defaulted "min_score" none (nullable float?) record
  let style ← defaulted "mode" .replacing (choice? styleNames) record
  some { embeddingField, count, maxDistance, minScore, style }

/-- The fields that free text is looked for in. -/
def phraseFields? (value : Value) : Option (List String) := do
  let record ← record? ["fields"] value
  defaulted "fields" [] texts? record

def Entity.ofJson? (value : Value) : Option Entity := do
  let record ←
    record? ["fields", "traditional_search", "vector_search", "required_filters"] value
  let fields ← defaulted "fields" ∅ (map? Field.ofJson?) record
  let phraseFields ← defaulted "traditional_search" [] phraseFields? record
  let vectorSearch ← defaulted "vector_search" none (nullable VectorSearch.ofJson?) record
  let required ← defaulted "required_filters" ∅ (map? text?) record
  some { fields, phraseFields, vectorSearch, required }

/-- The settings that a JSON text describes; `none` where it describes none. -/
def Entity.ofText? (text : String) : Option Entity := (Json.read? text.toList).bind Entity.ofJson?

end SearchCompiler.Settings
