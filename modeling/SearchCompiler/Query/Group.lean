import SearchCompiler.OrderedMap
import SearchCompiler.Query.Values

/-!
A query that has been read: for what is asked and for what is excluded, the values of keyword
fields, the ends of range fields and the free text. Fields keep the order in which the query first
named them.
-/

namespace SearchCompiler.Query

/-- What a query says with one polarity. -/
structure TokenGroup where
  keywords : OrderedMap (List String) := ∅
  ranges : OrderedMap Endpoints := ∅
  /-- The free text, of which a query that was read by `tokenize` has one entry or none. -/
  text : List String := []

instance : Inhabited TokenGroup := ⟨{}⟩

namespace TokenGroup

/-- The values given for a field, as a keyword first. -/
def values? (group : TokenGroup) (field : String) : Option FieldValues :=
  match group.keywords.get? field with
  | some values => some (.list values)
  | none => (group.ranges.get? field).map .range

/-- The fields named, keywords first. -/
def fields (group : TokenGroup) : List String := group.keywords.names ++ group.ranges.names

def isEmpty (group : TokenGroup) : Bool :=
  group.keywords.isEmpty && group.ranges.isEmpty && group.text.isEmpty

end TokenGroup

structure ParsedQuery where
  included : TokenGroup := {}
  excluded : TokenGroup := {}

instance : Inhabited ParsedQuery := ⟨{}⟩

/-- The first entry of the free text asked for. -/
def ParsedQuery.freeText? (parsed : ParsedQuery) : Option String := parsed.included.text.head?

inductive Reading where
  /-- No field tokens are possible; the whole query is free text. -/
  | bare (text : String)
  | structured (parsed : ParsedQuery)

def Reading.parsed? : Reading → Option ParsedQuery
  | .bare _ => none
  | .structured parsed => some parsed

end SearchCompiler.Query
