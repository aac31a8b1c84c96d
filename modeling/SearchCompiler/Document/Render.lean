import SearchCompiler.Document.Clause
import SearchCompiler.Json.Writer

/-!
Documents as JSON. The members of every object are in the order of their names, so the compact text
of a document is determined by its clauses. Options of a vector search that are not set are left
out; both lists of a Boolean filter are always written.
-/

namespace SearchCompiler.Document

open Json (Value)

/-- An object with one member. -/
def keyed (name : String) (value : Value) : Value := .object [(name, value)]

/-- A member that is written only where its value is set. -/
def optional {α : Type} (name : String) (write : α → Value) (value : Option α) :
    List (String × Value) :=
  match value with
  | some set => [(name, write set)]
  | none => []

mutual

/-- The JSON of a clause. -/
def Clause.json : Clause → Value
  | .term field value => keyed "term" (keyed field (.string value))
  | .range field atLeast atMost =>
    keyed "range" (keyed field (.object [("gte", .string atLeast), ("lte", .string atMost)]))
  | .analyzed field value => keyed "match" (keyed field (.string value))
  | .phrase field text => keyed "match_phrase" (keyed field (.string text))
  | .anyOf clauses =>
    keyed "bool" (.object
      [("minimum_should_match", .natural 1), ("should", .array (jsonAll clauses))])
  | .bool filter => filter.json
  | .nearest query => query.json
  | .hybrid vector keyword =>
    keyed "hybrid" (keyed "queries" (.array [vector.json, keyword.json]))

/-- The JSON of a Boolean filter. -/
def BoolFilter.json : BoolFilter → Value
  | ⟨must, mustNot⟩ =>
    keyed "bool" (.object
      [("must", .array (jsonAll must)), ("must_not", .array (jsonAll mustNot))])

/-- The JSON of a vector search. -/
def NearestQuery.json : NearestQuery → Value
  | ⟨field, vector, count, maxDistance, minScore, filter⟩ =>
    keyed "knn" (keyed field (.object
      (("filter", filter.json) :: optional "k" Value.natural count ++
        optional "max_distance" Value.float maxDistance ++
        optional "min_score" Value.float minScore ++
        [("vector", .array (vector.map Value.float))])))

/-- The JSON of several clauses, in order. -/
def jsonAll : List Clause → List Value
  | [] => []
  | clause :: rest => clause.json :: jsonAll rest

end

end SearchCompiler.Document
