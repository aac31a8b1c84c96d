/-!
Documents for the search engine, as a tree of clauses. Leaves test one field; the other clauses
combine them. In a Boolean filter the place of a clause is its meaning: every clause of `must` has
to hold and none of `mustNot` may.
-/

namespace SearchCompiler.Document

mutual

/-- One clause of a document. -/
inductive Clause where
  /-- The field holds exactly this value. -/
  | term (field value : String)
  /-- The field lies between two bounds, both included. -/
  | range (field atLeast atMost : String)
  /-- The field matches a value after analysis. -/
  | analyzed (field value : String)
  | phrase (field text : String)
  /-- At least one of the clauses holds. -/
  | anyOf (clauses : List Clause)
  | bool (filter : BoolFilter)
  | nearest (query : NearestQuery)
  | hybrid (vector : NearestQuery) (keyword : BoolFilter)

/-- Clauses that must hold and clauses that must not. -/
structure BoolFilter where
  must : List Clause := []
  mustNot : List Clause := []

/-- A search for the vectors nearest to a given one, among the documents that pass a filter. -/
structure NearestQuery where
  field : String
  vector : List Float
  count : Option Nat := none
  maxDistance : Option Float := none
  minScore : Option Float := none
  /-- The filter that is applied before the search. -/
  filter : BoolFilter

end

namespace BoolFilter

instance : Inhabited BoolFilter := ⟨{}⟩

/-- Add a clause that must hold. -/
def require (filter : BoolFilter) (clause : Clause) : BoolFilter :=
  { filter with must := filter.must ++ [clause] }

/-- Add a clause that must not hold. -/
def exclude (filter : BoolFilter) (clause : Clause) : BoolFilter :=
  { filter with mustNot := filter.mustNot ++ [clause] }

/-- Whether there are no clauses. -/
def isEmpty (filter : BoolFilter) : Bool := filter.must.isEmpty && filter.mustNot.isEmpty

end BoolFilter

end SearchCompiler.Document
