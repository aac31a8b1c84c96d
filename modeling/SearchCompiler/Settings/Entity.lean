import SearchCompiler.OrderedMap
import SearchCompiler.Query.Tokenize
import SearchCompiler.Settings.Field

/-!
Settings for one kind of document: its fields in the order of their declaration, which is the order
in which filters are written and resolvers are called; the fields that free text is looked for in;
an optional vector search; and the terms that every document has to hold whatever is asked.
-/

namespace SearchCompiler.Settings

open Query

/-- What vector search does to keyword search. -/
inductive VectorStyle where
  /-- It takes its place. -/
  | replacing
  /-- Both run side by side. -/
  | hybrid
  deriving DecidableEq, Repr

structure VectorSearch where
  /-- The field of the index that holds the vectors. -/
  embeddingField : String
  count : Option Nat := none
  maxDistance : Option Float := none
  minScore : Option Float := none
  style : VectorStyle := .replacing
  embedder : Option Embedder := none

structure Entity where
  fields : OrderedMap Field := ∅
  /-- The fields that free text is looked for in. -/
  phraseFields : List String := []
  vectorSearch : Option VectorSearch := none
  /-- The terms that every document has to hold: fields of the index and their values. -/
  required : OrderedMap String := ∅

instance : Inhabited Entity := ⟨{}⟩

namespace Entity

/-- Declare a field. A key that is declared already keeps its place and takes the new settings. -/
def declare (entity : Entity) (key : String) (field : Field) : Entity :=
  { entity with fields := entity.fields.insert key field }

def requireTerm (entity : Entity) (indexField value : String) : Entity :=
  { entity with required := entity.required.insert indexField value }

def withVectorSearch (entity : Entity) (search : VectorSearch) : Entity :=
  { entity with vectorSearch := some search }

/-- Attach a resolver to a declared field. A key that is not declared changes nothing. -/
def attachResolver (entity : Entity) (key : String) (resolver : Resolver) : Entity :=
  { entity with
    fields := entity.fields.modify key fun field => { field with resolver := some resolver } }

/-- Attach a decoder to a declared field. A key that is not declared changes nothing. -/
def attachDecoder (entity : Entity) (key : String) (decoder : Decoder) : Entity :=
  { entity with
    fields := entity.fields.modify key fun field => { field with decoder := some decoder } }

/-- Attach an embedder to the vector search. Without vector search nothing changes. -/
def attachEmbedder (entity : Entity) (embedder : Embedder) : Entity :=
  { entity with
    vectorSearch :=
      entity.vectorSearch.map fun search => { search with embedder := some embedder } }

/-- The keys that take a list of values, in the order of declaration. -/
def keywordKeys (entity : Entity) : List String :=
  (entity.fields.entries.filter fun entry => !entry.2.isRange).map Prod.fst

/-- The keys that take a range, in the order of declaration. -/
def rangeKeys (entity : Entity) : List String :=
  (entity.fields.entries.filter fun entry => entry.2.isRange).map Prod.fst

def vocabulary (entity : Entity) : Vocabulary := ⟨entity.keywordKeys, entity.rangeKeys⟩

end Entity

end SearchCompiler.Settings
