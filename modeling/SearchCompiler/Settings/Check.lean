import SearchCompiler.Settings.Entity
import SearchCompiler.Text.Blank

/-!
Which settings can be used. A key has to be typeable in a query and must not be one that a read
query uses for its own parts; vector search needs an embedder and takes one limit at most. Keys are
looked at first, in the order of declaration, and the first fault is the one reported.
-/

namespace SearchCompiler.Settings

inductive SettingsError where
  | reservedKey (key : String)
  | invalidKey (key : String)
  | missingEmbedder (embeddingField : String)
  | conflictingLimits
  deriving DecidableEq, Repr

def SettingsError.message : SettingsError → String
  | .reservedKey key => "Field key '" ++ key ++ "' collides with a reserved tokenizer key"
  | .invalidKey key =>
    "Field key '" ++ key ++
      "' cannot be typed in a query (empty, leading '-', ':' or whitespace)"
  | .missingEmbedder field => "Vector search on '" ++ field ++ "' has no embedder attached"
  | .conflictingLimits => "Vector search sets more than one of k, max_distance and min_score"

/-- The keys that a read query uses for its own parts. -/
def reservedKeys : List String := ["text", "exclude"]

/-- Whether a key can be typed in a query: it is not empty, begins with no minus sign and holds
neither a colon nor a blank. -/
def isTypeable (key : List Char) : Bool :=
  !key.isEmpty && key.head? != some '-' && !key.contains ':' && !key.any Text.isBlank

def keyError? (key : String) : Option SettingsError :=
  if reservedKeys.contains key then some (.reservedKey key)
  else if isTypeable key.toList then none
  else some (.invalidKey key)

/-- The number of limits that a vector search sets. -/
def VectorSearch.limits (search : VectorSearch) : Nat :=
  search.count.isSome.toNat + search.maxDistance.isSome.toNat + search.minScore.isSome.toNat

def VectorSearch.error? (search : VectorSearch) : Option SettingsError :=
  if search.embedder.isNone then some (.missingEmbedder search.embeddingField)
  else if 1 < search.limits then some .conflictingLimits
  else none

/-- What is wrong with settings; `none` where they can be used. -/
def Entity.error? (entity : Entity) : Option SettingsError :=
  (entity.fields.names.findSome? keyError?).or (entity.vectorSearch.bind VectorSearch.error?)

end SearchCompiler.Settings
