import SearchCompiler.Decimal.Layout
import SearchCompiler.Settings.Entity

/-!
Settings as one line of text for a person to look at. Records are written with their names, maps in
braces, lists in brackets; attached functions show only whether they are there.
-/

namespace SearchCompiler.Settings

/-- A value with the text that describes it. -/
class Describe (α : Type) where
  describe : α → String

export Describe (describe)

/-- A text between quotes, quotes and backslashes escaped. -/
def quote (text : String) : String :=
  String.ofList
    ('"' :: text.toList.flatMap (fun c => if c = '"' ∨ c = '\\' then ['\\', c] else [c]) ++ ['"'])

/-- Floats are positional from `0.0001` up to sixteen digits. -/
def floatLayout : Decimal.Layout := ⟨-4, 15, false, .above⟩

def describeFloat (x : Float) : String :=
  match floatLayout.text? x with
  | some text => String.ofList text
  | none =>
    match Decimal.Size.ofFloat x with
    | .infinite => if Decimal.isNegative x then "-inf" else "inf"
    | _ => "NaN"

instance : Describe String := ⟨quote⟩

instance : Describe Bool := ⟨fun value => if value then "true" else "false"⟩

instance : Describe Nat := ⟨fun value => String.ofList (Nat.toDigits 10 value)⟩

instance : Describe Float := ⟨describeFloat⟩

instance {α : Type} [Describe α] : Describe (Option α) where
  describe
    | none => "None"
    | some value => "Some(" ++ describe value ++ ")"

instance {α : Type} [Describe α] : Describe (List α) where
  describe values := "[" ++ ", ".intercalate (values.map describe) ++ "]"

instance {α : Type} [Describe α] : Describe (OrderedMap α) where
  describe map :=
    "\x7b" ++ ", ".intercalate (map.entries.map fun entry =>
      describe entry.1 ++ ": " ++ describe entry.2) ++ "\x7d"

/-- The description of a record from those of its members. -/
def describeRecord (name : String) (members : List (String × String)) : String :=
  name ++ " \x7b " ++ ", ".intercalate (members.map fun member => member.1 ++ ": " ++ member.2) ++
    " \x7d"

instance : Describe FieldKind where
  describe
    | .term => "Term"
    | .range => "Range"
    | .text => "Text"

instance : Describe Connect where
  describe
    | .all => "And"
    | .any => "Or"

instance : Describe VectorStyle where
  describe
    | .replacing => "Vector"
    | .hybrid => "Hybrid"

instance : Describe Field where
  describe field := describeRecord "FieldConfig"
    [("field_type", describe field.kind), ("index_field", describe field.indexField),
     ("logical_connect", describe field.connect), ("resolver", describe field.resolver.isSome),
     ("decoder", describe field.decoder.isSome)]

instance : Describe VectorSearch where
  describe search := describeRecord "VectorSearchConfig"
    [("embedding_field", describe search.embeddingField), ("k", describe search.count),
     ("max_distance", describe search.maxDistance), ("min_score", describe search.minScore),
     ("mode", describe search.style), ("embedder", describe search.embedder.isSome)]

instance : Describe Entity where
  describe entity := describeRecord "EntityConfig"
    [("fields", describe entity.fields),
     ("traditional_search", describeRecord "TraditionalSearch"
       [("fields", describe entity.phraseFields)]),
     ("vector_search", describe entity.vectorSearch),
     ("required_filters", describe entity.required)]

end SearchCompiler.Settings
