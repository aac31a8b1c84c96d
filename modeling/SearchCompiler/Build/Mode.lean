/-!
How a document is put together. Vector search is used only for free text that is there and not
quoted, where it is set up; everything else is keyword search.
-/

namespace SearchCompiler.Build

inductive Mode where
  /-- Filters, and phrases where there is free text. -/
  | keyword
  /-- Vector search with the filters inside. -/
  | vector
  /-- Vector search and keyword search side by side. -/
  | hybrid
  deriving DecidableEq, Repr

def Mode.label : Mode → String
  | .keyword => "keyword"
  | .vector => "vector"
  | .hybrid => "hybrid"

structure ModeInputs where
  /-- Whether there is free text that is not blank. -/
  freeText : Bool
  quoted : Bool
  vectorSearch : Bool
  hybridWanted : Bool
  deriving DecidableEq, Repr

/-- The mode for each of the sixteen cases. -/
def Mode.select : ModeInputs → Mode
  | ⟨true, false, true, true⟩ => .hybrid
  | ⟨true, false, true, false⟩ => .vector
  | _ => .keyword

end SearchCompiler.Build
