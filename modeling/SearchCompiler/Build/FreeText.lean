import SearchCompiler.Query.Group
import SearchCompiler.Query.Phrase
import SearchCompiler.Text.Blank
import SearchCompiler.Text.Split

/-!
The free text of a query. Quoted phrases, where the query has any, are the free text; otherwise it
is the whole of a bare query or what is left of a structured one.
-/

namespace SearchCompiler.Build

open Query

structure FreeText where
  text : String
  quoted : Bool
  deriving DecidableEq, Repr

/-- The free text of a query that has been read. -/
def FreeText.ofQuery (query : String) (reading : Reading) : FreeText :=
  let quoted := phrases query.toList
  if quoted.isEmpty then
    match reading with
    | .bare text => ⟨text, false⟩
    | .structured parsed => ⟨parsed.freeText?.getD "", false⟩
  else ⟨String.ofList (Text.joinWords quoted), true⟩

def FreeText.isPresent (freeText : FreeText) : Bool := !Text.isBlankText freeText.text.toList

end SearchCompiler.Build
