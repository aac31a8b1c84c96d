import SearchCompiler.Json.Writer
import SearchCompiler.Query.Group

/-!
A read query as JSON. The fields stand beside each other under their own names, then the free text
under `text`, then what is excluded under `exclude`; the last two are left out where they are empty.
-/

namespace SearchCompiler.Query

def Endpoints.json (endpoints : Endpoints) : Json.Value :=
  .object [("from", .string endpoints.start), ("to", .string endpoints.stop)]

def TokenGroup.members (group : TokenGroup) : List (String × Json.Value) :=
  (group.keywords.entries.map fun entry => (entry.1, Json.Value.strings entry.2)) ++
    (group.ranges.entries.map fun entry => (entry.1, entry.2.json)) ++
    (if group.text.isEmpty then [] else [("text", Json.Value.strings group.text)])

def ParsedQuery.json (parsed : ParsedQuery) : Json.Value :=
  .object (parsed.included.members ++
    (if parsed.excluded.isEmpty then []
     else [("exclude", Json.Value.object parsed.excluded.members)]))

end SearchCompiler.Query
