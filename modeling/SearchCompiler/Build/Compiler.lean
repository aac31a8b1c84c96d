import SearchCompiler.Build.FieldFilter
import SearchCompiler.Build.FreeText
import SearchCompiler.Settings.Check

/-!
From a query to a document. The required terms and the clauses of the fields asked for have to hold
and the clauses of the fields excluded must not; the mode then decides how the free text joins them:
as a phrase, as a vector to be near to, or as both. Fields are compiled in the order of their
declaration, so resolvers are called in that order; the embedder is called once at most, and last.
-/

namespace SearchCompiler.Build

open Calendar Document Query Settings

abbrev Tokenizer := Vocabulary → String → Reading

structure Compiler where
  settings : Entity
  usable : settings.error? = none
  /-- What "now" means in date terms. -/
  clock : Instant
  tokenizer : Tokenizer := tokenize

def Compiler.create (settings : Entity) (clock : Instant) : Except SettingsError Compiler :=
  match fault : settings.error? with
  | some error => .error error
  | none => .ok { settings, usable := fault, clock }

/-- A document and how it came about. -/
structure Built where
  document : Clause
  /-- The query as read; none where it was free text as a whole. -/
  parsed : Option ParsedQuery
  mode : Mode

/-- One field that a group has values for. -/
structure Request where
  key : String
  field : Field
  /-- What the group says about it. -/
  values : FieldValues

/-- The declared fields that a group has values for, in the order of declaration. -/
def requests (settings : Entity) (group : TokenGroup) : List Request :=
  settings.fields.entries.filterMap fun entry =>
    (group.values? entry.1).map fun values => ⟨entry.1, entry.2, values⟩

/-- The fields that a group names and the settings do not declare. -/
def unknownFields (settings : Entity) (group : TokenGroup) : List String :=
  group.fields.filter fun key => !settings.fields.contains key

/-- The clauses of several fields, one field after the other. -/
def clausesOf (clock : Instant) (polarity : Polarity) :
    List Request → Recorded Failure (List Clause)
  | [] => pure []
  | request :: rest => do
    let clauses ← fieldClauses clock polarity request.key request.field request.values
    let others ← clausesOf clock polarity rest
    pure (clauses ++ others)

/-- The clauses of a group. Fields that are not declared are reported first and give none. -/
def groupClauses (compiler : Compiler) (polarity : Polarity) (group : TokenGroup) :
    Recorded Failure (List Clause) := do
  .note ((unknownFields compiler.settings group).flatMap fun key =>
    dropped (.unknownField key) .unknownField)
  clausesOf compiler.clock polarity (requests compiler.settings group)

def requiredClauses (settings : Entity) : List Clause :=
  settings.required.entries.map fun entry => .term entry.1 entry.2

/-- The filter of a query that has been read, free text apart. -/
def filterOf (compiler : Compiler) (reading : Reading) : Recorded Failure BoolFilter :=
  let required := requiredClauses compiler.settings
  match reading with
  | .bare _ => pure { must := required }
  | .structured parsed => do
    let included ← groupClauses compiler .included parsed.included
    let excluded ← groupClauses compiler .excluded parsed.excluded
    pure { must := required ++ included, mustNot := excluded }

/-- The clause that looks for free text: a phrase in any of the fields set up for it. -/
def phraseClause (settings : Entity) (text : String) : Clause :=
  .anyOf (settings.phraseFields.map fun field => .phrase field text)

/-- The vector search of some settings with its embedder, where it is set up. -/
def vectorSearch? (settings : Entity) : Option (VectorSearch × Embedder) := do
  let search ← settings.vectorSearch
  let embedder ← search.embedder
  some (search, embedder)

def modeFor (settings : Entity) (freeText : FreeText) : Mode :=
  let vector := vectorSearch? settings
  .select
    { freeText := freeText.isPresent
      quoted := freeText.quoted
      vectorSearch := vector.isSome
      hybridWanted := vector.any fun search => decide (search.1.style = .hybrid) }

def nearestQuery (search : VectorSearch) (embedder : Embedder) (text : String)
    (filter : BoolFilter) : Recorded Failure NearestQuery := do
  .note [.call (.embed text)]
  match embedder text with
  | .ok vector => do
    .note [.metric (.called Hook.embedder.label true)]
    pure
      { field := search.embeddingField
        vector
        count := search.count
        maxDistance := search.maxDistance
        minScore := search.minScore
        filter }
  | .error cause => do
    .note [.metric (.called Hook.embedder.label false),
      .event (.embedderFailed search.embeddingField cause)]
    .fail (.hook (.embedder cause))

def assemble (settings : Entity) (mode : Mode) (freeText : FreeText) (filter : BoolFilter) :
    Recorded Failure Clause :=
  let phrase :=
    if freeText.isPresent then some (phraseClause settings freeText.text) else none
  match mode, vectorSearch? settings, phrase with
  | .vector, some (search, embedder), _ => do
    let query ← nearestQuery search embedder freeText.text filter
    pure (.nearest query)
  | .hybrid, some (search, embedder), some phrase => do
    let query ← nearestQuery search embedder freeText.text filter
    pure (.hybrid query (filter.require phrase))
  | _, _, some phrase => pure (.bool (filter.require phrase))
  | _, _, none => pure (.bool filter)

/-- Compile a query, the time not taken. -/
def compile (compiler : Compiler) (query : String) : Recorded Failure Built := do
  .note [.event (.opened query)]
  let reading := compiler.tokenizer compiler.settings.vocabulary query
  let filter ← filterOf compiler reading
  let freeText := FreeText.ofQuery query reading
  let mode := modeFor compiler.settings freeText
  .note [.event (.decided mode),
    .event (.assembling mode filter.must.length filter.mustNot.length freeText.quoted)]
  let document ← assemble compiler.settings mode freeText filter
  .note [.metric (.built mode.label)]
  pure
    { document
      parsed := reading.parsed?
      mode }

/-- Compile a query. The time of a build is taken however it ends. -/
def Compiler.build (compiler : Compiler) (query : String) : Recorded Failure Built :=
  (compile compiler query).alwaysNote [.metric .timed]

end SearchCompiler.Build
