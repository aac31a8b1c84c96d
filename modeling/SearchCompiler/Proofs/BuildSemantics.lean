import SearchCompiler.Build.Compiler

/-! What a build that ends with a document has computed, told without its journal. The clauses of a
field are its leaves, combined as its settings say; a filter is the required terms, then the
clauses of the two sides of the query; and the assembly has one shape for each mode. A build ends
with a document exactly when the two sides compile and the assembly has that shape. -/
namespace SearchCompiler.BuildSemantics
open Build Calendar Document Query Settings

/-! ## One field -/

/-- The values of a field behind its decoder, where it has one. -/
def decoded (polarity : Polarity) (field : Field) (values : FieldValues) : FieldValues :=
  match field.decoder with
  | none => values
  | some decode => decode polarity values

/-- What a term field looks for: its values, or what its resolver makes of them. -/
def lookedFor (polarity : Polarity) (field : Field) (values : List String) :
    Except String (List String) :=
  match field.resolver with
  | none => .ok values
  | some resolve => resolve polarity values

/-- The leaf clauses that the values of a field stand for. Values of the wrong shape, a resolver
that fails and a range with an end that means nothing give none. -/
def leaves (clock : Instant) (polarity : Polarity) (field : Field) (values : FieldValues) :
    List Clause :=
  match field.kind, decoded polarity field values with
  | .term, .list given =>
    match lookedFor polarity field given with
    | .ok found => found.map fun value => .term field.indexField value
    | .error _ => []
  | .text, .list given => given.map fun value => .analyzed field.indexField value
  | .range, .range ends =>
    match DateTerm.resolve clock ends.start.toList, DateTerm.resolve clock ends.stop.toList with
    | .ok (some first), .ok (some last) =>
      [.range field.indexField (String.ofList first.iso) (String.ofList last.iso)]
    | _, _ => []
  | _, _ => []

variable {clock : Instant} {polarity : Polarity} {key : String} {field : Field}
variable {values : FieldValues} {clauses : List Clause}

theorem decodedValues_outcome :
    (decodedValues polarity key field values).outcome = .ok (decoded polarity field values) := by
  unfold decodedValues decoded
  cases field.decoder <;> rfl

/-- A term field has one leaf for each value that its resolver found. -/
theorem termClauses_ok_iff {given : List String} :
    (termClauses polarity key field given).outcome = .ok clauses ↔
      ∃ found, lookedFor polarity field given = .ok found ∧
        clauses = found.map fun value => .term field.indexField value := by
  have resolved : (resolvedValues polarity key field given).outcome =
      lookedFor polarity field given := by
    unfold resolvedValues lookedFor
    cases field.resolver with
    | none => rfl
    | some resolve =>
      dsimp only
      rw [Recorded.note_bind]
      cases resolve polarity given <;> rfl
  unfold termClauses
  rw [Recorded.bind_ok_iff]
  simp only [Recorded.pure_eq, Except.ok.injEq, resolved, eq_comm]

/-- A range field has one leaf where both ends mean something, and none where they only read. -/
theorem rangeClauses_ok_iff {ends : Endpoints} :
    (rangeClauses clock field ends).outcome = .ok clauses ↔
      ∃ first last, DateTerm.resolve clock ends.start.toList = .ok first ∧
        DateTerm.resolve clock ends.stop.toList = .ok last ∧
        clauses = match first, last with
          | some first, some last =>
            [.range field.indexField (String.ofList first.iso) (String.ofList last.iso)]
          | _, _ => [] := by
  unfold rangeClauses
  simp only [Recorded.bind_ok_iff, Recorded.ofExcept]
  refine exists_congr fun first => ?_
  rw [← exists_and_left]
  refine exists_congr fun last => and_congr_right fun _ => and_congr_right fun _ => ?_
  cases first <;> cases last <;> simp [Recorded.pure_eq, Recorded.note_bind, eq_comm]

/-- A field that compiles gives its leaves, combined as its settings say. -/
theorem fieldClauses_ok
    (ended : (fieldClauses clock polarity key field values).outcome = .ok clauses) :
    clauses = combine field.connect (leaves clock polarity field values) := by
  obtain ⟨given, decodes, ended⟩ := Recorded.bind_ok_iff.mp ended
  obtain ⟨found, compiles, same⟩ := Recorded.bind_ok_iff.mp ended
  rw [decodedValues_outcome] at decodes
  cases decodes
  cases same
  congr 1
  unfold leafClauses at compiles
  unfold leaves
  cases kind : field.kind <;> cases shape : decoded polarity field values <;>
    simp only [kind, shape] at compiles ⊢
  case term.list given =>
    rw [Recorded.rescue_ok_iff (by simp [Recorded.note_bind, Recorded.fail]),
      termClauses_ok_iff] at compiles
    obtain ⟨found, looked, rfl⟩ := compiles
    simp only [looked]
  case range.range ends =>
    rw [Recorded.rescue_ok_iff (by simp [Recorded.fail]), rangeClauses_ok_iff] at compiles
    obtain ⟨first, last, start, stop, rfl⟩ := compiles
    simp only [start, stop]
    cases first <;> cases last <;> rfl
  all_goals cases compiles; rfl

/-! ## The two sides of a query -/

/-- What a query that has been read says on one side. A bare query says nothing on either. -/
def side (reading : Reading) (polarity : Polarity) : TokenGroup :=
  match reading, polarity with
  | .bare _, _ => {}
  | .structured parsed, .included => parsed.included
  | .structured parsed, .excluded => parsed.excluded

/-- The clauses of one side, field by field in the order of declaration. -/
def sideClauses (compiler : Compiler) (reading : Reading) (polarity : Polarity) : List Clause :=
  (requests compiler.settings (side reading polarity)).flatMap fun request =>
    combine request.field.connect (leaves compiler.clock polarity request.field request.values)

/-- The filter of a query that has been read, free text apart. -/
def plainFilter (compiler : Compiler) (reading : Reading) : BoolFilter where
  must := requiredClauses compiler.settings ++ sideClauses compiler reading .included
  mustNot := sideClauses compiler reading .excluded

variable {compiler : Compiler} {reading : Reading}

/-- A group asks for exactly the declared fields that it has values for. -/
theorem mem_requests {settings : Entity} {group : TokenGroup} {request : Request} :
    request ∈ requests settings group ↔
      (request.key, request.field) ∈ settings.fields.entries ∧
        group.values? request.key = some request.values := by
  simp only [requests, List.mem_filterMap, Option.map_eq_some_iff]
  constructor
  · rintro ⟨⟨key, field⟩, declared, values, given, rfl⟩
    exact ⟨declared, given⟩
  · rintro ⟨declared, given⟩
    exact ⟨(request.key, request.field), declared, request.values, given, rfl⟩

theorem requests_empty {settings : Entity} : requests settings {} = [] :=
  List.filterMap_eq_nil_iff.mpr fun _ _ => rfl

/-- Every clause of a side comes from a declared field that the side has values for. -/
theorem mem_sideClauses {clause : Clause} :
    clause ∈ sideClauses compiler reading polarity ↔
      ∃ key field values, (key, field) ∈ compiler.settings.fields.entries ∧
        (side reading polarity).values? key = some values ∧
        clause ∈ combine field.connect (leaves compiler.clock polarity field values) := by
  simp only [sideClauses, List.mem_flatMap, mem_requests]
  constructor
  · rintro ⟨⟨key, field, values⟩, ⟨declared, given⟩, member⟩
    exact ⟨key, field, values, declared, given, member⟩
  · rintro ⟨key, field, values, declared, given, member⟩
    exact ⟨⟨key, field, values⟩, ⟨declared, given⟩, member⟩

theorem clausesOf_ok {asked : List Request}
    (ended : (clausesOf clock polarity asked).outcome = .ok clauses) :
    clauses = asked.flatMap fun request =>
      combine request.field.connect (leaves clock polarity request.field request.values) := by
  induction asked generalizing clauses with
  | nil => cases ended; rfl
  | cons request rest ih =>
    obtain ⟨first, compiles, ended⟩ := Recorded.bind_ok_iff.mp ended
    obtain ⟨others, compileRest, same⟩ := Recorded.bind_ok_iff.mp ended
    cases same
    rw [List.flatMap_cons, fieldClauses_ok compiles, ih compileRest]

/-- Unknown fields are only reported: a side compiles to its clauses and nothing else. -/
theorem groupClauses_ok
    (ended : (groupClauses compiler polarity (side reading polarity)).outcome = .ok clauses) :
    clauses = sideClauses compiler reading polarity := by
  obtain ⟨_, _, ended⟩ := Recorded.bind_ok_iff.mp ended
  exact clausesOf_ok ended

theorem groupClauses_empty : (groupClauses compiler polarity {}).outcome = .ok [] := by
  unfold groupClauses
  rw [requests_empty]
  rfl

/-- A query compiles to its filter exactly when both its sides compile. -/
theorem filterOf_ok_iff {filter : BoolFilter} :
    (filterOf compiler reading).outcome = .ok filter ↔
      (∀ polarity, ∃ clauses,
        (groupClauses compiler polarity (side reading polarity)).outcome = .ok clauses) ∧
      filter = plainFilter compiler reading := by
  cases reading with
  | bare text =>
    have plain : plainFilter compiler (.bare text) = ⟨requiredClauses compiler.settings, []⟩ := by
      simp [plainFilter, sideClauses, side, requests_empty]
    rw [plain]
    simp [filterOf, Recorded.pure_eq, side, groupClauses_empty, eq_comm]
  | structured parsed =>
    constructor
    · intro ended
      obtain ⟨included, asked, ended⟩ := Recorded.bind_ok_iff.mp ended
      obtain ⟨excluded, refused, same⟩ := Recorded.bind_ok_iff.mp ended
      cases same
      have askedSame : included = sideClauses compiler (.structured parsed) .included :=
        groupClauses_ok asked
      have refusedSame : excluded = sideClauses compiler (.structured parsed) .excluded :=
        groupClauses_ok refused
      refine ⟨?_, by rw [askedSame, refusedSame]; rfl⟩
      rintro (_ | _)
      · exact ⟨included, asked⟩
      · exact ⟨excluded, refused⟩
    · rintro ⟨compile, rfl⟩
      obtain ⟨included, asked⟩ := compile .included
      obtain ⟨excluded, refused⟩ := compile .excluded
      have askedSame := groupClauses_ok asked
      have refusedSame := groupClauses_ok refused
      subst included excluded
      exact Recorded.bind_ok_iff.mpr ⟨_, asked, Recorded.bind_ok_iff.mpr ⟨_, refused, rfl⟩⟩

/-! ## The assembly -/

/-- A filter with the phrase clause, where there is free text. -/
def withPhrase (settings : Entity) (freeText : FreeText) (filter : BoolFilter) : BoolFilter :=
  if freeText.isPresent then filter.require (phraseClause settings freeText.text) else filter

/-- The vector search for a vector within a filter. -/
def nearestTo (search : VectorSearch) (vector : List Float) (filter : BoolFilter) :
    NearestQuery where
  field := search.embeddingField
  vector := vector
  count := search.count
  maxDistance := search.maxDistance
  minScore := search.minScore
  filter := filter

/-- What vector search needs: it is set up with an embedder, and there is free text that is not
quoted. -/
structure Searching (settings : Entity) (freeText : FreeText) (search : VectorSearch)
    (embedder : Embedder) : Prop where
  found : vectorSearch? settings = some (search, embedder)
  present : freeText.isPresent = true
  unquoted : freeText.quoted = false

/-- What a document looks like in each mode. -/
inductive Assembled (settings : Entity) (freeText : FreeText) (filter : BoolFilter) :
    Mode → Clause → Prop where
  | keyword :
    Assembled settings freeText filter .keyword (.bool (withPhrase settings freeText filter))
  | vector {search : VectorSearch} {embedder : Embedder} {vector : List Float}
      (searching : Searching settings freeText search embedder)
      (made : embedder freeText.text = .ok vector) (style : search.style = .replacing) :
    Assembled settings freeText filter .vector (.nearest (nearestTo search vector filter))
  | hybrid {search : VectorSearch} {embedder : Embedder} {vector : List Float}
      (searching : Searching settings freeText search embedder)
      (made : embedder freeText.text = .ok vector) (style : search.style = .hybrid) :
    Assembled settings freeText filter .hybrid
      (.hybrid (nearestTo search vector filter) (withPhrase settings freeText filter))

variable {settings : Entity} {freeText : FreeText} {filter : BoolFilter}
variable {search : VectorSearch} {embedder : Embedder}

/-- Which mode a vector search runs in depends on the settings alone. -/
theorem Searching.mode (searching : Searching settings freeText search embedder) :
    modeFor settings freeText = match search.style with
      | .replacing => .vector
      | .hybrid => .hybrid := by
  unfold modeFor
  rw [searching.found, searching.present, searching.unquoted]
  cases style : search.style <;> simp [Mode.select, style]

/-- Everything but a vector search is left to the keyword mode. -/
theorem keyword_or_searching (settings : Entity) (freeText : FreeText) :
    modeFor settings freeText = .keyword ∨
      ∃ search embedder, Searching settings freeText search embedder := by
  cases found : vectorSearch? settings with
  | none =>
    refine .inl ?_
    unfold modeFor
    rw [found]
    cases freeText.isPresent <;> cases freeText.quoted <;> rfl
  | some vector =>
    cases present : freeText.isPresent with
    | false => exact .inl (by rw [modeFor, present]; rfl)
    | true =>
      cases quoted : freeText.quoted with
      | true => exact .inl (by rw [modeFor, present, quoted]; rfl)
      | false => exact .inr ⟨vector.1, vector.2, found, present, quoted⟩

theorem Searching.not_keyword (searching : Searching settings freeText search embedder) :
    modeFor settings freeText ≠ .keyword := by
  rw [searching.mode]
  cases search.style <;> exact Mode.noConfusion

/-- The keyword mode assembles a filter and asks for no vector. -/
theorem assemble_keyword :
    assemble settings .keyword freeText filter =
      pure (.bool (withPhrase settings freeText filter)) := by
  unfold assemble withPhrase
  cases freeText.isPresent <;> rfl

/-- The other modes ask for the vector first, and never reach the arm that catches every case not
named. -/
theorem Searching.assemble (searching : Searching settings freeText search embedder) :
    Build.assemble settings (modeFor settings freeText) freeText filter =
      nearestQuery search embedder freeText.text filter >>= fun nearest =>
        pure (match search.style with
          | .replacing => .nearest nearest
          | .hybrid => .hybrid nearest (withPhrase settings freeText filter)) := by
  rw [searching.mode, withPhrase, if_pos searching.present]
  cases search.style <;>
    simp only [Build.assemble, searching.found, searching.present, if_true]

theorem nearestQuery_ok_iff {text : String} {nearest : NearestQuery} :
    (nearestQuery search embedder text filter).outcome = .ok nearest ↔
      ∃ vector, embedder text = .ok vector ∧ nearest = nearestTo search vector filter := by
  unfold nearestQuery
  rw [Recorded.note_bind]
  cases answer : embedder text with
  | ok vector =>
    simp only [Recorded.note_bind, Recorded.pure_eq, Except.ok.injEq, exists_eq_left']
    exact eq_comm
  | error cause => simp [Recorded.note_bind, Recorded.fail]

/-- The assembly ends with a document exactly when the document has the shape of the mode. -/
theorem assemble_ok_iff {mode : Mode} {document : Clause}
    (chosen : modeFor settings freeText = mode) :
    (assemble settings mode freeText filter).outcome = .ok document ↔
      Assembled settings freeText filter mode document := by
  subst chosen
  obtain plain | ⟨search, embedder, searching⟩ := keyword_or_searching settings freeText
  · rw [plain, assemble_keyword]
    constructor
    · intro same
      cases same
      exact .keyword
    · intro assembled
      cases assembled
      rfl
  rw [searching.assemble, searching.mode, Recorded.bind_ok_iff]
  constructor
  · rintro ⟨nearest, answered, same⟩
    obtain ⟨vector, made, rfl⟩ := nearestQuery_ok_iff.mp answered
    cases same
    cases style : search.style with
    | replacing => exact .vector searching made style
    | hybrid => exact .hybrid searching made style
  · intro assembled
    cases style : search.style with
    | replacing =>
      rw [style] at assembled
      cases assembled with
      | vector other made _ =>
        cases searching.found.symm.trans other.found
        exact ⟨_, nearestQuery_ok_iff.mpr ⟨_, made, rfl⟩, rfl⟩
    | hybrid =>
      rw [style] at assembled
      cases assembled with
      | hybrid other made _ =>
        cases searching.found.symm.trans other.found
        exact ⟨_, nearestQuery_ok_iff.mpr ⟨_, made, rfl⟩, rfl⟩

/-! ## The build -/

/-- The query as the tokenizer of a compiler reads it. -/
def readingOf (compiler : Compiler) (query : String) : Reading :=
  compiler.tokenizer compiler.settings.vocabulary query

/-- The free text of a query as the tokenizer of a compiler reads it. -/
def searchTextOf (compiler : Compiler) (query : String) : FreeText :=
  .ofQuery query (readingOf compiler query)

/-- A build ends with a document exactly when both sides of the query compile and the document has
the shape of its mode, which the settings and the free text decide. -/
theorem build_ok_iff {query : String} {built : Built} :
    (compiler.build query).outcome = .ok built ↔
      (∀ polarity, ∃ clauses, (groupClauses compiler polarity
        (side (readingOf compiler query) polarity)).outcome = .ok clauses) ∧
      built.mode = modeFor compiler.settings (searchTextOf compiler query) ∧
      built.parsed = (readingOf compiler query).parsed? ∧
      Assembled compiler.settings (searchTextOf compiler query)
        (plainFilter compiler (readingOf compiler query)) built.mode built.document := by
  obtain ⟨document, parsed, mode⟩ := built
  change (compile compiler query).outcome = .ok ⟨document, parsed, mode⟩ ↔ _
  unfold compile readingOf searchTextOf readingOf
  simp only [Recorded.bind_ok_iff, filterOf_ok_iff]
  constructor
  · rintro ⟨_, _, _, ⟨sides, rfl⟩, _, _, _, assembled, _, _, same⟩
    cases same
    exact ⟨sides, rfl, rfl, (assemble_ok_iff rfl).mp assembled⟩
  · rintro ⟨sides, rfl, rfl, assembled⟩
    exact ⟨(), rfl, _, ⟨sides, rfl⟩, (), rfl, _, (assemble_ok_iff rfl).mpr assembled, (), rfl, rfl⟩

/-! ## A shop -/

/-- The drinks of one tenant. Whatever is typed is read as a search for red and sweet cola that is
no beer; what a group of drinks holds is asked of the resolver. -/
def shopWith (resolver : Resolver) : Compiler where
  settings :=
    { fields :=
        ⟨[("tag", { kind := .term, indexField := "tags", connect := .all }),
          ("group", { kind := .term, indexField := "tag_ids", resolver := some resolver })],
          by simp⟩
      phraseFields := ["title"]
      vectorSearch := some
        { embeddingField := "embedding", style := .hybrid, embedder := some fun _ => .ok [] }
      required := ⟨[("tenant", "acme")], by decide⟩ }
  usable := by
    have typeable : ["tag", "group"].findSome? keyError? = none := by decide +kernel
    exact Option.or_eq_none_iff.mpr ⟨typeable, rfl⟩
  clock := .ofSeconds 0
  tokenizer := fun _ _ => .structured
    { included :=
        { keywords := ⟨[("group", ["drinks"]), ("tag", ["red", "sweet"])], by decide⟩
          text := ["cola"] }
      excluded := { keywords := ⟨[("group", ["beers"])], by decide⟩ } }

/-- The shop in which every group holds two tags. -/
def shop : Compiler :=
  shopWith fun _ groups => .ok (groups.flatMap fun group => [group ++ "-1", group ++ "-2"])

/-- What the shop filters its drinks by. -/
def shopFilter : BoolFilter where
  must := [.term "tenant" "acme", .term "tags" "red", .term "tags" "sweet",
    .anyOf [.term "tag_ids" "drinks-1", .term "tag_ids" "drinks-2"]]
  mustNot := [.anyOf [.term "tag_ids" "beers-1", .term "tag_ids" "beers-2"]]

/-- What the shop makes of a search for cola. -/
def shopBuilt : Built where
  document := .hybrid { field := "embedding", vector := [], filter := shopFilter }
    (shopFilter.require (.anyOf [.phrase "title" "cola"]))
  parsed := (readingOf shop "cola").parsed?
  mode := .hybrid

theorem shop_build : (shop.build "cola").outcome = .ok shopBuilt := rfl

end SearchCompiler.BuildSemantics
