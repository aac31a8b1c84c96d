import SearchCompiler.Proofs.TokenGroups
import SearchCompiler.Proofs.WrittenText
import SearchCompiler.Settings.Load

/-! Settings that are written out load as the settings that are put together. A listing says what is
declared, in order, with keys that may repeat; it can be put together step by step, or written as an
object whose members leave out what says no more than its default. Any JSON text of such an object
loads as the same settings, but for the embedder, which no text holds. -/
namespace SearchCompiler.WrittenSettings
open Settings
open JsonGrammar WrittenText
open Json (Value)

/-! ## Listings -/

/-- One declared field. -/
structure Declaration where
  key : String
  kind : FieldKind
  indexField : String
  connect : Connect

def Declaration.field (declared : Declaration) : Field where
  kind := declared.kind
  indexField := declared.indexField
  connect := declared.connect

/-- A whole number that a float holds exactly. -/
abbrev Limit := Fin (1 <<< 53)

def Limit.float (limit : Limit) : Float := (UInt64.ofNat limit.val).toFloat

structure VectorSection where
  embeddingField : String
  count : Option Limit
  maxDistance : Option Limit
  minScore : Option Limit
  style : VectorStyle

/-- The search that a section describes, with an embedder or without. -/
def VectorSection.search (vector : VectorSection) (embedder : Option Embedder) : VectorSearch where
  embeddingField := vector.embeddingField
  count := vector.count.map Fin.val
  maxDistance := vector.maxDistance.map Limit.float
  minScore := vector.minScore.map Limit.float
  style := vector.style
  embedder := embedder

/-- Everything that settings are made of, in the order in which it is said. -/
structure Listing where
  phraseFields : List String
  declarations : List Declaration
  required : List (String × String)
  vector : Option VectorSection

/-- The settings that a listing puts together, one declaration after the other. -/
def Listing.assembled (listing : Listing) (embedder : Embedder) : Entity :=
  let declared := listing.declarations.foldl
    (fun entity declared => entity.declare declared.key declared.field)
    ({ phraseFields := listing.phraseFields } : Entity)
  let restricted := listing.required.foldl
    (fun entity term => entity.requireTerm term.1 term.2) declared
  match listing.vector with
  | some vector => restricted.withVectorSearch (vector.search (some embedder))
  | none => restricted

/-! ## How a listing is written -/

/-- An object of members, none of which is there twice and all of which are known. -/
structure RecordOf (known : List String) (members : List (String × Value)) : Prop where
  distinct : (members.map Prod.fst).Nodup
  known : ∀ member ∈ members, member.1 ∈ known

/-- A member has one of the values that tell a part, or is left out where the part is a default. -/
def Tells (members : List (String × Value)) (name : String) (told : Value → Prop) (default : Prop) :
    Prop :=
  (∃ value, (name, value) ∈ members ∧ told value) ∨ default ∧ name ∉ members.map Prod.fst

def kindWord : FieldKind → String
  | .term => "term"
  | .range => "range"
  | .text => "text"

def connectWord : Connect → String
  | .all => "AND"
  | .any => "OR"

def styleWord : VectorStyle → String
  | .replacing => "vector"
  | .hybrid => "hybrid"

/-- A limit that is not set is null. -/
def limitValue : Option Limit → Value
  | some limit => .natural limit.val
  | none => .null

/-- The members that write a field. -/
structure WritesField (declared : Declaration) (members : List (String × Value)) : Prop where
  record : RecordOf ["type", "index_field", "logical_connect"] members
  kind : ("type", .string (kindWord declared.kind)) ∈ members
  indexField : ("index_field", .string declared.indexField) ∈ members
  connect : Tells members "logical_connect" (· = .string (connectWord declared.connect))
    (declared.connect = .any)

/-- The members that write fields: one for each declaration, in order. -/
def WritesFields (declarations : List Declaration) (members : List (String × Value)) : Prop :=
  List.Forall₂ (fun declared member => member.1 = declared.key ∧
    ∃ settings, member.2 = .object settings ∧ WritesField declared settings) declarations members

structure WritesPhraseFields (fields : List String) (members : List (String × Value)) : Prop where
  record : RecordOf ["fields"] members
  fields : Tells members "fields" (· = .strings fields) (fields = [])

structure WritesVector (vector : VectorSection) (members : List (String × Value)) : Prop where
  record : RecordOf ["embedding_field", "k", "max_distance", "min_score", "mode"] members
  embeddingField : ("embedding_field", .string vector.embeddingField) ∈ members
  count : Tells members "k" (· = limitValue vector.count) (vector.count = none)
  maxDistance : Tells members "max_distance" (· = limitValue vector.maxDistance)
    (vector.maxDistance = none)
  minScore : Tells members "min_score" (· = limitValue vector.minScore) (vector.minScore = none)
  style : Tells members "mode" (· = .string (styleWord vector.style)) (vector.style = .replacing)

/-- Without a vector section its value is null. -/
def WritesSection : Option VectorSection → Value → Prop
  | some vector, value => ∃ members, value = .object members ∧ WritesVector vector members
  | none, value => value = .null

/-- The members that write a listing. -/
structure Lists (listing : Listing) (members : List (String × Value)) : Prop where
  record : RecordOf ["fields", "traditional_search", "vector_search", "required_filters"] members
  fields : Tells members "fields"
    (fun value => ∃ inside, value = .object inside ∧ WritesFields listing.declarations inside)
    (listing.declarations = [])
  phraseFields : Tells members "traditional_search"
    (fun value => ∃ inside, value = .object inside ∧ WritesPhraseFields listing.phraseFields inside)
    (listing.phraseFields = [])
  vector : Tells members "vector_search" (WritesSection listing.vector) (listing.vector = none)
  required : Tells members "required_filters"
    (· = .object (listing.required.map fun term => (term.1, .string term.2)))
    (listing.required = [])

/-- The JSON texts of a listing. -/
def WritesText (listing : Listing) (text : List Char) : Prop :=
  ∃ members, Lists listing members ∧ SpellsText (.object members) text

/-! ## Records -/

section Records

variable {known : List String} {members : List (String × Value)} {name : String}

theorem RecordOf.record? (record : RecordOf known members) :
    record? known (.object members) = some members :=
  if_pos (record.distinct.sublist List.filter_sublist)

variable {α : Type} {read : Value → Option α} {part : α}

theorem RecordOf.needed (record : RecordOf known members) {value : Value}
    (written : (name, value) ∈ members) (reads : read value = some part) :
    needed name read members = some part := by
  rw [Settings.needed, OrderedMap.lookup_of_mem record.distinct written]
  exact reads

theorem RecordOf.defaulted (record : RecordOf known members) {told : Value → Prop} {default : Prop}
    (tells : Tells members name told default) {fallback : α}
    (reads : ∀ value, told value → read value = some part) (unsaid : default → fallback = part) :
    defaulted name fallback read members = some part := by
  unfold Settings.defaulted
  rcases tells with ⟨value, written, tellsPart⟩ | ⟨plain, absent⟩
  · rw [OrderedMap.lookup_of_mem record.distinct written]
    exact reads value tellsPart
  · rw [OrderedMap.lookup_of_absent absent]
    exact congrArg some (unsaid plain)

end Records

/-! ## Parts -/

theorem choice?_kind (kind : FieldKind) :
    choice? kindNames (.string (kindWord kind)) = some kind := by
  cases kind <;> rfl

theorem choice?_connect (connect : Connect) :
    choice? connectNames (.string (connectWord connect)) = some connect := by
  cases connect <;> rfl

theorem choice?_style (style : VectorStyle) :
    choice? styleNames (.string (styleWord style)) = some style := by
  cases style <;> rfl

theorem natural?_natural (n : Nat) : natural? (.natural n) = some n := by
  have unsigned : (0 : Int) ≤ n := Int.natCast_nonneg n
  simp only [Value.natural, natural?, unsigned, if_true, Int.toNat_natCast]

theorem float?_natural (n : Nat) : float? (.natural n) = some (UInt64.ofNat n).toFloat := by
  have unsigned : ¬(n : Int) < 0 := Int.not_lt.mpr (Int.natCast_nonneg n)
  simp only [Value.natural, float?, unsigned, if_false, Int.natAbs_natCast]

theorem nullable_limit {α : Type} {read : Value → Option α} {meaning : Limit → α}
    (reads : ∀ limit : Limit, read (.natural limit.val) = some (meaning limit))
    (limit : Option Limit) :
    nullable read (limitValue limit) = some (limit.map meaning) := by
  cases limit with
  | none => rfl
  | some limit =>
    change (read (.natural limit.val)).map some = _
    rw [reads]
    rfl

theorem texts?_strings (texts : List String) : texts? (.strings texts) = some texts :=
  Value.mapM_written fun _ _ => rfl

/-! ## Loading -/

theorem field_loads {declared : Declaration} {members : List (String × Value)}
    (writes : WritesField declared members) :
    Field.ofJson? (.object members) = some declared.field := by
  have kind : needed "type" (choice? kindNames) members = some declared.kind :=
    writes.record.needed writes.kind (choice?_kind declared.kind)
  have indexField : needed "index_field" text? members = some declared.indexField :=
    writes.record.needed writes.indexField rfl
  have connect : defaulted "logical_connect" .any (choice? connectNames) members =
      some declared.connect := by
    refine writes.record.defaulted writes.connect ?_ Eq.symm
    rintro _ rfl
    exact choice?_connect declared.connect
  rw [Field.ofJson?, writes.record.record?]
  simp only [Option.bind_eq_bind, Option.bind_some, kind, indexField, connect]
  rfl

theorem limit_loads {known : List String} {members : List (String × Value)}
    (record : RecordOf known members) {name : String} {limit : Option Limit}
    (tells : Tells members name (· = limitValue limit) (limit = none)) {α : Type}
    {read : Value → Option α} {meaning : Limit → α}
    (reads : ∀ limit : Limit, read (.natural limit.val) = some (meaning limit)) :
    defaulted name none (nullable read) members = some (limit.map meaning) := by
  refine record.defaulted tells ?_ ?_
  · rintro _ rfl
    exact nullable_limit reads limit
  · rintro rfl
    rfl

theorem vector_loads {vector : VectorSection} {members : List (String × Value)}
    (writes : WritesVector vector members) :
    VectorSearch.ofJson? (.object members) = some (vector.search none) := by
  have embeddingField : needed "embedding_field" text? members = some vector.embeddingField :=
    writes.record.needed writes.embeddingField rfl
  have count := limit_loads writes.record writes.count fun limit => natural?_natural limit.val
  have maxDistance : defaulted "max_distance" none (nullable float?) members =
      some (vector.maxDistance.map Limit.float) :=
    limit_loads writes.record writes.maxDistance fun limit => float?_natural limit.val
  have minScore : defaulted "min_score" none (nullable float?) members =
      some (vector.minScore.map Limit.float) :=
    limit_loads writes.record writes.minScore fun limit => float?_natural limit.val
  have style : defaulted "mode" .replacing (choice? styleNames) members = some vector.style := by
    refine writes.record.defaulted writes.style ?_ Eq.symm
    rintro _ rfl
    exact choice?_style vector.style
  rw [VectorSearch.ofJson?, writes.record.record?]
  simp only [Option.bind_eq_bind, Option.bind_some, embeddingField, count, maxDistance, minScore,
    style]
  rfl

/-- The value of a vector section is never null, so it is not passed over. -/
theorem section_loads {vector : Option VectorSection} {value : Value}
    (writes : WritesSection vector value) :
    nullable VectorSearch.ofJson? value = some (vector.map (VectorSection.search · none)) := by
  cases vector with
  | none =>
    cases writes
    rfl
  | some vector =>
    obtain ⟨members, rfl, inside⟩ := writes
    rw [nullable, vector_loads inside]
    · rfl
    · intro null
      cases null

theorem phraseFields_load {fields : List String} {members : List (String × Value)}
    (writes : WritesPhraseFields fields members) :
    phraseFields? (.object members) = some fields := by
  have listed : defaulted "fields" [] texts? members = some fields := by
    refine writes.record.defaulted writes.fields ?_ Eq.symm
    rintro _ rfl
    exact texts?_strings fields
  rw [phraseFields?, writes.record.record?]
  exact listed

/-- A map takes the members one after the other. -/
theorem map_loads {α β : Type} {read : Value → Option α} {key : β → String} {meaning : β → α}
    {parts : List β} {members : List (String × Value)}
    (written : List.Forall₂
      (fun part member => member.1 = key part ∧ read member.2 = some (meaning part))
      parts members) :
    map? read (.object members) =
      some (.ofList (parts.map fun part => (key part, meaning part))) := by
  have pairs : (members.mapM fun member => (read member.2).map fun value => (member.1, value)) =
      some (parts.map fun part => (key part, meaning part)) := by
    induction written with
    | nil => rfl
    | cons first _ ih =>
      rw [List.mapM_cons, first.2, ih, first.1]
      rfl
  rw [map?]
  simp only [pairs, Option.bind_eq_bind, Option.bind_some]

/-- What a listing loads as: maps made of its pairs, and a search without an embedder. -/
def Listing.loaded (listing : Listing) : Entity where
  fields := .ofList (listing.declarations.map fun declared => (declared.key, declared.field))
  phraseFields := listing.phraseFields
  vectorSearch := listing.vector.map (VectorSection.search · none)
  required := .ofList listing.required

theorem listing_loads {listing : Listing} {members : List (String × Value)}
    (lists : Lists listing members) : Entity.ofJson? (.object members) = some listing.loaded := by
  have fields : defaulted "fields" ∅ (map? Field.ofJson?) members = some listing.loaded.fields := by
    refine lists.record.defaulted lists.fields ?_ ?_
    · rintro _ ⟨inside, rfl, written⟩
      refine map_loads (written.imp ?_)
      rintro declared member ⟨named, settings, same, writes⟩
      exact ⟨named, same ▸ field_loads writes⟩
    · intro none
      rw [Listing.loaded, none]
      rfl
  have phraseFields : defaulted "traditional_search" [] phraseFields? members =
      some listing.phraseFields := by
    refine lists.record.defaulted lists.phraseFields ?_ Eq.symm
    rintro _ ⟨inside, rfl, writes⟩
    exact phraseFields_load writes
  have vector : defaulted "vector_search" none (nullable VectorSearch.ofJson?) members =
      some listing.loaded.vectorSearch := by
    refine lists.record.defaulted lists.vector (fun value writes => section_loads writes) ?_
    intro none
    rw [Listing.loaded, none]
    rfl
  have required : defaulted "required_filters" ∅ (map? text?) members =
      some listing.loaded.required := by
    refine lists.record.defaulted lists.required ?_ ?_
    · rintro _ rfl
      have written : List.Forall₂
          (fun (term : String × String) (member : String × Value) =>
            member.1 = term.1 ∧ text? member.2 = some term.2)
          listing.required (listing.required.map fun term => (term.1, .string term.2)) :=
        List.forall₂_map_right_iff.mpr (List.forall₂_same.mpr fun term _ => ⟨rfl, rfl⟩)
      rw [map_loads written, List.map_id'']
      · rfl
      · exact fun _ => rfl
    · intro none
      rw [Listing.loaded, none]
      rfl
  rw [Entity.ofJson?, lists.record.record?]
  simp only [Option.bind_eq_bind, Option.bind_some, fields, phraseFields, vector, required]
  rfl

/-! ## Putting together -/

theorem declared_fields (declarations : List Declaration) (entity : Entity) :
    declarations.foldl (fun entity declared => entity.declare declared.key declared.field) entity =
      { entity with
        fields := (declarations.map fun declared => (declared.key, declared.field)).foldl
          (fun map pair => map.insert pair.1 pair.2) entity.fields } := by
  induction declarations generalizing entity with
  | nil => rfl
  | cons declared rest ih =>
    rw [List.foldl_cons, ih]
    rfl

theorem required_terms (required : List (String × String)) (entity : Entity) :
    required.foldl (fun entity term => entity.requireTerm term.1 term.2) entity =
      { entity with
        required :=
          required.foldl (fun map pair => map.insert pair.1 pair.2) entity.required } := by
  induction required generalizing entity with
  | nil => rfl
  | cons term rest ih =>
    rw [List.foldl_cons, ih]
    rfl

/-- Step by step or at once: the embedder is all that differs. -/
theorem assembled_eq (listing : Listing) (embedder : Embedder) :
    listing.assembled embedder = listing.loaded.attachEmbedder embedder := by
  obtain ⟨phraseFields, declarations, required, vector⟩ := listing
  simp only [Listing.assembled, declared_fields, required_terms]
  cases vector <;> rfl

/-- A map of pairs whose names may repeat: each name stands where it came first and has the value
that came last. -/
structure Keeps {α : Type} (map : OrderedMap α) (pairs : List (String × α)) : Prop where
  names : map.names = (pairs.map Prod.fst).eraseDups
  values : ∀ name, map.get? name = pairs.reverse.lookup name

theorem keeps_ofList {α : Type} (pairs : List (String × α)) : Keeps (.ofList pairs) pairs := by
  induction pairs using List.reverseRecOn with
  | nil => exact ⟨rfl, fun _ => rfl⟩
  | append_singleton earlier pair ih =>
    refine ⟨?_, fun name => ?_⟩
    · rw [OrderedMap.ofList_concat, OrderedMap.insert, OrderedMap.names_alter, ih.names,
        List.map_append, List.map_singleton, TokenGroups.eraseDups_concat]
    · rw [OrderedMap.ofList_concat, OrderedMap.insert, OrderedMap.get?_alter, ih.values,
        List.reverse_concat, OrderedMap.lookup_entry]

/-! ## Writing everything out -/

def Declaration.members (declared : Declaration) : List (String × Value) :=
  [("type", .string (kindWord declared.kind)), ("index_field", .string declared.indexField),
    ("logical_connect", .string (connectWord declared.connect))]

def VectorSection.members (vector : VectorSection) : List (String × Value) :=
  [("embedding_field", .string vector.embeddingField), ("k", limitValue vector.count),
    ("max_distance", limitValue vector.maxDistance), ("min_score", limitValue vector.minScore),
    ("mode", .string (styleWord vector.style))]

/-- The members of a listing that leaves nothing out. -/
def Listing.members (listing : Listing) : List (String × Value) :=
  [("fields", .object (listing.declarations.map fun declared =>
      (declared.key, .object declared.members))),
    ("traditional_search", .object [("fields", .strings listing.phraseFields)]),
    ("vector_search", (listing.vector.map fun vector => .object vector.members).getD .null),
    ("required_filters", .object (listing.required.map fun term => (term.1, .string term.2)))]

/-- A member that is written tells its part. -/
theorem tells_written {members : List (String × Value)} {name : String} {value : Value}
    {told : Value → Prop} {default : Prop} (written : (name, value) ∈ members)
    (tells : told value) : Tells members name told default := .inl ⟨value, written, tells⟩

theorem declaration_writes (declared : Declaration) : WritesField declared declared.members where
  record := ⟨by simp [Declaration.members], by simp [Declaration.members]⟩
  kind := by simp [Declaration.members]
  indexField := by simp [Declaration.members]
  connect := tells_written (by simp [Declaration.members]) rfl

theorem vector_writes (vector : VectorSection) : WritesVector vector vector.members where
  record := ⟨by simp [VectorSection.members], by simp [VectorSection.members]⟩
  embeddingField := by simp [VectorSection.members]
  count := tells_written (by simp [VectorSection.members]) rfl
  maxDistance := tells_written (by simp [VectorSection.members]) rfl
  minScore := tells_written (by simp [VectorSection.members]) rfl
  style := tells_written (by simp [VectorSection.members]) rfl

/-- What is written in full is written. -/
theorem listing_writes (listing : Listing) : Lists listing listing.members where
  record := ⟨by simp [Listing.members], by simp [Listing.members]⟩
  fields := by
    refine tells_written (List.mem_cons_self ..) ⟨_, rfl, ?_⟩
    exact List.forall₂_map_right_iff.mpr (List.forall₂_same.mpr fun declared _ =>
      ⟨rfl, _, rfl, declaration_writes declared⟩)
  phraseFields := by
    have inside : WritesPhraseFields listing.phraseFields
        [("fields", .strings listing.phraseFields)] :=
      ⟨⟨by simp, by simp⟩, tells_written (List.mem_singleton.mpr rfl) rfl⟩
    exact tells_written (by simp [Listing.members]) ⟨_, rfl, inside⟩
  vector := by
    have inside : WritesSection listing.vector
        ((listing.vector.map fun vector => .object vector.members).getD .null) := by
      cases listing.vector with
      | none => rfl
      | some vector => exact ⟨_, rfl, vector_writes vector⟩
    exact tells_written (by simp [Listing.members]) inside
  required := tells_written (by simp [Listing.members]) rfl

theorem exact_limit (limit : Option Limit) : Everywhere Exact (limitValue limit) := by
  cases limit with
  | none => trivial
  | some limit =>
    have small : limit.val < 9007199254740992 := limit.isLt
    have sized : WordSized limit.val := by
      have size : UInt64.size = 18446744073709551616 := rfl
      unfold WordSized
      omega
    exact sized

theorem exact_strings (texts : List String) : Everywhere Exact (.strings texts) := by
  refine ⟨trivial, ?_⟩
  induction texts with
  | nil => trivial
  | cons text rest ih => exact ⟨trivial, ih⟩

theorem exact_map {α : Type} {key : α → String} {value : α → Value}
    (exact : ∀ part, Everywhere Exact (value part)) (parts : List α) :
    Everywhere Exact (.object (parts.map fun part => (key part, value part))) := by
  refine ⟨trivial, ?_⟩
  induction parts with
  | nil => trivial
  | cons part rest ih => exact ⟨exact part, ih⟩

theorem exact_listing (listing : Listing) : Everywhere Exact (.object listing.members) := by
  have declared (declared : Declaration) : Everywhere Exact (.object declared.members) :=
    ⟨trivial, trivial, trivial, trivial, trivial⟩
  have phrases : Everywhere Exact (.object [("fields", .strings listing.phraseFields)]) :=
    ⟨trivial, exact_strings listing.phraseFields, trivial⟩
  have vector : Everywhere Exact
      ((listing.vector.map fun vector => .object vector.members).getD .null) := by
    cases listing.vector with
    | none => trivial
    | some vector =>
      exact ⟨trivial, trivial, exact_limit vector.count, exact_limit vector.maxDistance,
        exact_limit vector.minScore, trivial, trivial⟩
  have term (term : String × String) : Everywhere Exact (.string term.2) := trivial
  exact ⟨trivial, exact_map declared listing.declarations, phrases, vector,
    exact_map term listing.required, trivial⟩

/-- **Loading is putting together.** A listing has a JSON text, one that leaves nothing out among
others; and whichever text is loaded, there are settings in it, and they are the settings that the
listing puts together step by step once the same embedder is attached, which no text holds. A key
that is declared more than once stands where it was declared first, with what was declared last. -/
theorem loading_assembles (listing : Listing) (embedder : Embedder) :
    WritesText listing (Value.object listing.members).text.toList ∧
    ∀ text : String, WritesText listing text.toList →
      ∃ loaded, Entity.ofText? text = some loaded ∧
        loaded.attachEmbedder embedder = listing.assembled embedder ∧
        (∀ search, loaded.vectorSearch = some search → search.embedder = none) ∧
        Keeps loaded.fields
          (listing.declarations.map fun declared => (declared.key, declared.field)) ∧
        Keeps loaded.required listing.required := by
  refine ⟨⟨listing.members, listing_writes listing, text_spells (exact_listing listing)⟩, ?_⟩
  rintro text ⟨members, lists, spelled⟩
  refine ⟨listing.loaded, ?_, (assembled_eq listing embedder).symm, ?_, keeps_ofList _,
    keeps_ofList _⟩
  · rw [Entity.ofText?, read?_of_spellsText spelled]
    exact listing_loads lists
  · intro search found
    obtain ⟨vector, _, rfl⟩ := Option.map_eq_some_iff.mp found
    rfl

/-- Bottles whose age is declared twice, and that stand on the last shelf that is named. -/
def bottles : Listing where
  phraseFields := []
  declarations := [⟨"\"age\"", .term, "ages", .any⟩, ⟨"\"age\"", .range, "filled_at", .any⟩]
  required := [("shelf", "low"), ("shelf", "high")]
  vector := some ⟨"taste", some 5, none, none, .replacing⟩

/-- The fields of the bottles, without the defaults. -/
def bottleFields : List (String × Value) :=
  [("\"age\"", .object [("index_field", .string "ages"), ("type", .string "term")]),
    ("\"age\"", .object [("type", .string "range"), ("index_field", .string "filled_at")])]

/-- The bottles as a person may write them, in another order and without the defaults. -/
def bottlesMembers : List (String × Value) :=
  [("vector_search", .object [("k", .natural 5), ("embedding_field", .string "taste")]),
    ("fields", .object bottleFields),
    ("required_filters", .object [("shelf", .string "low"), ("shelf", .string "high")])]

theorem bottles_written : WritesText bottles (Value.object bottlesMembers).text.toList := by
  have fields : WritesFields bottles.declarations bottleFields := by
    refine .cons ⟨rfl, _, rfl, ?_⟩ (.cons ⟨rfl, _, rfl, ?_⟩ .nil) <;>
      exact ⟨⟨by simp, by simp⟩, by simp [kindWord], by simp, .inr ⟨rfl, by simp⟩⟩
  have vector : WritesVector ⟨"taste", some 5, none, none, .replacing⟩
      [("k", .natural 5), ("embedding_field", .string "taste")] :=
    ⟨⟨by simp, by simp⟩, by simp, tells_written (.head _) rfl, .inr ⟨rfl, by simp⟩,
      .inr ⟨rfl, by simp⟩, .inr ⟨rfl, by simp⟩⟩
  have exact : Everywhere Exact (.object bottlesMembers) := by
    refine ⟨trivial, ⟨trivial, exact_limit (some 5), trivial, trivial⟩, ?_,
      ⟨trivial, trivial, trivial, trivial⟩, trivial⟩
    exact ⟨trivial, ⟨trivial, trivial, trivial, trivial⟩, ⟨trivial, trivial, trivial, trivial⟩,
      trivial⟩
  refine ⟨bottlesMembers, ?_, text_spells exact⟩
  exact
    { record := ⟨by simp [bottlesMembers], by simp [bottlesMembers]⟩
      fields := tells_written (by simp [bottlesMembers]) ⟨_, rfl, fields⟩
      phraseFields := .inr ⟨rfl, by simp [bottlesMembers]⟩
      vector := tells_written (List.mem_cons_self ..) ⟨_, rfl, vector⟩
      required := tells_written (by simp [bottlesMembers, bottles]) rfl }

theorem bottles_load :
    ∃ loaded, Entity.ofText? (Value.object bottlesMembers).text = some loaded ∧
      loaded.fields.names = ["\"age\""] ∧ loaded.required.get? "shelf" = some "high" := by
  obtain ⟨loaded, found, _, _, fields, required⟩ :=
    (loading_assembles bottles fun _ => .ok []).2 _ bottles_written
  refine ⟨loaded, found, ?_, ?_⟩
  · rw [fields.names]
    rfl
  · rw [required.values]
    rfl

end SearchCompiler.WrittenSettings
