import SearchCompiler.Proofs.DefaultReading
import SearchCompiler.Query.Record
import SearchCompiler.Settings.Check

/-! The record of a read query loses nothing. Keywords, ranges, free text and what is excluded stand
beside each other in one object, and a reader that knows no settings tells them apart: `text` and
`exclude` are names that no usable field has, a keyword is an array and a range an object, and no
key is both. So no name stands twice, and different queries have different records. -/
namespace SearchCompiler.LosslessRecord
open Query Settings
open BuildSemantics DefaultReading
open Json (Value)

/-! ## Reading a record -/

def stringOf? : Value → Option String
  | .string text => some text
  | _ => none

def stringsOf? : Value → Option (List String)
  | .array elements => elements.mapM stringOf?
  | _ => none

def endpointsOf? : Value → Option Endpoints
  | .object [("from", .string start), ("to", .string stop)] => some ⟨start, stop⟩
  | _ => none

/-- The members of a record that are fields and have a value of the kind that is read. -/
def fieldsOf {α : Type} (read? : Value → Option α) (members : List (String × Value)) :
    List (String × α) :=
  (members.filter fun member => !reservedKeys.contains member.1).filterMap fun member =>
    (read? member.2).map fun value => (member.1, value)

/-- What the members of an object say on one side of a query. -/
def groupOf (members : List (String × Value)) : TokenGroup where
  keywords := .ofList (fieldsOf stringsOf? members)
  ranges := .ofList (fieldsOf endpointsOf? members)
  text := ((members.lookup "text").bind stringsOf?).getD []

/-- The query that a record was written from. -/
def queryOf? : Value → Option ParsedQuery
  | .object members => some
      { included := groupOf members
        excluded := match members.lookup "exclude" with
          | some (.object inner) => groupOf inner
          | _ => {} }
  | _ => none

/-- The names of the members of an object, in order. -/
def memberNames : Value → List String
  | .object members => members.map Prod.fst
  | _ => []

/-! ## Values -/

theorem stringsOf?_strings (texts : List String) : stringsOf? (.strings texts) = some texts :=
  Value.mapM_written fun _ _ => rfl

theorem endpointsOf?_json (endpoints : Endpoints) : endpointsOf? endpoints.json = some endpoints :=
  rfl

theorem stringsOf?_endpoints (endpoints : Endpoints) : stringsOf? endpoints.json = none := rfl

theorem endpointsOf?_strings (texts : List String) : endpointsOf? (.strings texts) = none := rfl

/-! ## Members -/

/-- A group whose fields have none of the names that a record uses for its own parts, and none of
which is a keyword and a range. -/
structure Recordable (group : TokenGroup) : Prop where
  unreserved : ∀ key ∈ group.fields, key ∉ reservedKeys
  apart : ∀ key ∈ group.keywords.names, key ∉ group.ranges.names

/-- The members of a record that are fields. -/
def fieldMembers (group : TokenGroup) : List (String × Value) :=
  (group.keywords.entries.map fun entry => (entry.1, Value.strings entry.2)) ++
    group.ranges.entries.map fun entry => (entry.1, entry.2.json)

/-- The free text of a record, left out where it is empty. -/
def textMembers (group : TokenGroup) : List (String × Value) :=
  if group.text.isEmpty then [] else [("text", Value.strings group.text)]

/-- What a record excludes, left out where it is empty. -/
def excludeMembers (group : TokenGroup) : List (String × Value) :=
  if group.isEmpty then [] else [("exclude", .object group.members)]

theorem excludeMembers_empty : excludeMembers {} = [] := rfl

theorem members_eq (group : TokenGroup) : group.members = fieldMembers group ++ textMembers group :=
  rfl

theorem json_eq (parsed : ParsedQuery) :
    parsed.json = .object (parsed.included.members ++ excludeMembers parsed.excluded) := rfl

variable {group : TokenGroup}

theorem names_fieldMembers (group : TokenGroup) :
    (fieldMembers group).map Prod.fst = group.fields := by
  simp [fieldMembers, TokenGroup.fields, OrderedMap.names, Function.comp_def]

theorem names_members_sublist (included excluded : TokenGroup) :
    List.Sublist ((included.members ++ excludeMembers excluded).map Prod.fst)
      (included.fields ++ reservedKeys) := by
  have text : List.Sublist ((textMembers included).map Prod.fst) ["text"] := by
    unfold textMembers
    split
    · exact List.nil_sublist _
    · exact List.Sublist.refl _
  have exclude : List.Sublist ((excludeMembers excluded).map Prod.fst) ["exclude"] := by
    unfold excludeMembers
    split
    · exact List.nil_sublist _
    · exact List.Sublist.refl _
  rw [members_eq, List.append_assoc, List.map_append, List.map_append, names_fieldMembers]
  exact List.Sublist.append_left (text.append exclude) _

/-- Fields, free text and exclusions never share a name. -/
theorem Recordable.nodup (recordable : Recordable group) (excluded : TokenGroup) :
    ((group.members ++ excludeMembers excluded).map Prod.fst).Nodup := by
  refine List.Nodup.sublist (names_members_sublist group excluded) ?_
  have fields : group.fields.Nodup := by
    refine List.nodup_append.mpr ⟨group.keywords.distinct, group.ranges.distinct, ?_⟩
    intro key keyword other range same
    exact recordable.apart key keyword (same ▸ range)
  refine List.nodup_append.mpr ⟨fields, by simp [reservedKeys], ?_⟩
  intro key named other reserved same
  exact recordable.unreserved key named (same ▸ reserved)

/-! ## Reading back -/

section Fields

variable {α β : Type} {read? : Value → Option α}

theorem fieldsOf_append (first second : List (String × Value)) :
    fieldsOf read? (first ++ second) = fieldsOf read? first ++ fieldsOf read? second := by
  unfold fieldsOf
  rw [List.filter_append, List.filterMap_append]

/-- Members with names of their own are no fields. -/
theorem fieldsOf_reserved {members : List (String × Value)}
    (reserved : ∀ member ∈ members, member.1 ∈ reservedKeys) : fieldsOf read? members = [] := by
  have none_kept : members.filter (fun member => !reservedKeys.contains member.1) = [] := by
    apply List.filter_eq_nil_iff.mpr
    intro member present
    simpa using reserved member present
  rw [fieldsOf, none_kept]
  rfl

theorem fieldsOf_written {entries : List (String × β)} (write : β → Value)
    (unreserved : ∀ entry ∈ entries, entry.1 ∉ reservedKeys) :
    fieldsOf read? (entries.map fun entry => (entry.1, write entry.2)) =
      entries.filterMap fun entry => (read? (write entry.2)).map fun value => (entry.1, value) := by
  have all_kept : (entries.map fun entry => (entry.1, write entry.2)).filter
      (fun member => !reservedKeys.contains member.1) =
        entries.map fun entry => (entry.1, write entry.2) := by
    apply List.filter_eq_self.mpr
    intro member present
    obtain ⟨entry, given, rfl⟩ := List.mem_map.mp present
    simpa using unreserved entry given
  rw [fieldsOf, all_kept, List.filterMap_map]
  rfl

end Fields

theorem Recordable.keywords_unreserved (recordable : Recordable group) :
    ∀ entry ∈ group.keywords.entries, entry.1 ∉ reservedKeys := fun _ given =>
  recordable.unreserved _ (List.mem_append_left _ (List.mem_map_of_mem given))

theorem Recordable.ranges_unreserved (recordable : Recordable group) :
    ∀ entry ∈ group.ranges.entries, entry.1 ∉ reservedKeys := fun _ given =>
  recordable.unreserved _ (List.mem_append_right _ (List.mem_map_of_mem given))

/-- Arrays under the names of fields are the keywords, in order. -/
theorem Recordable.keywords_read (recordable : Recordable group) :
    fieldsOf stringsOf? (fieldMembers group) = group.keywords.entries := by
  rw [fieldMembers, fieldsOf_append, fieldsOf_written _ recordable.keywords_unreserved,
    fieldsOf_written _ recordable.ranges_unreserved]
  simp [stringsOf?_strings, stringsOf?_endpoints]

/-- Objects under the names of fields are the ranges, in order. -/
theorem Recordable.ranges_read (recordable : Recordable group) :
    fieldsOf endpointsOf? (fieldMembers group) = group.ranges.entries := by
  rw [fieldMembers, fieldsOf_append, fieldsOf_written _ recordable.keywords_unreserved,
    fieldsOf_written _ recordable.ranges_unreserved]
  simp [endpointsOf?_strings, endpointsOf?_json]

theorem Recordable.lookup_reserved (recordable : Recordable group) {name : String}
    (reserved : name ∈ reservedKeys) : (fieldMembers group).lookup name = none := by
  apply List.lookup_eq_none_iff.mpr
  intro member present
  have named : member.1 ∈ group.fields := by
    rw [← names_fieldMembers]
    exact List.mem_map_of_mem present
  have differs : name ≠ member.1 := fun same => recordable.unreserved _ named (same ▸ reserved)
  simp [differs]

theorem lookup_textMembers (group : TokenGroup) :
    ((textMembers group).lookup "text").bind stringsOf? =
      if group.text.isEmpty then none else some group.text := by
  unfold textMembers
  split
  · rfl
  · exact stringsOf?_strings group.text

theorem lookup_excludeMembers (group : TokenGroup) :
    (excludeMembers group).lookup "exclude" =
      if group.isEmpty then none else some (.object group.members) := by
  unfold excludeMembers
  split <;> rfl

/-- What is excluded is no text. -/
theorem excludeMembers_textless (group : TokenGroup) :
    (excludeMembers group).lookup "text" = none := by
  unfold excludeMembers
  split
  · rfl
  · simp [OrderedMap.lookup_entry]

theorem textMembers_inclusive (group : TokenGroup) :
    (textMembers group).lookup "exclude" = none := by
  unfold textMembers
  split
  · rfl
  · simp [OrderedMap.lookup_entry]

/-- A group is read back from its members, whatever is excluded beside them. -/
theorem Recordable.read_back (recordable : Recordable group) (excluded : TokenGroup) :
    groupOf (group.members ++ excludeMembers excluded) = group := by
  have parts {α : Type} (read? : Value → Option α) :
      fieldsOf read? (group.members ++ excludeMembers excluded) =
        fieldsOf read? (fieldMembers group) := by
    have text : fieldsOf read? (textMembers group) = [] := by
      apply fieldsOf_reserved
      unfold textMembers
      split <;> simp [reservedKeys]
    have exclude : fieldsOf read? (excludeMembers excluded) = [] := by
      apply fieldsOf_reserved
      unfold excludeMembers
      split <;> simp [reservedKeys]
    rw [members_eq, fieldsOf_append, fieldsOf_append, text, exclude, List.append_nil,
      List.append_nil]
  have text : (((group.members ++ excludeMembers excluded).lookup "text").bind stringsOf?).getD [] =
      group.text := by
    rw [members_eq, List.lookup_append, List.lookup_append, excludeMembers_textless,
      recordable.lookup_reserved (by simp [reservedKeys]), Option.none_or, Option.or_none,
      lookup_textMembers]
    cases group.text <;> rfl
  unfold groupOf
  rw [parts, parts, recordable.keywords_read, recordable.ranges_read, text,
    OrderedMap.ofList_entries, OrderedMap.ofList_entries]

/-- A group without any part is the empty group, so leaving it out of the record loses nothing. -/
theorem eq_empty_of_isEmpty (empty : group.isEmpty = true) : group = {} := by
  obtain ⟨⟨keywords, _⟩, ⟨ranges, _⟩, text⟩ := group
  simp only [TokenGroup.isEmpty, OrderedMap.isEmpty, Bool.and_eq_true, List.isEmpty_iff] at empty
  obtain ⟨⟨rfl, rfl⟩, rfl⟩ := empty
  rfl

/-- What is excluded is found under its name, where anything is. -/
theorem Recordable.lookup_exclude (recordable : Recordable group) (excluded : TokenGroup) :
    (group.members ++ excludeMembers excluded).lookup "exclude" =
      if excluded.isEmpty then none else some (.object excluded.members) := by
  rw [members_eq, List.lookup_append, List.lookup_append, textMembers_inclusive,
    recordable.lookup_reserved (by simp [reservedKeys]), Option.none_or, Option.none_or,
    lookup_excludeMembers]

theorem query_read_back {parsed : ParsedQuery} (included : Recordable parsed.included)
    (excluded : Recordable parsed.excluded) : queryOf? parsed.json = some parsed := by
  obtain ⟨asked, refused⟩ := parsed
  rw [json_eq, queryOf?, included.read_back refused, included.lookup_exclude refused]
  by_cases empty : refused.isEmpty = true
  · rw [if_pos empty, eq_empty_of_isEmpty empty]
  · have alone : groupOf refused.members = refused := by
      have read := excluded.read_back {}
      rwa [excludeMembers_empty, List.append_nil] at read
    rw [if_neg empty]
    simp only [alone]

/-! ## Records of queries that were read -/

/-- Usable settings declare no field with a name that a record uses for its own parts. -/
theorem declared_unreserved {settings : Entity} (usable : settings.error? = none) {key : String}
    (declared : key ∈ settings.fields.names) : key ∉ reservedKeys := by
  intro reserved
  have accepted := (Option.or_eq_none_iff.mp usable).1
  have fault := List.findSome?_eq_none_iff.mp accepted key declared
  rw [keyError?, if_pos (List.contains_iff_mem.mpr reserved)] at fault
  cases fault

theorem recordable_of_fits {settings : Entity} (usable : settings.error? = none)
    (fits : Fits settings group) : Recordable group where
  unreserved := by
    intro key named
    rcases List.mem_append.mp named with keyword | range
    · obtain ⟨field, declared, _⟩ := fits.keywords key keyword
      exact declared_unreserved usable (List.mem_map_of_mem declared)
    · obtain ⟨field, declared, _⟩ := fits.ranges key range
      exact declared_unreserved usable (List.mem_map_of_mem declared)
  apart := fits.apart

/-- What is read against usable settings can be recorded. -/
theorem recordable_of_read {settings : Entity} (usable : settings.error? = none) {query : String}
    {parsed : ParsedQuery} (read : tokenize settings.vocabulary query = .structured parsed) :
    Recordable parsed.included ∧ Recordable parsed.excluded := by
  have included : Fits settings (side (tokenize settings.vocabulary query) .included) :=
    fits_tokenize .included
  have excluded : Fits settings (side (tokenize settings.vocabulary query) .excluded) :=
    fits_tokenize .excluded
  rw [read] at included excluded
  exact ⟨recordable_of_fits usable included, recordable_of_fits usable excluded⟩

/-- **The record of a query is lossless.** For a query that is read against usable settings, no name
stands twice in its record nor in what the record excludes, and a reader that knows neither finds
the query again: its fields in their order, which of them are keywords and which ranges, values,
free text and exclusions. Two queries that were read differently have different records. -/
theorem record_lossless {settings : Entity} (usable : settings.error? = none) {query : String}
    {parsed : ParsedQuery} (read : tokenize settings.vocabulary query = .structured parsed) :
    (memberNames parsed.json).Nodup ∧
    (∀ excluded, parsed.json.member? "exclude" = some excluded → (memberNames excluded).Nodup) ∧
    queryOf? parsed.json = some parsed ∧
    ∀ (others : Entity) (otherQuery : String) (other : ParsedQuery), others.error? = none →
      tokenize others.vocabulary otherQuery = .structured other →
      other.json = parsed.json → other = parsed := by
  obtain ⟨included, excluded⟩ := recordable_of_read usable read
  refine ⟨included.nodup parsed.excluded, ?_, query_read_back included excluded, ?_⟩
  · intro inner found
    change (parsed.included.members ++ excludeMembers parsed.excluded).lookup "exclude" = _ at found
    rw [included.lookup_exclude parsed.excluded, Option.ite_none_left_eq_some] at found
    obtain ⟨_, same⟩ := found
    cases same
    have alone := excluded.nodup {}
    rwa [excludeMembers_empty, List.append_nil] at alone
  · intro others otherQuery other otherUsable otherRead same
    obtain ⟨otherIncluded, otherExcluded⟩ := recordable_of_read otherUsable otherRead
    have found := query_read_back otherIncluded otherExcluded
    rw [same, query_read_back included excluded] at found
    exact (Option.some.inj found).symm

/-! ## A cellar -/

/-- Bottles that are found by what their labels say and by the day they were filled. -/
def cellar : Entity where
  fields :=
    ⟨[("label", { kind := .text, indexField := "labels" }),
      ("filled", { kind := .range, indexField := "filled_at" })], by simp⟩

theorem cellar_usable : cellar.error? = none := by
  have typeable : ["label", "filled"].findSome? keyError? = none := by decide +kernel
  exact Option.or_eq_none_iff.mpr ⟨typeable, rfl⟩

/-- Red bottles without a day, and none whose label is missing or that is corked. -/
def cellarQuery : ParsedQuery where
  included :=
    { keywords := ⟨[("label", ["red", "dry"])], by simp⟩
      ranges := ⟨[("filled", ⟨"", ""⟩)], by simp⟩ }
  excluded :=
    { keywords := ⟨[("label", [])], by simp⟩
      text := ["corked"] }

theorem cellarQuery_read :
    tokenize cellar.vocabulary "label:red,dry filled: -label: -corked" =
      .structured cellarQuery := by
  rfl

theorem cellarQuery_lossless :
    (memberNames cellarQuery.json).Nodup ∧ queryOf? cellarQuery.json = some cellarQuery := by
  obtain ⟨names, _, found, _⟩ := record_lossless cellar_usable cellarQuery_read
  exact ⟨names, found⟩

end SearchCompiler.LosslessRecord
