/-!
Maps from names to values that remember the order in which their names first came. Writing to a
name that is present changes its value and not its place. No name occurs twice, which is part of
the type, so a map is its list of entries and two maps with equal entries are equal.
-/

namespace SearchCompiler

/-- A map from names to values, in the order of first insertion. -/
@[ext]
structure OrderedMap (α : Type) where
  entries : List (String × α)
  distinct : (entries.map Prod.fst).Nodup := by simp

namespace OrderedMap

variable {α : Type}

/-- Write to one name in a list of entries: `write` makes the new value from the old one, and a new
name goes to the end. -/
def alterEntries (name : String) (write : Option α → α) : List (String × α) → List (String × α)
  | [] => [(name, write none)]
  | entry :: rest =>
    if entry.1 = name then (name, write (some entry.2)) :: rest
    else entry :: alterEntries name write rest

/-- Writing to a name adds that name and no other. -/
theorem mem_names_alterEntries {name other : String} {write : Option α → α}
    {entries : List (String × α)} :
    other ∈ (alterEntries name write entries).map Prod.fst ↔
      other = name ∨ other ∈ entries.map Prod.fst := by
  induction entries with
  | nil => simp [alterEntries]
  | cons entry rest ih =>
    unfold alterEntries
    split
    · next same => simp [same]
    · next differs =>
      rw [List.map_cons, List.mem_cons, ih, List.map_cons, List.mem_cons]
      exact or_left_comm

/-- Writing to a name keeps names distinct. -/
theorem nodup_alterEntries {name : String} {write : Option α → α} {entries : List (String × α)}
    (distinct : (entries.map Prod.fst).Nodup) :
    ((alterEntries name write entries).map Prod.fst).Nodup := by
  induction entries with
  | nil => simp [alterEntries]
  | cons entry rest ih =>
    obtain ⟨fresh, restDistinct⟩ := List.nodup_cons.mp distinct
    unfold alterEntries
    split
    · next same => exact List.nodup_cons.mpr ⟨same ▸ fresh, restDistinct⟩
    · next differs =>
      refine List.nodup_cons.mpr ⟨?_, ih restDistinct⟩
      rw [mem_names_alterEntries]
      rintro (same | present)
      · exact differs same
      · exact fresh present

def empty : OrderedMap α := { entries := [] }

instance : EmptyCollection (OrderedMap α) := ⟨empty⟩

instance : Inhabited (OrderedMap α) := ⟨empty⟩

def names (map : OrderedMap α) : List String := map.entries.map Prod.fst

def get? (map : OrderedMap α) (name : String) : Option α := map.entries.lookup name

@[simp]
theorem get?_empty (name : String) : (∅ : OrderedMap α).get? name = none := rfl

def contains (map : OrderedMap α) (name : String) : Bool := map.names.contains name

def isEmpty (map : OrderedMap α) : Bool := map.entries.isEmpty

/-- Write to a name, making the new value from the old one where there is one. -/
def alter (map : OrderedMap α) (name : String) (write : Option α → α) : OrderedMap α where
  entries := alterEntries name write map.entries
  distinct := nodup_alterEntries map.distinct

/-- Set the value under a name, which keeps the place it has. -/
def insert (map : OrderedMap α) (name : String) (value : α) : OrderedMap α :=
  map.alter name fun _ => value

/-- Change the value under a name that is present; an absent name changes nothing. -/
def modify (map : OrderedMap α) (name : String) (change : α → α) : OrderedMap α where
  entries := map.entries.map fun entry =>
    (entry.1, if entry.1 = name then change entry.2 else entry.2)
  distinct := by
    rw [List.map_map]
    exact map.distinct

/-- The map made by inserting pairs one after another. -/
def ofList (pairs : List (String × α)) : OrderedMap α :=
  pairs.foldl (fun map pair => map.insert pair.1 pair.2) empty

theorem ofList_concat (pairs : List (String × α)) (pair : String × α) :
    ofList (pairs ++ [pair]) = (ofList pairs).insert pair.1 pair.2 := by
  unfold ofList
  rw [List.foldl_append]
  rfl

/-- Writing keeps every name, in its place, and puts a new one at the end. -/
theorem names_alter (map : OrderedMap α) (name : String) (write : Option α → α) :
    (map.alter name write).names =
      if name ∈ map.names then map.names else map.names ++ [name] := by
  change (alterEntries name write map.entries).map Prod.fst = _
  unfold names
  induction map.entries with
  | nil => simp [alterEntries]
  | cons entry rest ih =>
    unfold alterEntries
    split
    · next same => simp [same]
    · next differs =>
      rw [List.map_cons, ih]
      by_cases present : name ∈ rest.map Prod.fst
      · simp only [List.map_cons, List.mem_cons, present, or_true, if_true]
      · simp only [List.map_cons, List.mem_cons, present, or_false, if_false, Ne.symm differs,
          List.cons_append]

/-- A new name is written behind all others. -/
theorem alterEntries_of_absent {name : String} {write : Option α → α} {entries : List (String × α)}
    (absent : name ∉ entries.map Prod.fst) :
    alterEntries name write entries = entries ++ [(name, write none)] := by
  induction entries with
  | nil => rfl
  | cons entry rest ih =>
    rw [List.map_cons, List.mem_cons, not_or] at absent
    rw [alterEntries, if_neg (Ne.symm absent.1), ih absent.2]
    rfl

/-- Pairs with distinct names are the entries of the map made of them. -/
theorem entries_ofList {pairs : List (String × α)} (distinct : (pairs.map Prod.fst).Nodup) :
    (ofList pairs).entries = pairs := by
  have inserted (map : OrderedMap α) (rest : List (String × α))
      (fresh : ((map.entries ++ rest).map Prod.fst).Nodup) :
      (rest.foldl (fun map pair => map.insert pair.1 pair.2) map).entries = map.entries ++ rest := by
    induction rest generalizing map with
    | nil => exact (List.append_nil _).symm
    | cons pair others ih =>
      have absent : pair.1 ∉ map.entries.map Prod.fst := by
        intro present
        rw [List.map_append, List.map_cons] at fresh
        exact (List.nodup_append.mp fresh).2.2 _ present _ List.mem_cons_self rfl
      have added : (map.insert pair.1 pair.2).entries = map.entries ++ [pair] :=
        alterEntries_of_absent absent
      have appended : map.entries ++ pair :: others = (map.entries ++ [pair]) ++ others := by simp
      rw [appended, ← added] at fresh
      rw [List.foldl_cons, ih _ fresh, added, appended]
  exact inserted empty pairs distinct

/-- A map is made again from its entries. -/
theorem ofList_entries (map : OrderedMap α) : ofList map.entries = map :=
  OrderedMap.ext (entries_ofList map.distinct)

/-- Looking up in a list of entries asks its first entry, then the others. -/
theorem lookup_entry (name key : String) (value : α) (rest : List (String × α)) :
    ((key, value) :: rest).lookup name = if name = key then some value else rest.lookup name := by
  by_cases same : name = key
  · simp [same]
  · have miss : (name == key) = false := by simp [same]
    simp [List.lookup_cons, miss, same]

@[simp]
theorem get?_singleton (name key : String) (value : α) (distinct : [key].Nodup) :
    (⟨[(key, value)], distinct⟩ : OrderedMap α).get? name =
      if name = key then some value else none :=
  lookup_entry name key value []

/-- A name reads back what was written to it, and every other name what it held. -/
theorem get?_alter (map : OrderedMap α) (name other : String) (write : Option α → α) :
    (map.alter name write).get? other =
      if other = name then some (write (map.get? name)) else map.get? other := by
  change (alterEntries name write map.entries).lookup other = _
  unfold get?
  induction map.entries with
  | nil => simp [alterEntries, lookup_entry]
  | cons entry rest ih =>
    obtain ⟨key, value⟩ := entry
    unfold alterEntries
    by_cases same : key = name
    · subst same
      by_cases asked : other = key <;> simp [lookup_entry, asked]
    · by_cases asked : other = key
      · simp_all
      · by_cases target : other = name <;> simp_all [lookup_entry]

theorem lookup_of_absent {name : String} {entries : List (String × α)}
    (absent : name ∉ entries.map Prod.fst) : entries.lookup name = none := by
  refine List.lookup_eq_none_iff.mpr fun entry member => bne_iff_ne.mpr fun same => ?_
  exact absent (List.mem_map.mpr ⟨entry, member, same.symm⟩)

/-- An entry whose name stands once is what is found under its name. -/
theorem lookup_of_mem {name : String} {value : α} {entries : List (String × α)}
    (distinct : (entries.map Prod.fst).Nodup) (member : (name, value) ∈ entries) :
    entries.lookup name = some value := by
  induction entries with
  | nil => cases member
  | cons entry rest ih =>
    obtain ⟨fresh, restDistinct⟩ := List.nodup_cons.mp distinct
    rw [lookup_entry]
    rcases List.mem_cons.mp member with rfl | later
    · rw [if_pos rfl]
    · have other : name ≠ entry.1 := by
        intro same
        exact fresh (same ▸ List.mem_map_of_mem later)
      rw [if_neg other, ih restDistinct later]

/-- What is found under a name is the value of its entry. -/
theorem get?_eq_some_iff {map : OrderedMap α} {name : String} {value : α} :
    map.get? name = some value ↔ (name, value) ∈ map.entries := by
  constructor
  · intro found
    obtain ⟨before, behind, entries, _⟩ := List.lookup_eq_some_iff.mp found
    rw [entries]
    exact List.mem_append_right before List.mem_cons_self
  · exact lookup_of_mem map.distinct

/-- Entries with distinct names are told by the order of their names and by what is found under
each of them. -/
theorem entries_eq_of_lookup {entries others : List (String × α)}
    (distinct : (entries.map Prod.fst).Nodup) (names : entries.map Prod.fst = others.map Prod.fst)
    (values : ∀ name, entries.lookup name = others.lookup name) : entries = others := by
  induction entries generalizing others with
  | nil => exact (List.map_eq_nil_iff.mp names.symm).symm
  | cons entry rest ih =>
    obtain ⟨key, value⟩ := entry
    obtain ⟨fresh, restDistinct⟩ := List.nodup_cons.mp distinct
    cases others with
    | nil => cases names
    | cons other more =>
      obtain ⟨otherKey, otherValue⟩ := other
      obtain ⟨rfl, namesRest⟩ := List.cons.inj names
      have held := values key
      rw [lookup_entry, lookup_entry, if_pos rfl, if_pos rfl] at held
      cases held
      have valuesRest (name : String) : rest.lookup name = more.lookup name := by
        by_cases same : name = key
        · subst same
          rw [lookup_of_absent fresh, lookup_of_absent (namesRest ▸ fresh)]
        · have later := values name
          rwa [lookup_entry, lookup_entry, if_neg same, if_neg same] at later
      rw [ih restDistinct namesRest valuesRest]

/-- A map is told by the order of its names and by what each of them holds. -/
theorem eq_of_get? {first second : OrderedMap α} (names : first.names = second.names)
    (values : ∀ name, first.get? name = second.get? name) : first = second :=
  OrderedMap.ext (entries_eq_of_lookup first.distinct names values)

/-- Changing the value under a name keeps all names, in their places. -/
theorem names_modify (map : OrderedMap α) (name : String) (change : α → α) :
    (map.modify name change).names = map.names := by
  unfold names modify
  rw [List.map_map]
  rfl

/-- The value under a name is changed, and no other. -/
theorem get?_modify (map : OrderedMap α) (name other : String) (change : α → α) :
    (map.modify name change).get? other =
      if other = name then (map.get? name).map change else map.get? other := by
  change (map.entries.map fun entry =>
    (entry.1, if entry.1 = name then change entry.2 else entry.2)).lookup other = _
  unfold get?
  induction map.entries with
  | nil => simp
  | cons entry rest ih =>
    obtain ⟨key, value⟩ := entry
    rw [List.map_cons, lookup_entry, lookup_entry, lookup_entry, ih]
    by_cases asked : other = key
    · subst asked
      by_cases same : other = name
      · subst same
        simp
      · simp [same]
    · by_cases target : other = name
      · subst target
        simp [asked]
      · simp [asked, target]

/-- Where a name is absent there is nothing to change. -/
theorem modify_of_absent {map : OrderedMap α} {name : String} (absent : name ∉ map.names)
    (change : α → α) : map.modify name change = map := by
  refine eq_of_get? (names_modify map name change) fun other => ?_
  rw [get?_modify]
  split
  · next same =>
    subst same
    rw [get?, lookup_of_absent absent]
    rfl
  · rfl

end OrderedMap

end SearchCompiler
