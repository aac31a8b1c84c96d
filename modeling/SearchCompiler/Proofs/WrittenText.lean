import Mathlib.Data.Nat.Digits.Defs
import SearchCompiler.Proofs.FaithfulRendering
import SearchCompiler.Proofs.JsonGrammar
import SearchCompiler.Proofs.Numerals

/-! Compact text says exactly what was written. Whatever stands in a string, its literal is a text
that JSON allows for that string and for no other, so a value is found again in its text; and a
document, whose shape is told by its value, is found again in the text that is sent, whatever the
names and values of its fields are. Floats are left out: their text is shortened. -/
namespace SearchCompiler.WrittenText
open Document
open FaithfulRendering JsonGrammar
open Json (Value Number escape writeString writeElements writeMembers)

/-! ## Strings -/

/-- Every character stands in a literal as JSON allows, the control characters as escapes. -/
theorem escape_spells (c : Char) : SpellsChar c (escape c) := by
  unfold escape
  split_ifs with quote backslash backspace tab newline feed carriage control
  · subst quote; exact .short (by decide)
  · subst backslash; exact .short (by decide)
  · subst backspace; exact .short (by decide)
  · subst tab; exact .short (by decide)
  · subst newline; exact .short (by decide)
  · subst feed; exact .short (by decide)
  · subst carriage; exact .short (by decide)
  · refine .code ⟨'0', '0', _, _, 0, 0, c.toNat / 16, c.toNat % 16, rfl, ?_⟩
    refine ⟨⟨by decide, .inl rfl⟩, ⟨by decide, .inl rfl⟩, ⟨by omega, .inl rfl⟩,
      ⟨by omega, .inl rfl⟩, by omega⟩
  · exact .plain quote backslash (Nat.not_lt.mp control)

theorem writeString_spells (text : List Char) : SpellsString text (writeString text) := by
  refine ⟨text.flatMap escape, ?_, rfl⟩
  induction text with
  | nil => exact .nil
  | cons c rest ih => exact .cons (escape_spells c) ih

/-! ## Whole numbers -/

/-- Numbers by their last digit. -/
theorem induction_digits {motive : Nat → Prop} (digit : ∀ n, n < 10 → motive n)
    (more : ∀ n, 10 ≤ n → motive (n / 10) → motive n) (n : Nat) : motive n := by
  induction n using Nat.strongRecOn with
  | ind n ih =>
    by_cases small : n < 10
    · exact digit n small
    · exact more n (Nat.not_lt.mp small) (ih (n / 10) (by omega))

theorem toDigits_digits (n : Nat) : Digits (Nat.toDigits 10 n) := by
  have digitChar : ∀ d < 10, Json.isDigit (Nat.digitChar d) = true := by decide
  induction n using induction_digits with
  | digit n small =>
    rw [Nat.toDigits_of_lt_base small]
    exact ⟨List.cons_ne_nil _ _, List.forall_mem_singleton.mpr (digitChar n small)⟩
  | more n great ih =>
    rw [Nat.toDigits_of_base_le (by decide) great]
    refine ⟨by simp, List.forall_mem_append.mpr ⟨ih.2, ?_⟩⟩
    exact List.forall_mem_singleton.mpr (digitChar _ (Nat.mod_lt n (by decide)))

theorem toDigits_head {n : Nat} (positive : n ≠ 0) : (Nat.toDigits 10 n).head? ≠ some '0' := by
  have digitChar : ∀ d < 10, d ≠ 0 → Nat.digitChar d ≠ '0' := by decide
  induction n using induction_digits with
  | digit n small =>
    rw [Nat.toDigits_of_lt_base small]
    exact fun same => digitChar n small positive (Option.some.inj same)
  | more n great ih =>
    rw [Nat.toDigits_of_base_le (by decide) great,
      List.head?_append_of_ne_nil _ (toDigits_digits _).1]
    exact ih (by omega)

/-- Only zero is written with a zero in front. -/
theorem toDigits_whole (n : Nat) : Whole (Nat.toDigits 10 n) := by
  refine ⟨toDigits_digits n, fun zero => ?_⟩
  by_cases nothing : n = 0
  · subst nothing
    rfl
  · exact absurd zero (toDigits_head nothing)

/-- The whole numbers of sixty-four bits, with or without sign. -/
def WordSized (n : Int) : Prop := -(UInt64.size / 2 : Nat) ≤ n ∧ n < UInt64.size

/-- How a whole number is written. -/
def integerNumeral (n : Int) : Json.Numeral :=
  ⟨decide (n < 0), Nat.toDigits 10 n.natAbs, none, none⟩

theorem integer_spells (n : Int) : SpellsNumeral (integerNumeral n) (Number.integer n).write := by
  have written : SpellsNumeral (integerNumeral n)
      ((if decide (n < 0) then ['-'] else []) ++ Nat.toDigits 10 n.natAbs ++ [] ++ []) :=
    .mk (toDigits_whole n.natAbs) .absent .absent
  simpa [Number.write] using written

theorem integerNumeral_number {n : Int} (sized : WordSized n) :
    (integerNumeral n).number = .integer n := by
  obtain ⟨least, greatest⟩ := sized
  unfold integerNumeral Json.Numeral.number
  simp only [Numerals.numeral?_toDigits, Option.getD_some, Option.isSome_none, Bool.or_false]
  by_cases negative : n < 0
  · have size : 0 < n.natAbs ∧ n.natAbs ≤ UInt64.size / 2 := by omega
    have magnitude : -(n.natAbs : Int) = n := by omega
    simp only [negative, size, decide_true, and_self, if_true, magnitude]
    rfl
  · have size : n.natAbs < UInt64.size := by omega
    have magnitude : (n.natAbs : Int) = n := by omega
    simp [negative, size, magnitude]

/-! ## Values -/

mutual

/-- A property of a value and of every value inside it. -/
def Everywhere (property : Value → Prop) : Value → Prop
  | .array elements => property (.array elements) ∧ EverywhereElements property elements
  | .object members => property (.object members) ∧ EverywhereMembers property members
  | value => property value

def EverywhereElements (property : Value → Prop) : List Value → Prop
  | [] => True
  | element :: rest => Everywhere property element ∧ EverywhereElements property rest

def EverywhereMembers (property : Value → Prop) : List (String × Value) → Prop
  | [] => True
  | (_, value) :: rest => Everywhere property value ∧ EverywhereMembers property rest

end

/-- What compact text holds exactly: no float, nothing garbled, and whole numbers of sixty-four
bits. -/
def Exact : Value → Prop
  | .number (.integer n) => WordSized n
  | .number (.float _) | .garbled => False
  | _ => True

mutual

/-- The compact text of a value spells that value. -/
theorem value_spells : ∀ value, Everywhere Exact value → Spells value value.write
  | .null, _ => .null
  | .bool true, _ => .true
  | .bool false, _ => .false
  | .number (.integer n), sized => by
    rw [← integerNumeral_number sized]
    exact .number (integerNumeral_number sized ▸ integer_spells n)
  | .string text, _ => by
    have spelled := Spells.string (writeString_spells text.toList)
    rwa [String.ofList_toList] at spelled
  | .array [], _ => .emptyArray Blanks.nil
  | .array (first :: rest), ⟨_, exact, others⟩ => by
    obtain ⟨text, written, spelled⟩ :=
      elements_spell rest others first first.write (value_spells first exact)
    rw [Value.write, written]
    exact .array spelled
  | .object [], _ => .emptyObject Blanks.nil
  | .object ((name, first) :: rest), ⟨_, exact, others⟩ => by
    obtain ⟨text, written, spelled⟩ :=
      members_spell rest others name first first.write (value_spells first exact)
    rw [Value.write, written]
    exact .object spelled

/-- What follows the first element, whose text is given, closes the array. -/
theorem elements_spell : ∀ rest, EverywhereElements Exact rest → ∀ first text, Spells first text →
    ∃ inside, text ++ writeElements rest = inside ++ [']'] ∧ SpellsElements (first :: rest) inside
  | [], _, first, text, spelled => by
    have alone := SpellsElements.last Blanks.nil spelled Blanks.nil
    exact ⟨_, by simp [writeElements], alone⟩
  | element :: rest, ⟨exact, others⟩, first, text, spelled => by
    obtain ⟨inside, written, continues⟩ :=
      elements_spell rest others element element.write (value_spells element exact)
    have more := SpellsElements.more Blanks.nil spelled Blanks.nil continues
    exact ⟨_, by simp [writeElements, written], more⟩

/-- What follows the first member, whose text is given, closes the object. -/
theorem members_spell : ∀ rest, EverywhereMembers Exact rest →
    ∀ name first text, Spells first text →
      ∃ inside, writeString name.toList ++ ':' :: (text ++ writeMembers rest) = inside ++ ['}'] ∧
        SpellsMembers ((name, first) :: rest) inside
  | [], _, name, first, text, spelled => by
    have alone := SpellsMembers.last Blanks.nil (writeString_spells name.toList) Blanks.nil
      Blanks.nil spelled Blanks.nil
    rw [String.ofList_toList] at alone
    exact ⟨_, by simp [writeMembers], alone⟩
  | (other, value) :: rest, ⟨exact, others⟩, name, first, text, spelled => by
    obtain ⟨inside, written, continues⟩ :=
      members_spell rest others other value value.write (value_spells value exact)
    have more := SpellsMembers.more Blanks.nil (writeString_spells name.toList) Blanks.nil
      Blanks.nil spelled Blanks.nil continues
    rw [String.ofList_toList] at more
    exact ⟨_, by simp [writeMembers, written], more⟩

end

theorem text_spells {value : Value} (exact : Everywhere Exact value) :
    SpellsText value value.text.toList := by
  refine ⟨[], value.write, [], Blanks.nil, value_spells value exact, Blanks.nil, ?_⟩
  simp [Value.text]

/-! ## Documents -/

mutual

/-- A clause without vector search, and so without floats. -/
def Vectorless : Clause → Prop
  | .term _ _ | .range _ _ _ | .analyzed _ _ | .phrase _ _ => True
  | .anyOf clauses => VectorlessAll clauses
  | .bool filter => VectorlessFilter filter
  | .nearest _ | .hybrid _ _ => False

def VectorlessFilter : BoolFilter → Prop
  | ⟨must, mustNot⟩ => VectorlessAll must ∧ VectorlessAll mustNot

def VectorlessAll : List Clause → Prop
  | [] => True
  | clause :: rest => Vectorless clause ∧ VectorlessAll rest

end

/-- The names of an object ascend by code points, so none stands twice. -/
def Ascending : Value → Prop
  | .object members => (members.map Prod.fst).Pairwise (· < ·)
  | _ => True

mutual

theorem clause_finite : ∀ clause, Vectorless clause → FiniteClause clause
  | .term _ _, _ | .range _ _ _, _ | .analyzed _ _, _ | .phrase _ _, _ => trivial
  | .anyOf clauses, vectorless => clauses_finite clauses vectorless
  | .bool filter, vectorless => filter_finite filter vectorless

theorem filter_finite : ∀ filter, VectorlessFilter filter → FiniteFilter filter
  | ⟨must, mustNot⟩, vectorless =>
    ⟨clauses_finite must vectorless.1, clauses_finite mustNot vectorless.2⟩

theorem clauses_finite : ∀ clauses, VectorlessAll clauses → FiniteClauses clauses
  | [], _ => trivial
  | clause :: rest, vectorless =>
    ⟨clause_finite clause vectorless.1, clauses_finite rest vectorless.2⟩

end

/-- A property of all that a document without vector search is made of: strings, arrays, the number
one, and objects with one member or with two in order. -/
structure OfDocuments (property : Value → Prop) : Prop where
  string : ∀ text, property (.string text)
  one : property (.natural 1)
  array : ∀ elements, property (.array elements)
  keyed : ∀ name value, property (keyed name value)
  pair : ∀ first second value other, first < second →
    property (.object [(first, value), (second, other)])

namespace OfDocuments

variable {property : Value → Prop}

theorem everywhere_keyed (parts : OfDocuments property) (name : String) {value : Value}
    (inside : Everywhere property value) : Everywhere property (Document.keyed name value) :=
  ⟨parts.keyed name value, inside, trivial⟩

theorem everywhere_pair (parts : OfDocuments property) {first second : String}
    (order : first < second) {value other : Value} (inside : Everywhere property value)
    (otherInside : Everywhere property other) :
    Everywhere property (.object [(first, value), (second, other)]) :=
  ⟨parts.pair first second value other order, inside, otherInside, trivial⟩

mutual

theorem clause_everywhere (parts : OfDocuments property) :
    ∀ clause, Vectorless clause → Everywhere property clause.json
  | .term field value, _ | .analyzed field value, _ | .phrase field value, _ =>
    parts.everywhere_keyed _ (parts.everywhere_keyed field (parts.string value))
  | .range field atLeast atMost, _ =>
    parts.everywhere_keyed _ (parts.everywhere_keyed field
      (parts.everywhere_pair (by decide) (parts.string atLeast) (parts.string atMost)))
  | .anyOf clauses, vectorless => by
    rw [Clause.json, jsonAll_eq_map]
    exact parts.everywhere_keyed _ (parts.everywhere_pair (by decide) parts.one
      ⟨parts.array _, clauses_everywhere parts clauses vectorless⟩)
  | .bool filter, vectorless => by
    rw [Clause.json]
    exact filter_everywhere parts filter vectorless

theorem filter_everywhere (parts : OfDocuments property) :
    ∀ filter, VectorlessFilter filter → Everywhere property filter.json
  | ⟨must, mustNot⟩, ⟨required, refused⟩ => by
    rw [filter_json]
    exact parts.everywhere_keyed _ (parts.everywhere_pair (by decide)
      ⟨parts.array _, clauses_everywhere parts must required⟩
      ⟨parts.array _, clauses_everywhere parts mustNot refused⟩)

theorem clauses_everywhere (parts : OfDocuments property) :
    ∀ clauses, VectorlessAll clauses → EverywhereElements property (clauses.map Clause.json)
  | [], _ => trivial
  | clause :: rest, ⟨vectorless, others⟩ =>
    ⟨clause_everywhere parts clause vectorless, clauses_everywhere parts rest others⟩

end

end OfDocuments

theorem exact_ofDocuments : OfDocuments Exact where
  string _ := trivial
  one := ⟨by decide, by decide⟩
  array _ := trivial
  keyed _ _ := trivial
  pair _ _ _ _ _ := trivial

theorem ascending_ofDocuments : OfDocuments Ascending where
  string _ := trivial
  one := trivial
  array _ := trivial
  keyed _ _ := List.pairwise_singleton _ _
  pair _ _ _ _ order := List.pairwise_pair.mpr order

/-- **Nothing that stands in a document changes it.** Whatever the names and values of its fields
are, the text of a document without vector search is JSON; it spells the value of the document and
no other, the strict reader reads that value, and who knows the shapes of the query language finds
the document in it again, clause by clause. The names of every object stand in their order, none of
them twice, and no other document has the same text. -/
theorem document_text_inert {clause : Clause} (vectorless : Vectorless clause) :
    SpellsText clause.json clause.json.text.toList ∧
    (∀ value, SpellsText value clause.json.text.toList → value = clause.json) ∧
    Json.read? clause.json.text.toList = some clause.json ∧
    (Json.read? clause.json.text.toList).bind clauseOf? = some clause ∧
    Everywhere Ascending clause.json ∧
    ∀ other, Vectorless other → other.json.text = clause.json.text → other = clause := by
  have spelled : SpellsText clause.json clause.json.text.toList :=
    text_spells (exact_ofDocuments.clause_everywhere clause vectorless)
  have read : Json.read? clause.json.text.toList = some clause.json := read?_of_spellsText spelled
  refine ⟨spelled, fun value others => spellsText_unique others spelled, read, ?_,
    ascending_ofDocuments.clause_everywhere clause vectorless, ?_⟩
  · rw [read]
    exact clause_read_back clause (clause_finite clause vectorless)
  · intro other otherVectorless same
    have otherSpelled : SpellsText other.json other.json.text.toList :=
      text_spells (exact_ofDocuments.clause_everywhere other otherVectorless)
    rw [same] at otherSpelled
    exact json_injective (clause_finite other otherVectorless) (clause_finite clause vectorless)
      (spellsText_unique otherSpelled spelled)

/-- A document whose texts try to end their strings and to add members. -/
def hostileDocument : Clause :=
  .bool
    ⟨[.term "tag\":\x7b\"x" "red\"\x7d\x7d,\x7b\"match_all\":\x7b\x7d",
        .anyOf [.phrase "\\" "\x00\x1f\\\"\n"]],
      [.range "" "],\"must\":[" "\u2028😀"]⟩

theorem hostileDocument_inert :
    Json.read? hostileDocument.json.text.toList = some hostileDocument.json ∧
      (Json.read? hostileDocument.json.text.toList).bind clauseOf? = some hostileDocument := by
  have vectorless : Vectorless hostileDocument :=
    ⟨⟨trivial, ⟨trivial, trivial⟩, trivial⟩, trivial, trivial⟩
  obtain ⟨_, _, value, document, _⟩ := document_text_inert vectorless
  exact ⟨value, document⟩

end SearchCompiler.WrittenText
