import Mathlib.Algebra.Order.Group.Nat
import Mathlib.Data.List.Induction
import SearchCompiler.Text.Digit

/-! Numerals and the numbers that they write. A numeral has a number exactly where it is made of
ASCII digits, and the number is the one that its digits write in base ten, zeros in front counting
for nothing; digits of other scripts are recognised and have no number. -/
namespace SearchCompiler.Numerals
open Text

/-- Text made of ASCII digits. -/
def IsNumeral (text : List Char) : Prop := ∀ c ∈ text, c.isDigit = true

instance (text : List Char) : Decidable (IsNumeral text) :=
  decidable_of_iff (text.all Char.isDigit = true) List.all_eq_true

/-- The number that ASCII digits write in base ten. -/
def valueOf (digits : List Char) : Nat := Nat.ofDigitChars 10 digits 0

variable {first second digits : List Char}

theorem isDigit_iff {c : Char} : c.isDigit = true ↔ '0'.toNat ≤ c.toNat ∧ c.toNat ≤ '9'.toNat := by
  simp [Char.isDigit, UInt32.le_iff_toNat_le]

theorem digit?_eq_some_iff {c : Char} {value : Nat} :
    digit? c = some value ↔ c.isDigit = true ∧ value = c.toNat - '0'.toNat := by
  rw [isDigit_iff, digit?]
  split
  · next digit =>
    rw [Option.some.injEq, eq_comm, and_iff_right digit]
  · next other =>
    refine iff_of_false (fun read => ?_) fun digit => other digit.1
    cases read

theorem isNumeral_append : IsNumeral (first ++ second) ↔ IsNumeral first ∧ IsNumeral second :=
  List.forall_mem_append

theorem valueOf_append (first second : List Char) :
    valueOf (first ++ second) = 10 ^ second.length * valueOf first + valueOf second := by
  unfold valueOf
  rw [Nat.ofDigitChars_append, Nat.ofDigitChars_eq_ofDigitChars_zero]

theorem valueOf_concat (digits : List Char) (c : Char) :
    valueOf (digits ++ [c]) = 10 * valueOf digits + (c.toNat - '0'.toNat) := by
  unfold valueOf
  rw [Nat.ofDigitChars_append, Nat.ofDigitChars_cons, Nat.ofDigitChars_nil]

theorem numeral?_concat (digits : List Char) (c : Char) :
    numeral? (digits ++ [c]) =
      (numeral? digits).bind fun value => (digit? c).map fun last => 10 * value + last := by
  unfold numeral?
  rw [List.foldl_append, List.foldl_cons, List.foldl_nil]
  cases List.foldl _ (some 0) digits <;> cases digit? c <;> rfl

/-- A numeral is read to the number that its digits write, and nothing else is read. -/
theorem numeral?_eq_some_iff {value : Nat} :
    numeral? digits = some value ↔ IsNumeral digits ∧ value = valueOf digits := by
  induction digits using List.reverseRecOn generalizing value with
  | nil =>
    refine Iff.trans ?_ (and_iff_right (List.forall_mem_nil _)).symm
    exact Option.some_inj.trans eq_comm
  | append_singleton digits c ih =>
    rw [numeral?_concat, isNumeral_append, valueOf_concat]
    simp only [Option.bind_eq_some_iff, Option.map_eq_some_iff, ih, digit?_eq_some_iff]
    constructor
    · rintro ⟨_, ⟨isNumeral, rfl⟩, _, ⟨isDigit, rfl⟩, rfl⟩
      refine ⟨⟨isNumeral, fun last member => ?_⟩, rfl⟩
      rw [List.mem_singleton.mp member]
      exact isDigit
    · rintro ⟨⟨isNumeral, isDigit⟩, rfl⟩
      exact ⟨_, ⟨isNumeral, rfl⟩, _, ⟨isDigit c (List.mem_singleton_self c), rfl⟩, rfl⟩

theorem numeral?_of_isNumeral (isNumeral : IsNumeral digits) :
    numeral? digits = some (valueOf digits) :=
  numeral?_eq_some_iff.mpr ⟨isNumeral, rfl⟩

/-- The digits of a number are read back to it. -/
theorem numeral?_toDigits (n : Nat) : numeral? (Nat.toDigits 10 n) = some n := by
  refine numeral?_eq_some_iff.mpr ⟨fun c member => ?_, ?_⟩
  · exact Nat.isDigit_of_mem_toDigits (by decide) (by decide) member
  · exact (Nat.ofDigitChars_toDigits (by decide) (by decide)).symm

theorem numeral?_of_not_isNumeral (other : ¬ IsNumeral digits) : numeral? digits = none :=
  Option.eq_none_iff_forall_ne_some.mpr fun _ read => other (numeral?_eq_some_iff.mp read).1

/-- So many digits write less than the power of ten with so many zeros. -/
theorem valueOf_lt (isNumeral : IsNumeral digits) : valueOf digits < 10 ^ digits.length := by
  induction digits using List.reverseRecOn with
  | nil => exact Nat.one_pos
  | append_singleton digits c ih =>
    obtain ⟨front, isDigit⟩ := isNumeral_append.mp isNumeral
    have digit : '0'.toNat ≤ c.toNat ∧ c.toNat ≤ '9'.toNat :=
      isDigit_iff.mp (isDigit c (List.mem_singleton_self c))
    have small : c.toNat - '0'.toNat < 10 := by
      change 48 ≤ c.toNat ∧ c.toNat ≤ 57 at digit
      change c.toNat - 48 < 10
      omega
    have bound := ih front
    rw [valueOf_concat, List.length_append, List.length_singleton, pow_succ]
    omega

theorem valueOf_cons (c : Char) (digits : List Char) :
    valueOf (c :: digits) = 10 ^ digits.length * (c.toNat - '0'.toNat) + valueOf digits := by
  have single : valueOf [c] = c.toNat - '0'.toNat := (valueOf_concat [] c).trans (Nat.zero_add _)
  rw [← single]
  exact valueOf_append [c] digits

/-- Numerals of one length stand in the order of their numbers, and what is written behind them
decides where the numbers are equal. -/
theorem numeral_append_lt_iff {front back : List Char} (isFirst : IsNumeral first)
    (isSecond : IsNumeral second) (length : first.length = second.length) :
    first ++ front < second ++ back ↔
      valueOf first < valueOf second ∨ valueOf first = valueOf second ∧ front < back := by
  induction first generalizing second with
  | nil =>
    cases List.eq_nil_of_length_eq_zero length.symm
    simp
  | cons c digits ih =>
    obtain ⟨d, others, rfl⟩ := List.exists_cons_of_length_eq_add_one length.symm
    obtain ⟨isDigit, isNumeral⟩ := List.forall_mem_cons.mp isFirst
    obtain ⟨alsoDigit, alsoNumeral⟩ := List.forall_mem_cons.mp isSecond
    have size : digits.length = others.length := Nat.succ.inj length
    have low : 48 ≤ c.toNat := (isDigit_iff.mp isDigit).1
    have alsoLow : 48 ≤ d.toNat := (isDigit_iff.mp alsoDigit).1
    have below := valueOf_lt isNumeral
    have alsoBelow := valueOf_lt alsoNumeral
    rw [List.cons_append, List.cons_append, List.cons_lt_cons_iff,
      ih isNumeral alsoNumeral size, valueOf_cons, valueOf_cons, size, Char.lt_def,
      UInt32.lt_iff_toNat_lt, ← Char.toNat_inj]
    rw [size] at below
    change c.toNat < d.toNat ∨ _ ↔ _ * (c.toNat - 48) + _ < _ * (d.toNat - 48) + _ ∨
      _ * (c.toNat - 48) + _ = _ * (d.toNat - 48) + _ ∧ _
    -- a greater first digit outweighs all that follow it
    have outweighs {less more : Nat} (smaller : less < more) :
        10 ^ others.length * less + 10 ^ others.length ≤ 10 ^ others.length * more := by
      rw [← Nat.mul_succ]
      exact Nat.mul_le_mul_left _ smaller
    rcases Nat.lt_trichotomy c.toNat d.toNat with less | same | more
    · have gap := outweighs (Nat.sub_lt_sub_right low less)
      omega
    · simp [same]
    · have gap := outweighs (Nat.sub_lt_sub_right alsoLow more)
      omega

end SearchCompiler.Numerals
