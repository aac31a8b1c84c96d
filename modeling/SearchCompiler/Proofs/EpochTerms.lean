import Mathlib.Algebra.Group.Int.Defs
import SearchCompiler.Proofs.CalendarDays
import SearchCompiler.Proofs.DateForms

/-! Signed numerals count from the start of 1970, in seconds or in milliseconds, and how many digits
are written decides which, zeros in front included. Up to ten digits are seconds, and so few never
leave the years that four digits write. More digits are milliseconds, and have a meaning exactly in
these years, however long the numeral: a count has 64 bits and instants have a last year, but both
bounds lie beyond. So every whole millisecond of these years can be written, behind enough zeros. -/
namespace SearchCompiler.EpochTerms
open Calendar Calendar.DateTerm Text
open CalendarDays DateForms DateShapes Numerals

/-! ## Counts -/

/-- A numeral, behind a minus sign where it is negative. -/
def signedText (negative : Bool) (digits : List Char) : List Char :=
  if negative then '-' :: digits else digits

/-- The number that a signed numeral writes. -/
def countOf (negative : Bool) (digits : List Char) : Int :=
  if negative then -valueOf digits else valueOf digits

/-- An instant lies so many nanoseconds after the start of 1970, or before it for a negative number:
its seconds are whole, and what is left of them is less than a second and never negative. -/
structure LiesAt (nanos : Int) (instant : Instant) : Prop where
  sum : instant.seconds * 1000000000 + instant.nanos = nanos
  fraction : instant.nanos < 1000000000

/-- A number of milliseconds as a numeral with some zeros in front. -/
def paddedDigits (zeros : Nat) (millis : Int) : List Char :=
  List.replicate zeros '0' ++ Nat.toDigits 10 millis.natAbs

variable {clock instant other : Instant} {digits : List Char} {negative : Bool} {count nanos : Int}

theorem LiesAt.unique (first : LiesAt nanos instant) (second : LiesAt nanos other) :
    instant = other := by
  have sum := first.sum.trans second.sum.symm
  have fraction := first.fraction
  have otherFraction := second.fraction
  apply Instant.ext
  · omega
  · omega

theorem seconds_ofSeconds (count : Int) : (Instant.ofSeconds count).seconds = count := rfl

theorem seconds_ofMillis (count : Int) : (Instant.ofMillis count).seconds = count / 1000 := rfl

theorem liesAt_ofSeconds (count : Int) : LiesAt (count * 1000000000) (.ofSeconds count) :=
  ⟨Int.add_zero _, Nat.zero_lt_succ _⟩

/-- Milliseconds divide into seconds, rounded down, and the milliseconds that are left. -/
theorem liesAt_ofMillis (count : Int) : LiesAt (count * 1000000) (.ofMillis count) := by
  have left : 0 ≤ count % 1000 := Int.emod_nonneg count (by decide)
  have below : count % 1000 < 1000 := Int.emod_lt_of_pos count (by decide)
  constructor
  · rw [seconds_ofMillis]
    change _ + ((count % 1000).toNat * 1000000 : Nat) = count * 1000000
    omega
  · change (count % 1000).toNat * 1000000 < 1000000000
    omega

theorem countOf_bounds (isNumeral : IsNumeral digits) (negative : Bool) :
    -10 ^ digits.length < countOf negative digits ∧ countOf negative digits < 10 ^ digits.length := by
  have below : (valueOf digits : Int) < 10 ^ digits.length := by
    exact_mod_cast valueOf_lt isNumeral
  unfold countOf
  split
  · omega
  · omega

/-! ## Reading -/

/-- A signed numeral holds nothing but its sign and digits. -/
theorem not_mem_signedText (isNumeral : IsNumeral digits) {c : Char} (unsigned : c ≠ '-')
    (digitless : ¬ c.isDigit = true) : c ∉ signedText negative digits := by
  intro member
  unfold signedText at member
  split at member
  · rcases List.mem_cons.mp member with sign | digit
    · exact unsigned sign
    · exact digitless (isNumeral c digit)
  · exact digitless (isNumeral c member)

/-- The instant that a count means: seconds for up to ten digits, milliseconds for more. -/
def countedBy (digits : List Char) (count : Int) : Instant :=
  if digits.length ≤ secondsDigits then .ofSeconds count else .ofMillis count

theorem epoch?_signedText (isNumeral : IsNumeral digits) (written : digits ≠ []) :
    epoch? (signedText negative digits) =
      if isCountable (countOf negative digits) then
        (countedBy digits (countOf negative digits)).represented?
      else none := by
  have nonempty : digits.isEmpty = false := by simpa using written
  have unsigned : ∀ rest, digits ≠ '-' :: rest := by
    rintro rest rfl
    exact absurd (isNumeral '-' List.mem_cons_self) (by decide)
  cases negative with
  | true => simp [epoch?, signedText, countOf, countedBy, nonempty, numeral?_of_isNumeral isNumeral]
  | false => simp [epoch?, signedText, countOf, countedBy, nonempty, numeral?_of_isNumeral isNumeral]

/-- A signed numeral is read as a count, and in no other form. -/
theorem readAny_signedText (isNumeral : IsNumeral digits) (written : digits ≠ []) :
    readAny clock (signedText negative digits) = .ok (epoch? (signedText negative digits)) := by
  have begins : ∃ c rest, signedText negative digits = c :: rest := by
    obtain ⟨c, rest, rfl⟩ := List.exists_cons_of_ne_nil written
    cases negative with
    | true => exact ⟨'-', c :: rest, rfl⟩
    | false => exact ⟨c, rest, rfl⟩
  have unparted : '_' ∉ signedText negative digits :=
    not_mem_signedText isNumeral (by decide) (by decide)
  have unasked : 'n' ∉ signedText negative digits :=
    not_mem_signedText isNumeral (by decide) (by decide)
  obtain ⟨c, rest, text⟩ := begins
  have unnamed : c ≠ 'n' := by
    rintro rfl
    exact unasked (by rw [text]; exact List.mem_cons_self)
  obtain ⟨undated, untimed⟩ := undated_of_unshaped (dateShape?_of_unparted unparted)
  rw [text] at undated untimed ⊢
  obtain ⟨present, related⟩ := clock_unasked unnamed clock rest
  rw [readAny, undated, untimed]
  dsimp only
  rw [present, related]
  simp [Except.map]

/-- Within the years that four digits write, the bounds on counts and on instants never strike. -/
theorem filter_counted (counted : instant.isRenderable = true → isCountable count = true) :
    (if isCountable count then instant.represented? else none).filter Instant.isRenderable =
      if instant.isRenderable then some instant else none := by
  by_cases renderable : instant.isRenderable = true
  · have representable : instant.isRepresentable = true := by
      rw [isRenderable_iff_seconds] at renderable
      rw [isRepresentable_iff_seconds]
      omega
    rw [if_pos (counted renderable), Instant.represented?, if_pos representable,
      Option.filter_some]
  · rw [if_neg renderable]
    refine Option.filter_eq_none_iff.mpr fun found read => ?_
    split at read
    · unfold Instant.represented? at read
      split at read
      · cases read
        exact renderable
      · cases read
    · cases read

theorem resolve_signedText (isNumeral : IsNumeral digits) (written : digits ≠ []) :
    resolve clock (signedText negative digits) =
      .ok (if (countedBy digits (countOf negative digits)).isRenderable then
        some (countedBy digits (countOf negative digits)) else none) := by
  rw [resolve, readAny_signedText isNumeral written, epoch?_signedText isNumeral written]
  refine congrArg Except.ok (filter_counted fun renderable => ?_)
  rw [isRenderable_iff_seconds] at renderable
  rw [isCountable_iff]
  unfold countedBy at renderable
  split at renderable
  · rw [seconds_ofSeconds] at renderable
    omega
  · rw [seconds_ofMillis] at renderable
    omega

/-! ## Meaning -/

/-- A reading came to the instant so many nanoseconds after the start of 1970, where four digits
write its year, and otherwise to nothing. -/
structure IsPlaced (nanos : Int) (result : Except DateFault (Option Instant)) : Prop where
  found : InFourDigitYears (nanos / 1000000000) →
    ∃ instant, result = .ok (some instant) ∧ LiesAt nanos instant
  lost : ¬ InFourDigitYears (nanos / 1000000000) → result = .ok none

theorem LiesAt.isPlaced (lies : LiesAt nanos instant) :
    IsPlaced nanos (.ok (if instant.isRenderable then some instant else none)) := by
  have whole : nanos / 1000000000 = instant.seconds := by
    have sum := lies.sum
    have fraction := lies.fraction
    omega
  constructor
  · intro years
    rw [whole, inFourDigitYears_iff] at years
    exact ⟨instant, by rw [if_pos years], lies⟩
  · intro outside
    rw [whole, inFourDigitYears_iff] at outside
    rw [if_neg outside]

/-- Up to ten digits count seconds. -/
theorem resolve_seconds (isNumeral : IsNumeral digits) (written : digits ≠ [])
    (short : digits.length ≤ 10) (negative : Bool) (clock : Instant) :
    IsPlaced (countOf negative digits * 1000000000)
      (resolve clock (signedText negative digits)) := by
  have unit (count : Int) : countedBy digits count = .ofSeconds count := if_pos short
  rw [resolve_signedText isNumeral written, unit]
  exact (liesAt_ofSeconds _).isPlaced

/-- More digits count milliseconds. -/
theorem resolve_millis (isNumeral : IsNumeral digits) (long : 10 < digits.length) (negative : Bool)
    (clock : Instant) :
    IsPlaced (countOf negative digits * 1000000)
      (resolve clock (signedText negative digits)) := by
  have written : digits ≠ [] := by
    rintro rfl
    cases long
  have unit (count : Int) : countedBy digits count = .ofMillis count :=
    if_neg (Nat.not_le.mpr long)
  rw [resolve_signedText isNumeral written, unit]
  exact (liesAt_ofMillis _).isPlaced

/-- So few digits count no seconds beyond the years that four digits write. -/
theorem short_inFourDigitYears (isNumeral : IsNumeral digits) (short : digits.length ≤ 10)
    (negative : Bool) : InFourDigitYears (countOf negative digits) := by
  obtain ⟨above, below⟩ := countOf_bounds isNumeral negative
  have bound : (10 : Int) ^ digits.length ≤ 10 ^ 10 := by
    exact_mod_cast Nat.pow_le_pow_right (by decide) short
  rw [inFourDigitYears_iff_seconds]
  omega

/-- Zeros in front leave a number as it is. -/
theorem countOf_padded (zeros : Nat) (millis : Int) :
    countOf (decide (millis < 0)) (paddedDigits zeros millis) = millis := by
  have size : valueOf (paddedDigits zeros millis) = millis.natAbs := by
    have zero : valueOf (List.replicate zeros '0') = 0 := by
      unfold valueOf
      rw [Nat.ofDigitChars_replicate_zero]
      rfl
    have digits := (numeral?_eq_some_iff.mp (numeral?_toDigits millis.natAbs)).2
    rw [paddedDigits, valueOf_append, zero, ← digits]
    exact Nat.zero_add _
  unfold countOf
  rw [size]
  by_cases negative : millis < 0
  · rw [decide_eq_true negative, if_pos rfl]
    omega
  · rw [decide_eq_false negative, if_neg Bool.false_ne_true]
    omega

theorem isNumeral_padded (zeros : Nat) (millis : Int) : IsNumeral (paddedDigits zeros millis) := by
  refine isNumeral_append.mpr ⟨fun c member => ?_, ?_⟩
  · rw [List.eq_of_mem_replicate member]
    rfl
  · exact (numeral?_eq_some_iff.mp (numeral?_toDigits millis.natAbs)).1

/-- **Numerals place instants exactly.** Whatever the clock shows, a signed numeral of up to ten
digits means the instant that many seconds from the start of 1970, without exception. With more
digits it means the instant that many milliseconds from there, where four digits write its year, and
has no meaning elsewhere, however long it is. Every instant of these years that is a whole number of
milliseconds away is meant by that number, behind zeros that make up more than ten digits. -/
theorem epoch_terms_exact (clock : Instant) :
    (∀ negative digits, IsNumeral digits → digits ≠ [] → digits.length ≤ 10 →
      ∃ instant, resolve clock (signedText negative digits) = .ok (some instant) ∧
        LiesAt (countOf negative digits * 1000000000) instant) ∧
    (∀ negative digits, IsNumeral digits → 10 < digits.length →
      IsPlaced (countOf negative digits * 1000000)
        (resolve clock (signedText negative digits))) ∧
    ∀ millis instant zeros, LiesAt (millis * 1000000) instant → InFourDigitYears instant.seconds →
      10 < (paddedDigits zeros millis).length →
      resolve clock (signedText (decide (millis < 0)) (paddedDigits zeros millis)) =
        .ok (some instant) := by
  refine ⟨fun negative digits isNumeral written short => ?_,
    fun negative digits isNumeral long => resolve_millis isNumeral long negative clock,
    fun millis instant zeros lies years long => ?_⟩
  · have placed := resolve_seconds isNumeral written short negative clock
    apply placed.found
    rw [Int.mul_ediv_cancel _ (by decide)]
    exact short_inFourDigitYears isNumeral short negative
  · have placed := resolve_millis (isNumeral_padded zeros millis) long (decide (millis < 0)) clock
    rw [countOf_padded] at placed
    have whole : millis * 1000000 / 1000000000 = instant.seconds := by
      have sum := lies.sum
      have fraction := lies.fraction
      omega
    rw [← whole] at years
    obtain ⟨found, read, alsoLies⟩ := placed.found years
    rw [read, lies.unique alsoLies]

/-- One more zero makes a second before 1970 a millisecond, and the first millisecond of the year zero
is written without any. -/
theorem zeros_decide_unit :
    (∃ instant, resolve (.ofSeconds 0) (signedText true (List.replicate 9 '0' ++ ['1'])) =
        .ok (some instant) ∧ LiesAt (-1 * 1000000000) instant) ∧
      (∃ instant, resolve (.ofSeconds 0) (signedText true (List.replicate 10 '0' ++ ['1'])) =
        .ok (some instant) ∧ LiesAt (-1 * 1000000) instant) ∧
      resolve (.ofSeconds 0) (signedText true (paddedDigits 0 (-62167219199999))) =
        .ok (some ⟨-62167219200, 1000000, by decide, by decide⟩) := by
  obtain ⟨seconds, millis, written⟩ := epoch_terms_exact (.ofSeconds 0)
  refine ⟨?_, ?_, ?_⟩
  · exact seconds true (List.replicate 9 '0' ++ ['1']) (by decide) (by decide) (by decide)
  · have placed := millis true (List.replicate 10 '0' ++ ['1']) (by decide) (by decide)
    exact placed.found (inFourDigitYears_iff_seconds.mpr (by decide))
  · exact written (-62167219199999) ⟨-62167219200, 1000000, by decide, by decide⟩ 0
      ⟨by decide, by decide⟩ (inFourDigitYears_iff_seconds.mpr (by decide)) (by decide +kernel)

end SearchCompiler.EpochTerms
