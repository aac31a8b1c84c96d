import SearchCompiler.Calendar.DateTerm
import SearchCompiler.Proofs.CalendarDays
import SearchCompiler.Proofs.Numerals

/-! The text of an instant, field by field. Each field has a fixed number of digits, and in the years
that four digits write none of the numbers is too great for its field, so every field is read back to
its number. What the text says is the instant cut to milliseconds. -/
namespace SearchCompiler.RenderedInstants
open Calendar
open CalendarDays Numerals

/-! ## Fields of fixed width -/

theorem fixedDigits_length (width number : Nat) : (fixedDigits width number).length = width := by
  induction width generalizing number with
  | zero => rfl
  | succ width ih => rw [fixedDigits, List.length_append, ih, List.length_singleton]

theorem fixedDigits_isNumeral (width number : Nat) : IsNumeral (fixedDigits width number) := by
  induction width generalizing number with
  | zero => exact List.forall_mem_nil _
  | succ width ih =>
    refine isNumeral_append.mpr ⟨ih _, List.forall_mem_singleton.mpr ?_⟩
    rw [Nat.isDigit_digitChar]
    exact decide_eq_true (Nat.mod_lt _ (by decide))

/-- A field is read back to its number, where the number fits. -/
theorem valueOf_fixedDigits {width number : Nat} (fits : number < 10 ^ width) :
    valueOf (fixedDigits width number) = number := by
  induction width generalizing number with
  | zero =>
    cases Nat.lt_one_iff.mp fits
    rfl
  | succ width ih =>
    have shorter : number / 10 < 10 ^ width := Nat.div_lt_of_lt_mul (by rwa [← Nat.pow_succ'])
    have last : (Nat.digitChar (number % 10)).toNat = 48 + number % 10 :=
      Nat.toNat_digitChar_of_lt_ten (Nat.mod_lt _ (by decide))
    rw [fixedDigits, valueOf_concat, ih shorter, last]
    change 10 * (number / 10) + (48 + number % 10 - 48) = number
    omega

/-- Fields of one width stand in the order of their numbers, and what follows them decides where the
numbers are equal. -/
theorem fixedDigits_append_lt_iff {width first second : Nat} {front back : List Char}
    (firstFits : first < 10 ^ width) (secondFits : second < 10 ^ width) :
    fixedDigits width first ++ front < fixedDigits width second ++ back ↔
      first < second ∨ first = second ∧ front < back := by
  have length : (fixedDigits width first).length = (fixedDigits width second).length := by
    rw [fixedDigits_length, fixedDigits_length]
  rw [numeral_append_lt_iff (fixedDigits_isNumeral _ _) (fixedDigits_isNumeral _ _) length,
    valueOf_fixedDigits firstFits, valueOf_fixedDigits secondFits]

/-! ## The fields of an instant -/

def hourOf (instant : Instant) : Nat := (instant.seconds % 86400).toNat / 3600

def minuteOf (instant : Instant) : Nat := (instant.seconds % 86400).toNat / 60 % 60

/-- The second of the minute, sixty in a leap second. -/
def secondOf (instant : Instant) : Nat :=
  (instant.seconds % 86400).toNat % 60 + (if instant.isLeap then 1 else 0)

def milliOf (instant : Instant) : Nat := instant.nanos % nanosPerSecond / 1000000

/-- An instant without what goes beyond its milliseconds. -/
def cutToMillis (instant : Instant) : Instant :=
  have bounded := instant.bounded
  have ends := instant.leapEndsMinute
  ⟨instant.seconds, instant.nanos / 1000000 * 1000000, by unfold nanosPerSecond at *; omega,
    fun leap => ends (by unfold nanosPerSecond at *; omega)⟩

theorem iso_eq (instant : Instant) :
    instant.iso =
      fixedDigits 4 instant.date.year.toNat ++ '-' :: (fixedDigits 2 instant.date.month ++
        '-' :: (fixedDigits 2 instant.date.day ++ 'T' :: (fixedDigits 2 (hourOf instant) ++
          ':' :: (fixedDigits 2 (minuteOf instant) ++ ':' :: (fixedDigits 2 (secondOf instant) ++
            '.' :: (fixedDigits 3 (milliOf instant) ++ ['Z'])))))) := by
  simp [Instant.iso, Date.iso, Instant.isoTime, hourOf, minuteOf, secondOf, milliOf]

variable {instant : Instant}

/-- A leap second is a whole second among the milliseconds. -/
theorem secondOf_eq (instant : Instant) :
    secondOf instant = (instant.seconds % 86400).toNat % 60 + instant.nanos / 1000000 / 1000 := by
  have bounded : instant.nanos < 2000000000 := instant.bounded
  have leap : instant.isLeap = true ↔ 1000000000 ≤ instant.nanos := decide_eq_true_iff
  rw [secondOf]
  split
  · next ends =>
    rw [leap] at ends
    omega
  · next common =>
    rw [leap] at common
    omega

theorem milliOf_eq (instant : Instant) : milliOf instant = instant.nanos / 1000000 % 1000 := by
  unfold milliOf nanosPerSecond
  omega

/-- What a date term means can be rendered. -/
theorem isRenderable_of_resolve {clock : Instant} {term : List Char}
    (read : DateTerm.resolve clock term = .ok (some instant)) : instant.isRenderable = true := by
  unfold DateTerm.resolve at read
  cases found : DateTerm.readAny clock term with
  | error fault =>
    rw [found] at read
    cases read
  | ok meaning =>
    rw [found] at read
    exact (Option.filter_eq_some_iff.mp (Except.ok.inj read)).2

/-- No number is too great for its field. -/
structure FieldsFit (instant : Instant) : Prop where
  year : instant.date.year.toNat < 10 ^ 4
  month : instant.date.month < 10 ^ 2
  day : instant.date.day < 10 ^ 2
  hour : hourOf instant < 24
  minute : minuteOf instant < 60
  second : secondOf instant ≤ 60
  milli : milliOf instant < 10 ^ 3

theorem date_isValid (instant : Instant) : instant.date.isValid = true :=
  (ofDayNumber_holds _).1

theorem date_dayNumber (instant : Instant) : instant.date.dayNumber = instant.seconds / 86400 :=
  (ofDayNumber_holds _).2

theorem year_bounds (renderable : instant.isRenderable = true) :
    0 ≤ instant.date.year ∧ instant.date.year ≤ 9999 := by
  simpa [Instant.isRenderable] using renderable

theorem fieldsFit (renderable : instant.isRenderable = true) : FieldsFit instant := by
  obtain ⟨_, lastMonth, _, lastDay⟩ := isValid_iff.mp (date_isValid instant)
  have days := daysInMonth_le instant.date.year instant.date.month
  have years := year_bounds renderable
  have bounded : instant.nanos < 2000000000 := instant.bounded
  have second : secondOf instant ≤ 60 := by
    rw [secondOf_eq]
    omega
  refine ⟨by omega, by omega, by omega, ?_, ?_, second, ?_⟩
  · unfold hourOf
    omega
  · exact Nat.mod_lt _ (by decide)
  · rw [milliOf_eq]
    exact Nat.mod_lt _ (by decide)

/-- The text does not go beyond the milliseconds. -/
theorem iso_cutToMillis (instant : Instant) : (cutToMillis instant).iso = instant.iso := by
  have kept : (cutToMillis instant).nanos / 1000000 = instant.nanos / 1000000 :=
    Nat.mul_div_cancel _ (by decide)
  rw [iso_eq, iso_eq, secondOf_eq, secondOf_eq, milliOf_eq, milliOf_eq, kept]
  rfl

end SearchCompiler.RenderedInstants
