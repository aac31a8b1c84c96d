import Mathlib.Data.List.Forall2
import Mathlib.Data.String.Basic
import SearchCompiler.Proofs.RenderedInstants

/-! The texts of bounds stand in the order of their instants. Whatever date terms mean is rendered in
one form, greater units before smaller ones and each in a fixed number of digits, so that comparing
two texts character by character compares the days, then the times of day. A leap second is second
sixty and comes before the next minute there as well. Two texts are equal only where the instants
differ by less than a millisecond. -/
namespace SearchCompiler.BoundOrder
open Calendar Calendar.DateTerm
open CalendarDays Numerals RenderedInstants

/-! ## The form of a bound -/

/-- How a bound looks, with a zero for every digit. -/
def boundForm : List Char := "0000-00-00T00:00:00.000Z".toList

/-- A text of some form: an ASCII digit for every zero, and otherwise the same characters. -/
def HasForm (form text : List Char) : Prop :=
  List.Forall₂ (fun mark c => if mark = '0' then c.isDigit = true else c = mark) form text

/-- A bound in the form `YYYY-MM-DDThh:mm:ss.mmmZ`: twenty-four characters, all of them ASCII. -/
structure IsBound (text : List Char) : Prop where
  form : HasForm boundForm text
  length : text.length = 24
  ascii : ∀ c ∈ text, c.toNat < 128

/-- The first instant is not later than the second: a leap second is later than the second that it
follows, and earlier than the next. -/
def NotAfter (first second : Instant) : Prop :=
  first.seconds < second.seconds ∨ first.seconds = second.seconds ∧ first.nanos ≤ second.nanos

variable {form text digits : List Char} {instant first second : Instant}

theorem hasForm_numeral (isNumeral : IsNumeral digits) (rest : HasForm form text) :
    HasForm (List.replicate digits.length '0' ++ form) (digits ++ text) := by
  induction digits with
  | nil => exact rest
  | cons c digits ih =>
    obtain ⟨isDigit, others⟩ := List.forall_mem_cons.mp isNumeral
    exact .cons (by rw [if_pos rfl]; exact isDigit) (ih others)

theorem hasForm_field (width number : Nat) (rest : HasForm form text) :
    HasForm (List.replicate width '0' ++ form) (fixedDigits width number ++ text) := by
  have field := hasForm_numeral (fixedDigits_isNumeral width number) rest
  rwa [fixedDigits_length] at field

theorem hasForm_mark {mark : Char} (other : mark ≠ '0') (rest : HasForm form text) :
    HasForm (mark :: form) (mark :: text) :=
  .cons (by rw [if_neg other]) rest

theorem HasForm.ascii (has : HasForm form text) (plain : ∀ mark ∈ form, mark.toNat < 128) :
    ∀ c ∈ text, c.toNat < 128 := by
  induction has with
  | nil => exact List.forall_mem_nil _
  | @cons mark c form text same rest ih =>
    obtain ⟨isPlain, others⟩ := List.forall_mem_cons.mp plain
    refine List.forall_mem_cons.mpr ⟨?_, ih others⟩
    split at same
    · exact Nat.lt_of_le_of_lt (isDigit_iff.mp same).2 (by decide)
    · rw [same]
      exact isPlain

theorem iso_hasForm (instant : Instant) : HasForm boundForm instant.iso := by
  have fields : boundForm =
      List.replicate 4 '0' ++ '-' :: (List.replicate 2 '0' ++ '-' :: (List.replicate 2 '0' ++
        'T' :: (List.replicate 2 '0' ++ ':' :: (List.replicate 2 '0' ++ ':' ::
          (List.replicate 2 '0' ++ '.' :: (List.replicate 3 '0' ++ ['Z'])))))) := by
    decide +kernel
  rw [iso_eq, fields]
  refine hasForm_field _ _ (hasForm_mark (by decide) ?_)
  refine hasForm_field _ _ (hasForm_mark (by decide) ?_)
  refine hasForm_field _ _ (hasForm_mark (by decide) ?_)
  refine hasForm_field _ _ (hasForm_mark (by decide) ?_)
  refine hasForm_field _ _ (hasForm_mark (by decide) ?_)
  refine hasForm_field _ _ (hasForm_mark (by decide) ?_)
  exact hasForm_field _ _ (hasForm_mark (by decide) .nil)

theorem iso_isBound (instant : Instant) : IsBound instant.iso := by
  have form := iso_hasForm instant
  have plain : boundForm.all (fun mark => decide (mark.toNat < 128)) = true := by decide +kernel
  have length : boundForm.length = 24 := by decide +kernel
  exact ⟨form, form.length_eq.symm.trans length,
    form.ascii fun mark member => of_decide_eq_true (List.all_eq_true.mp plain mark member)⟩

/-! ## Order -/

/-- The fields of the time of day compare as its seconds and milliseconds do. A leap second alone
has sixty seconds, and it is the last of its minute. -/
theorem time_lt_iff :
    (hourOf first < hourOf second ∨ hourOf first = hourOf second ∧
      (minuteOf first < minuteOf second ∨ minuteOf first = minuteOf second ∧
        (secondOf first < secondOf second ∨ secondOf first = secondOf second ∧
          milliOf first < milliOf second))) ↔
      first.seconds % 86400 < second.seconds % 86400 ∨
        first.seconds % 86400 = second.seconds % 86400 ∧
          first.nanos / 1000000 < second.nanos / 1000000 := by
  have bounded : first.nanos < 2000000000 := first.bounded
  have alsoBounded : second.nanos < 2000000000 := second.bounded
  have ends : 1000000000 ≤ first.nanos → first.seconds % 60 = 59 := first.leapEndsMinute
  have alsoEnds : 1000000000 ≤ second.nanos → second.seconds % 60 = 59 := second.leapEndsMinute
  rw [secondOf_eq, secondOf_eq, milliOf_eq, milliOf_eq]
  unfold hourOf minuteOf
  omega

/-- One text stands before another where its instant is earlier, milliseconds taken whole. -/
theorem iso_lt_iff (firstRenderable : first.isRenderable = true)
    (secondRenderable : second.isRenderable = true) :
    first.iso < second.iso ↔ first.seconds < second.seconds ∨ first.seconds = second.seconds ∧
      first.nanos / 1000000 < second.nanos / 1000000 := by
  have fits := fieldsFit firstRenderable
  have alsoFits := fieldsFit secondRenderable
  have twoDigits {number bound : Nat} (below : number < bound) (within : bound ≤ 100) :
      number < 10 ^ 2 := Nat.lt_of_lt_of_le below within
  have years := year_bounds firstRenderable
  have alsoYears := year_bounds secondRenderable
  have before := dayNumber_lt_iff (date_isValid first) (date_isValid second)
  have behind := dayNumber_lt_iff (date_isValid second) (date_isValid first)
  rw [date_dayNumber, date_dayNumber] at before behind
  rw [iso_eq, iso_eq, fixedDigits_append_lt_iff fits.year alsoFits.year]
  simp only [List.cons_lt_cons_iff, lt_irrefl, true_and, false_or,
    fixedDigits_append_lt_iff fits.month alsoFits.month,
    fixedDigits_append_lt_iff fits.day alsoFits.day,
    fixedDigits_append_lt_iff (twoDigits fits.hour (by decide)) (twoDigits alsoFits.hour (by decide)),
    fixedDigits_append_lt_iff (twoDigits fits.minute (by decide))
      (twoDigits alsoFits.minute (by decide)),
    fixedDigits_append_lt_iff (twoDigits (Nat.lt_succ_of_le fits.second) (by decide))
      (twoDigits (Nat.lt_succ_of_le alsoFits.second) (by decide)),
    fixedDigits_append_lt_iff fits.milli alsoFits.milli, and_false, or_false]
  rw [time_lt_iff]
  omega

/-- **Bounds sort like their instants.** Whatever two terms mean, against whatever clocks, is rendered
in one form of twenty-four characters. The text of an instant never stands behind that of a later
one, and the two are the same exactly where the instants are, once cut to milliseconds. -/
theorem bounds_sort {firstClock secondClock : Instant} {firstTerm secondTerm : List Char}
    (firstRead : resolve firstClock firstTerm = .ok (some first))
    (secondRead : resolve secondClock secondTerm = .ok (some second)) :
    IsBound first.iso ∧ IsBound second.iso ∧
      (NotAfter first second → String.ofList first.iso ≤ String.ofList second.iso) ∧
      (String.ofList first.iso = String.ofList second.iso ↔
        cutToMillis first = cutToMillis second) := by
  have firstRenderable := isRenderable_of_resolve firstRead
  have secondRenderable := isRenderable_of_resolve secondRead
  refine ⟨iso_isBound first, iso_isBound second, fun notAfter => ?_, fun same => ?_, fun same => ?_⟩
  · rw [← String.not_lt, String.lt_iff_toList_lt, String.toList_ofList, String.toList_ofList,
      iso_lt_iff secondRenderable firstRenderable]
    unfold NotAfter at notAfter
    omega
  · have texts := String.ofList_injective same
    have notBefore := (iso_lt_iff firstRenderable secondRenderable).not.mp
      (by rw [texts]; exact lt_irrefl _)
    have notBehind := (iso_lt_iff secondRenderable firstRenderable).not.mp
      (by rw [texts]; exact lt_irrefl _)
    apply Instant.ext
    · change first.seconds = second.seconds
      omega
    · change first.nanos / 1000000 * 1000000 = second.nanos / 1000000 * 1000000
      omega
  · rw [← iso_cutToMillis first, same, iso_cutToMillis]

/-! ## The end of a year -/

/-- Half a second into the leap second that ended the year 2016. -/
def lastHalfSecond : Instant := ⟨1483228799, 1500000000, by decide, by decide⟩

/-- On a clock that shows the leap second, now comes before the new year, in writing as well. -/
theorem leap_second_before_new_year :
    resolve lastHalfSecond "now".toList = .ok (some lastHalfSecond) ∧
      resolve lastHalfSecond "2017_01_01".toList = .ok (some (.ofSeconds 1483228800)) ∧
      NotAfter lastHalfSecond (.ofSeconds 1483228800) ∧
      lastHalfSecond.iso = "2016-12-31T23:59:60.500Z".toList ∧
      String.ofList lastHalfSecond.iso ≤ String.ofList (Instant.ofSeconds 1483228800).iso := by
  have now : resolve lastHalfSecond "now".toList = .ok (some lastHalfSecond) := by decide +kernel
  have newYear : resolve lastHalfSecond "2017_01_01".toList =
      .ok (some (.ofSeconds 1483228800)) := by decide +kernel
  have notAfter : NotAfter lastHalfSecond (.ofSeconds 1483228800) := .inl (by decide)
  exact ⟨now, newYear, notAfter, by decide +kernel, (bounds_sort now newYear).2.2.1 notAfter⟩

end SearchCompiler.BoundOrder
