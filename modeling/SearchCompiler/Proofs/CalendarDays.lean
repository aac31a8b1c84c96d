import Mathlib.Logic.Function.Iterate
import SearchCompiler.Calendar.Instant

/-! Days are numbered without gaps. Going from each day of the calendar to the next, month by month
and through the leap years, counts up the number of the day by one, and every number is that of one
day. So an instant has a year of four digits exactly between two seconds, that begin the year zero
and end the year 9999. -/
namespace SearchCompiler.CalendarDays
open Calendar

/-! ## Years -/

def daysInYear (year : Int) : Nat := if isLeapYear year then 366 else 365

theorem isLeapYear_iff {year : Int} :
    isLeapYear year = true ↔ year % 4 = 0 ∧ (year % 100 ≠ 0 ∨ year % 400 = 0) := by
  simp [isLeapYear]

theorem daysBeforeYear_succ (year : Int) :
    daysBeforeYear (year + 1) = daysBeforeYear year + daysInYear year := by
  unfold daysBeforeYear daysInYear
  split
  · next leap =>
    rw [isLeapYear_iff] at leap
    omega
  · next common =>
    rw [isLeapYear_iff] at common
    omega

theorem daysBeforeYear_lt {first second : Int} (earlier : first < second) :
    daysBeforeYear first < daysBeforeYear second := by
  unfold daysBeforeYear
  omega

theorem daysBeforeYear_le {first second : Int} (within : first ≤ second) :
    daysBeforeYear first ≤ daysBeforeYear second := by
  rcases Int.lt_or_eq_of_le within with earlier | rfl
  · exact Int.le_of_lt (daysBeforeYear_lt earlier)
  · exact Int.le_refl _

/-- The year found for a day is the one whose days hold it: the guess misses by one at most. -/
theorem yearOfDay_holds (number : Int) :
    daysBeforeYear (yearOfDay number) ≤ number ∧
      number < daysBeforeYear (yearOfDay number + 1) := by
  have near : daysBeforeYear (1970 + number * 400 / 146097 - 1) ≤ number ∧
      number < daysBeforeYear (1970 + number * 400 / 146097 + 1 + 1) := by
    unfold daysBeforeYear
    omega
  unfold yearOfDay
  dsimp only
  split
  · next early =>
    rw [Int.sub_add_cancel]
    exact ⟨near.1, early⟩
  · next reached =>
    split
    · next late => exact ⟨late, near.2⟩
    · next before => exact ⟨Int.not_lt.mp reached, Int.not_le.mp before⟩

theorem le_yearOfDay_iff {year number : Int} :
    year ≤ yearOfDay number ↔ daysBeforeYear year ≤ number := by
  obtain ⟨begun, unfinished⟩ := yearOfDay_holds number
  constructor
  · intro within
    exact Int.le_trans (daysBeforeYear_le within) begun
  · intro reached
    refine Int.not_lt.mp fun later => ?_
    have beyond : daysBeforeYear (yearOfDay number + 1) ≤ daysBeforeYear year :=
      daysBeforeYear_le later
    omega

/-! ## Months -/

theorem daysInMonth_pos (year : Int) (month : Nat) : 1 ≤ daysInMonth year month := by
  unfold daysInMonth
  split
  · split <;> decide
  all_goals decide

theorem daysInMonth_le (year : Int) (month : Nat) : daysInMonth year month ≤ 31 := by
  unfold daysInMonth
  split
  · split <;> decide
  all_goals decide

theorem daysInMonths_le (year : Int) {first second : Nat} (within : first ≤ second) :
    daysInMonths year first ≤ daysInMonths year second := by
  induction within with
  | refl => exact Nat.le_refl _
  | step _ ih => exact Nat.le_trans ih (Nat.le_add_right _ _)

theorem daysInMonths_through (year : Int) {month : Nat} (counted : 1 ≤ month) :
    daysInMonths year month = daysInMonths year (month - 1) + daysInMonth year month := by
  obtain ⟨previous, rfl⟩ := Nat.exists_eq_add_of_le' counted
  rfl

/-- Twelve months make up a year. -/
theorem daysInMonths_year (year : Int) : daysInMonths year 12 = daysInYear year := by
  unfold daysInYear
  simp only [daysInMonths, daysInMonth]
  split <;> rfl

/-- A walk through the months ends in the month that holds the day, as many days along as it was
to go. -/
theorem walkMonths_holds {year : Int} {months month rest : Nat} (counted : 1 ≤ month)
    (inside : daysInMonths year (month - 1) + rest < daysInMonths year (month + months)) :
    month ≤ (walkMonths year months month rest).1 ∧
      (walkMonths year months month rest).1 ≤ month + months ∧
      1 ≤ (walkMonths year months month rest).2 ∧
      (walkMonths year months month rest).2 ≤
        daysInMonth year (walkMonths year months month rest).1 ∧
      daysInMonths year ((walkMonths year months month rest).1 - 1) +
          ((walkMonths year months month rest).2 - 1) =
        daysInMonths year (month - 1) + rest := by
  induction months generalizing month rest with
  | zero =>
    have through := daysInMonths_through year counted
    rw [Nat.add_zero] at inside
    dsimp only [walkMonths]
    omega
  | succ months ih =>
    have through := daysInMonths_through year counted
    unfold walkMonths
    split
    · next held =>
      dsimp only
      omega
    · next passed =>
      have further : daysInMonths year (month + 1 - 1) + (rest - daysInMonth year month) <
          daysInMonths year (month + 1 + months) := by
        rw [Nat.add_sub_cancel, Nat.add_assoc, Nat.add_comm 1 months]
        omega
      obtain ⟨from_here, to_end, first_day, last_day, sum⟩ := ih (Nat.le_add_left 1 month) further
      rw [Nat.add_sub_cancel] at sum
      omega

/-! ## Dates -/

variable {date first second : Date}

theorem isValid_iff :
    date.isValid = true ↔ 1 ≤ date.month ∧ date.month ≤ 12 ∧ 1 ≤ date.day ∧
      date.day ≤ daysInMonth date.year date.month := by
  simp [Date.isValid, and_assoc]

/-- The number of a day within its year, zero for the first of January. -/
def dayOfYear (date : Date) : Nat := daysInMonths date.year (date.month - 1) + (date.day - 1)

theorem dayNumber_eq (date : Date) :
    date.dayNumber = daysBeforeYear date.year + dayOfYear date := by
  unfold Date.dayNumber dayOfYear daysBeforeMonth
  omega

/-- A day of a month lies before every later month. -/
theorem dayOfYear_lt (valid : date.isValid = true) {month : Nat} (within : date.month ≤ month) :
    dayOfYear date < daysInMonths date.year month := by
  obtain ⟨counted, _, from_one, to_end⟩ := isValid_iff.mp valid
  have through := daysInMonths_through date.year counted
  have reached := daysInMonths_le date.year within
  unfold dayOfYear
  omega

theorem dayNumber_lt_year (valid : date.isValid = true) :
    daysBeforeYear date.year ≤ date.dayNumber ∧
      date.dayNumber < daysBeforeYear (date.year + 1) := by
  have inside := dayOfYear_lt valid (isValid_iff.mp valid).2.1
  rw [daysInMonths_year] at inside
  rw [dayNumber_eq, daysBeforeYear_succ]
  omega

theorem dayNumber_lt_of_year (firstValid : first.isValid = true)
    (secondValid : second.isValid = true) (earlier : first.year < second.year) :
    first.dayNumber < second.dayNumber := by
  have ended := (dayNumber_lt_year firstValid).2
  have begun := (dayNumber_lt_year secondValid).1
  have years := daysBeforeYear_le (Int.add_one_le_iff.mpr earlier)
  omega

theorem dayNumber_lt_of_month (firstValid : first.isValid = true) (year : first.year = second.year)
    (earlier : first.month < second.month) : first.dayNumber < second.dayNumber := by
  have before := dayOfYear_lt firstValid (Nat.le_pred_of_lt earlier)
  have reached : daysInMonths second.year (second.month - 1) ≤ dayOfYear second :=
    Nat.le_add_right _ _
  rw [year] at before
  rw [dayNumber_eq, dayNumber_eq, year]
  change dayOfYear first < daysInMonths second.year (second.month - 1) at before
  omega

/-- Days are numbered in the order of the calendar: by the year, then the month, then the day. -/
theorem dayNumber_lt_iff (firstValid : first.isValid = true) (secondValid : second.isValid = true) :
    first.dayNumber < second.dayNumber ↔ first.year < second.year ∨ first.year = second.year ∧
      (first.month < second.month ∨ first.month = second.month ∧ first.day < second.day) := by
  rcases Int.lt_trichotomy first.year second.year with earlier | year | later
  · have before := dayNumber_lt_of_year firstValid secondValid earlier
    omega
  · rcases Nat.lt_trichotomy first.month second.month with earlier | month | later
    · have before := dayNumber_lt_of_month firstValid year earlier
      omega
    · have counted := (isValid_iff.mp firstValid).2.2.1
      have alsoCounted := (isValid_iff.mp secondValid).2.2.1
      rw [dayNumber_eq, dayNumber_eq, dayOfYear, dayOfYear, year, month]
      omega
    · have behind := dayNumber_lt_of_month secondValid year.symm later
      omega
  · have behind := dayNumber_lt_of_year secondValid firstValid later
    omega

/-- Two days of the calendar with one number are one day. -/
theorem eq_of_dayNumber (firstValid : first.isValid = true) (secondValid : second.isValid = true)
    (same : first.dayNumber = second.dayNumber) : first = second := by
  have notBefore := (dayNumber_lt_iff firstValid secondValid).not.mp (by omega)
  have notBehind := (dayNumber_lt_iff secondValid firstValid).not.mp (by omega)
  have year : first.year = second.year := by omega
  have month : first.month = second.month := by omega
  have day : first.day = second.day := by omega
  obtain ⟨_, _, _⟩ := first
  obtain ⟨_, _, _⟩ := second
  cases year
  cases month
  cases day
  rfl

theorem ofDayNumber_holds (number : Int) :
    (Date.ofDayNumber number).isValid = true ∧ (Date.ofDayNumber number).dayNumber = number := by
  obtain ⟨begun, unfinished⟩ := yearOfDay_holds number
  have inside : daysInMonths (yearOfDay number) (1 - 1) +
      (number - daysBeforeYear (yearOfDay number)).toNat <
        daysInMonths (yearOfDay number) (1 + 11) := by
    rw [daysInMonths_year, Nat.sub_self, daysInMonths]
    rw [daysBeforeYear_succ] at unfinished
    omega
  obtain ⟨from_first, to_last, from_one, to_end, sum⟩ :=
    walkMonths_holds (Nat.le_refl 1) inside
  refine ⟨isValid_iff.mpr ⟨from_first, to_last, from_one, to_end⟩, ?_⟩
  rw [dayNumber_eq]
  unfold dayOfYear Date.ofDayNumber
  dsimp only
  rw [sum, Nat.sub_self, daysInMonths]
  omega

/-- A day of the calendar is found again from its number. -/
theorem ofDayNumber_dayNumber (valid : date.isValid = true) :
    Date.ofDayNumber date.dayNumber = date := by
  obtain ⟨found, number⟩ := ofDayNumber_holds date.dayNumber
  exact eq_of_dayNumber found valid number

/-! ## From one day to the next -/

/-- The next day: of the same month, or the first of the next month or year. -/
def nextDay (date : Date) : Date :=
  if date.day < daysInMonth date.year date.month then { date with day := date.day + 1 }
  else if date.month < 12 then ⟨date.year, date.month + 1, 1⟩
  else ⟨date.year + 1, 1, 1⟩

theorem nextDay_valid (valid : date.isValid = true) : (nextDay date).isValid = true := by
  obtain ⟨counted, to_last, from_one, to_end⟩ := isValid_iff.mp valid
  unfold nextDay
  rw [isValid_iff]
  split
  · next inside => exact ⟨counted, to_last, Nat.le_add_left _ _, inside⟩
  · split
    · next earlier => exact ⟨Nat.le_add_left _ _, earlier, Nat.le_refl _, daysInMonth_pos _ _⟩
    · exact ⟨Nat.le_refl _, Nat.le_add_left _ _, Nat.le_refl _, daysInMonth_pos _ _⟩

theorem dayNumber_nextDay (valid : date.isValid = true) :
    (nextDay date).dayNumber = date.dayNumber + 1 := by
  obtain ⟨counted, to_last, from_one, to_end⟩ := isValid_iff.mp valid
  have through := daysInMonths_through date.year counted
  rw [dayNumber_eq, dayNumber_eq]
  unfold nextDay dayOfYear
  split
  · dsimp only
    omega
  · next ended =>
    split
    · dsimp only
      rw [Nat.add_sub_cancel, through]
      omega
    · next last =>
      have december : date.month = 12 := Nat.le_antisymm to_last (Nat.not_lt.mp last)
      have whole := daysInMonths_year date.year
      dsimp only
      rw [daysBeforeYear_succ, ← whole, Nat.sub_self, daysInMonths, ← december, through]
      omega

theorem iterate_nextDay (valid : date.isValid = true) (count : Nat) :
    (nextDay^[count] date).isValid = true ∧
      (nextDay^[count] date).dayNumber = date.dayNumber + count := by
  induction count with
  | zero => exact ⟨valid, (Int.add_zero _).symm⟩
  | succ count ih =>
    rw [Function.iterate_succ_apply']
    refine ⟨nextDay_valid ih.1, ?_⟩
    rw [dayNumber_nextDay ih.1, ih.2]
    omega

/-- A later day of the calendar is reached by going from day to day. -/
theorem iterate_nextDay_eq_iff (firstValid : first.isValid = true)
    (secondValid : second.isValid = true) {count : Nat} :
    nextDay^[count] first = second ↔ second.dayNumber = first.dayNumber + count := by
  obtain ⟨reached, number⟩ := iterate_nextDay firstValid count
  constructor
  · rintro rfl
    exact number
  · intro apart
    exact eq_of_dayNumber reached secondValid (by rw [number, apart])

/-- The first day that is counted. -/
def epoch : Date := ⟨1970, 1, 1⟩

/-- A day lies so many days after the first of January 1970, or before it for a negative number:
that many steps lead from the one to the other. -/
def LiesAfterEpoch (days : Int) (date : Date) : Prop :=
  (∃ count : Nat, days = count ∧ nextDay^[count] epoch = date) ∨
    ∃ count : Nat, days = -count ∧ nextDay^[count] date = epoch

/-- The number of a day is how far it lies from the first of January 1970. -/
theorem liesAfterEpoch_iff (valid : date.isValid = true) {days : Int} :
    LiesAfterEpoch days date ↔ days = date.dayNumber := by
  have epochValid : epoch.isValid = true := by decide
  have start : epoch.dayNumber = 0 := by decide
  unfold LiesAfterEpoch
  simp only [iterate_nextDay_eq_iff epochValid valid, iterate_nextDay_eq_iff valid epochValid,
    start]
  constructor
  · rintro (⟨count, rfl, apart⟩ | ⟨count, rfl, apart⟩)
    · omega
    · omega
  · rintro rfl
    rcases Int.le_total 0 date.dayNumber with after | before
    · exact .inl ⟨date.dayNumber.toNat, by omega, by omega⟩
    · exact .inr ⟨(-date.dayNumber).toNat, by omega, by omega⟩

/-! ## Years of instants -/

/-- An instant, in seconds since the start of 1970, falls on a day whose year four digits write. -/
def InFourDigitYears (seconds : Int) : Prop :=
  ∃ date : Date, date.isValid = true ∧ LiesAfterEpoch (seconds / 86400) date ∧
    0 ≤ date.year ∧ date.year ≤ 9999

variable {instant : Instant}

theorem le_year_iff {year : Int} :
    year ≤ instant.date.year ↔ daysBeforeYear year * 86400 ≤ instant.seconds := by
  change year ≤ yearOfDay (instant.seconds / 86400) ↔ _
  rw [le_yearOfDay_iff]
  omega

theorem year_le_iff {year : Int} :
    instant.date.year ≤ year ↔ instant.seconds < daysBeforeYear (year + 1) * 86400 := by
  rw [← Int.not_lt, ← Int.not_le (a := daysBeforeYear (year + 1) * 86400), ← le_year_iff]
  rfl

theorem isRenderable_iff_seconds :
    instant.isRenderable = true ↔
      -62167219200 ≤ instant.seconds ∧ instant.seconds ≤ 253402300799 := by
  have begins : daysBeforeYear 0 = -719528 := by decide
  have ends : daysBeforeYear (9999 + 1) = 2932897 := by decide
  simp only [Instant.isRenderable, Bool.and_eq_true, decide_eq_true_eq, le_year_iff, year_le_iff,
    begins, ends]
  omega

theorem isRepresentable_iff_seconds :
    instant.isRepresentable = true ↔
      -8334601228800 ≤ instant.seconds ∧ instant.seconds ≤ 8210266876799 := by
  have begins : daysBeforeYear (-262143) = -96465292 := by decide
  have ends : daysBeforeYear (262142 + 1) = 95026237 := by decide
  simp only [Instant.isRepresentable, Bool.and_eq_true, decide_eq_true_eq, le_year_iff, year_le_iff,
    begins, ends]
  omega

/-- The years that four digits write are those that can be rendered. -/
theorem inFourDigitYears_iff : InFourDigitYears instant.seconds ↔ instant.isRenderable = true := by
  obtain ⟨valid, number⟩ := ofDayNumber_holds (instant.seconds / 86400)
  simp only [Instant.isRenderable, Bool.and_eq_true, decide_eq_true_eq]
  constructor
  · rintro ⟨date, isDay, lies, years⟩
    rw [liesAfterEpoch_iff isDay] at lies
    rwa [Instant.date, lies, ofDayNumber_dayNumber isDay]
  · intro years
    exact ⟨instant.date, valid, (liesAfterEpoch_iff valid).mpr number.symm, years⟩

theorem inFourDigitYears_iff_seconds {seconds : Int} :
    InFourDigitYears seconds ↔ -62167219200 ≤ seconds ∧ seconds ≤ 253402300799 := by
  have same : (Instant.ofSeconds seconds).seconds = seconds := rfl
  rw [← same, inFourDigitYears_iff, isRenderable_iff_seconds]

end SearchCompiler.CalendarDays
