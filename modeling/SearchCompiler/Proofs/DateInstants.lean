import Mathlib.Tactic.Ring
import SearchCompiler.Proofs.CalendarDays
import SearchCompiler.Proofs.DateForms
import SearchCompiler.Proofs.OffsetCuts

/-! Dates and times in ASCII digits mean their instant. The day counts from 1970 through the
calendar, the time of day within it, and what the zone is ahead is taken off; a fraction gives whole
nanoseconds, and second sixty is a leap second behind the fifty-ninth. A term has this meaning
exactly where the calendar has its date, the time and the zone are in their ranges, and the instant,
once it is universal, still has a year of four digits. -/
namespace SearchCompiler.DateInstants
open Calendar Calendar.DateTerm Text
open CalendarDays DateForms DateShapes Numerals OffsetCuts

/-! ## What is written -/

/-- A date whose digits are ASCII. -/
structure AsciiDate (shape : DateShape) : Prop where
  isDate : IsDate shape
  year : IsNumeral shape.year
  month : IsNumeral shape.month
  day : IsNumeral shape.day

/-- A time whose digits are ASCII. -/
structure AsciiTime (shape : TimeShape) : Prop where
  isTime : IsTime shape
  hour : IsNumeral shape.hour
  minute : IsNumeral shape.minute
  second : IsNumeral shape.second
  fraction : IsNumeral shape.fraction

/-- A zone whose digits are ASCII, and how it is written. -/
inductive AsciiZone : ZoneShape → List Char → Prop
  | universal {text : List Char} (isZone : IsZone .universal text) : AsciiZone .universal text
  | offset {sign : Char} {hour minute text : List Char} {colon : Bool}
      (isZone : IsZone (.offset sign hour colon minute) text) (isHour : IsNumeral hour)
      (isMinute : IsNumeral minute) : AsciiZone (.offset sign hour colon minute) text

/-- A date and time with its zone. -/
def dateTimeText (date : DateShape) (time : TimeShape) (zone : List Char) : List Char :=
  dateText date ++ 'T' :: (timeText time ++ zone)

/-- The first moment of a day. -/
def midnight : TimeShape := ⟨['0', '0'], ['0', '0'], ['0', '0'], []⟩

/-! ## What it means -/

/-- The date that a date shape names, whether or not the calendar has it. -/
def dateOf (shape : DateShape) : Date :=
  ⟨valueOf shape.year, valueOf shape.month, valueOf shape.day⟩

/-- The minutes that a zone is ahead of universal time. -/
def aheadOf : ZoneShape → Int
  | .universal => 0
  | .offset sign hour _ minute =>
    (if sign = '-' then -1 else 1) * (60 * valueOf hour + valueOf minute : Nat)

def ZoneInRange : ZoneShape → Prop
  | .universal => True
  | .offset _ hour _ minute => valueOf hour < 24 ∧ valueOf minute < 60

/-- A date of the calendar, with a time and a zone whose parts are in their ranges. -/
structure InRange (date : DateShape) (time : TimeShape) (zone : ZoneShape) : Prop where
  date : (dateOf date).isValid = true
  hour : valueOf time.hour < 24
  minute : valueOf time.minute < 60
  second : valueOf time.second ≤ 60
  zone : ZoneInRange zone

/-- The universal second of a time on a day counted from 1970. A leap second belongs to the second
before it. -/
def secondsOf (days : Int) (time : TimeShape) (zone : ZoneShape) : Int :=
  days * 86400 +
    (3600 * valueOf time.hour + 60 * valueOf time.minute + min (valueOf time.second) 59 : Nat) -
      60 * aheadOf zone

/-- The whole nanoseconds of a time within its second; a leap second begins a second late. -/
def nanosOf (time : TimeShape) : Nat :=
  (if valueOf time.second = 60 then 1000000000 else 0) +
    valueOf time.fraction * 1000000000 / 10 ^ time.fraction.length

/-! ## Reading -/

variable {date : DateShape} {time : TimeShape} {zone : ZoneShape} {zoneText : List Char}

theorem valueOf_zeros (digits : List Char) (count : Nat) :
    valueOf (digits ++ List.replicate count '0') = 10 ^ count * valueOf digits := by
  unfold valueOf
  rw [Nat.ofDigitChars_append, Nat.ofDigitChars_replicate_zero]

/-- The first nine digits of a fraction, filled up with zeros, write its whole nanoseconds. -/
theorem nanos?_of_isNumeral {fraction : List Char} (isNumeral : IsNumeral fraction) :
    nanos? fraction = some (valueOf fraction * 1000000000 / 10 ^ fraction.length) := by
  have read : ∀ digits, IsNumeral digits → valueOf digits =
      valueOf fraction * 1000000000 / 10 ^ fraction.length →
      numeral? digits = some (valueOf fraction * 1000000000 / 10 ^ fraction.length) :=
    fun digits ascii same => numeral?_eq_some_iff.mpr ⟨ascii, same.symm⟩
  rw [nanos?, numeral?_of_isNumeral isNumeral]
  change numeral? _ = _
  rcases Nat.le_total fraction.length 9 with short | long
  · have digits : (fraction ++ List.replicate 9 '0').take 9 =
        fraction ++ List.replicate (9 - fraction.length) '0' := by
      rw [List.take_append, List.take_of_length_le short, List.take_replicate]
      simp
    rw [digits]
    apply read
    · refine isNumeral_append.mpr ⟨isNumeral, fun c member => ?_⟩
      rw [List.eq_of_mem_replicate member]
      rfl
    · have power : 1000000000 = 10 ^ (9 - fraction.length) * 10 ^ fraction.length := by
        rw [← pow_add, Nat.sub_add_cancel short]
        rfl
      rw [valueOf_zeros, power, ← Nat.mul_assoc,
        Nat.mul_div_cancel _ (Nat.pow_pos (by decide)), Nat.mul_comm]
  · have digits : (fraction ++ List.replicate 9 '0').take 9 = fraction.take 9 :=
      List.take_append_of_le_length long
    have halves := List.take_append_drop 9 fraction
    obtain ⟨first, rest⟩ := isNumeral_append.mp (halves ▸ isNumeral)
    rw [digits]
    apply read _ first
    have whole : valueOf fraction = 10 ^ (fraction.length - 9) * valueOf (fraction.take 9) +
        valueOf (fraction.drop 9) := by
      rw [← List.length_drop, ← valueOf_append, halves]
    have below : valueOf (fraction.drop 9) < 10 ^ (fraction.length - 9) := by
      rw [← List.length_drop]
      exact valueOf_lt rest
    have power : 10 ^ fraction.length = 10 ^ (fraction.length - 9) * 1000000000 := by
      have nine : 1000000000 = 10 ^ 9 := rfl
      rw [nine, ← pow_add, Nat.sub_add_cancel long]
    rw [power, Nat.mul_div_mul_right _ _ (by decide), whole,
      Nat.mul_add_div (Nat.pow_pos (by decide)), Nat.div_eq_of_lt below, Nat.add_zero]

theorem date?_of_ascii (ascii : AsciiDate date) :
    date.date? = if (dateOf date).isValid then some (dateOf date) else none := by
  unfold DateShape.date?
  rw [numeral?_of_isNumeral ascii.year, numeral?_of_isNumeral ascii.month,
    numeral?_of_isNumeral ascii.day]
  rfl

/-- A zone is read to the minutes that it is ahead, where it is in its range. -/
theorem minutes?_eq_some_iff (ascii : AsciiZone zone zoneText) {ahead : Int} :
    zone.minutes? = some ahead ↔ ZoneInRange zone ∧ ahead = aheadOf zone := by
  cases ascii with
  | universal isZone => simp [ZoneShape.minutes?, ZoneInRange, aheadOf, eq_comm]
  | @offset sign hour minute text colon isZone isHour isMinute =>
    unfold ZoneInRange aheadOf
    simp only [ZoneShape.minutes?, numeral?_of_isNumeral isHour, numeral?_of_isNumeral isMinute,
      Option.bind_eq_bind, Option.bind_some]
    by_cases inRange : valueOf hour < 24 ∧ valueOf minute < 60
    · by_cases negative : sign = '-'
      · simp [inRange, negative, eq_comm]
      · simp [inRange, negative, eq_comm]
    · simp [inRange]

/-- The nanoseconds of a fraction are less than a second. -/
theorem fraction_lt {fraction : List Char} (isNumeral : IsNumeral fraction) :
    valueOf fraction * 1000000000 / 10 ^ fraction.length < 1000000000 := by
  apply Nat.div_lt_of_lt_mul
  exact Nat.mul_lt_mul_of_pos_right (valueOf_lt isNumeral) (by decide)

/-- Seconds up to fifty-nine count within their minute, and second sixty is behind the last. -/
theorem ofMinute?_eq_some_iff {minute : Int} {second nanos : Nat} (below : nanos < 1000000000)
    {instant : Instant} :
    Instant.ofMinute? minute second nanos = some instant ↔
      second ≤ 60 ∧ instant.seconds = minute * 60 + (min second 59 : Nat) ∧
        instant.nanos = (if second = 60 then 1000000000 else 0) + nanos := by
  rw [Instant.ofMinute?, dif_pos below]
  split
  · next common =>
    have other : second ≠ 60 := Nat.ne_of_lt common
    rw [Option.some_inj, eq_comm, Instant.ext_iff, if_neg other]
    dsimp only
    omega
  · next late =>
    split
    · next leap =>
      subst leap
      rw [Option.some_inj, eq_comm, Instant.ext_iff]
      dsimp only [nanosPerSecond]
      omega
    · next beyond =>
      constructor
      · intro found
        cases found
      · rintro ⟨within, _⟩
        omega

/-- Where the parts are in their ranges, an instant is put together from them. -/
theorem instantOf?_eq_some_iff (isDate : AsciiDate date) (isTime : AsciiTime time)
    (isZone : AsciiZone zone zoneText) {instant : Instant} :
    instantOf? date time zone = some instant ↔
      InRange date time zone ∧ instant.seconds = secondsOf (dateOf date).dayNumber time zone ∧
        instant.nanos = nanosOf time := by
  simp only [instantOf?, date?_of_ascii isDate, numeral?_of_isNumeral isTime.hour,
    numeral?_of_isNumeral isTime.minute, numeral?_of_isNumeral isTime.second,
    nanos?_of_isNumeral isTime.fraction, Option.bind_eq_bind, Option.bind_some,
    Option.bind_eq_some_iff, minutes?_eq_some_iff isZone, Option.ite_none_right_eq_some,
    Option.some_inj, ofMinute?_eq_some_iff (fraction_lt isTime.fraction)]
  unfold secondsOf nanosOf
  constructor
  · rintro ⟨day, ⟨valid, rfl⟩, ahead, ⟨zoneInRange, rfl⟩, ⟨hour, minute⟩, second, seconds, nanos⟩
    refine ⟨⟨valid, hour, minute, second, zoneInRange⟩, ?_, nanos⟩
    rw [seconds]
    push_cast
    ring
  · rintro ⟨⟨valid, hour, minute, second, zoneInRange⟩, seconds, nanos⟩
    refine ⟨_, ⟨valid, rfl⟩, _, ⟨zoneInRange, rfl⟩, ⟨hour, minute⟩, second, ?_, nanos⟩
    rw [seconds]
    push_cast
    ring

/-! ## Terms -/

variable {clock : Instant}

/-- The first character of a date is a digit, and its underscores keep it from being a numeral. -/
theorem dateText_dated (isDate : IsDate date) (rest : List Char) :
    (∃ c, (dateText date ++ rest).head? = some c ∧ isDecimal c = true) ∧
      ¬ IsNumeral (dateText date ++ rest) := by
  constructor
  · obtain ⟨c, others, year⟩ := List.exists_cons_of_length_eq_add_one isDate.year.length
    refine ⟨c, by simp [dateText, year], isDate.year.decimal c ?_⟩
    rw [year]
    exact List.mem_cons_self
  · intro isNumeral
    exact absurd (isNumeral '_' (by simp [dateText])) (by decide)

theorem resolve_date (isDate : IsDate date) :
    resolve clock (dateText date) =
      .ok ((date? (dateText date)).filter Instant.isRenderable) := by
  unfold resolve
  cases found : date? (dateText date) with
  | some instant => simp [readAny, found, Except.map]
  | none =>
    obtain ⟨⟨c, begins, decimal⟩, unnumbered⟩ := dateText_dated isDate []
    rw [List.append_nil] at begins unnumbered
    have untimed : dateTimeShape? (dateText date) = none := by
      have shaped := dateShape?_eq_some_iff.mpr ⟨isDate, (List.append_nil (dateText date)).symm⟩
      simp [dateTimeShape?, shaped, expect]
    rw [readAny_of_dated begins decimal unnumbered found, dateTime?, untimed]
    rfl

/-- An ASCII digit is one byte. -/
theorem utf8Size_of_isDigit {c : Char} (digit : c.isDigit = true) : c.utf8Size = 1 := by
  obtain ⟨_, last⟩ := isDigit_iff.mp digit
  rw [Char.utf8Size_eq_one_iff, UInt32.le_iff_toNat_le]
  exact Nat.le_trans last (by decide)

/-- A zone in ASCII divides between its digits. -/
theorem AsciiZone.divides (isZone : AsciiZone zone zoneText) : zone.divides = true := by
  cases isZone with
  | universal => rfl
  | @offset sign hour minute text colon isZone isHour isMinute =>
    refine (Bool.or_eq_true _ _).mpr (.inr (dividesAfter_iff.mpr (cutsAt_ascii ?_ ?_)))
    · cases isZone with
      | offset _ signed =>
        refine List.forall_mem_cons.mpr ⟨?_, fun c member => utf8Size_of_isDigit ?_⟩
        · rcases signed with rfl | rfl
          · decide
          · decide
        · rcases List.mem_append.mp member with inHour | inMinute
          · exact isHour c inHour
          · exact isMinute c inMinute
    · cases isZone with
      | offset _ _ hourDigits =>
        simp [hourDigits.length]

theorem AsciiZone.isZone (isZone : AsciiZone zone zoneText) : IsZone zone zoneText := by
  cases isZone with
  | universal isZone => exact isZone
  | offset isZone => exact isZone

theorem resolve_dateTime (isDate : AsciiDate date) (isTime : AsciiTime time)
    (isZone : AsciiZone zone zoneText) :
    resolve clock (dateTimeText date time zoneText) =
      .ok ((instantOf? date time zone).filter Instant.isRenderable) := by
  obtain ⟨⟨c, begins, decimal⟩, unnumbered⟩ :=
    dateText_dated isDate.isDate ('T' :: (timeText time ++ zoneText))
  have shaped : dateTimeShape? (dateTimeText date time zoneText) = some (date, time, zone) :=
    dateTimeShape?_eq_some_iff.mpr ⟨isDate.isDate, isTime.isTime, _, isZone.isZone, rfl⟩
  unfold resolve
  rw [dateTimeText, readAny_of_dated begins decimal unnumbered (date?_eq_none isDate.isDate),
    ← dateTimeText, dateTime?, shaped]
  dsimp only
  rw [if_pos isZone.divides]
  rfl

theorem midnight_ascii : AsciiTime midnight := by
  have zeros : IsNumeral ['0', '0'] := by decide
  have isDigits : IsDigits 2 ['0', '0'] := isDigits_of_isNumeral zeros rfl
  exact ⟨⟨isDigits, isDigits, isDigits, List.forall_mem_nil _⟩, zeros, zeros, zeros,
    List.forall_mem_nil _⟩

/-- A date is read as its first moment in universal time. -/
theorem date?_dateText (isDate : AsciiDate date) :
    date? (dateText date) = instantOf? date midnight .universal := by
  have shaped := dateShape?_eq_some_iff.mpr
    ⟨isDate.isDate, (List.append_nil (dateText date)).symm⟩
  have zeros : numeral? ['0', '0'] = some 0 := rfl
  have whole : nanos? [] = some 0 := rfl
  simp only [date?, shaped, instantOf?, midnight, ZoneShape.minutes?, zeros, whole,
    Option.bind_eq_bind, Option.bind_some, List.isEmpty_nil, if_true]
  cases date.date? with
  | none => rfl
  | some day =>
    refine congrArg some (Instant.ext ?_ rfl)
    change day.dayNumber * 86400 = (day.dayNumber * 1440 + (60 * 0 + 0 : Nat) - 0) * 60 + (0 : Nat)
    omega

/-- Only what a zone is ahead matters, not how it is written. -/
theorem instantOf?_congr {first second : ZoneShape} (same : first.minutes? = second.minutes?) :
    instantOf? date time first = instantOf? date time second := by
  unfold instantOf?
  rw [same]

/-! ## Meaning -/

/-- The meaning of a date, a time and a zone is what a reading came to: the instant that they are,
where they are in their ranges and its universal year has four digits, and otherwise nothing. -/
structure IsMeaning (date : DateShape) (time : TimeShape) (zone : ZoneShape)
    (result : Except DateFault (Option Instant)) : Prop where
  ends : ∃ found, result = .ok found
  found_iff : (∃ instant, result = .ok (some instant)) ↔ InRange date time zone ∧
    ∃ days, LiesAfterEpoch days (dateOf date) ∧ InFourDigitYears (secondsOf days time zone)
  exactly : ∀ instant days, result = .ok (some instant) → LiesAfterEpoch days (dateOf date) →
    instant.seconds = secondsOf days time zone ∧ instant.nanos = nanosOf time

/-- In range there is such an instant: the leap second alone goes beyond a second's worth of
nanoseconds, and it ends its minute, whatever the zone. -/
theorem exists_instant (isTime : AsciiTime time) (days : Int) (zone : ZoneShape) :
    ∃ instant : Instant,
      instant.seconds = secondsOf days time zone ∧ instant.nanos = nanosOf time := by
  have below := fraction_lt isTime.fraction
  have whole : nanosPerSecond = 1000000000 := rfl
  refine ⟨⟨secondsOf days time zone, nanosOf time, ?_, fun leap => ?_⟩, rfl, rfl⟩
  · unfold nanosOf
    split <;> omega
  · unfold nanosOf at leap
    split at leap
    -- a zone is ahead by whole minutes, so it leaves the second of the minute alone
    · next last =>
      unfold secondsOf
      rw [last]
      omega
    · omega

theorem isMeaning_instantOf? (isDate : AsciiDate date) (isTime : AsciiTime time)
    (isZone : AsciiZone zone zoneText) :
    IsMeaning date time zone (.ok ((instantOf? date time zone).filter Instant.isRenderable)) := by
  have found_iff (instant : Instant) :
      Except.ok (ε := DateFault) ((instantOf? date time zone).filter Instant.isRenderable) =
          .ok (some instant) ↔
        (InRange date time zone ∧ instant.seconds = secondsOf (dateOf date).dayNumber time zone ∧
          instant.nanos = nanosOf time) ∧ InFourDigitYears instant.seconds := by
    rw [Except.ok.injEq, Option.filter_eq_some_iff, instantOf?_eq_some_iff isDate isTime isZone,
      inFourDigitYears_iff]
  refine ⟨⟨_, rfl⟩, ?_, ?_⟩
  · simp only [found_iff]
    constructor
    · rintro ⟨instant, ⟨inRange, seconds, _⟩, years⟩
      exact ⟨inRange, _, (liesAfterEpoch_iff inRange.date).mpr rfl, seconds ▸ years⟩
    · rintro ⟨inRange, days, lies, years⟩
      rw [(liesAfterEpoch_iff inRange.date).mp lies] at years
      obtain ⟨instant, seconds, nanos⟩ := exists_instant isTime (dateOf date).dayNumber zone
      exact ⟨instant, ⟨inRange, seconds, nanos⟩, seconds ▸ years⟩
  · intro instant days found lies
    obtain ⟨⟨inRange, seconds, nanos⟩, _⟩ := (found_iff instant).mp found
    rw [(liesAfterEpoch_iff inRange.date).mp lies]
    exact ⟨seconds, nanos⟩

/-- **Dates and times mean their instant.** Whatever the clock shows, a date written in ASCII digits
means its first moment, and a date and time the instant that the calendar, the time of day and the
zone make it. Zones that are level with universal time are all one, a colon within a zone changes
nothing, and a zone can carry an instant out of the years that four digits write, at either end. -/
theorem dates_mean_instants (clock : Instant) (isDate : AsciiDate date) (isTime : AsciiTime time) :
    (IsMeaning date midnight .universal (resolve clock (dateText date)) ∧
      resolve clock (dateText date) = resolve clock (dateTimeText date midnight ['Z'])) ∧
    (∀ zone zoneText, AsciiZone zone zoneText →
      IsMeaning date time zone (resolve clock (dateTimeText date time zoneText))) ∧
    (resolve clock (dateTimeText date time []) = resolve clock (dateTimeText date time ['Z']) ∧
      resolve clock (dateTimeText date time []) =
        resolve clock (dateTimeText date time ['+', '0', '0', ':', '0', '0'])) ∧
    (∀ sign hour minute, sign = '+' ∨ sign = '-' → IsDigits 2 hour → IsDigits 2 minute →
      IsNumeral hour → IsNumeral minute →
      resolve clock (dateTimeText date time (sign :: (hour ++ minute))) =
        resolve clock (dateTimeText date time (sign :: (hour ++ ':' :: minute)))) ∧
    resolve clock "0000_01_01T00:00:00+00:01".toList = .ok none ∧
    resolve clock "9999_12_31T23:59:59-00:01".toList = .ok none := by
  have absent : AsciiZone .universal [] := .universal .absent
  have zulu : AsciiZone .universal ['Z'] := .universal .zulu
  have zeros : IsNumeral ['0', '0'] := by decide
  have isZeros : IsDigits 2 ['0', '0'] := isDigits_of_isNumeral zeros rfl
  have level : AsciiZone (.offset '+' ['0', '0'] true ['0', '0']) ['+', '0', '0', ':', '0', '0'] :=
    .offset (.offset true (.inl rfl) isZeros isZeros) zeros zeros
  refine ⟨⟨?_, ?_⟩, fun zone zoneText isZone => ?_, ⟨?_, ?_⟩, ?_, ?_, ?_⟩
  · rw [resolve_date isDate.isDate, date?_dateText isDate]
    exact isMeaning_instantOf? isDate midnight_ascii absent
  · rw [resolve_date isDate.isDate, date?_dateText isDate,
      resolve_dateTime isDate midnight_ascii zulu]
  · rw [resolve_dateTime isDate isTime isZone]
    exact isMeaning_instantOf? isDate isTime isZone
  · rw [resolve_dateTime isDate isTime absent, resolve_dateTime isDate isTime zulu]
  · have same : instantOf? date time .universal =
        instantOf? date time (.offset '+' ['0', '0'] true ['0', '0']) := instantOf?_congr rfl
    rw [resolve_dateTime isDate isTime absent, resolve_dateTime isDate isTime level, same]
  · intro sign hour minute signed isHour isMinute hourNumeral minuteNumeral
    have joined : AsciiZone (.offset sign hour false minute) (sign :: (hour ++ minute)) :=
      .offset (.offset false signed isHour isMinute) hourNumeral minuteNumeral
    have parted : AsciiZone (.offset sign hour true minute) (sign :: (hour ++ ':' :: minute)) :=
      .offset (.offset true signed isHour isMinute) hourNumeral minuteNumeral
    have same : instantOf? date time (.offset sign hour false minute) =
        instantOf? date time (.offset sign hour true minute) := instantOf?_congr rfl
    rw [resolve_dateTime isDate isTime joined, resolve_dateTime isDate isTime parted, same]
  · rfl
  · rfl

/-! ## A leap second -/

/-- The first of March of a leap year. -/
def firstOfMarch : DateShape := ⟨['2', '0', '2', '4'], ['0', '3'], ['0', '1']⟩

/-- Half a second into the leap second that ends the first hour. -/
def endOfHour : TimeShape := ⟨['0', '0'], ['5', '9'], ['6', '0'], ['5']⟩

/-- One hour ahead of universal time, a leap second of the first of March is one of the leap day. -/
theorem leap_second_on_leap_day :
    AsciiDate firstOfMarch ∧ AsciiTime endOfHour ∧
      IsMeaning firstOfMarch endOfHour (.offset '+' ['0', '1'] true ['0', '0'])
        (resolve (.ofSeconds 0) "2024_03_01T00:59:60.5+01:00".toList) ∧
      resolve (.ofSeconds 0) "2024_03_01T00:59:60.5+01:00".toList =
        .ok (some ⟨1709251199, 1500000000, by decide, by decide⟩) ∧
      (⟨1709251199, 1500000000, by decide, by decide⟩ : Instant).iso =
        "2024-02-29T23:59:60.500Z".toList := by
  have year : IsNumeral ['2', '0', '2', '4'] := by decide
  have march : IsNumeral ['0', '3'] := by decide
  have first : IsNumeral ['0', '1'] := by decide
  have isDate : AsciiDate firstOfMarch :=
    ⟨⟨isDigits_of_isNumeral year rfl, isDigits_of_isNumeral march rfl,
      isDigits_of_isNumeral first rfl⟩, year, march, first⟩
  have zeros : IsNumeral ['0', '0'] := by decide
  have minute : IsNumeral ['5', '9'] := by decide
  have second : IsNumeral ['6', '0'] := by decide
  have half : IsNumeral ['5'] := by decide
  have isTime : AsciiTime endOfHour :=
    ⟨⟨isDigits_of_isNumeral zeros rfl, isDigits_of_isNumeral minute rfl,
      isDigits_of_isNumeral second rfl, (isDigits_of_isNumeral half rfl).decimal⟩,
      zeros, minute, second, half⟩
  have isZone : AsciiZone (.offset '+' ['0', '1'] true ['0', '0']) ['+', '0', '1', ':', '0', '0'] :=
    .offset (.offset true (.inl rfl) (isDigits_of_isNumeral first rfl)
      (isDigits_of_isNumeral zeros rfl)) first zeros
  exact ⟨isDate, isTime, (dates_mean_instants (.ofSeconds 0) isDate isTime).2.1 _ _ isZone,
    by decide +kernel, by decide +kernel⟩

end SearchCompiler.DateInstants
