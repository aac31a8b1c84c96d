import Mathlib.Data.List.TakeWhile
import SearchCompiler.Calendar.DateTerm

/-! The shapes of dates and times, told by what is written. A recogniser accepts exactly the written
forms of its shapes, and from a text that has one it reads back that shape and no other. -/
namespace SearchCompiler.DateShapes
open Calendar Calendar.DateTerm Text

/-! ## Written forms -/

/-- So many decimal digits, of any script. -/
structure IsDigits (count : Nat) (text : List Char) : Prop where
  length : text.length = count
  decimal : ∀ c ∈ text, isDecimal c = true

structure IsDate (shape : DateShape) : Prop where
  year : IsDigits 4 shape.year
  month : IsDigits 2 shape.month
  day : IsDigits 2 shape.day

/-- The text `dddd_dd_dd` of a date. -/
def dateText (shape : DateShape) : List Char :=
  shape.year ++ '_' :: (shape.month ++ '_' :: shape.day)

structure IsTime (shape : TimeShape) : Prop where
  hour : IsDigits 2 shape.hour
  minute : IsDigits 2 shape.minute
  second : IsDigits 2 shape.second
  fraction : ∀ c ∈ shape.fraction, isDecimal c = true

/-- A point and the digits of a fraction, where there are any. -/
def fractionText : List Char → List Char
  | [] => []
  | digits => '.' :: digits

/-- The text `dd:dd:dd` of a time, with its fraction. -/
def timeText (shape : TimeShape) : List Char :=
  shape.hour ++ ':' :: (shape.minute ++ ':' :: (shape.second ++ fractionText shape.fraction))

/-- What may be written for a zone. -/
inductive IsZone : ZoneShape → List Char → Prop
  | absent : IsZone .universal []
  | zulu : IsZone .universal ['Z']
  | offset {sign : Char} {hour minute : List Char} (colon : Bool) (signed : sign = '+' ∨ sign = '-')
      (isHour : IsDigits 2 hour) (isMinute : IsDigits 2 minute) :
      IsZone (.offset sign hour colon minute)
        (sign :: (hour ++ ((if colon then [':'] else []) ++ minute)))

/-! ## Recognisers -/

variable {text rest : List Char}

theorem takeDecimals_eq_some_iff {count : Nat} {taken : List Char} :
    takeDecimals count text = some (taken, rest) ↔ IsDigits count taken ∧ text = taken ++ rest := by
  induction count generalizing text taken with
  | zero =>
    constructor
    · intro none_taken
      cases none_taken
      exact ⟨⟨rfl, fun c member => by cases member⟩, rfl⟩
    · rintro ⟨⟨length, _⟩, rfl⟩
      cases List.eq_nil_of_length_eq_zero length
      rfl
  | succ count ih =>
    cases text with
    | nil =>
      constructor
      · intro none_taken
        cases none_taken
      · rintro ⟨⟨length, _⟩, empty⟩
        cases (List.append_eq_nil_iff.mp empty.symm).1
        cases length
    | cons c more =>
      constructor
      · intro found
        unfold takeDecimals at found
        split at found
        · next decimal =>
          obtain ⟨⟨others, left⟩, inner, halves⟩ := Option.map_eq_some_iff.mp found
          cases halves
          obtain ⟨⟨length, each⟩, rfl⟩ := ih.mp inner
          exact ⟨⟨by simp [length], List.forall_mem_cons.mpr ⟨decimal, each⟩⟩, rfl⟩
        · cases found
      · rintro ⟨⟨length, each⟩, same⟩
        cases taken with
        | nil => cases length
        | cons d others =>
          rw [List.cons_append] at same
          obtain ⟨rfl, rfl⟩ := List.cons.inj same
          rw [List.forall_mem_cons] at each
          have inner : takeDecimals count (others ++ rest) = some (others, rest) :=
            ih.mpr ⟨⟨Nat.succ.inj length, each.2⟩, rfl⟩
          rw [takeDecimals, if_pos each.1, inner]
          rfl

theorem expect_eq_some_iff {expected : Char} :
    expect expected text = some rest ↔ text = expected :: rest := by
  cases text with
  | nil => simp [expect]
  | cons c more =>
    by_cases same : c = expected
    · simp [expect, same]
    · simp [expect, same]

theorem stripStart_eq_some_iff {start : List Char} :
    stripStart start text = some rest ↔ text = start ++ rest := by
  induction start generalizing text with
  | nil => exact Option.some_inj
  | cons c start ih =>
    simp only [stripStart, Option.bind_eq_some_iff, expect_eq_some_iff, ih]
    constructor
    · rintro ⟨_, rfl, rfl⟩
      rfl
    · rintro rfl
      exact ⟨_, rfl, rfl⟩

/-- A date is recognised where its text is written, whatever follows. -/
theorem dateShape?_eq_some_iff {shape : DateShape} :
    dateShape? text = some (shape, rest) ↔ IsDate shape ∧ text = dateText shape ++ rest := by
  obtain ⟨year, month, day⟩ := shape
  simp only [dateShape?, Option.bind_eq_bind, Option.bind_eq_some_iff, Prod.exists,
    takeDecimals_eq_some_iff, expect_eq_some_iff, Option.some.injEq, Prod.mk.injEq,
    DateShape.mk.injEq]
  constructor
  · rintro ⟨_, _, ⟨isYear, rfl⟩, _, rfl, _, _, ⟨isMonth, rfl⟩, _, rfl, _, _, ⟨isDay, rfl⟩,
      ⟨rfl, rfl, rfl⟩, rfl⟩
    exact ⟨⟨isYear, isMonth, isDay⟩, by simp [dateText]⟩
  · rintro ⟨⟨isYear, isMonth, isDay⟩, rfl⟩
    exact ⟨_, _, ⟨isYear, by simp [dateText]⟩, _, rfl, _, _, ⟨isMonth, rfl⟩, _, rfl, _, _,
      ⟨isDay, rfl⟩, ⟨rfl, rfl, rfl⟩, rfl⟩

theorem takeWhile_decimal {digits : List Char} (decimal : ∀ c ∈ digits, isDecimal c = true)
    (ends : ∀ c ∈ rest.head?, isDecimal c = false) :
    (digits ++ rest).takeWhile isDecimal = digits ∧ (digits ++ rest).dropWhile isDecimal = rest := by
  rw [List.takeWhile_append_of_pos decimal, List.dropWhile_append_of_pos decimal]
  cases rest with
  | nil => simp
  | cons c more => simp [ends c rfl]

theorem fractionShape?_point (digits : List Char) :
    fractionShape? ('.' :: digits) =
      if (digits.takeWhile isDecimal).isEmpty then none
      else some (digits.takeWhile isDecimal, digits.dropWhile isDecimal) := rfl

theorem fractionShape?_of_unpointed (unpointed : text.head? ≠ some '.') :
    fractionShape? text = some ([], text) := by
  unfold fractionShape?
  split
  · exact absurd rfl unpointed
  · rfl

/-- A fraction takes all the digits behind its point. -/
theorem fractionShape?_eq_some_iff {fraction : List Char} :
    fractionShape? text = some (fraction, rest) ↔
      (∀ c ∈ fraction, isDecimal c = true) ∧ text = fractionText fraction ++ rest ∧
        (fraction = [] → rest.head? ≠ some '.') ∧
        (fraction ≠ [] → ∀ c ∈ rest.head?, isDecimal c = false) := by
  constructor
  · intro found
    by_cases pointed : text.head? = some '.'
    · obtain ⟨digits, rfl⟩ := List.head?_eq_some_iff.mp pointed
      rw [fractionShape?_point] at found
      split at found
      · cases found
      · next some_digit =>
        cases found
        have nonempty : digits.takeWhile isDecimal ≠ [] := by simpa using some_digit
        have written : fractionText (digits.takeWhile isDecimal) =
            '.' :: digits.takeWhile isDecimal := by
          cases taken : digits.takeWhile isDecimal with
          | nil => exact absurd taken nonempty
          | cons d others => rfl
        refine ⟨fun c member => List.mem_takeWhile_imp member, ?_,
          fun none_taken => absurd none_taken nonempty, fun _ c next => ?_⟩
        · rw [written, List.cons_append, List.takeWhile_append_dropWhile]
        · have stops := List.head?_dropWhile_not isDecimal digits
          rw [next] at stops
          exact stops
    · rw [fractionShape?_of_unpointed pointed] at found
      cases found
      exact ⟨List.forall_mem_nil _, rfl, fun _ => pointed, fun other => absurd rfl other⟩
  · rintro ⟨decimal, rfl, unpointed, ends⟩
    cases fraction with
    | nil => exact fractionShape?_of_unpointed (unpointed rfl)
    | cons d others =>
      obtain ⟨taken, left⟩ := takeWhile_decimal decimal (ends (List.cons_ne_nil _ _))
      rw [fractionText, List.cons_append, fractionShape?_point, taken, left]
      · rfl
      · exact fun none_taken => by cases none_taken

/-- A time is recognised where its text is written and what follows does not add to its fraction. -/
theorem timeShape?_eq_some_iff {shape : TimeShape} :
    timeShape? text = some (shape, rest) ↔
      IsTime shape ∧ text = timeText shape ++ rest ∧
        (shape.fraction = [] → rest.head? ≠ some '.') ∧
        (shape.fraction ≠ [] → ∀ c ∈ rest.head?, isDecimal c = false) := by
  obtain ⟨hour, minute, second, fraction⟩ := shape
  simp only [timeShape?, Option.bind_eq_bind, Option.bind_eq_some_iff, Prod.exists,
    takeDecimals_eq_some_iff, expect_eq_some_iff, fractionShape?_eq_some_iff, Option.some.injEq,
    Prod.mk.injEq, TimeShape.mk.injEq]
  constructor
  · rintro ⟨_, _, ⟨isHour, rfl⟩, _, rfl, _, _, ⟨isMinute, rfl⟩, _, rfl, _, _, ⟨isSecond, rfl⟩,
      _, _, ⟨decimal, rfl, unpointed, ends⟩, ⟨rfl, rfl, rfl, rfl⟩, rfl⟩
    exact ⟨⟨isHour, isMinute, isSecond, decimal⟩, by simp [timeText], unpointed, ends⟩
  · rintro ⟨⟨isHour, isMinute, isSecond, decimal⟩, rfl, unpointed, ends⟩
    exact ⟨_, _, ⟨isHour, by simp [timeText]⟩, _, rfl, _, _, ⟨isMinute, rfl⟩, _, rfl, _, _,
      ⟨isSecond, rfl⟩, _, _, ⟨decimal, rfl, unpointed, ends⟩, ⟨rfl, rfl, rfl, rfl⟩, rfl⟩

/-- A zone begins neither with a point nor with a digit, so the fraction before it ends there. -/
theorem IsZone.head {zone : ZoneShape} {c : Char} (isZone : IsZone zone text)
    (next : text.head? = some c) : c ≠ '.' ∧ isDecimal c = false := by
  cases isZone with
  | absent => cases next
  | zulu => cases next; exact ⟨by decide, by decide⟩
  | offset colon signed isHour isMinute =>
    cases next
    obtain rfl | rfl := signed
    · exact ⟨by decide, by decide⟩
    · exact ⟨by decide, by decide⟩

theorem zoneShape?_offset {sign : Char} {hour minute : List Char} (colon : Bool)
    (signed : sign = '+' ∨ sign = '-') (isHour : IsDigits 2 hour) (isMinute : IsDigits 2 minute) :
    zoneShape? (sign :: (hour ++ ((if colon then [':'] else []) ++ minute))) =
      some (.offset sign hour colon minute) := by
  have other : sign ≠ 'Z' := by
    obtain rfl | rfl := signed
    · decide
    · decide
  have hours := takeDecimals_eq_some_iff.mpr
    ⟨isHour, rfl (a := hour ++ ((if colon then [':'] else []) ++ minute))⟩
  have minutes := takeDecimals_eq_some_iff.mpr ⟨isMinute, (List.append_nil minute).symm⟩
  have uncoloned : expect ':' minute = none := by
    cases minute with
    | nil => rfl
    | cons d others =>
      refine if_neg fun same => ?_
      have decimal := isMinute.decimal d List.mem_cons_self
      rw [same] at decimal
      exact absurd decimal (by decide)
  simp only [zoneShape?, other, signed, if_false, if_true, hours, Option.bind_eq_bind,
    Option.bind_some]
  cases colon with
  | false => simp [uncoloned, minutes]
  | true => simp [expect, minutes]

/-- A zone is recognised where nothing but its text is written. -/
theorem zoneShape?_eq_some_iff {zone : ZoneShape} :
    zoneShape? text = some zone ↔ IsZone zone text := by
  constructor
  · intro found
    unfold zoneShape? at found
    split at found
    · cases found
      exact .absent
    · next c more =>
      split at found
      · next zulu =>
        subst zulu
        split at found
        · next empty =>
          cases found
          cases List.isEmpty_iff.mp empty
          exact .zulu
        · cases found
      · split at found
        · next signed =>
          simp only [Option.bind_eq_bind, Option.bind_eq_some_iff, Prod.exists,
            takeDecimals_eq_some_iff] at found
          obtain ⟨hour, behind, ⟨isHour, rfl⟩, minute, last, ⟨isMinute, written⟩, found⟩ := found
          split at found
          · next empty =>
            cases found
            cases List.isEmpty_iff.mp empty
            rw [List.append_nil] at written
            cases coloned : expect ':' behind with
            | none =>
              rw [coloned] at written
              cases written
              exact .offset false signed isHour isMinute
            | some after =>
              rw [coloned] at written
              cases written
              rw [expect_eq_some_iff.mp coloned]
              exact .offset true signed isHour isMinute
          · cases found
        · cases found
  · rintro (_ | _ | ⟨colon, signed, isHour, isMinute⟩)
    · rfl
    · rfl
    · exact zoneShape?_offset colon signed isHour isMinute

/-- The shape of a date and time is recognised where its text is written, whole. -/
theorem dateTimeShape?_eq_some_iff {date : DateShape} {time : TimeShape} {zone : ZoneShape} :
    dateTimeShape? text = some (date, time, zone) ↔
      IsDate date ∧ IsTime time ∧
        ∃ zoneText, IsZone zone zoneText ∧
          text = dateText date ++ 'T' :: (timeText time ++ zoneText) := by
  simp only [dateTimeShape?, Option.bind_eq_bind, Option.bind_eq_some_iff, Prod.exists,
    dateShape?_eq_some_iff, expect_eq_some_iff, timeShape?_eq_some_iff, zoneShape?_eq_some_iff,
    Option.some.injEq, Prod.mk.injEq]
  constructor
  · rintro ⟨_, _, ⟨isDate, rfl⟩, _, rfl, _, _, ⟨isTime, rfl, _, _⟩, _, isZone, rfl, rfl, rfl⟩
    exact ⟨isDate, isTime, _, isZone, rfl⟩
  · rintro ⟨isDate, isTime, zoneText, isZone, rfl⟩
    refine ⟨_, _, ⟨isDate, rfl⟩, _, rfl, _, _, ⟨isTime, rfl, ?_, ?_⟩, _, isZone, rfl, rfl, rfl⟩
    · intro _ pointed
      exact absurd (isZone.head pointed).1 (by decide)
    · intro _ c next
      exact (isZone.head next).2

/-- A date with a time behind it is not read as a date. -/
theorem date?_eq_none {date : DateShape} (isDate : IsDate date) :
    date? (dateText date ++ 'T' :: rest) = none := by
  unfold date?
  rw [dateShape?_eq_some_iff.mpr ⟨isDate, rfl⟩]
  rfl

end SearchCompiler.DateShapes
