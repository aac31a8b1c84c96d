import SearchCompiler.Proofs.DateInstants
import SearchCompiler.Proofs.RenderedInstants

/-! Rendered instants can be typed again. With underscores in the place of its hyphens the text of an
instant is a date and time in universal time, and at any later moment it means that instant once
more, cut to milliseconds: day numbers go back to the dates that they came from, small years keep
their zeros, and second sixty is the leap second again. What is read so is rendered as before. -/
namespace SearchCompiler.RereadBounds
open Calendar Calendar.DateTerm
open CalendarDays DateForms DateInstants DateShapes Numerals RenderedInstants

/-! ## Typing an instant -/

/-- A rendered instant as it can be typed. Hyphens divide the ends of a range, so underscores have to
divide the parts of a date. -/
def typed (text : List Char) : List Char := text.map fun c => if c = '-' then '_' else c

/-- The date of an instant, as it is written. -/
def dateFields (instant : Instant) : DateShape :=
  ⟨fixedDigits 4 instant.date.year.toNat, fixedDigits 2 instant.date.month,
    fixedDigits 2 instant.date.day⟩

/-- The time of day of an instant, as it is written. -/
def timeFields (instant : Instant) : TimeShape :=
  ⟨fixedDigits 2 (hourOf instant), fixedDigits 2 (minuteOf instant), fixedDigits 2 (secondOf instant),
    fixedDigits 3 (milliOf instant)⟩

variable {instant : Instant}

theorem typed_fixedDigits (width number : Nat) (rest : List Char) :
    typed (fixedDigits width number ++ rest) = fixedDigits width number ++ typed rest := by
  have same : (fixedDigits width number).map (fun c => if c = '-' then '_' else c) =
      (fixedDigits width number).map id := by
    refine List.map_congr_left fun c member => if_neg ?_
    rintro rfl
    exact absurd (fixedDigits_isNumeral width number '-' member) (by decide)
  unfold typed
  rw [List.map_append, same, List.map_id]

theorem typed_hyphen (rest : List Char) : typed ('-' :: rest) = '_' :: typed rest := rfl

theorem typed_mark {c : Char} (other : c ≠ '-') (rest : List Char) :
    typed (c :: rest) = c :: typed rest := by
  unfold typed
  rw [List.map_cons, if_neg other]

theorem fractionText_fixedDigits (width number : Nat) :
    fractionText (fixedDigits (width + 1) number) = '.' :: fixedDigits (width + 1) number := by
  have length := fixedDigits_length (width + 1) number
  obtain ⟨c, digits, written⟩ := List.exists_cons_of_length_eq_add_one length
  rw [written]
  rfl

/-- What is typed for an instant is its date and its time, in universal time. -/
theorem typed_iso (instant : Instant) :
    typed instant.iso = dateTimeText (dateFields instant) (timeFields instant) ['Z'] := by
  have last : typed ['Z'] = ['Z'] := rfl
  rw [iso_eq, dateTimeText, dateText, timeText, dateFields, timeFields]
  dsimp only
  rw [fractionText_fixedDigits]
  simp only [typed_fixedDigits, typed_hyphen, typed_mark (c := 'T') (by decide),
    typed_mark (c := ':') (by decide), typed_mark (c := '.') (by decide), last, List.append_assoc,
    List.cons_append]

/-! ## Reading it -/

theorem isDigits_fixedDigits (width number : Nat) : IsDigits width (fixedDigits width number) :=
  isDigits_of_isNumeral (fixedDigits_isNumeral width number) (fixedDigits_length width number)

theorem dateFields_ascii (instant : Instant) : AsciiDate (dateFields instant) where
  isDate := ⟨isDigits_fixedDigits _ _, isDigits_fixedDigits _ _, isDigits_fixedDigits _ _⟩
  year := fixedDigits_isNumeral _ _
  month := fixedDigits_isNumeral _ _
  day := fixedDigits_isNumeral _ _

theorem timeFields_ascii (instant : Instant) : AsciiTime (timeFields instant) where
  isTime := ⟨isDigits_fixedDigits _ _, isDigits_fixedDigits _ _, isDigits_fixedDigits _ _,
    (isDigits_fixedDigits _ _).decimal⟩
  hour := fixedDigits_isNumeral _ _
  minute := fixedDigits_isNumeral _ _
  second := fixedDigits_isNumeral _ _
  fraction := fixedDigits_isNumeral _ _

theorem dateOf_dateFields (renderable : instant.isRenderable = true) :
    dateOf (dateFields instant) = instant.date := by
  have fits := fieldsFit renderable
  have years := year_bounds renderable
  have year : ((instant.date.year.toNat : Nat) : Int) = instant.date.year :=
    Int.toNat_of_nonneg years.1
  rw [dateOf, dateFields]
  dsimp only
  rw [valueOf_fixedDigits fits.year, valueOf_fixedDigits fits.month, valueOf_fixedDigits fits.day,
    year]

/-- The fields of an instant put it together again, down to its milliseconds. -/
theorem instantOf?_fields (renderable : instant.isRenderable = true) :
    instantOf? (dateFields instant) (timeFields instant) .universal =
      some (cutToMillis instant) := by
  have fits := fieldsFit renderable
  have hour : valueOf (timeFields instant).hour = hourOf instant :=
    valueOf_fixedDigits (Nat.lt_trans fits.hour (by decide))
  have minute : valueOf (timeFields instant).minute = minuteOf instant :=
    valueOf_fixedDigits (Nat.lt_trans fits.minute (by decide))
  have second : valueOf (timeFields instant).second = secondOf instant :=
    valueOf_fixedDigits (Nat.lt_of_le_of_lt fits.second (by decide))
  have fraction : valueOf (timeFields instant).fraction = milliOf instant :=
    valueOf_fixedDigits fits.milli
  have width : (timeFields instant).fraction.length = 3 := fixedDigits_length _ _
  have zone : AsciiZone .universal ['Z'] := .universal .zulu
  have bounded : instant.nanos < 2000000000 := instant.bounded
  have ends : 1000000000 ≤ instant.nanos → instant.seconds % 60 = 59 := instant.leapEndsMinute
  refine (instantOf?_eq_some_iff (dateFields_ascii instant) (timeFields_ascii instant) zone).mpr
    ⟨⟨?_, ?_, ?_, ?_, trivial⟩, ?_, ?_⟩
  · rw [dateOf_dateFields renderable]
    exact date_isValid instant
  · rw [hour]
    exact fits.hour
  · rw [minute]
    exact fits.minute
  · rw [second]
    exact fits.second
  · rw [dateOf_dateFields renderable, date_dayNumber, secondsOf, hour, minute, second, aheadOf,
      secondOf_eq]
    change instant.seconds = _
    unfold hourOf minuteOf
    omega
  · rw [nanosOf, second, fraction, width, secondOf_eq, milliOf_eq]
    change instant.nanos / 1000000 * 1000000 = _
    split
    · omega
    · omega

/-- **Rendered instants are read back.** What any term means, against any clock, can be typed as it is
rendered, with underscores for hyphens. Whatever the clock then shows, this means the same instant,
cut to milliseconds, and that is rendered as before. -/
theorem bounds_read_back {clock : Instant} {term : List Char}
    (read : resolve clock term = .ok (some instant)) (other : Instant) :
    resolve other (typed instant.iso) = .ok (some (cutToMillis instant)) ∧
      (cutToMillis instant).iso = instant.iso := by
  have renderable := isRenderable_of_resolve read
  have kept : (cutToMillis instant).isRenderable = true := renderable
  have zone : AsciiZone .universal ['Z'] := .universal .zulu
  refine ⟨?_, iso_cutToMillis instant⟩
  rw [typed_iso, resolve_dateTime (dateFields_ascii instant) (timeFields_ascii instant) zone,
    instantOf?_fields renderable, Option.filter_some, if_pos kept]

/-- A leap second at the end of a leap day, in the year zero. -/
def leapSecond : Instant := ⟨-62162035201, 1987600000, by decide, by decide⟩

/-- Five seconds into the epoch the text of that second still means it, but for the digits that were
cut off. -/
theorem leap_second_of_year_zero :
    resolve (.ofSeconds 0) "0000_02_29T23:59:60.9876".toList = .ok (some leapSecond) ∧
      resolve (.ofSeconds 5) "0000_02_29T23:59:60.987Z".toList =
        .ok (some ⟨-62162035201, 1987000000, by decide, by decide⟩) := by
  have read : resolve (.ofSeconds 0) "0000_02_29T23:59:60.9876".toList =
      .ok (some leapSecond) := by decide +kernel
  have written : typed leapSecond.iso = "0000_02_29T23:59:60.987Z".toList := by decide +kernel
  refine ⟨read, ?_⟩
  rw [← written]
  exact (bounds_read_back read (.ofSeconds 5)).1

end SearchCompiler.RereadBounds
