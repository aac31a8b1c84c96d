import SearchCompiler.Proofs.DateShapes
import SearchCompiler.Proofs.Numerals

/-! The forms of a term, told by how it begins. Dates and times begin with a digit, numerals with a
digit or a minus, and what the clock is asked for begins with `now`. So a term that is no numeral is
read in the forms that its first character leaves. -/
namespace SearchCompiler.DateForms
open Calendar Calendar.DateTerm Text
open DateShapes Numerals

variable {term rest : List Char} {clock : Instant}

theorem isDigits_of_isNumeral {digits : List Char} {count : Nat} (isNumeral : IsNumeral digits)
    (length : digits.length = count) : IsDigits count digits :=
  ⟨length, fun c member => isDecimal_of_digit? (digit?_eq_some_iff.mpr ⟨isNumeral c member, rfl⟩)⟩

/-- What does not begin with a digit is neither a date nor a date and time. -/
theorem dateShape?_eq_none {c : Char} (other : isDecimal c = false) :
    dateShape? (c :: rest) = none := by
  simp [dateShape?, takeDecimals, other]

/-- What has no date at its beginning is in neither form that begins with one. -/
theorem undated_of_unshaped (unshaped : dateShape? term = none) :
    date? term = none ∧ dateTime? term = .ok none := by
  constructor
  · simp [date?, unshaped]
  · simp [dateTime?, dateTimeShape?, unshaped]

/-- The parts of a date are divided by underscores. -/
theorem dateShape?_of_unparted (unparted : '_' ∉ term) : dateShape? term = none := by
  refine Option.eq_none_iff_forall_ne_some.mpr fun found shaped => ?_
  obtain ⟨_, rfl⟩ := dateShape?_eq_some_iff.mp shaped
  apply unparted
  simp [dateText]

theorem isCountable_iff {count : Int} :
    isCountable count = true ↔ -9223372036854775808 ≤ count ∧ count ≤ 9223372036854775807 := by
  simp [isCountable]

/-- Without a minus only a numeral is a count. -/
theorem epoch?_eq_none (unsigned : term.head? ≠ some '-') (unnumbered : ¬ IsNumeral term) :
    epoch? term = none := by
  unfold epoch?
  split
  next negative digits parts =>
    split at parts
    · exact absurd rfl unsigned
    · cases parts
      simp [numeral?_of_not_isNumeral unnumbered]

/-- What begins otherwise does not ask for the clock. -/
theorem clock_unasked {c : Char} (unnamed : c ≠ 'n') (clock : Instant) (rest : List Char) :
    now? clock (c :: rest) = none ∧ relative? clock (c :: rest) = none := by
  constructor
  · exact if_neg fun same => unnamed (List.cons.inj same).1
  · simp [relative?, stripStart, expect, unnamed]

/-- What begins with a digit and is no numeral can only be a date, or a date and time. -/
theorem readAny_of_dated {c : Char} (begins : term.head? = some c) (decimal : isDecimal c = true)
    (unnumbered : ¬ IsNumeral term) (undated : date? term = none) :
    readAny clock term = dateTime? term := by
  obtain ⟨rest, rfl⟩ := List.head?_eq_some_iff.mp begins
  have unsigned : c ≠ '-' := by
    rintro rfl
    exact absurd decimal (by decide)
  have unnamed : c ≠ 'n' := by
    rintro rfl
    exact absurd decimal (by decide)
  have uncounted : epoch? (c :: rest) = none :=
    epoch?_eq_none (fun same => unsigned (Option.some.inj same)) unnumbered
  obtain ⟨present, related⟩ := clock_unasked unnamed clock rest
  rw [readAny, undated]
  dsimp only
  rw [uncounted, present, related]
  cases dateTime? (c :: rest) with
  | ok found => simp [Except.map]
  | error fault => rfl

/-- What begins with `n` can only be the clock, or relative to it. -/
theorem readAny_of_named :
    readAny clock ('n' :: rest) =
      .ok ((now? clock ('n' :: rest)).or (relative? clock ('n' :: rest))) := by
  have unshaped : dateShape? ('n' :: rest) = none := dateShape?_eq_none (by decide)
  obtain ⟨undated, untimed⟩ := undated_of_unshaped unshaped
  have uncounted : epoch? ('n' :: rest) = none := by
    refine epoch?_eq_none (fun same => by cases same) fun isNumeral => ?_
    exact absurd (isNumeral 'n' List.mem_cons_self) (by decide)
  rw [readAny, undated, untimed, uncounted]
  simp [Except.map]

end SearchCompiler.DateForms
