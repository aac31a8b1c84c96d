import SearchCompiler.Proofs.CalendarDays
import SearchCompiler.Proofs.DateForms

/-! Terms relative to the clock move it by whole days, exactly. Bounds stand in the way one behind
the other: on the count, on its seconds, on the span of time and on the years of instants. None of
them is reached within the years that four digits write, so a term has a meaning exactly where the
moved clock lies in these years, however long its numeral, and the way back leads to the clock. -/
namespace SearchCompiler.RelativeTerms
open Calendar Calendar.DateTerm Text
open CalendarDays DateForms DateShapes Numerals

/-! ## Moves -/

/-- A number of days with the sign of its direction. -/
def signed (forward : Bool) (days : Nat) : Int := if forward then days else -days

/-- The second that lies some days after a clock, or before it. -/
def secondsFrom (clock : Instant) (forward : Bool) (days : Nat) : Int :=
  clock.seconds + signed forward days * 86400

/-- A reading came to the clock moved by some days: the exact second with the nanoseconds of the
clock, where four digits write its year, and otherwise nothing. -/
structure IsMoved (clock : Instant) (forward : Bool) (days : Nat)
    (result : Except DateFault (Option Instant)) : Prop where
  found : InFourDigitYears (secondsFrom clock forward days) → ∃ instant,
    result = .ok (some instant) ∧ instant.seconds = secondsFrom clock forward days ∧
      instant.nanos = clock.nanos
  lost : ¬ InFourDigitYears (secondsFrom clock forward days) → result = .ok none

/-- A bound that strikes when a clock is moved by a count of units. -/
inductive Overflows (clock : Instant) (forward : Bool) (count unitDays : Nat) : Prop
  /-- The numeral is no count. -/
  | count (beyond : isCountable count = false)
  /-- Its seconds are no count. -/
  | seconds (beyond : isCountable ((count * unitDays : Nat) * 86400) = false)
  /-- There is no span so long. -/
  | span (beyond : longestSpan < (count * unitDays : Nat) * 86400)
  /-- There is no such instant. -/
  | instant (beyond : (clock.addDays (signed forward (count * unitDays))).isRepresentable = false)

variable {clock : Instant} {forward : Bool} {digits : List Char} {unit : Char} {unitDays : Nat}

theorem IsMoved.unique {days : Nat} {first second : Except DateFault (Option Instant)}
    (isFirst : IsMoved clock forward days first) (isSecond : IsMoved clock forward days second) :
    first = second := by
  by_cases years : InFourDigitYears (secondsFrom clock forward days)
  · obtain ⟨instant, rfl, seconds, nanos⟩ := isFirst.found years
    obtain ⟨other, rfl, otherSeconds, otherNanos⟩ := isSecond.found years
    rw [Instant.ext (seconds.trans otherSeconds.symm) (nanos.trans otherNanos.symm)]
  · rw [isFirst.lost years, isSecond.lost years]

/-- What a clock was moved to lies within the years and is where it should be. -/
theorem IsMoved.reached {days : Nat} {instant : Instant}
    (moved : IsMoved clock forward days (.ok (some instant))) :
    InFourDigitYears (secondsFrom clock forward days) ∧
      instant.seconds = secondsFrom clock forward days ∧ instant.nanos = clock.nanos := by
  by_cases years : InFourDigitYears (secondsFrom clock forward days)
  · obtain ⟨_, same, exactly⟩ := moved.found years
    cases same
    exact ⟨years, exactly⟩
  · cases moved.lost years

/-- The way back leads to the clock. -/
theorem IsMoved.back {days : Nat} {instant : Instant} {result : Except DateFault (Option Instant)}
    (moved : IsMoved clock forward days (.ok (some instant)))
    (years : InFourDigitYears clock.seconds) (back : IsMoved instant (!forward) days result) :
    result = .ok (some clock) := by
  obtain ⟨_, seconds, nanos⟩ := moved.reached
  have home : secondsFrom instant (!forward) days = clock.seconds := by
    unfold secondsFrom at seconds ⊢
    rw [seconds]
    cases forward with
    | true =>
      change clock.seconds + (days : Int) * 86400 + -(days : Int) * 86400 = clock.seconds
      omega
    | false =>
      change clock.seconds + -(days : Int) * 86400 + (days : Int) * 86400 = clock.seconds
      omega
  rw [← home] at years
  obtain ⟨found, rfl, foundSeconds, foundNanos⟩ := back.found years
  rw [Instant.ext (foundSeconds.trans home) (foundNanos.trans nanos)]

/-- A clock outside leap seconds keeps its nanoseconds. -/
theorem addDays_of_common (common : clock.isLeap = false) (forward : Bool) (days : Nat) :
    (clock.addDays (signed forward days)).seconds = secondsFrom clock forward days ∧
      (clock.addDays (signed forward days)).nanos = clock.nanos := by
  have short : ¬ nanosPerSecond ≤ clock.nanos := of_decide_eq_false common
  rw [Instant.addDays, dif_neg short]
  exact ⟨rfl, rfl⟩

/-- The bounds lie beyond the years that four digits write. -/
theorem Overflows.outside {count : Nat} (named : daysInUnit? unit = some unitDays)
    (common : clock.isLeap = false) (representable : clock.isRepresentable = true)
    (overflows : Overflows clock forward count unitDays) :
    ¬ InFourDigitYears (secondsFrom clock forward (count * unitDays)) := by
  have some_days : count ≤ count * unitDays := by
    refine Nat.le_mul_of_pos_right count ?_
    unfold daysInUnit? at named
    split at named
    · cases named
      decide
    · split at named
      · cases named
        decide
      · cases named
  obtain ⟨begun, unfinished⟩ := isRepresentable_iff_seconds.mp representable
  rw [inFourDigitYears_iff_seconds]
  unfold secondsFrom
  cases overflows with
  | count beyond =>
    rw [Bool.eq_false_iff, ne_eq, isCountable_iff] at beyond
    unfold signed
    split <;> omega
  | seconds beyond =>
    rw [Bool.eq_false_iff, ne_eq, isCountable_iff] at beyond
    unfold signed
    split <;> omega
  | span beyond =>
    unfold longestSpan at beyond
    unfold signed
    split <;> omega
  | instant beyond =>
    have moved := (addDays_of_common common forward (count * unitDays)).1
    rw [Bool.eq_false_iff, ne_eq, isRepresentable_iff_seconds, moved] at beyond
    unfold secondsFrom at beyond
    omega

/-! ## Terms -/

/-- `now_add_` or `now_sub_`, a numeral and a unit. -/
def relativeText (forward : Bool) (digits : List Char) (unit : Char) : List Char :=
  ['n', 'o', 'w', '_'] ++ ((if forward then ['a', 'd', 'd', '_'] else ['s', 'u', 'b', '_']) ++
    (digits ++ [unit]))

theorem days?_of_isNumeral (isNumeral : IsNumeral digits) (written : digits ≠ [])
    (named : daysInUnit? unit = some unitDays) :
    days? forward (digits ++ [unit]) =
      if isCountable (valueOf digits) ∧
          isCountable ((valueOf digits * unitDays : Nat) * 86400) ∧
          ((valueOf digits * unitDays : Nat) : Int) * 86400 ≤ longestSpan then
        some (signed forward (valueOf digits * unitDays))
      else none := by
  have nonempty : digits.isEmpty = false := by simpa using written
  simp [days?, named, numeral?_of_isNumeral isNumeral, nonempty, signed]

theorem relative?_relativeText (forward : Bool) (digits : List Char) (unit : Char) :
    relative? clock (relativeText forward digits unit) =
      (days? forward (digits ++ [unit])).bind fun days => (clock.addDays days).represented? := by
  have stripped (start rest : List Char) : stripStart start (start ++ rest) = some rest :=
    stripStart_eq_some_iff.mpr rfl
  unfold relative? relativeText
  rw [stripped]
  cases forward with
  | true =>
    rw [if_pos rfl, Option.bind_eq_bind, Option.bind_some, stripped]
    rfl
  | false =>
    rw [if_neg Bool.false_ne_true, Option.bind_eq_bind, Option.bind_some, stripped]
    rfl

/-- A term has a reading exactly where no bound strikes, and then it is the moved clock. -/
theorem relative?_of_fits (isNumeral : IsNumeral digits) (written : digits ≠ [])
    (named : daysInUnit? unit = some unitDays)
    (fits : ¬ Overflows clock forward (valueOf digits) unitDays) :
    relative? clock (relativeText forward digits unit) =
      some (clock.addDays (signed forward (valueOf digits * unitDays))) := by
  have counted : isCountable (valueOf digits) = true :=
    eq_true_of_ne_false fun beyond => fits (.count beyond)
  have secondsCounted : isCountable ((valueOf digits * unitDays : Nat) * 86400) = true :=
    eq_true_of_ne_false fun beyond => fits (.seconds beyond)
  have short : ((valueOf digits * unitDays : Nat) : Int) * 86400 ≤ longestSpan :=
    Int.not_lt.mp fun beyond => fits (.span beyond)
  have known : (clock.addDays (signed forward (valueOf digits * unitDays))).isRepresentable = true :=
    eq_true_of_ne_false fun beyond => fits (.instant beyond)
  rw [relative?_relativeText, days?_of_isNumeral isNumeral written named,
    if_pos ⟨counted, secondsCounted, short⟩, Option.bind_some, Instant.represented?, if_pos known]

theorem relative?_of_overflows (isNumeral : IsNumeral digits) (written : digits ≠ [])
    (named : daysInUnit? unit = some unitDays)
    (overflows : Overflows clock forward (valueOf digits) unitDays) :
    relative? clock (relativeText forward digits unit) = none := by
  rw [relative?_relativeText, days?_of_isNumeral isNumeral written named]
  split
  · next fits =>
    obtain ⟨counted, secondsCounted, short⟩ := fits
    cases overflows with
    | count beyond => rw [beyond] at counted; cases counted
    | seconds beyond => rw [beyond] at secondsCounted; cases secondsCounted
    | span beyond => exact absurd beyond (Int.not_lt.mpr short)
    | instant beyond => simp [Instant.represented?, beyond]
  · rfl

theorem relative?_eq_none_iff (isNumeral : IsNumeral digits) (written : digits ≠ [])
    (named : daysInUnit? unit = some unitDays) :
    relative? clock (relativeText forward digits unit) = none ↔
      Overflows clock forward (valueOf digits) unitDays := by
  constructor
  · intro lost
    by_contra fits
    rw [relative?_of_fits isNumeral written named fits] at lost
    cases lost
  · exact relative?_of_overflows isNumeral written named

theorem resolve_relativeText (clock : Instant) (forward : Bool) (digits : List Char) (unit : Char) :
    resolve clock (relativeText forward digits unit) =
      .ok ((relative? clock (relativeText forward digits unit)).filter Instant.isRenderable) := by
  have longer : now? clock (relativeText forward digits unit) = none :=
    if_neg fun same => by cases same
  have named : readAny clock (relativeText forward digits unit) =
      .ok ((now? clock (relativeText forward digits unit)).or
        (relative? clock (relativeText forward digits unit))) := readAny_of_named
  rw [resolve, named, longer]
  rfl

/-- A clock that is no leap second is moved by the days that a term names. -/
theorem resolve_isMoved (common : clock.isLeap = false)
    (representable : clock.isRepresentable = true) (isNumeral : IsNumeral digits)
    (written : digits ≠ []) (named : daysInUnit? unit = some unitDays) (forward : Bool) :
    IsMoved clock forward (valueOf digits * unitDays)
      (resolve clock (relativeText forward digits unit)) := by
  obtain ⟨seconds, nanos⟩ := addDays_of_common common forward (valueOf digits * unitDays)
  rw [resolve_relativeText]
  constructor
  · intro years
    have fits : ¬ Overflows clock forward (valueOf digits) unitDays :=
      fun overflows => overflows.outside named common representable years
    have renderable := years
    rw [← seconds, inFourDigitYears_iff] at renderable
    rw [relative?_of_fits isNumeral written named fits, Option.filter_some, if_pos renderable]
    exact ⟨_, rfl, seconds, nanos⟩
  · intro outside
    by_cases overflows : Overflows clock forward (valueOf digits) unitDays
    · rw [relative?_of_overflows isNumeral written named overflows]
      rfl
    · rw [← seconds, inFourDigitYears_iff] at outside
      rw [relative?_of_fits isNumeral written named overflows, Option.filter_some,
        if_neg outside]

theorem resolve_days (common : clock.isLeap = false)
    (representable : clock.isRepresentable = true) (isNumeral : IsNumeral digits)
    (written : digits ≠ []) (forward : Bool) :
    IsMoved clock forward (valueOf digits) (resolve clock (relativeText forward digits 'd')) := by
  have day : daysInUnit? 'd' = some 1 := rfl
  have moved := resolve_isMoved common representable isNumeral written day forward
  rwa [Nat.mul_one] at moved

/-- **Moves by days are exact and never wrap.** However long its numeral, a term moves the clock by
exactly so many days where four digits write the year that it comes to, and has no meaning
elsewhere. Weeks are seven days each, and the way back leads to the clock. A reading fails where a
bound strikes, and bounds strike only outside these years. -/
theorem relative_terms_exact (common : clock.isLeap = false)
    (representable : clock.isRepresentable = true) (isNumeral : IsNumeral digits)
    (written : digits ≠ []) (forward : Bool) :
    IsMoved clock forward (valueOf digits) (resolve clock (relativeText forward digits 'd')) ∧
    (∀ days, IsNumeral days → days ≠ [] → valueOf days = 7 * valueOf digits →
      resolve clock (relativeText forward digits 'w') =
        resolve clock (relativeText forward days 'd')) ∧
    (∀ instant, InFourDigitYears clock.seconds →
      resolve clock (relativeText forward digits 'd') = .ok (some instant) →
      resolve instant (relativeText (!forward) digits 'd') = .ok (some clock)) ∧
    (∀ unit unitDays, daysInUnit? unit = some unitDays →
      (relative? clock (relativeText forward digits unit) = none ↔
        Overflows clock forward (valueOf digits) unitDays) ∧
      (Overflows clock forward (valueOf digits) unitDays →
        ¬ InFourDigitYears (secondsFrom clock forward (valueOf digits * unitDays)))) := by
  have week : daysInUnit? 'w' = some 7 := rfl
  have moved {text : List Char} (isNumeral : IsNumeral text) (written : text ≠ []) :
      IsMoved clock forward (valueOf text) (resolve clock (relativeText forward text 'd')) :=
    resolve_days common representable isNumeral written forward
  refine ⟨moved isNumeral written, fun days isDays daysWritten sevenfold => ?_,
    fun instant years found => ?_, fun unit unitDays named =>
      ⟨relative?_eq_none_iff isNumeral written named, fun overflows =>
        overflows.outside named common representable⟩⟩
  · have weeks := resolve_isMoved common representable isNumeral written week forward
    rw [Nat.mul_comm, ← sevenfold] at weeks
    exact weeks.unique (moved isDays daysWritten)
  · have there := moved isNumeral written
    rw [found] at there
    obtain ⟨reached, seconds, nanos⟩ := there.reached
    rw [← seconds, inFourDigitYears_iff, isRenderable_iff_seconds] at reached
    have instantRepresentable : instant.isRepresentable = true := by
      rw [isRepresentable_iff_seconds]
      omega
    have instantCommon : instant.isLeap = false := by
      rw [Instant.isLeap, nanos]
      exact common
    exact there.back years
      (resolve_days instantCommon instantRepresentable isNumeral written (!forward))

/-! ## Over the leap day -/

/-- A quarter of a second past noon, the day before a leap day. -/
def leapEve : Instant := ⟨1709121600, 250000000, by decide, by decide⟩

/-- Two days on there is the first of March, and two days back the leap day's eve again. -/
theorem over_the_leap_day :
    leapEve.isLeap = false ∧ leapEve.isRepresentable = true ∧ IsNumeral ['0', '2'] ∧
      InFourDigitYears leapEve.seconds ∧
      IsMoved leapEve true 2 (resolve leapEve "now_add_02d".toList) ∧
      resolve leapEve "now_add_02d".toList =
        .ok (some ⟨1709294400, 250000000, by decide, by decide⟩) ∧
      resolve ⟨1709294400, 250000000, by decide, by decide⟩ "now_sub_02d".toList =
        .ok (some leapEve) := by
  have common : leapEve.isLeap = false := by decide
  have representable : leapEve.isRepresentable = true := by decide +kernel
  have isNumeral : IsNumeral ['0', '2'] := by decide
  have written : ['0', '2'] ≠ [] := List.cons_ne_nil _ _
  have years : InFourDigitYears leapEve.seconds := by
    rw [inFourDigitYears_iff_seconds]
    decide
  have added : resolve leapEve "now_add_02d".toList =
      .ok (some ⟨1709294400, 250000000, by decide, by decide⟩) := by decide +kernel
  obtain ⟨moved, _, back, _⟩ :=
    relative_terms_exact common representable isNumeral written true
  exact ⟨common, representable, isNumeral, years, moved, added, back _ years added⟩

end SearchCompiler.RelativeTerms
