import SearchCompiler.Calendar.Date

/-!
Instants in universal time, to the nanosecond. A leap second is written as the last second of its
minute with more than a second's worth of nanoseconds, so it comes after that second and before the
next minute. There are no leap seconds elsewhere: a clock that shows a second's worth of nanoseconds,
or more, in another second than the last one of a minute has no instant here, and nothing is said of
what is built under it. `Instant.iso` renders an instant as the search engine expects a range bound.
-/

namespace SearchCompiler.Calendar

abbrev nanosPerSecond : Nat := 1000000000

@[ext]
structure Instant where
  /-- Whole seconds since the start of 1970, rounded down. -/
  seconds : Int
  /-- Nanoseconds into the second; a second's worth or more inside a leap second. -/
  nanos : Nat
  bounded : nanos < 2 * nanosPerSecond := by omega
  /-- A leap second ends its minute. -/
  leapEndsMinute : nanosPerSecond ≤ nanos → seconds % 60 = 59 := by omega
  deriving DecidableEq, Repr

namespace Instant

def isLeap (instant : Instant) : Bool := decide (nanosPerSecond ≤ instant.nanos)

/-- The instant some seconds and nanoseconds into a minute, the minutes counted from the start of
1970. Second sixty is a leap second; there is none after it. -/
def ofMinute? (minute : Int) (secondOfMinute nanos : Nat) : Option Instant :=
  if fraction : nanos < nanosPerSecond then
    if secondOfMinute < 60 then some ⟨minute * 60 + secondOfMinute, nanos, by omega, by omega⟩
    else if secondOfMinute = 60 then
      some ⟨minute * 60 + 59, nanosPerSecond + nanos, by omega, by omega⟩
    else none
  else none

def ofSeconds (seconds : Int) : Instant :=
  ⟨seconds, 0, by decide, fun leap => absurd leap (by decide)⟩

def ofMillis (millis : Int) : Instant :=
  ⟨millis / 1000, (millis % 1000).toNat * 1000000, by unfold nanosPerSecond; omega,
    fun leap => absurd leap (by unfold nanosPerSecond; omega)⟩

/-- The instant some days later, or earlier for a negative number. Any move leaves a leap second:
forward, its fraction counts from the second that it follows, and back, from the start of the next
minute. -/
def addDays (instant : Instant) (days : Int) : Instant :=
  if leap : nanosPerSecond ≤ instant.nanos then
    if days = 0 then instant
    else
      ⟨instant.seconds + (if days < 0 then 1 else 0) + days * 86400, instant.nanos - nanosPerSecond,
        by have := instant.bounded; omega, by have := instant.bounded; omega⟩
  else
    ⟨instant.seconds + days * 86400, instant.nanos, instant.bounded, by omega⟩

def date (instant : Instant) : Date := Date.ofDayNumber (instant.seconds / 86400)

/-- Whether an instant lies between the first and the last year that instants can have. -/
def isRepresentable (instant : Instant) : Bool :=
  decide (-262143 ≤ instant.date.year) && decide (instant.date.year ≤ 262142)

/-- An instant that was computed, where it is one that instants can be. -/
def represented? (instant : Instant) : Option Instant :=
  if instant.isRepresentable then some instant else none

/-- Whether the year of an instant is written with four digits and no sign. -/
def isRenderable (instant : Instant) : Bool :=
  decide (0 ≤ instant.date.year) && decide (instant.date.year ≤ 9999)

end Instant

/-- The last `width` digits of a number. -/
def fixedDigits : (width : Nat) → (number : Nat) → List Char
  | 0, _ => []
  | width + 1, number => fixedDigits width (number / 10) ++ [Nat.digitChar (number % 10)]

/-- The text `YYYY-MM-DD` of a date whose year has four digits at most. -/
def Date.iso (date : Date) : List Char :=
  fixedDigits 4 date.year.toNat ++ '-' :: fixedDigits 2 date.month ++ '-' :: fixedDigits 2 date.day

/-- The text `hh:mm:ss.mmm` of the time of day of an instant, cut to milliseconds. A leap second is
second sixty. -/
def Instant.isoTime (instant : Instant) : List Char :=
  let ofDay := (instant.seconds % 86400).toNat
  let secondOfMinute := ofDay % 60 + (if instant.isLeap then 1 else 0)
  fixedDigits 2 (ofDay / 3600) ++ ':' :: fixedDigits 2 (ofDay / 60 % 60) ++
    ':' :: fixedDigits 2 secondOfMinute ++
    '.' :: fixedDigits 3 (instant.nanos % nanosPerSecond / 1000000)

/-- The text `YYYY-MM-DDThh:mm:ss.mmmZ` of an instant. -/
def Instant.iso (instant : Instant) : List Char :=
  instant.date.iso ++ 'T' :: instant.isoTime ++ ['Z']

end SearchCompiler.Calendar
