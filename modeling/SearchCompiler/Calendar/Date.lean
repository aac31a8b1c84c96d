/-!
Dates of the Gregorian calendar, carried on before its introduction and after any year. A date and
the number of its day, counted from the first of January 1970, determine each other: `dayNumber`
adds up whole years and whole months, and `ofDayNumber` finds the year whose days hold a number and
then walks through its months.
-/

namespace SearchCompiler.Calendar

def isLeapYear (year : Int) : Bool :=
  decide (year % 4 = 0) && (!decide (year % 100 = 0) || decide (year % 400 = 0))

/-- The number of days of a month, which is counted from one. -/
def daysInMonth (year : Int) (month : Nat) : Nat :=
  match month with
  | 2 => if isLeapYear year then 29 else 28
  | 4 | 6 | 9 | 11 => 30
  | _ => 31

structure Date where
  /-- The year; the year before year one is year zero. -/
  year : Int
  month : Nat
  day : Nat
  deriving DecidableEq, Repr

def Date.isValid (date : Date) : Bool :=
  decide (1 ≤ date.month) && decide (date.month ≤ 12) && decide (1 ≤ date.day) &&
    decide (date.day ≤ daysInMonth date.year date.month)

/-- The number of days from the first of January 1970 to the first of January of a year. -/
def daysBeforeYear (year : Int) : Int :=
  365 * (year - 1970) + (year - 1) / 4 - (year - 1) / 100 + (year - 1) / 400 - 477

/-- The number of days in the first months of a year. -/
def daysInMonths (year : Int) : (months : Nat) → Nat
  | 0 => 0
  | months + 1 => daysInMonths year months + daysInMonth year (months + 1)

/-- The number of days of a year before a month of it. -/
def daysBeforeMonth (year : Int) (month : Nat) : Nat := daysInMonths year (month - 1)

/-- The number of a day, zero for the first of January 1970. -/
def Date.dayNumber (date : Date) : Int :=
  daysBeforeYear date.year + daysBeforeMonth date.year date.month + (date.day - 1 : Nat)

/-- The year that holds the day of a number: a guess from the mean length of a year, off by one year
at most. -/
def yearOfDay (number : Int) : Int :=
  let guess := 1970 + number * 400 / 146097
  if number < daysBeforeYear guess then guess - 1
  else if daysBeforeYear (guess + 1) ≤ number then guess + 1
  else guess

/-- The month and day that lie `rest` days after the first day of `month`, walking through at most
`months` further months. -/
def walkMonths (year : Int) : (months month rest : Nat) → Nat × Nat
  | 0, month, rest => (month, rest + 1)
  | months + 1, month, rest =>
    if rest < daysInMonth year month then (month, rest + 1)
    else walkMonths year months (month + 1) (rest - daysInMonth year month)

def Date.ofDayNumber (number : Int) : Date :=
  let year := yearOfDay number
  let walked := walkMonths year 11 1 (number - daysBeforeYear year).toNat
  ⟨year, walked.1, walked.2⟩

end SearchCompiler.Calendar
