import SearchCompiler.Calendar.Instant
import SearchCompiler.Text.Digit

/-!
Date terms: what a person may write for one end of a date range. There are five forms, each with a
recogniser of its own.

* `2023_10_01`, a date, read as the start of that day;
* `2023_10_01T12:30:45`, a date and time, with an optional fraction of a second and an optional
  `Z` or `±hh:mm` or `±hhmm`; without one of these the time is universal;
* `1699834414`, seconds since the start of 1970 in at most ten digits, and milliseconds in more;
* `now`, the instant of the clock;
* `now_add_5d` and `now_sub_2w`, whole days or weeks from it.

Counts have 64 bits, spans of time have 64 bits of milliseconds, and instants have a first and a
last year; a term that goes beyond one of these bounds has no meaning.

The shape of a term admits decimal digits of every script and its value only those of ASCII, so a
term with other digits has no meaning. One such term cannot even be refused: an offset without a
colon is divided after its third byte, and that byte may lie inside a digit of another script.
-/

namespace SearchCompiler.Calendar

open Text

/-- A reading that cannot be finished. -/
inductive DateFault where
  /-- The third byte of an offset without a colon does not end a character. -/
  | offsetCut
  deriving DecidableEq, Repr

namespace DateTerm

/-! ## Shapes -/

/-- The next `count` characters, all decimal digits, and the text after them. -/
def takeDecimals : (count : Nat) → List Char → Option (List Char × List Char)
  | 0, text => some ([], text)
  | _ + 1, [] => none
  | count + 1, c :: rest =>
    if isDecimal c then (takeDecimals count rest).map fun taken => (c :: taken.1, taken.2) else none

/-- The text after an expected character. -/
def expect (expected : Char) : List Char → Option (List Char)
  | [] => none
  | c :: rest => if c = expected then some rest else none

structure DateShape where
  year : List Char
  month : List Char
  day : List Char
  deriving DecidableEq, Repr

/-- The shape `dddd_dd_dd` and the text after it. -/
def dateShape? (text : List Char) : Option (DateShape × List Char) := do
  let (year, rest) ← takeDecimals 4 text
  let rest ← expect '_' rest
  let (month, rest) ← takeDecimals 2 rest
  let rest ← expect '_' rest
  let (day, rest) ← takeDecimals 2 rest
  some (⟨year, month, day⟩, rest)

structure TimeShape where
  hour : List Char
  minute : List Char
  second : List Char
  /-- The digits after the point; none where there is no point. -/
  fraction : List Char
  deriving DecidableEq, Repr

/-- The digits of the fraction, where a point and at least one digit come next. -/
def fractionShape? (text : List Char) : Option (List Char × List Char) :=
  match text with
  | '.' :: rest =>
    let digits := rest.takeWhile isDecimal
    if digits.isEmpty then none else some (digits, rest.dropWhile isDecimal)
  | _ => some ([], text)

/-- The shape `dd:dd:dd` with an optional fraction, and the text after it. -/
def timeShape? (text : List Char) : Option (TimeShape × List Char) := do
  let (hour, rest) ← takeDecimals 2 text
  let rest ← expect ':' rest
  let (minute, rest) ← takeDecimals 2 rest
  let rest ← expect ':' rest
  let (second, rest) ← takeDecimals 2 rest
  let (fraction, rest) ← fractionShape? rest
  some (⟨hour, minute, second, fraction⟩, rest)

/-- What follows the time of day. -/
inductive ZoneShape where
  /-- Nothing, or `Z`. -/
  | universal
  /-- A sign, the digits of an offset, and whether a colon stands between them. -/
  | offset (sign : Char) (hour : List Char) (colon : Bool) (minute : List Char)
  deriving DecidableEq, Repr

/-- The shape of a whole zone. -/
def zoneShape? (text : List Char) : Option ZoneShape :=
  match text with
  | [] => some .universal
  | c :: rest =>
    if c = 'Z' then (if rest.isEmpty then some .universal else none)
    else if c = '+' ∨ c = '-' then do
      let (hour, rest) ← takeDecimals 2 rest
      let (colon, rest) := match expect ':' rest with
        | some after => (true, after)
        | none => (false, rest)
      let (minute, rest) ← takeDecimals 2 rest
      if rest.isEmpty then some (.offset c hour colon minute) else none
    else none

/-- The shape of a whole date and time. -/
def dateTimeShape? (text : List Char) : Option (DateShape × TimeShape × ZoneShape) := do
  let (date, rest) ← dateShape? text
  let rest ← expect 'T' rest
  let (time, rest) ← timeShape? rest
  let zone ← zoneShape? rest
  some (date, time, zone)

/-! ## Values -/

/-- The day that a date shape names, where the calendar has it. -/
def DateShape.date? (shape : DateShape) : Option Date := do
  let year ← numeral? shape.year
  let month ← numeral? shape.month
  let day ← numeral? shape.day
  let date : Date := ⟨year, month, day⟩
  if date.isValid then some date else none

/-- The nanoseconds that a fraction writes: its first nine digits, zeros standing for missing ones.
The digits after them count for nothing but have to be digits. -/
def nanos? (fraction : List Char) : Option Nat := do
  let _ ← numeral? fraction
  numeral? ((fraction ++ List.replicate 9 '0').take 9)

/-- The minutes by which a zone is ahead of universal time. -/
def ZoneShape.minutes? : ZoneShape → Option Int
  | .universal => some 0
  | .offset sign hour _ minute => do
    let hours ← numeral? hour
    let minutes ← numeral? minute
    if hours < 24 ∧ minutes < 60 then
      let ahead : Int := 60 * hours + minutes
      some (if sign = '-' then -ahead else ahead)
    else none

/-- Whether text can be divided after so many bytes of its encoding without dividing a character. -/
def dividesAfter : (bytes : Nat) → List Char → Bool
  | 0, _ => true
  | _ + 1, [] => false
  | bytes + 1, c :: rest =>
    decide (c.utf8Size ≤ bytes + 1) && dividesAfter (bytes + 1 - c.utf8Size) rest

/-- Whether the offset of a zone can be divided into hours and minutes: a colon does it, and
otherwise the third byte has to end a character. -/
def ZoneShape.divides : ZoneShape → Bool
  | .universal => true
  | .offset sign hour colon minute => colon || dividesAfter 3 (sign :: hour ++ minute)

/-- The instant of a day, a time and a zone, where all three make sense. Second sixty is a leap
second. -/
def instantOf? (date : DateShape) (time : TimeShape) (zone : ZoneShape) : Option Instant := do
  let day ← date.date?
  let hour ← numeral? time.hour
  let minute ← numeral? time.minute
  let secondOfMinute ← numeral? time.second
  let nanos ← nanos? time.fraction
  let ahead ← zone.minutes?
  if hour < 24 ∧ minute < 60 then
    let minutes := day.dayNumber * 1440 + (60 * hour + minute : Nat) - ahead
    Instant.ofMinute? minutes secondOfMinute nanos
  else none

/-! ## Forms -/

def date? (term : List Char) : Option Instant := do
  let (shape, rest) ← dateShape? term
  if rest.isEmpty then
    let day ← shape.date?
    some (.ofSeconds (day.dayNumber * 86400))
  else none

def dateTime? (term : List Char) : Except DateFault (Option Instant) :=
  match dateTimeShape? term with
  | none => .ok none
  | some (date, time, zone) =>
    if zone.divides then .ok (instantOf? date time zone) else .error .offsetCut

/-- Whether a count fits into 64 bits, one of them for the sign. -/
def isCountable (count : Int) : Bool :=
  decide (-9223372036854775808 ≤ count) && decide (count ≤ 9223372036854775807)

/-- The most digits of a count of seconds. -/
def secondsDigits : Nat := 10

/-- A count of seconds or milliseconds, the number of digits deciding which. -/
def epoch? (term : List Char) : Option Instant := do
  let (negative, digits) := match term with
    | '-' :: rest => (true, rest)
    | _ => (false, term)
  if digits.isEmpty then none
  else
    let size ← numeral? digits
    let count : Int := if negative then -size else size
    if isCountable count then
      (if digits.length ≤ secondsDigits then Instant.ofSeconds count
        else Instant.ofMillis count).represented?
    else none

/-- The clock itself. -/
def now? (clock : Instant) (term : List Char) : Option Instant :=
  if term = ['n', 'o', 'w'] then some clock else none

/-- The text after an expected beginning. -/
def stripStart : List Char → List Char → Option (List Char)
  | [], text => some text
  | c :: start, text => (expect c text).bind (stripStart start)

/-- The days in a unit of relative terms. -/
def daysInUnit? (unit : Char) : Option Nat :=
  if unit = 'd' then some 1 else if unit = 'w' then some 7 else none

/-- The seconds of the longest span of time, whose milliseconds fill 64 bits. -/
def longestSpan : Int := 9223372036854775

/-- The signed number of days that a numeral and a unit name, where the numeral and its seconds can
be counted and make no longer span than there is. -/
def days? (forward : Bool) (amount : List Char) : Option Int := do
  let unit ← amount.getLast?
  let days ← daysInUnit? unit
  let digits := amount.dropLast
  if digits.isEmpty then none
  else
    let count ← numeral? digits
    let total : Int := count * days
    if isCountable count ∧ isCountable (total * 86400) ∧ total * 86400 ≤ longestSpan then
      some (if forward then total else -total)
    else none

/-- Some days or weeks from the clock. -/
def relative? (clock : Instant) (term : List Char) : Option Instant := do
  let rest ← stripStart ['n', 'o', 'w', '_'] term
  let days ← match stripStart ['a', 'd', 'd', '_'] rest with
    | some amount => days? true amount
    | none => (stripStart ['s', 'u', 'b', '_'] rest).bind (days? false)
  (clock.addDays days).represented?

/-- What a term means in the first form that it has, whatever the year. -/
def readAny (clock : Instant) (term : List Char) : Except DateFault (Option Instant) :=
  match date? term with
  | some instant => .ok (some instant)
  | none => (dateTime? term).map fun found =>
      (((found.or (epoch? term)).or (now? clock term)).or (relative? clock term))

/-- The instant that a date term means, read against a clock. Years that four digits cannot write
have no meaning. -/
def resolve (clock : Instant) (term : List Char) : Except DateFault (Option Instant) :=
  (readAny clock term).map fun found => found.filter Instant.isRenderable

end DateTerm

end SearchCompiler.Calendar
