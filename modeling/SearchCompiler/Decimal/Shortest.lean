/-!
The shortest decimal that reads back as a given floating-point number. Every decimal strictly
inside the interval around the number that rounds to it will do, and an end of the interval too
where the significand is even. The decimals with one last place form a grid; the coarsest grid
with a point in the interval gives the fewest digits, and of two points the nearer one is taken.
All of it is exact arithmetic on natural numbers.
-/

namespace SearchCompiler.Decimal

/-- A positive number, `significand · 2 ^ exponent`. -/
structure Binary where
  significand : Nat
  /-- The power of two of its last bit. -/
  exponent : Int
  /-- Whether the next number below is only half as far away as the next one above. -/
  narrow : Bool
  deriving DecidableEq, Repr

/-- A number written in decimal, `digits · 10 ^ exponent`. -/
structure Written where
  digits : Nat
  /-- The power of ten of the last digit. -/
  exponent : Int
  deriving DecidableEq, Repr

/-- Which of two equally near decimals is taken. -/
inductive Tie where
  | even
  | above
  deriving DecidableEq, Repr

/-- `base ^ exponent`, one for a negative exponent. -/
def powerUp (base : Nat) (exponent : Int) : Nat := Nat.pow base exponent.toNat

/-- What a quarter of the last bit is multiplied by, so that grid points are whole numbers of
`gridUnit`. -/
def bitUnit (number : Binary) (place : Int) : Nat :=
  powerUp 2 (number.exponent - 2) * powerUp 10 (-place)

/-- The distance of two neighbours on the grid with last place `10 ^ place`, in the same measure. -/
def gridUnit (number : Binary) (place : Int) : Nat :=
  powerUp 2 (2 - number.exponent) * powerUp 10 place

/-- Whether `point · 10 ^ place` rounds to the number. -/
def roundsTo (number : Binary) (place : Int) (point : Nat) : Bool :=
  let low := (4 * number.significand - (if number.narrow then 1 else 2)) * bitUnit number place
  let high := (4 * number.significand + 2) * bitUnit number place
  let spot := point * gridUnit number place
  if number.significand % 2 = 0 then decide (low ≤ spot) && decide (spot ≤ high)
  else decide (low < spot) && decide (spot < high)

/-- The point of a grid that rounds to the number and lies nearest to it. -/
def nearestOnGrid? (tie : Tie) (number : Binary) (place : Int) : Option Nat :=
  let value := 4 * number.significand * bitUnit number place
  let unit := gridUnit number place
  let below := value / unit
  let above := below + 1
  match roundsTo number place below, roundsTo number place above with
  | false, false => none
  | true, false => some below
  | false, true => some above
  | true, true =>
    let left := value - below * unit
    let right := above * unit - value
    if left < right then some below
    else if right < left then some above
    else match tie with
      | .even => if below % 2 = 0 then some below else some above
      | .above => some above

/-- The place of the coarsest grid worth trying: above the leading digit of the number. -/
def coarsestPlace (number : Binary) : Int :=
  let bits := number.exponent + number.significand.log2 + 1
  max (bits * 302 / 1000) (bits * 301 / 1000) + 1

/-- How many grids are tried, well above the seventeen digits that always suffice. -/
def gridsTried : Nat := 40

/-- The shortest decimal that rounds to a number. -/
def shortest (tie : Tie) (number : Binary) : Written :=
  ((List.range gridsTried).findSome? fun (step : Nat) =>
    let place := coarsestPlace number - step
    (nearestOnGrid? tie number place).map fun point => ⟨point, place⟩).getD ⟨0, 0⟩

/-- What the sixty-four bits of a floating-point number stand for, its sign apart. -/
inductive Size where
  | zero
  | finite (number : Binary)
  | infinite
  | notANumber
  deriving DecidableEq, Repr

/-- How many fractions fifty-two bits can hold. -/
def fractions : Nat := 1 <<< 52

/-- How many exponents eleven bits can hold. -/
def exponents : Nat := 1 <<< 11

/-- The size of the number with the given exponent and fraction bits. -/
def Size.ofFields (exponent fraction : Nat) : Size :=
  if exponent = 2047 then (if fraction = 0 then .infinite else .notANumber)
  else if exponent = 0 then
    (if fraction = 0 then .zero else .finite ⟨fraction, -1074, false⟩)
  else .finite ⟨fractions + fraction, (exponent : Int) - 1075,
    decide (fraction = 0) && decide (1 < exponent)⟩

/-- The size of a floating-point number. -/
def Size.ofFloat (x : Float) : Size :=
  let bits := x.toBits.toNat
  .ofFields (bits / fractions % exponents) (bits % fractions)

/-- Whether a floating-point number has its sign bit set. -/
def isNegative (x : Float) : Bool := decide (UInt64.size / 2 ≤ x.toBits.toNat)

/-- Whether a floating-point number is neither infinite nor undefined. -/
def isFinite (x : Float) : Bool :=
  match Size.ofFloat x with
  | .zero | .finite _ => true
  | .infinite | .notANumber => false

end SearchCompiler.Decimal
