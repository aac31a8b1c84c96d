import SearchCompiler.Text.Digit

/-!
Reading a decimal numeral as a floating-point number by one scaling step. The leading digits that
fit in sixty-four bits become the significand; digits of the whole part beyond them only raise the
exponent and further digits of the fraction are dropped. The significand is then multiplied or
divided by a power of ten, so the result can differ in its last bit from the number nearest to the
numeral once there are more digits, or a greater exponent, than a float holds exactly.
-/

namespace SearchCompiler.Decimal

/-- Append digits to a significand while it stays below `2 ^ 64`: the significand, and how many
digits were left over. -/
def takeDigits (significand : Nat) : List Char → Nat × Nat
  | [] => (significand, 0)
  | c :: rest =>
    let next := 10 * significand + (Text.digit? c).getD 0
    if next < UInt64.size then takeDigits next rest else (significand, rest.length + 1)

/-- A power of ten as a float. -/
def tenToThe (exponent : Nat) : Float := Float.ofScientific 1 false exponent

/-- The greatest power of ten that one scaling step uses. -/
def scalingLimit : Nat := 308

/-- Scale a float by a power of ten. A number that is too great becomes infinite; far below one,
scaling goes on in steps until nothing is left of the number. -/
def scale (x : Float) (exponent : Int) : Float :=
  if exponent.natAbs ≤ scalingLimit then
    if 0 ≤ exponent then x * tenToThe exponent.natAbs else x / tenToThe exponent.natAbs
  else if x == 0 then x
  else if 0 ≤ exponent then 1 / 0
  else scale (x / tenToThe scalingLimit) (exponent + scalingLimit)
termination_by exponent.natAbs
decreasing_by
  simp only [scalingLimit] at *
  omega

/-- The float that a numeral writes: its sign, its whole and fractional digits and the power of ten
after its exponent mark. -/
def floatOfDigits (negative : Bool) (whole fraction : List Char) (exponent : Int) : Float :=
  let (leading, dropped) := takeDigits 0 whole
  let (significand, unread) := takeDigits leading fraction
  let size := scale (UInt64.ofNat significand).toFloat
    (exponent + dropped - (fraction.length - unread : Nat))
  if negative then -size else size

end SearchCompiler.Decimal
