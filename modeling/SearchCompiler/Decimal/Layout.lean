import SearchCompiler.Decimal.Shortest

/-!
How a finite floating-point number is written. The digits are the shortest that read back; a
`Layout` says where positional writing ends and how the exponent looks beyond it. In positional
writing at least one digit stands after the point.
-/

namespace SearchCompiler.Decimal

/-- The decisions of one way to write numbers. -/
structure Layout where
  /-- The least power of ten of a leading digit that is written without an exponent. -/
  least : Int
  /-- The greatest such power of ten. -/
  greatest : Int
  /-- Whether an exponent that is not negative carries a plus sign. -/
  plus : Bool
  tie : Tie
  deriving DecidableEq, Repr

/-- Positional writing of digits whose first one stands at the power of ten `lead`. -/
def positional (digits : List Char) (lead : Int) : List Char :=
  if lead < 0 then '0' :: '.' :: List.replicate (-lead - 1).toNat '0' ++ digits
  else
    let whole := lead.toNat + 1
    let fraction := digits.drop whole
    digits.take whole ++ List.replicate (whole - digits.length) '0' ++ '.' ::
      (if fraction.isEmpty then ['0'] else fraction)

/-- Writing with an exponent: one digit, the others after a point, the power of ten. -/
def scientific (plus : Bool) (digits : List Char) (lead : Int) : List Char :=
  let mantissa := match digits with
    | first :: second :: rest => first :: '.' :: second :: rest
    | short => short
  let sign := if lead < 0 then ['-'] else if plus then ['+'] else []
  mantissa ++ 'e' :: sign ++ Nat.toDigits 10 lead.natAbs

/-- The text of a decimal. -/
def Layout.write (layout : Layout) (number : Written) : List Char :=
  let digits := Nat.toDigits 10 number.digits
  let lead := number.exponent + digits.length - 1
  if layout.least ≤ lead ∧ lead ≤ layout.greatest then positional digits lead
  else scientific layout.plus digits lead

/-- The text of a finite floating-point number; `none` for the others. Zero keeps its sign. -/
def Layout.text? (layout : Layout) (x : Float) : Option (List Char) :=
  let sign := if isNegative x then ['-'] else []
  match Size.ofFloat x with
  | .zero => some (sign ++ ['0', '.', '0'])
  | .finite number => some (sign ++ layout.write (shortest layout.tie number))
  | .infinite | .notANumber => none

end SearchCompiler.Decimal
