/-!
Decimal digits. `digit?` reads the ten digits of ASCII, the only ones that carry a value here;
`isDecimal` recognises the digits of every script, which are accepted by the shape of a date term
and then refused by its value.
-/

namespace SearchCompiler.Text

def digit? (c : Char) : Option Nat :=
  if '0'.toNat ≤ c.toNat ∧ c.toNat ≤ '9'.toNat then some (c.toNat - '0'.toNat) else none

/-- The zero of every run of ten characters of Unicode's category of decimal digits. -/
def decimalZeros : List Nat :=
  [0x30, 0x660, 0x6F0, 0x7C0, 0x966, 0x9E6, 0xA66, 0xAE6, 0xB66, 0xBE6, 0xC66, 0xCE6, 0xD66, 0xDE6,
   0xE50, 0xED0, 0xF20, 0x1040, 0x1090, 0x17E0, 0x1810, 0x1946, 0x19D0, 0x1A80, 0x1A90, 0x1B50,
   0x1BB0, 0x1C40, 0x1C50, 0xA620, 0xA8D0, 0xA900, 0xA9D0, 0xA9F0, 0xAA50, 0xABF0, 0xFF10, 0x104A0,
   0x10D30, 0x10D40, 0x11066, 0x110F0, 0x11136, 0x111D0, 0x112F0, 0x11450, 0x114D0, 0x11650,
   0x116C0, 0x116D0, 0x116DA, 0x11730, 0x118E0, 0x11950, 0x11BF0, 0x11C50, 0x11D50, 0x11DA0,
   0x11F50, 0x16130, 0x16A60, 0x16AC0, 0x16B50, 0x16D70, 0x1CCF0, 0x1D7CE, 0x1D7D8, 0x1D7E2,
   0x1D7EC, 0x1D7F6, 0x1E140, 0x1E2F0, 0x1E4F0, 0x1E5F1, 0x1E950, 0x1FBF0]

/-- Whether a character is a decimal digit of some script. -/
def isDecimal (c : Char) : Bool :=
  decimalZeros.any fun first => decide (first ≤ c.toNat) && decide (c.toNat < first + 10)

/-- The number that a numeral of ASCII digits writes, most significant digit first; `none` where
another character stands. The empty numeral is zero, so callers ask for a digit themselves. -/
def numeral? (digits : List Char) : Option Nat :=
  digits.foldl
    (fun value c => match value, digit? c with
      | some n, some d => some (10 * n + d)
      | _, _ => none)
    (some 0)

/-- An ASCII digit is a decimal digit. -/
theorem isDecimal_of_digit? {c : Char} {value : Nat} (read : digit? c = some value) :
    isDecimal c = true := by
  unfold digit? at read
  split at read
  · rename_i bounds
    have low : 0x30 ≤ c.toNat := bounds.1
    have high : c.toNat ≤ 0x39 := bounds.2
    have below : c.toNat < 0x30 + 10 := by omega
    simp [isDecimal, decimalZeros, low, below]
  · cases read

end SearchCompiler.Text
