import SearchCompiler.Decimal.Layout
import SearchCompiler.Json.Value

/-!
Compact JSON text. No space stands between tokens; a string escapes the quote, the backslash and
the control characters and writes every other character as it is, so a string can neither end
early nor be read as anything but itself.
-/

namespace SearchCompiler.Json

/-- Floats are positional from `0.00001` up to sixteen digits, and the exponent beyond carries its
sign. -/
def floatLayout : Decimal.Layout := ⟨-5, 15, true, .even⟩

/-- How a character stands in a string literal. -/
def escape (c : Char) : List Char :=
  if c = '"' then ['\\', '"']
  else if c = '\\' then ['\\', '\\']
  else if c = '\x08' then ['\\', 'b']
  else if c = '\x09' then ['\\', 't']
  else if c = '\x0a' then ['\\', 'n']
  else if c = '\x0c' then ['\\', 'f']
  else if c = '\x0d' then ['\\', 'r']
  else if c.toNat < 0x20 then
    ['\\', 'u', '0', '0', Nat.digitChar (c.toNat / 16), Nat.digitChar (c.toNat % 16)]
  else [c]

/-- A string literal. -/
def writeString (text : List Char) : List Char := '"' :: text.flatMap escape ++ ['"']

/-- A number. -/
def Number.write : Number → List Char
  | .integer value => (if value < 0 then ['-'] else []) ++ Nat.toDigits 10 value.natAbs
  | .float value => (floatLayout.text? value).getD ['n', 'u', 'l', 'l']

mutual

/-- The compact text of a value. -/
def Value.write : Value → List Char
  | .null | .garbled => ['n', 'u', 'l', 'l']
  | .bool true => ['t', 'r', 'u', 'e']
  | .bool false => ['f', 'a', 'l', 's', 'e']
  | .number value => value.write
  | .string value => writeString value.toList
  | .array [] => ['[', ']']
  | .array (first :: rest) => '[' :: (first.write ++ writeElements rest)
  | .object [] => ['{', '}']
  | .object ((name, first) :: rest) =>
    '{' :: (writeString name.toList ++ ':' :: (first.write ++ writeMembers rest))

/-- The elements after the first, and the closing bracket. -/
def writeElements : List Value → List Char
  | [] => [']']
  | element :: rest => ',' :: (element.write ++ writeElements rest)

/-- The members after the first, and the closing brace. -/
def writeMembers : List (String × Value) → List Char
  | [] => ['}']
  | (name, value) :: rest =>
    ',' :: (writeString name.toList ++ ':' :: (value.write ++ writeMembers rest))

end

/-- The compact text of a value. -/
def Value.text (value : Value) : String := String.ofList value.write

end SearchCompiler.Json
