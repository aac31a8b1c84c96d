import SearchCompiler.Decimal.Scaled
import SearchCompiler.Json.Value

/-!
Strict JSON reading. Only space, tab, newline and carriage return may stand between tokens, numerals
follow the grammar without leading zeros, raw control characters are refused inside strings and
nothing but blanks may follow the value. Every step returns the text it did not use.
-/

namespace SearchCompiler.Json

/-- The blanks of JSON. -/
def isSpace (c : Char) : Bool := c == ' ' || c == '\x09' || c == '\x0a' || c == '\x0d'

/-- The text from its first token on. -/
def skipSpace (text : List Char) : List Char := text.dropWhile isSpace

/-! ## Strings -/

/-- The value of a hexadecimal digit, of either case. -/
def hexDigit? (c : Char) : Option Nat :=
  if '0' ≤ c ∧ c ≤ '9' then some (c.toNat - '0'.toNat)
  else if 'a' ≤ c ∧ c ≤ 'f' then some (c.toNat - 'a'.toNat + 10)
  else if 'A' ≤ c ∧ c ≤ 'F' then some (c.toNat - 'A'.toNat + 10)
  else none

/-- The code that four hexadecimal digits write. -/
def hexCode? (a b c d : Char) : Option Nat :=
  match hexDigit? a, hexDigit? b, hexDigit? c, hexDigit? d with
  | some w, some x, some y, some z => some (((w * 16 + x) * 16 + y) * 16 + z)
  | _, _, _, _ => none

/-- Whether a code is the first half of a surrogate pair. -/
def isHighHalf (code : Nat) : Bool := decide (0xD800 ≤ code) && decide (code < 0xDC00)

/-- Whether a code is the second half of a surrogate pair. -/
def isLowHalf (code : Nat) : Bool := decide (0xDC00 ≤ code) && decide (code < 0xE000)

/-- The character that a surrogate pair stands for. -/
def joinHalves (high low : Nat) : Char :=
  Char.ofNat (0x10000 + (high - 0xD800) * 0x400 + (low - 0xDC00))

/-- The character that a one-letter escape stands for. -/
def shortEscape? (c : Char) : Option Char :=
  if c = '"' ∨ c = '\\' ∨ c = '/' then some c
  else if c = 'b' then some '\x08'
  else if c = 'f' then some '\x0c'
  else if c = 'n' then some '\x0a'
  else if c = 'r' then some '\x0d'
  else if c = 't' then some '\x09'
  else none

/-- The second half of a surrogate pair, where its escape comes next. -/
def lowHalf? : List Char → Option Nat
  | '\\' :: 'u' :: a :: b :: c :: d :: _ => (hexCode? a b c d).filter isLowHalf
  | _ => none

/-- Read an escape from behind its backslash: the character it stands for, none for half of a
surrogate pair, and the number of characters it takes. -/
def readEscape : List Char → Option (Option Char × Nat)
  | 'u' :: a :: b :: c :: d :: rest =>
    match hexCode? a b c d with
    | none => none
    | some code =>
      if isHighHalf code then
        match lowHalf? rest with
        | some low => some (some (joinHalves code low), 11)
        | none => some (none, 5)
      else if isLowHalf code then some (none, 5)
      else some (some (Char.ofNat code), 5)
  | letter :: _ => (shortEscape? letter).map fun meaning => (some meaning, 1)
  | [] => none

/-- A string literal that has been read: its text, or `none` where it is garbled. -/
abbrev Literal := Option (List Char)

/-- Put what one character or escape stands for in front of a literal. -/
def prepend (meaning : Option Char) (read : Literal × List Char) : Literal × List Char :=
  (meaning.bind fun c => read.1.map (c :: ·), read.2)

/-- Read a string literal; `skip` counts the characters of an escape not yet passed. -/
def readStringFrom (skip : Nat) : List Char → Option (Literal × List Char)
  | [] => none
  | c :: rest =>
    match skip with
    | k + 1 => readStringFrom k rest
    | 0 =>
      if c = '"' then some (some [], rest)
      else if c = '\\' then
        match readEscape rest with
        | none => none
        | some (meaning, length) => (readStringFrom length rest).map (prepend meaning)
      else if c.toNat < 0x20 then none
      else (readStringFrom 0 rest).map (prepend (some c))

/-- Read a string literal from behind its opening quote. -/
def readString (text : List Char) : Option (Literal × List Char) := readStringFrom 0 text

/-! ## Numerals -/

/-- A numeral as written. -/
structure Numeral where
  negative : Bool
  whole : List Char
  fraction : Option (List Char)
  exponent : Option Int
  deriving DecidableEq, Repr

/-- Whether a character is a digit of ASCII. -/
def isDigit (c : Char) : Bool := (Text.digit? c).isSome

/-- Read one digit or more. -/
def readDigits (text : List Char) : Option (List Char × List Char) :=
  let digits := text.takeWhile isDigit
  if digits.isEmpty then none else some (digits, text.dropWhile isDigit)

/-- Read the fraction, where a point stands. -/
def readFraction (text : List Char) : Option (Option (List Char) × List Char) :=
  match text with
  | '.' :: rest => (readDigits rest).map fun read => (some read.1, read.2)
  | _ => some (none, text)

/-- Read the digits of an exponent, behind its mark and sign. -/
def readPower (negative : Bool) (text : List Char) : Option (Option Int × List Char) :=
  (readDigits text).map fun read =>
    let power : Int := (Text.numeral? read.1).getD 0
    (some (if negative then -power else power), read.2)

/-- Read the exponent, where a mark stands. -/
def readExponent (text : List Char) : Option (Option Int × List Char) :=
  match text with
  | mark :: rest =>
    if mark = 'e' ∨ mark = 'E' then
      match rest with
      | '+' :: digits => readPower false digits
      | '-' :: digits => readPower true digits
      | _ => readPower false rest
    else some (none, text)
  | [] => some (none, text)

/-- Read a numeral. A zero that leads stands alone before the point. -/
def readNumeral (text : List Char) : Option (Numeral × List Char) := do
  let (negative, unsigned) := match text with
    | '-' :: rest => (true, rest)
    | _ => (false, text)
  let (whole, afterWhole) ← readDigits unsigned
  if whole.head? = some '0' ∧ whole.length ≠ 1 then none
  let (fraction, afterFraction) ← readFraction afterWhole
  let (exponent, rest) ← readExponent afterFraction
  some (⟨negative, whole, fraction, exponent⟩, rest)

/-- The number that a numeral denotes. Without point and exponent it is whole as long as it fits in
sixty-four bits, except that minus zero, like everything else, is a float. -/
def Numeral.number (numeral : Numeral) : Number :=
  let size := (Text.numeral? numeral.whole).getD 0
  let float := Number.float (Decimal.floatOfDigits numeral.negative numeral.whole
    (numeral.fraction.getD []) (numeral.exponent.getD 0))
  if numeral.fraction.isSome || numeral.exponent.isSome then float
  else if numeral.negative then
    if 0 < size ∧ size ≤ UInt64.size / 2 then .integer (-(size : Int)) else float
  else if size < UInt64.size then .integer size
  else float

/-! ## Values -/

mutual

/-- Read a value; `fuel` bounds the number of nested steps. -/
def readValue : Nat → List Char → Option (Value × List Char)
  | 0, _ => none
  | fuel + 1, text =>
    match skipSpace text with
    | 'n' :: 'u' :: 'l' :: 'l' :: rest => some (.null, rest)
    | 't' :: 'r' :: 'u' :: 'e' :: rest => some (.bool true, rest)
    | 'f' :: 'a' :: 'l' :: 's' :: 'e' :: rest => some (.bool false, rest)
    | '"' :: rest =>
      (readString rest).map fun read =>
        ((read.1.map fun chars => Value.string (String.ofList chars)).getD .garbled, read.2)
    | '[' :: rest =>
      match skipSpace rest with
      | ']' :: after => some (.array [], after)
      | first => (readElements fuel first).map fun read => (.array read.1, read.2)
    | '{' :: rest =>
      match skipSpace rest with
      | '}' :: after => some (.object [], after)
      | first => (readMembers fuel first).map fun read =>
          ((read.1.map Value.object).getD .garbled, read.2)
    | other => (readNumeral other).map fun read => (.number read.1.number, read.2)

/-- Read one element or more, and the closing bracket. -/
def readElements : Nat → List Char → Option (List Value × List Char)
  | 0, _ => none
  | fuel + 1, text =>
    match readValue fuel text with
    | none => none
    | some (element, rest) =>
      match skipSpace rest with
      | ']' :: after => some ([element], after)
      | ',' :: more => (readElements fuel more).map fun read => (element :: read.1, read.2)
      | _ => none

/-- Read one member or more, and the closing brace. The members are lost where a name is garbled. -/
def readMembers : Nat → List Char → Option (Option (List (String × Value)) × List Char)
  | 0, _ => none
  | fuel + 1, text =>
    match skipSpace text with
    | '"' :: quoted =>
      match readString quoted with
      | none => none
      | some (name, afterName) =>
        match skipSpace afterName with
        | ':' :: afterColon =>
          match readValue fuel afterColon with
          | none => none
          | some (value, rest) =>
            let entry := name.map fun chars => (String.ofList chars, value)
            match skipSpace rest with
            | '}' :: after => some (entry.map fun only => [only], after)
            | ',' :: more =>
              (readMembers fuel more).map fun read =>
                (entry.bind fun first => read.1.map (first :: ·), read.2)
            | _ => none
        | _ => none
    | _ => none

end

/-- The value that a text denotes: one value and blanks around it. Each character is worth at most
two nested steps, which is what the fuel allows. -/
def read? (text : List Char) : Option Value :=
  match readValue (2 * text.length + 2) text with
  | some (value, rest) => if (skipSpace rest).isEmpty then some value else none
  | none => none

end SearchCompiler.Json
