import SearchCompiler.Json.Reader

/-! The texts that JSON allows for a value, told by rules and not by a reader: any blanks between
tokens, any of the escapes for a character, any spelling of a number. The strict reader reads every
one of them as the value it spells, and no text spells two values. Values that no text can show,
because half of a surrogate pair stands in them, are not spelled at all. -/
namespace SearchCompiler.JsonGrammar
open Json

/-! ## Blanks -/

/-- Nothing but the four blanks of JSON. -/
def Blanks (text : List Char) : Prop := ∀ c ∈ text, c ∈ [' ', '\x09', '\x0a', '\x0d']

theorem Blanks.nil : Blanks [] := fun _ absent => absurd absent List.not_mem_nil

theorem isSpace_of_mem {c : Char} (blank : c ∈ [' ', '\x09', '\x0a', '\x0d']) :
    isSpace c = true := by
  simp only [List.mem_cons, List.not_mem_nil, or_false] at blank
  rcases blank with rfl | rfl | rfl | rfl <;> rfl

theorem skipSpace_blanks {before : List Char} (blanks : Blanks before) (text : List Char) :
    skipSpace (before ++ text) = skipSpace text :=
  List.dropWhile_append_of_pos fun c member => isSpace_of_mem (blanks c member)

theorem skipSpace_token {c : Char} (shown : isSpace c = false) (text : List Char) :
    skipSpace (c :: text) = c :: text :=
  List.dropWhile_cons_of_neg (by simp [shown])

/-- Skipping a second time finds nothing more. -/
theorem skipSpace_skipSpace (text : List Char) : skipSpace (skipSpace text) = skipSpace text := by
  unfold skipSpace
  induction text with
  | nil => rfl
  | cons c rest ih =>
    by_cases blank : isSpace c = true
    · rw [List.dropWhile_cons_of_pos blank]
      exact ih
    · rw [List.dropWhile_cons_of_neg blank, List.dropWhile_cons_of_neg blank]

/-! ## Strings -/

/-- The letters behind a backslash, and what they stand for. -/
def shortEscapes : List (Char × Char) :=
  [('"', '"'), ('\\', '\\'), ('/', '/'), ('b', '\x08'), ('f', '\x0c'), ('n', '\x0a'),
    ('r', '\x0d'), ('t', '\x09')]

/-- A hexadecimal digit of either case. -/
def HexDigit (c : Char) (value : Nat) : Prop :=
  value < 16 ∧ (c = Nat.digitChar value ∨ c = (Nat.digitChar value).toUpper)

/-- Four hexadecimal digits. -/
def HexCode (digits : List Char) (code : Nat) : Prop :=
  ∃ a b c d w x y z, digits = [a, b, c, d] ∧ HexDigit a w ∧ HexDigit b x ∧ HexDigit c y ∧
    HexDigit d z ∧ code = ((w * 16 + x) * 16 + y) * 16 + z

/-- How one character may stand in a string literal: as it is, behind a backslash, by its code or,
beyond sixteen bits, by the codes of its two halves. -/
inductive SpellsChar : Char → List Char → Prop
  | plain {c : Char} (quote : c ≠ '"') (backslash : c ≠ '\\') (printed : 0x20 ≤ c.toNat) :
    SpellsChar c [c]
  | short {letter c : Char} (known : (letter, c) ∈ shortEscapes) : SpellsChar c ['\\', letter]
  | code {c : Char} {digits : List Char} (written : HexCode digits c.toNat) :
    SpellsChar c ('\\' :: 'u' :: digits)
  | halves {c : Char} {high low : List Char} (wide : 0x10000 ≤ c.toNat)
    (first : HexCode high (0xD800 + (c.toNat - 0x10000) / 0x400))
    (second : HexCode low (0xDC00 + (c.toNat - 0x10000) % 0x400)) :
    SpellsChar c ('\\' :: 'u' :: high ++ '\\' :: 'u' :: low)

/-- The texts between the quotes of a literal. -/
inductive SpellsChars : List Char → List Char → Prop
  | nil : SpellsChars [] []
  | cons {c : Char} {piece chars text : List Char} (first : SpellsChar c piece)
    (rest : SpellsChars chars text) : SpellsChars (c :: chars) (piece ++ text)

/-- The literals of a string. -/
def SpellsString (chars text : List Char) : Prop :=
  ∃ content, SpellsChars chars content ∧ text = '"' :: content ++ ['"']

/-! ## Numbers -/

/-- One digit or more. -/
def Digits (text : List Char) : Prop := text ≠ [] ∧ ∀ c ∈ text, isDigit c = true

/-- The whole part of a number: a zero that leads stands alone. -/
def Whole (text : List Char) : Prop := Digits text ∧ (text.head? = some '0' → text.length = 1)

/-- The number that the digits of an exponent write. -/
def power (digits : List Char) : Int := (Text.numeral? digits).getD 0

inductive SpellsFraction : Option (List Char) → List Char → Prop
  | absent : SpellsFraction none []
  | digits {text : List Char} (run : Digits text) : SpellsFraction (some text) ('.' :: text)

inductive SpellsExponent : Option Int → List Char → Prop
  | absent : SpellsExponent none []
  | unsigned {mark : Char} {text : List Char} (marked : mark = 'e' ∨ mark = 'E')
    (run : Digits text) : SpellsExponent (some (power text)) (mark :: text)
  | plus {mark : Char} {text : List Char} (marked : mark = 'e' ∨ mark = 'E')
    (run : Digits text) : SpellsExponent (some (power text)) (mark :: '+' :: text)
  | minus {mark : Char} {text : List Char} (marked : mark = 'e' ∨ mark = 'E')
    (run : Digits text) : SpellsExponent (some (-power text)) (mark :: '-' :: text)

/-- The text of a numeral. -/
inductive SpellsNumeral : Numeral → List Char → Prop
  | mk {negative : Bool} {whole fraction exponent : List Char} {decimals : Option (List Char)}
    {shift : Option Int} (leads : Whole whole) (point : SpellsFraction decimals fraction)
    (scale : SpellsExponent shift exponent) :
    SpellsNumeral ⟨negative, whole, decimals, shift⟩
      ((if negative then ['-'] else []) ++ whole ++ fraction ++ exponent)

/-! ## Values -/

mutual

/-- The texts of a value, from its first character to its last. -/
inductive Spells : Value → List Char → Prop
  | null : Spells .null ['n', 'u', 'l', 'l']
  | true : Spells (.bool true) ['t', 'r', 'u', 'e']
  | false : Spells (.bool false) ['f', 'a', 'l', 's', 'e']
  | number {numeral : Numeral} {text : List Char} (written : SpellsNumeral numeral text) :
    Spells (.number numeral.number) text
  | string {chars text : List Char} (quoted : SpellsString chars text) :
    Spells (.string (String.ofList chars)) text
  | emptyArray {inside : List Char} (blanks : Blanks inside) :
    Spells (.array []) ('[' :: inside ++ [']'])
  | array {elements : List Value} {text : List Char} (inside : SpellsElements elements text) :
    Spells (.array elements) ('[' :: text ++ [']'])
  | emptyObject {inside : List Char} (blanks : Blanks inside) :
    Spells (.object []) ('{' :: inside ++ ['}'])
  | object {members : List (String × Value)} {text : List Char}
    (inside : SpellsMembers members text) : Spells (.object members) ('{' :: text ++ ['}'])

/-- The texts of one element or more, between the brackets. -/
inductive SpellsElements : List Value → List Char → Prop
  | last {element : Value} {before text after : List Char} (lead : Blanks before)
    (written : Spells element text) (trail : Blanks after) :
    SpellsElements [element] (before ++ text ++ after)
  | more {element : Value} {rest : List Value} {before text after others : List Char}
    (lead : Blanks before) (written : Spells element text) (trail : Blanks after)
    (continues : SpellsElements rest others) :
    SpellsElements (element :: rest) (before ++ text ++ after ++ ',' :: others)

/-- The texts of one member or more, between the braces. -/
inductive SpellsMembers : List (String × Value) → List Char → Prop
  | last {name : List Char} {value : Value} {before key gap space text after : List Char}
    (lead : Blanks before) (named : SpellsString name key) (gapped : Blanks gap)
    (spaced : Blanks space) (written : Spells value text) (trail : Blanks after) :
    SpellsMembers [(String.ofList name, value)]
      (before ++ key ++ gap ++ ':' :: (space ++ text ++ after))
  | more {name : List Char} {value : Value} {rest : List (String × Value)}
    {before key gap space text after others : List Char}
    (lead : Blanks before) (named : SpellsString name key) (gapped : Blanks gap)
    (spaced : Blanks space) (written : Spells value text) (trail : Blanks after)
    (continues : SpellsMembers rest others) :
    SpellsMembers ((String.ofList name, value) :: rest)
      (before ++ key ++ gap ++ ':' :: (space ++ text ++ after ++ ',' :: others))

end

/-- The texts that hold one value, and blanks around it. -/
def SpellsText (value : Value) (text : List Char) : Prop :=
  ∃ before inside after, Blanks before ∧ Spells value inside ∧ Blanks after ∧
    text = before ++ inside ++ after

/-! ## Reading strings -/

theorem hexDigit?_of_hexDigit {c : Char} {value : Nat} (digit : HexDigit c value) :
    hexDigit? c = some value := by
  have lower : ∀ value < 16, hexDigit? (Nat.digitChar value) = some value := by decide
  have upper : ∀ value < 16, hexDigit? (Nat.digitChar value).toUpper = some value := by decide
  obtain ⟨small, rfl | rfl⟩ := digit
  · exact lower value small
  · exact upper value small

theorem hexCode?_of_hexCode {digits : List Char} {code : Nat} (written : HexCode digits code) :
    ∃ a b c d, digits = [a, b, c, d] ∧ hexCode? a b c d = some code := by
  obtain ⟨a, b, c, d, w, x, y, z, rfl, first, second, third, fourth, rfl⟩ := written
  refine ⟨a, b, c, d, rfl, ?_⟩
  rw [hexCode?, hexDigit?_of_hexDigit first, hexDigit?_of_hexDigit second,
    hexDigit?_of_hexDigit third, hexDigit?_of_hexDigit fourth]

theorem lowHalf?_code {digits : List Char} {code : Nat} (written : HexCode digits code)
    (low : isLowHalf code = true) (rest : List Char) :
    lowHalf? ('\\' :: 'u' :: digits ++ rest) = some code := by
  obtain ⟨a, b, c, d, rfl, read⟩ := hexCode?_of_hexCode written
  change (hexCode? a b c d).filter isLowHalf = some code
  rw [read]
  exact Option.filter_some_pos low

/-- No character is half of a surrogate pair. -/
theorem not_half (c : Char) : isHighHalf c.toNat = false ∧ isLowHalf c.toNat = false := by
  have valid : c.toNat < 0xD800 ∨ 0xDFFF < c.toNat ∧ c.toNat < 0x110000 := c.valid
  simp only [isHighHalf, isLowHalf, Bool.and_eq_false_iff, decide_eq_false_iff_not]
  omega

/-- A character beyond sixteen bits is found again from its two halves. -/
theorem joinHalves_halves {c : Char} (wide : 0x10000 ≤ c.toNat) :
    joinHalves (0xD800 + (c.toNat - 0x10000) / 0x400)
      (0xDC00 + (c.toNat - 0x10000) % 0x400) = c := by
  have sum : 0x10000 + (0xD800 + (c.toNat - 0x10000) / 0x400 - 0xD800) * 0x400 +
      (0xDC00 + (c.toNat - 0x10000) % 0x400 - 0xDC00) = c.toNat := by omega
  rw [joinHalves, sum, Char.ofNat_toNat]

/-- What an escape takes is passed before reading goes on. -/
theorem readStringFrom_skip (passed rest : List Char) :
    readStringFrom passed.length (passed ++ rest) = readStringFrom 0 rest := by
  induction passed with
  | nil => rfl
  | cons c more ih => exact ih

theorem readStringFrom_escape {passed rest : List Char} {c : Char}
    (escaped : readEscape (passed ++ rest) = some (some c, passed.length)) :
    readStringFrom 0 ('\\' :: passed ++ rest) =
      (readStringFrom 0 rest).map (prepend (some c)) := by
  rw [List.cons_append, readStringFrom]
  simp only [escaped, readStringFrom_skip]
  rfl

theorem readStringFrom_char {c : Char} {piece : List Char} (spelled : SpellsChar c piece)
    (rest : List Char) :
    readStringFrom 0 (piece ++ rest) = (readStringFrom 0 rest).map (prepend (some c)) := by
  cases spelled with
  | plain quote backslash printed =>
    change readStringFrom 0 (c :: rest) = _
    rw [readStringFrom]
    simp [quote, backslash, Nat.not_lt.mpr printed]
  | short known =>
    refine readStringFrom_escape ?_
    simp only [shortEscapes, List.mem_cons, Prod.mk.injEq, List.not_mem_nil, or_false] at known
    rcases known with ⟨rfl, rfl⟩ | ⟨rfl, rfl⟩ | ⟨rfl, rfl⟩ | ⟨rfl, rfl⟩ | ⟨rfl, rfl⟩ | ⟨rfl, rfl⟩ |
      ⟨rfl, rfl⟩ | ⟨rfl, rfl⟩ <;> rfl
  | code written =>
    obtain ⟨x, y, z, w, rfl, read⟩ := hexCode?_of_hexCode written
    refine readStringFrom_escape ?_
    change readEscape ('u' :: x :: y :: z :: w :: rest) = _
    simp [readEscape, read, not_half, Char.ofNat_toNat]
  | @halves _ high low wide first second =>
    have narrow : c.toNat < 0x110000 := by
      have valid : c.toNat < 0xD800 ∨ 0xDFFF < c.toNat ∧ c.toNat < 0x110000 := c.valid
      omega
    have isHigh : isHighHalf (0xD800 + (c.toNat - 0x10000) / 0x400) = true := by
      simp only [isHighHalf, Bool.and_eq_true, decide_eq_true_eq]
      omega
    have isLow : isLowHalf (0xDC00 + (c.toNat - 0x10000) % 0x400) = true := by
      simp only [isLowHalf, Bool.and_eq_true, decide_eq_true_eq]
      omega
    have behind := lowHalf?_code second isLow rest
    obtain ⟨x, y, z, w, rfl, read⟩ := hexCode?_of_hexCode first
    obtain ⟨p, q, r, t, rfl, _⟩ := hexCode?_of_hexCode second
    refine readStringFrom_escape ?_
    change readEscape ('u' :: x :: y :: z :: w :: ('\\' :: 'u' :: [p, q, r, t] ++ rest)) = _
    simp only [readEscape, read, isHigh, if_true, behind, joinHalves_halves wide]
    rfl

theorem readStringFrom_chars {chars content : List Char} (spelled : SpellsChars chars content)
    (rest : List Char) :
    readStringFrom 0 (content ++ '"' :: rest) = some (some chars, rest) := by
  induction spelled with
  | nil => rw [List.nil_append, readStringFrom, if_pos rfl]
  | cons first _ ih =>
    rw [List.append_assoc, readStringFrom_char first, ih]
    rfl

/-! ## Reading numbers -/

/-- No digit, point or exponent comes first, so a number does not go on. -/
def NumberEnds (rest : List Char) : Prop :=
  ∀ c ∈ rest.head?, isDigit c = false ∧ c ≠ '.' ∧ c ≠ 'e' ∧ c ≠ 'E'

theorem numberEnds_nil : NumberEnds [] := fun _ absent => by cases absent

theorem readDigits_run {digits rest : List Char} (run : Digits digits)
    (ends : ∀ c ∈ rest.head?, isDigit c = false) :
    readDigits (digits ++ rest) = some (digits, rest) := by
  have taken : rest.takeWhile isDigit = [] := by
    cases rest with
    | nil => rfl
    | cons c more => exact List.takeWhile_cons_of_neg (by simp [ends c rfl])
  have dropped : rest.dropWhile isDigit = rest := by
    cases rest with
    | nil => rfl
    | cons c more => exact List.dropWhile_cons_of_neg (by simp [ends c rfl])
  rw [readDigits, List.takeWhile_append_of_pos run.2, List.dropWhile_append_of_pos run.2, taken,
    dropped, List.append_nil, if_neg (by simp [run.1])]

/-- Digits stop where an exponent begins, or where the number ends. -/
theorem exponent_stops {shift : Option Int} {text rest : List Char}
    (scale : SpellsExponent shift text) (ends : NumberEnds rest) :
    ∀ c ∈ (text ++ rest).head?, isDigit c = false ∧ c ≠ '.' := by
  cases scale with
  | absent => exact fun c first => ⟨(ends c first).1, (ends c first).2.1⟩
  | unsigned marked _ | plus marked _ | minus marked _ =>
    rintro c ⟨⟩
    rcases marked with rfl | rfl <;> exact ⟨rfl, by decide⟩

theorem fraction_stops {decimals : Option (List Char)} {text rest : List Char}
    (point : SpellsFraction decimals text) (stops : ∀ c ∈ rest.head?, isDigit c = false) :
    ∀ c ∈ (text ++ rest).head?, isDigit c = false := by
  cases point with
  | absent => exact stops
  | digits _ =>
    rintro c ⟨⟩
    rfl

theorem readFraction_fraction {decimals : Option (List Char)} {text rest : List Char}
    (point : SpellsFraction decimals text)
    (stops : ∀ c ∈ rest.head?, isDigit c = false ∧ c ≠ '.') :
    readFraction (text ++ rest) = some (decimals, rest) := by
  cases point with
  | absent =>
    rw [List.nil_append]
    unfold readFraction
    split
    · next more => exact absurd rfl (stops '.' rfl).2
    · rfl
  | digits run =>
    rw [List.cons_append, readFraction, readDigits_run run fun c first => (stops c first).1]
    rfl

theorem readPower_run {digits rest : List Char} (negative : Bool) (run : Digits digits)
    (stops : ∀ c ∈ rest.head?, isDigit c = false) :
    readPower negative (digits ++ rest) =
      some (some (if negative then -power digits else power digits), rest) := by
  rw [readPower, readDigits_run run stops]
  rfl

theorem readExponent_exponent {shift : Option Int} {text rest : List Char}
    (scale : SpellsExponent shift text) (ends : NumberEnds rest) :
    readExponent (text ++ rest) = some (shift, rest) := by
  have stops : ∀ c ∈ rest.head?, isDigit c = false := fun c first => (ends c first).1
  cases scale with
  | absent =>
    cases rest with
    | nil => rfl
    | cons c more => exact if_neg (not_or.mpr (ends c rfl).2.2)
  | plus marked run => exact (if_pos marked).trans (readPower_run false run stops)
  | minus marked run => exact (if_pos marked).trans (readPower_run true run stops)
  | unsigned marked run =>
    refine (if_pos marked).trans ?_
    -- A digit is no sign.
    obtain ⟨c, more, rfl⟩ := List.exists_cons_of_ne_nil run.1
    have digit : isDigit c = true := run.2 c List.mem_cons_self
    refine Eq.trans ?_ (readPower_run false run stops)
    split
    · next same => cases same; cases digit
    · next same => cases same; cases digit
    · rfl

theorem readNumeral_numeral {numeral : Numeral} {text rest : List Char}
    (written : SpellsNumeral numeral text) (ends : NumberEnds rest) :
    readNumeral (text ++ rest) = some (numeral, rest) := by
  obtain @⟨negative, whole, fraction, exponent, decimals, shift, leads, point, scale⟩ := written
  have afterFraction := exponent_stops scale ends
  have afterWhole := fraction_stops point fun c first => (afterFraction c first).1
  have wholeRead := readDigits_run leads.1 afterWhole
  cases negative with
  | true =>
    have single : ¬(whole.head? = some '0' ∧ whole.length ≠ 1) := fun led => led.2 (leads.2 led.1)
    simp [readNumeral, wholeRead, single, readFraction_fraction point afterFraction,
      readExponent_exponent scale ends]
  | false =>
    -- A digit is no sign.
    obtain ⟨c, more, rfl⟩ := List.exists_cons_of_ne_nil leads.1.1
    have digit : isDigit c = true := leads.1.2 c List.mem_cons_self
    have unsigned : c ≠ '-' := by
      rintro rfl
      cases digit
    have single : c = '0' → more = [] := fun zero => by simpa [zero] using leads.2
    rw [List.cons_append] at wholeRead
    simpa [readNumeral, unsigned, wholeRead, readFraction_fraction point afterFraction,
      readExponent_exponent scale ends] using single

/-! ## Reading values -/

/-- The first character of a value is no blank and closes nothing. -/
def Opens (text : List Char) : Prop :=
  ∃ c rest, text = c :: rest ∧ isSpace c = false ∧ c ≠ ']' ∧ c ≠ '}'

/-- A number begins with its sign or a digit. -/
theorem numeral_begins {numeral : Numeral} {text : List Char}
    (written : SpellsNumeral numeral text) :
    ∃ c rest, text = c :: rest ∧ (c = '-' ∨ isDigit c = true) := by
  obtain @⟨negative, whole, fraction, exponent, decimals, shift, leads, point, scale⟩ := written
  cases negative with
  | true => exact ⟨'-', _, rfl, .inl rfl⟩
  | false =>
    obtain ⟨c, more, rfl⟩ := List.exists_cons_of_ne_nil leads.1.1
    exact ⟨c, _, rfl, .inr (leads.1.2 c List.mem_cons_self)⟩

/-- What is neither a sign nor a digit begins no number. -/
theorem not_mem_of_begins {c : Char} (begins : c = '-' ∨ isDigit c = true) {others : List Char}
    (plain : (others.all fun other => other != '-' && !isDigit other) = true) : c ∉ others := by
  intro member
  have unlike := List.all_eq_true.mp plain c member
  rcases begins with rfl | digit
  · simp at unlike
  · simp [digit] at unlike

theorem opens_string {chars text : List Char} (quoted : SpellsString chars text) : Opens text := by
  obtain ⟨content, _, rfl⟩ := quoted
  exact ⟨_, _, rfl, rfl, by decide, by decide⟩

theorem opens_of_spells {value : Value} {text : List Char} (spelled : Spells value text) :
    Opens text := by
  cases spelled with
  | null | true | false | emptyArray _ | array _ | emptyObject _ | object _ =>
    exact ⟨_, _, rfl, rfl, by decide, by decide⟩
  | string quoted => exact opens_string quoted
  | number written =>
    obtain ⟨c, rest, rfl, begins⟩ := numeral_begins written
    have apart : c ∉ [' ', '\x09', '\x0a', '\x0d', ']', '}'] := not_mem_of_begins begins rfl
    simp only [List.mem_cons, List.not_mem_nil, or_false, not_or] at apart
    obtain ⟨space, tab, newline, carriage, bracket, brace⟩ := apart
    exact ⟨c, rest, rfl, by simp [isSpace, space, tab, newline, carriage], bracket, brace⟩

/-- Reading skips the blanks in front by itself. -/
theorem readValue_blanks {before : List Char} (blanks : Blanks before) (fuel : Nat)
    (text : List Char) : readValue fuel (before ++ text) = readValue fuel text := by
  cases fuel with
  | zero => rfl
  | succ fuel => unfold readValue; rw [skipSpace_blanks blanks]

theorem readValue_skip (fuel : Nat) (text : List Char) :
    readValue fuel (skipSpace text) = readValue fuel text := by
  cases fuel with
  | zero => rfl
  | succ fuel => unfold readValue; rw [skipSpace_skipSpace]

theorem readElements_skip (fuel : Nat) (text : List Char) :
    readElements fuel (skipSpace text) = readElements fuel text := by
  cases fuel with
  | zero => rfl
  | succ fuel => unfold readElements; rw [readValue_skip]

theorem readMembers_skip (fuel : Nat) (text : List Char) :
    readMembers fuel (skipSpace text) = readMembers fuel text := by
  cases fuel with
  | zero => rfl
  | succ fuel => unfold readMembers; rw [skipSpace_skipSpace]

theorem readValue_numeral {numeral : Numeral} {text rest : List Char}
    (written : SpellsNumeral numeral text) (ends : NumberEnds rest) (fuel : Nat) :
    readValue (fuel + 1) (text ++ rest) = some (.number numeral.number, rest) := by
  have read := readNumeral_numeral written ends
  obtain ⟨c, more, rfl, shown, _, _⟩ := opens_of_spells (.number written)
  obtain ⟨_, _, same, begins⟩ := numeral_begins written
  obtain ⟨rfl, rfl⟩ := List.cons.inj same
  have apart : c ∉ ['n', 't', 'f', '"', '[', '{'] := not_mem_of_begins begins rfl
  simp only [List.mem_cons, List.not_mem_nil, or_false, not_or] at apart
  obtain ⟨null, yes, no, quote, bracket, brace⟩ := apart
  unfold readValue
  rw [List.cons_append] at read ⊢
  rw [skipSpace_token shown]
  split
  · next same => exact absurd (List.cons.inj same).1 null
  · next same => exact absurd (List.cons.inj same).1 yes
  · next same => exact absurd (List.cons.inj same).1 no
  · next same => exact absurd (List.cons.inj same).1 quote
  · next same => exact absurd (List.cons.inj same).1 bracket
  · next same => exact absurd (List.cons.inj same).1 brace
  · rw [read]
    rfl

theorem readValue_string {chars text : List Char} (quoted : SpellsString chars text) (fuel : Nat)
    (rest : List Char) :
    readValue (fuel + 1) (text ++ rest) = some (.string (String.ofList chars), rest) := by
  obtain ⟨content, spelled, rfl⟩ := quoted
  have read : readString (content ++ '"' :: rest) = some (some chars, rest) :=
    readStringFrom_chars spelled rest
  rw [List.cons_append, List.cons_append, List.append_assoc, List.singleton_append]
  unfold readValue
  rw [skipSpace_token rfl]
  change (readString (content ++ '"' :: rest)).map _ = _
  rw [read]
  rfl

theorem readValue_bracket (fuel : Nat) (text : List Char) :
    readValue (fuel + 1) ('[' :: text) =
      match skipSpace text with
      | ']' :: after => some (.array [], after)
      | first => (readElements fuel first).map fun read => (.array read.1, read.2) := by
  unfold readValue
  rw [skipSpace_token rfl]
  rfl

theorem readValue_brace (fuel : Nat) (text : List Char) :
    readValue (fuel + 1) ('{' :: text) =
      match skipSpace text with
      | '}' :: after => some (.object [], after)
      | first => (readMembers fuel first).map fun read =>
          ((read.1.map Value.object).getD .garbled, read.2) := by
  unfold readValue
  rw [skipSpace_token rfl]
  rfl

theorem readValue_array {text : List Char} (opens : Opens (skipSpace text)) (fuel : Nat) :
    readValue (fuel + 1) ('[' :: text) =
      (readElements fuel text).map fun read => (.array read.1, read.2) := by
  obtain ⟨c, rest, first, _, other, _⟩ := opens
  rw [readValue_bracket]
  split
  · next after closed => exact absurd (List.cons.inj (first.symm.trans closed)).1 other
  · rw [readElements_skip]

theorem readValue_object {text : List Char} (opens : Opens (skipSpace text)) (fuel : Nat) :
    readValue (fuel + 1) ('{' :: text) =
      (readMembers fuel text).map fun read =>
        ((read.1.map Value.object).getD .garbled, read.2) := by
  obtain ⟨c, rest, first, _, _, other⟩ := opens
  rw [readValue_brace]
  split
  · next after closed => exact absurd (List.cons.inj (first.symm.trans closed)).1 other
  · rw [readMembers_skip]

/-! ## Every spelling is read -/

/-- Behind a value stand blanks and then a comma, a closing sign or nothing. -/
theorem numberEnds_blanks {after : List Char} (blanks : Blanks after) {rest : List Char}
    (ends : NumberEnds rest) : NumberEnds (after ++ rest) := by
  cases after with
  | nil => exact ends
  | cons c more =>
    rintro _ ⟨⟩
    have blank := blanks c List.mem_cons_self
    simp only [List.mem_cons, List.not_mem_nil, or_false] at blank
    rcases blank with rfl | rfl | rfl | rfl <;> decide

theorem numberEnds_sign (sign : Char) (signs : sign ∈ [',', ']', '}']) (rest : List Char) :
    NumberEnds (sign :: rest) := by
  rintro _ ⟨⟩
  simp only [List.mem_cons, List.not_mem_nil, or_false] at signs
  rcases signs with rfl | rfl | rfl <;> decide

theorem Opens.append {text : List Char} (opens : Opens text) (rest : List Char) :
    Opens (text ++ rest) := by
  obtain ⟨c, more, rfl, first⟩ := opens
  exact ⟨c, more ++ rest, rfl, first⟩

theorem Opens.skipSpace_eq {text : List Char} (opens : Opens text) : skipSpace text = text := by
  obtain ⟨c, more, rfl, shown, _⟩ := opens
  exact skipSpace_token shown more

theorem skipSpace_opens {before text : List Char} (blanks : Blanks before) (opens : Opens text)
    (rest : List Char) : Opens (skipSpace (before ++ (text ++ rest))) := by
  rw [skipSpace_blanks blanks, (opens.append rest).skipSpace_eq]
  exact opens.append rest

theorem elements_open {elements : List Value} {text : List Char}
    (spelled : SpellsElements elements text) (rest : List Char) :
    Opens (skipSpace (text ++ rest)) := by
  cases spelled with
  | last lead written _ | more lead written _ _ =>
    simp only [List.append_assoc]
    exact skipSpace_opens lead (opens_of_spells written) _

theorem members_open {members : List (String × Value)} {text : List Char}
    (spelled : SpellsMembers members text) (rest : List Char) :
    Opens (skipSpace (text ++ rest)) := by
  cases spelled with
  | last lead named _ _ _ _ | more lead named _ _ _ _ _ =>
    simp only [List.append_assoc]
    exact skipSpace_opens lead (opens_string named) _

/-- What the readers do with every text that fits their fuel. -/
structure Reads (fuel : Nat) : Prop where
  value : ∀ {value : Value} {text rest : List Char}, Spells value text → text.length ≤ fuel →
    NumberEnds rest → readValue fuel (text ++ rest) = some (value, rest)
  elements : ∀ {elements : List Value} {text : List Char}, SpellsElements elements text →
    text.length < fuel → ∀ rest, readElements fuel (text ++ ']' :: rest) = some (elements, rest)
  members : ∀ {members : List (String × Value)} {text : List Char}, SpellsMembers members text →
    text.length < fuel → ∀ rest, readMembers fuel (text ++ '}' :: rest) = some (some members, rest)

namespace Reads

variable {fuel : Nat}

theorem value_succ (reads : Reads fuel) {value : Value} {text rest : List Char}
    (spelled : Spells value text) (fits : text.length ≤ fuel + 1) (ends : NumberEnds rest) :
    readValue (fuel + 1) (text ++ rest) = some (value, rest) := by
  cases spelled with
  | null | true | false =>
    unfold readValue
    rw [List.cons_append, skipSpace_token rfl]
    rfl
  | number written => exact readValue_numeral written ends fuel
  | string quoted => exact readValue_string quoted fuel rest
  | emptyArray blanks =>
    rw [List.cons_append, List.cons_append, List.append_assoc, readValue_bracket,
      skipSpace_blanks blanks]
    rfl
  | emptyObject blanks =>
    rw [List.cons_append, List.cons_append, List.append_assoc, readValue_brace,
      skipSpace_blanks blanks]
    rfl
  | @array _ inner inside =>
    have shorter : inner.length < fuel := by simp at fits; omega
    rw [List.cons_append, List.cons_append, List.append_assoc, List.singleton_append,
      readValue_array (elements_open inside _), reads.elements inside shorter]
    rfl
  | @object _ inner inside =>
    have shorter : inner.length < fuel := by simp at fits; omega
    rw [List.cons_append, List.cons_append, List.append_assoc, List.singleton_append,
      readValue_object (members_open inside _), reads.members inside shorter]
    rfl

theorem elements_succ (reads : Reads fuel) {elements : List Value} {text : List Char}
    (spelled : SpellsElements elements text) (fits : text.length < fuel + 1) (rest : List Char) :
    readElements (fuel + 1) (text ++ ']' :: rest) = some (elements, rest) := by
  cases spelled with
  | @last element before inner after lead written trail =>
    have shorter : inner.length ≤ fuel := by simp at fits; omega
    have first := reads.value written shorter
      (numberEnds_blanks trail (numberEnds_sign ']' (by simp) rest))
    rw [readElements, List.append_assoc, List.append_assoc, readValue_blanks lead, first]
    simp only [skipSpace_blanks trail]
    rfl
  | @more element others before inner after text lead written trail continues =>
    have shorter : inner.length ≤ fuel := by simp at fits; omega
    have left : text.length < fuel := by simp at fits; omega
    have first := reads.value written shorter
      (numberEnds_blanks trail (numberEnds_sign ',' (by simp) (text ++ ']' :: rest)))
    rw [readElements]
    simp only [List.append_assoc, List.cons_append, readValue_blanks lead, first,
      skipSpace_blanks trail]
    rw [skipSpace_token rfl]
    simp only [reads.elements continues left, Option.map_some]

/-- One member is read up to the sign behind it. -/
theorem member_succ (reads : Reads fuel) {name : List Char} {value : Value}
    {before key gap space text after : List Char} (lead : Blanks before)
    (named : SpellsString name key) (gapped : Blanks gap) (spaced : Blanks space)
    (written : Spells value text) (trail : Blanks after) (fits : text.length ≤ fuel) (sign : Char)
    (signs : sign ∈ [',', ']', '}']) (rest : List Char) :
    readMembers (fuel + 1)
        (before ++ (key ++ (gap ++ ':' :: (space ++ (text ++ (after ++ sign :: rest)))))) =
      match sign :: rest with
      | '}' :: behind => some (some [(String.ofList name, value)], behind)
      | ',' :: more => (readMembers fuel more).map fun read =>
          (read.1.map ((String.ofList name, value) :: ·), read.2)
      | _ => none := by
  have valueRead : readValue fuel (space ++ (text ++ (after ++ sign :: rest))) = _ :=
    (readValue_blanks spaced fuel _).trans
      (reads.value written fits (numberEnds_blanks trail (numberEnds_sign sign signs rest)))
  have signShown : skipSpace (after ++ sign :: rest) = sign :: rest := by
    rw [skipSpace_blanks trail]
    simp only [List.mem_cons, List.not_mem_nil, or_false] at signs
    rcases signs with rfl | rfl | rfl <;> rfl
  obtain ⟨content, spelled, rfl⟩ := named
  have nameRead : readString (content ++ '"' :: (gap ++ ':' :: (space ++ (text ++ (after ++
      sign :: rest))))) = _ := readStringFrom_chars spelled _
  simp only [List.cons_append, List.append_assoc, List.nil_append]
  rw [readMembers, skipSpace_blanks lead, skipSpace_token rfl]
  simp only [nameRead, skipSpace_blanks gapped]
  rw [skipSpace_token rfl]
  simp only [valueRead, signShown]
  rfl

theorem members_succ (reads : Reads fuel) {members : List (String × Value)} {text : List Char}
    (spelled : SpellsMembers members text) (fits : text.length < fuel + 1) (rest : List Char) :
    readMembers (fuel + 1) (text ++ '}' :: rest) = some (some members, rest) := by
  cases spelled with
  | @last name value before key gap space inner after lead named gapped spaced written trail =>
    have shorter : inner.length ≤ fuel := by simp at fits; omega
    have step := reads.member_succ lead named gapped spaced written trail shorter '}'
      (by simp) rest
    simpa using step
  | @more name value others before key gap space inner after text lead named gapped spaced written
      trail continues =>
    have shorter : inner.length ≤ fuel := by simp at fits; omega
    have left : text.length < fuel := by simp at fits; omega
    have step := reads.member_succ lead named gapped spaced written trail shorter ','
      (by simp) (text ++ '}' :: rest)
    simpa [reads.members continues left] using step

end Reads

theorem reads (fuel : Nat) : Reads fuel := by
  induction fuel with
  | zero =>
    refine ⟨?_, ?_, ?_⟩
    · intro value text rest spelled fits _
      obtain ⟨c, more, rfl, _⟩ := opens_of_spells spelled
      simp at fits
    · intro elements text _ fits
      simp at fits
    · intro members text _ fits
      simp at fits
  | succ fuel ih => exact ⟨ih.value_succ, ih.elements_succ, ih.members_succ⟩

/-- Every text that spells a value is read as that value. -/
theorem read?_of_spellsText {value : Value} {text : List Char} (spelled : SpellsText value text) :
    read? text = some value := by
  obtain ⟨before, inside, after, lead, written, trail, rfl⟩ := spelled
  have fits : inside.length ≤ 2 * (before ++ inside ++ after).length + 2 := by simp; omega
  have closes : NumberEnds after := by
    have alone := numberEnds_blanks trail numberEnds_nil
    rwa [List.append_nil] at alone
  have nothing : skipSpace after = [] := by
    have alone := skipSpace_blanks trail []
    rwa [List.append_nil] at alone
  rw [read?, List.append_assoc, readValue_blanks lead, ← List.append_assoc,
    (reads _).value written fits closes]
  simp [nothing]

/-- No text spells two values. -/
theorem spellsText_unique {first second : Value} {text : List Char}
    (spelled : SpellsText first text) (other : SpellsText second text) : first = second :=
  Option.some.inj ((read?_of_spellsText spelled).symm.trans (read?_of_spellsText other))

end SearchCompiler.JsonGrammar
