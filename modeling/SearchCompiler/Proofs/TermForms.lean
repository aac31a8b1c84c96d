import SearchCompiler.Text.Blank
import SearchCompiler.Proofs.DateForms
import SearchCompiler.Proofs.EpochTerms
import SearchCompiler.Proofs.Patterns
import SearchCompiler.Proofs.RelativeTerms

/-! The five forms of a date term, as patterns, and the terms that are written in them. Three marks
tell the forms apart: whether an underscore stands in the term, whether a `T` does, and whether the
term begins with `n`. So a term has one form at most, and it means something in no other. A hyphen
stands in a term only as the sign of a count or of the offset that ends a date and time. -/
namespace SearchCompiler.TermForms
open Calendar Calendar.DateTerm Text
open DateForms DateShapes EpochTerms Numerals Patterns RelativeTerms

/-! ## Forms -/

inductive Form where
  | date
  | dateTime
  | epoch
  | now
  | relative
  deriving DecidableEq, Repr

/-- So many decimal digits. -/
def digitsPattern (count : Nat) : Pattern := .times count (.one isDecimal)

def datePattern : Pattern :=
  .sequence [digitsPattern 4, .char '_', digitsPattern 2, .char '_', digitsPattern 2]

def fractionPattern : Pattern :=
  .optional (.sequence [.char '.', .some (.one isDecimal)])

def timePattern : Pattern :=
  .sequence [digitsPattern 2, .char ':', digitsPattern 2, .char ':', digitsPattern 2, fractionPattern]

def zonePattern : Pattern :=
  .optional (.either (.char 'Z') (.sequence [.one fun c => decide (c = '+' ∨ c = '-'),
    digitsPattern 2, .optional (.char ':'), digitsPattern 2]))

/-- What a form looks like, its meaning apart. -/
def Form.pattern : Form → Pattern
  | .date => datePattern
  | .dateTime => .sequence [datePattern, .char 'T', timePattern, zonePattern]
  | .epoch => .sequence [.optional (.char '-'), .some (.one isDecimal)]
  | .now => .word ['n', 'o', 'w']
  | .relative => .sequence [.word ['n', 'o', 'w', '_'],
      .either (.word ['a', 'd', 'd', '_']) (.word ['s', 'u', 'b', '_']), .some (.one isDecimal),
      .one fun c => decide (c = 'd' ∨ c = 'w')]

/-- A term has a form when the whole of it looks so. -/
def Form.Matches (form : Form) (term : List Char) : Prop := form.pattern.Whole term

instance (form : Form) (term : List Char) : Decidable (form.Matches term) :=
  inferInstanceAs (Decidable (form.pattern.Whole term))

/-- What a term means in one form. -/
def Form.read (clock : Instant) (term : List Char) : Form → Except DateFault (Option Instant)
  | .date => .ok (date? term)
  | .dateTime => dateTime? term
  | .epoch => .ok (epoch? term)
  | .now => .ok (now? clock term)
  | .relative => .ok (relative? clock term)

/-- The written terms of a form. -/
inductive Written : Form → List Char → Prop
  | date {shape : DateShape} (isDate : IsDate shape) : Written .date (dateText shape)
  | dateTime {date : DateShape} {time : TimeShape} {zone : ZoneShape} {zoneText : List Char}
      (isDate : IsDate date) (isTime : IsTime time) (isZone : IsZone zone zoneText) :
      Written .dateTime (dateText date ++ 'T' :: (timeText time ++ zoneText))
  | epoch {digits : List Char} (negative : Bool) (decimal : ∀ c ∈ digits, isDecimal c = true)
      (written : digits ≠ []) : Written .epoch (signedText negative digits)
  | now : Written .now ['n', 'o', 'w']
  | relative {digits : List Char} {unit : Char} (forward : Bool)
      (decimal : ∀ c ∈ digits, isDecimal c = true) (written : digits ≠ [])
      (counted : unit = 'd' ∨ unit = 'w') : Written .relative (relativeText forward digits unit)

/-- What stands on the two sides of a hyphen of a term. -/
inductive Hyphened : (front back : List Char) → Prop
  /-- The hyphen is the first character, and a count stands behind it. -/
  | count {digits : List Char} (decimal : ∀ c ∈ digits, isDecimal c = true) (written : digits ≠ []) :
      Hyphened [] digits
  /-- The hyphen is the sign of the offset that ends a date and time. -/
  | offset {date : DateShape} {time : TimeShape} {hour minute : List Char} (colon : Bool)
      (isDate : IsDate date) (isTime : IsTime time) (isHour : IsDigits 2 hour)
      (isMinute : IsDigits 2 minute) :
      Hyphened (dateText date ++ 'T' :: timeText time)
        (hour ++ ((if colon then [':'] else []) ++ minute))

variable {clock : Instant} {form other : Form} {term text rest front back : List Char}

/-! ## Patterns -/

theorem mem_rests_digitsPattern {count : Nat} :
    rest ∈ (digitsPattern count).rests text ↔
      ∃ digits, IsDigits count digits ∧ text = digits ++ rest := by
  rw [digitsPattern, Pattern.mem_rests_times_one]
  constructor
  · rintro ⟨digits, length, decimal, same⟩
    exact ⟨digits, ⟨length, decimal⟩, same⟩
  · rintro ⟨digits, ⟨length, decimal⟩, same⟩
    exact ⟨digits, length, decimal, same⟩

theorem mem_rests_datePattern :
    rest ∈ datePattern.rests text ↔ ∃ shape, IsDate shape ∧ text = dateText shape ++ rest := by
  simp only [datePattern, Pattern.sequence, Pattern.mem_rests_follow, Pattern.mem_rests_char,
    Pattern.mem_rests_nothing, mem_rests_digitsPattern]
  constructor
  · rintro ⟨_, ⟨year, isYear, rfl⟩, _, rfl, _, ⟨month, isMonth, rfl⟩, _, rfl, _, ⟨day, isDay, rfl⟩,
      rfl⟩
    exact ⟨⟨year, month, day⟩, ⟨isYear, isMonth, isDay⟩, by simp [dateText]⟩
  · rintro ⟨⟨year, month, day⟩, ⟨isYear, isMonth, isDay⟩, rfl⟩
    exact ⟨_, ⟨year, isYear, by simp [dateText]⟩, _, rfl, _, ⟨month, isMonth, rfl⟩, _, rfl, _,
      ⟨day, isDay, rfl⟩, rfl⟩

theorem mem_rests_fractionPattern :
    rest ∈ fractionPattern.rests text ↔
      ∃ fraction, (∀ c ∈ fraction, isDecimal c = true) ∧ text = fractionText fraction ++ rest := by
  simp only [fractionPattern, Pattern.mem_rests_optional, Pattern.sequence,
    Pattern.mem_rests_follow, Pattern.mem_rests_char, Pattern.mem_rests_some_one,
    Pattern.mem_rests_nothing]
  constructor
  · rintro (⟨_, rfl, _, ⟨digits, written, decimal, rfl⟩, rfl⟩ | rfl)
    · obtain ⟨c, more, rfl⟩ := List.exists_cons_of_ne_nil written
      exact ⟨c :: more, decimal, rfl⟩
    · exact ⟨[], List.forall_mem_nil _, rfl⟩
  · rintro ⟨fraction, decimal, rfl⟩
    cases fraction with
    | nil => exact .inr rfl
    | cons c more => exact .inl ⟨_, rfl, _, ⟨c :: more, List.cons_ne_nil _ _, decimal, rfl⟩, rfl⟩

theorem mem_rests_timePattern :
    rest ∈ timePattern.rests text ↔ ∃ shape, IsTime shape ∧ text = timeText shape ++ rest := by
  simp only [timePattern, Pattern.sequence, Pattern.mem_rests_follow, Pattern.mem_rests_char,
    Pattern.mem_rests_nothing, mem_rests_digitsPattern, mem_rests_fractionPattern]
  constructor
  · rintro ⟨_, ⟨hour, isHour, rfl⟩, _, rfl, _, ⟨minute, isMinute, rfl⟩, _, rfl, _,
      ⟨second, isSecond, rfl⟩, _, ⟨fraction, decimal, rfl⟩, rfl⟩
    exact ⟨⟨hour, minute, second, fraction⟩, ⟨isHour, isMinute, isSecond, decimal⟩,
      by simp [timeText]⟩
  · rintro ⟨⟨hour, minute, second, fraction⟩, ⟨isHour, isMinute, isSecond, decimal⟩, rfl⟩
    exact ⟨_, ⟨hour, isHour, by simp [timeText]⟩, _, rfl, _, ⟨minute, isMinute, rfl⟩, _, rfl, _,
      ⟨second, isSecond, rfl⟩, _, ⟨fraction, decimal, rfl⟩, rfl⟩

theorem whole_zonePattern_iff : zonePattern.Whole text ↔ ∃ zone, IsZone zone text := by
  simp only [Pattern.Whole, zonePattern, Pattern.mem_rests_optional, Pattern.mem_rests_either,
    Pattern.sequence, Pattern.mem_rests_follow, Pattern.mem_rests_char, Pattern.mem_rests_one,
    Pattern.mem_rests_nothing, mem_rests_digitsPattern, decide_eq_true_eq]
  constructor
  · rintro ((rfl | ⟨_, ⟨sign, signed, rfl⟩, _, ⟨hour, isHour, rfl⟩, _, coloned, _,
      ⟨minute, isMinute, rfl⟩, rfl⟩) | rfl)
    · exact ⟨_, .zulu⟩
    · rw [List.append_nil] at coloned
      rcases coloned with rfl | rfl
      · exact ⟨_, .offset true signed isHour isMinute⟩
      · exact ⟨_, .offset false signed isHour isMinute⟩
    · exact ⟨_, .absent⟩
  · rintro ⟨zone, isZone⟩
    cases isZone with
    | absent => exact .inr rfl
    | zulu => exact .inl (.inl rfl)
    | @offset sign hour minute colon signed isHour isMinute =>
      refine .inl (.inr ⟨_, ⟨sign, signed, rfl⟩, _, ⟨hour, isHour, rfl⟩, minute, ?_, [],
        ⟨minute, isMinute, (List.append_nil minute).symm⟩, rfl⟩)
      cases colon with
      | true => exact .inl rfl
      | false => exact .inr rfl

/-- A form looks like its written terms, and like nothing else. -/
theorem matches_iff : form.Matches term ↔ Written form term := by
  rw [Form.Matches, Pattern.Whole]
  cases form with
  | date =>
    rw [Form.pattern, mem_rests_datePattern]
    constructor
    · rintro ⟨shape, isDate, rfl⟩
      rw [List.append_nil]
      exact .date isDate
    · intro isWritten
      cases isWritten with
      | date isDate => exact ⟨_, isDate, (List.append_nil _).symm⟩
  | dateTime =>
    simp only [Form.pattern, Pattern.sequence, Pattern.mem_rests_follow, mem_rests_datePattern,
      Pattern.mem_rests_char, mem_rests_timePattern, Pattern.mem_rests_nothing]
    constructor
    · rintro ⟨_, ⟨date, isDate, rfl⟩, _, rfl, zoneText, ⟨time, isTime, rfl⟩, _, whole, rfl⟩
      obtain ⟨zone, isZone⟩ := whole_zonePattern_iff.mp whole
      exact .dateTime isDate isTime isZone
    · intro isWritten
      cases isWritten with
      | dateTime isDate isTime isZone =>
        exact ⟨_, ⟨_, isDate, rfl⟩, _, rfl, _, ⟨_, isTime, rfl⟩, [],
          whole_zonePattern_iff.mpr ⟨_, isZone⟩, rfl⟩
  | epoch =>
    simp only [Form.pattern, Pattern.sequence, Pattern.mem_rests_follow, Pattern.mem_rests_optional,
      Pattern.mem_rests_char, Pattern.mem_rests_some_one, Pattern.mem_rests_nothing]
    constructor
    · rintro ⟨_, signed, _, ⟨digits, written, decimal, rfl⟩, rfl⟩
      rw [List.append_nil] at signed
      rcases signed with rfl | rfl
      · exact .epoch true decimal written
      · exact .epoch false decimal written
    · intro isWritten
      cases isWritten with
      | @epoch digits negative decimal written =>
        refine ⟨digits, ?_, [], ⟨digits, written, decimal, (List.append_nil digits).symm⟩, rfl⟩
        cases negative with
        | true => exact .inl rfl
        | false => exact .inr rfl
  | now =>
    rw [Form.pattern, Pattern.mem_rests_word]
    constructor
    · rintro rfl
      exact .now
    · intro isWritten
      cases isWritten
      rfl
  | relative =>
    simp only [Form.pattern, Pattern.sequence, Pattern.mem_rests_follow, Pattern.mem_rests_word,
      Pattern.mem_rests_either, Pattern.mem_rests_some_one, Pattern.mem_rests_one,
      Pattern.mem_rests_nothing, decide_eq_true_eq]
    constructor
    · rintro ⟨_, rfl, _, moves, _, ⟨digits, written, decimal, rfl⟩, _, ⟨unit, counted, rfl⟩, rfl⟩
      rcases moves with rfl | rfl
      · exact .relative true decimal written counted
      · exact .relative false decimal written counted
    · intro isWritten
      cases isWritten with
      | @relative digits unit forward decimal written counted =>
        refine ⟨_, rfl, digits ++ [unit], ?_, [unit], ⟨digits, written, decimal, rfl⟩, [],
          ⟨unit, counted, rfl⟩, rfl⟩
        cases forward with
        | true => exact .inl rfl
        | false => exact .inr rfl

/-! ## Marks -/

/-- The characters that a form has beside its digits. -/
def Form.letters : Form → List Char
  | .date => ['_']
  | .dateTime => ['_', 'T', ':', '.', 'Z', '+', '-']
  | .epoch => ['-']
  | .now => ['n', 'o', 'w']
  | .relative => ['n', 'o', 'w', '_', 'a', 'd', 's', 'u', 'b']

theorem not_mem_digits {digits : List Char} (decimal : ∀ c ∈ digits, isDecimal c = true) {c : Char}
    (other : isDecimal c = false) : c ∉ digits := by
  intro digit
  rw [decimal c digit] at other
  cases other

theorem mem_dateText {shape : DateShape} (isDate : IsDate shape) {c : Char}
    (member : c ∈ dateText shape) : isDecimal c = true ∨ c = '_' := by
  simp only [dateText, List.mem_append, List.mem_cons] at member
  rcases member with year | rfl | month | rfl | day
  · exact .inl (isDate.year.decimal c year)
  · exact .inr rfl
  · exact .inl (isDate.month.decimal c month)
  · exact .inr rfl
  · exact .inl (isDate.day.decimal c day)

theorem mem_timeText {shape : TimeShape} (isTime : IsTime shape) {c : Char}
    (member : c ∈ timeText shape) : isDecimal c = true ∨ c = ':' ∨ c = '.' := by
  simp only [timeText, List.mem_append, List.mem_cons] at member
  rcases member with hour | rfl | minute | rfl | second | fraction
  · exact .inl (isTime.hour.decimal c hour)
  · exact .inr (.inl rfl)
  · exact .inl (isTime.minute.decimal c minute)
  · exact .inr (.inl rfl)
  · exact .inl (isTime.second.decimal c second)
  · have decimal := isTime.fraction
    cases digits : shape.fraction with
    | nil =>
      rw [digits] at fraction
      cases fraction
    | cons d more =>
      rw [digits] at fraction decimal
      rcases List.mem_cons.mp fraction with rfl | digit
      · exact .inr (.inr rfl)
      · exact .inl (decimal c digit)

/-- Behind the sign of an offset stand digits, and a colon perhaps. -/
theorem mem_offset {hour minute : List Char} {colon : Bool} (isHour : IsDigits 2 hour)
    (isMinute : IsDigits 2 minute) {c : Char}
    (member : c ∈ hour ++ ((if colon then [':'] else []) ++ minute)) :
    isDecimal c = true ∨ c = ':' := by
  rw [List.mem_append, List.mem_append] at member
  rcases member with digit | divider | digit
  · exact .inl (isHour.decimal c digit)
  · split at divider
    · exact .inr (List.mem_singleton.mp divider)
    · cases divider
  · exact .inl (isMinute.decimal c digit)

theorem mem_zoneText {zone : ZoneShape} (isZone : IsZone zone text) {c : Char} (member : c ∈ text) :
    isDecimal c = true ∨ c ∈ ['Z', '+', '-', ':'] := by
  cases isZone with
  | absent => cases member
  | zulu => exact .inr (by simp [List.mem_singleton.mp member])
  | offset colon signed isHour isMinute =>
    rcases List.mem_cons.mp member with rfl | behind
    · rcases signed with rfl | rfl
      · exact .inr (by decide)
      · exact .inr (by decide)
    · exact (mem_offset isHour isMinute behind).imp_right fun same => by simp [same]

/-- A term is made of digits and of the other characters of its form. -/
theorem Written.mem (isWritten : Written form term) {c : Char} (member : c ∈ term) :
    isDecimal c = true ∨ c ∈ form.letters := by
  cases isWritten with
  | date isDate =>
    exact (mem_dateText isDate member).imp_right fun same => by simp [same, Form.letters]
  | dateTime isDate isTime isZone =>
    rw [List.mem_append, List.mem_cons, List.mem_append] at member
    rcases member with inDate | rfl | inTime | inZone
    · exact (mem_dateText isDate inDate).imp_right fun same => by simp [same, Form.letters]
    · exact .inr (by decide)
    · refine (mem_timeText isTime inTime).imp_right fun same => ?_
      rcases same with rfl | rfl
      · decide
      · decide
    · refine (mem_zoneText isZone inZone).imp_right fun inLetters => ?_
      simp only [Form.letters, List.mem_cons] at inLetters ⊢
      tauto
  | epoch negative decimal =>
    unfold signedText at member
    split at member
    · rcases List.mem_cons.mp member with rfl | digit
      · exact .inr (by decide)
      · exact .inl (decimal c digit)
    · exact .inl (decimal c member)
  | now => exact .inr member
  | relative forward decimal written counted =>
    have ofNow : ∀ c ∈ ['n', 'o', 'w', '_'], c ∈ Form.relative.letters := by
      simp [Form.letters]
    have ofAdd : ∀ c ∈ ['a', 'd', 'd', '_'], c ∈ Form.relative.letters := by
      simp [Form.letters]
    have ofSub : ∀ c ∈ ['s', 'u', 'b', '_'], c ∈ Form.relative.letters := by
      simp [Form.letters]
    rw [relativeText, List.mem_append, List.mem_append, List.mem_append, List.mem_singleton] at member
    rcases member with inNow | inMove | digit | rfl
    · exact .inr (ofNow c inNow)
    · split at inMove
      · exact .inr (ofAdd c inMove)
      · exact .inr (ofSub c inMove)
    · exact .inl (decimal c digit)
    · rcases counted with rfl | rfl
      · exact .inr (by decide)
      · exact .inr (by decide)

theorem Written.mem_letters (isWritten : Written form term) {c : Char}
    (other : isDecimal c = false) (member : c ∈ term) : c ∈ form.letters := by
  rcases isWritten.mem member with decimal | letter
  · rw [other] at decimal
    cases decimal
  · exact letter

theorem Written.parted_iff (isWritten : Written form term) :
    '_' ∈ term ↔ form = .date ∨ form = .dateTime ∨ form = .relative := by
  constructor
  · intro member
    have letter := isWritten.mem_letters (by decide) member
    revert letter
    cases form <;> decide
  · intro parted
    cases isWritten with
    | date => simp [dateText]
    | dateTime => simp [dateText]
    | relative => simp [relativeText]
    | epoch => simp at parted
    | now => simp at parted

theorem Written.timed_iff (isWritten : Written form term) : 'T' ∈ term ↔ form = .dateTime := by
  constructor
  · intro member
    have letter := isWritten.mem_letters (by decide) member
    revert letter
    cases form <;> decide
  · rintro rfl
    cases isWritten
    simp

theorem Written.named_iff (isWritten : Written form term) :
    term.head? = some 'n' ↔ form = .now ∨ form = .relative := by
  constructor
  · intro begins
    have letter := isWritten.mem_letters (by decide) (List.mem_of_mem_head? begins)
    revert letter
    cases form <;> decide
  · intro named
    cases isWritten with
    | now => rfl
    | relative => rfl
    | date => simp at named
    | dateTime => simp at named
    | epoch => simp at named

/-- A term has one form at most. -/
theorem Written.unique (isWritten : Written form term) (also : Written other term) :
    form = other := by
  have parted := isWritten.parted_iff.symm.trans also.parted_iff
  have timed := isWritten.timed_iff.symm.trans also.timed_iff
  have named := isWritten.named_iff.symm.trans also.named_iff
  revert parted timed named
  cases form <;> cases other <;> decide

/-! ## Blanks and hyphens -/

/-- No digit is white space. -/
theorem isBlank_of_isDecimal {c : Char} (decimal : isDecimal c = true) : isBlank c = false := by
  have apart : (decimalZeros.all fun first => blankRanges.all fun range =>
      decide (first + 10 ≤ range.1) || decide (range.2 < first)) = true := rfl
  simp only [List.all_eq_true, Bool.or_eq_true, decide_eq_true_eq] at apart
  simp only [isDecimal, List.any_eq_true, Bool.and_eq_true, decide_eq_true_eq] at decimal
  obtain ⟨first, isZero, low, high⟩ := decimal
  refine List.any_eq_false.mpr fun range isRange within => ?_
  simp only [Bool.and_eq_true, decide_eq_true_eq] at within
  have disjoint := apart first isZero range isRange
  omega

theorem Written.plain (isWritten : Written form term) {c : Char} (member : c ∈ term) :
    isBlank c = false ∧ c ≠ '"' ∧ c ≠ ',' := by
  rcases isWritten.mem member with decimal | letter
  · refine ⟨isBlank_of_isDecimal decimal, ?_, ?_⟩
    · rintro rfl
      exact absurd decimal (by decide)
    · rintro rfl
      exact absurd decimal (by decide)
  · have plain : (form.letters.all fun c => !isBlank c && c != '"' && c != ',') = true := by
      cases form <;> decide
    simpa [and_assoc] using List.all_eq_true.mp plain c letter

/-- No hyphen stands before the zone of a date and time. -/
theorem unhyphened {date : DateShape} {time : TimeShape} (isDate : IsDate date)
    (isTime : IsTime time) :
    '-' ∉ dateText date ++ 'T' :: timeText time := by
  rw [List.mem_append, List.mem_cons]
  rintro (inDate | same | inTime)
  · rcases mem_dateText isDate inDate with decimal | same
    · exact absurd decimal (by decide)
    · exact absurd same (by decide)
  · exact absurd same (by decide)
  · rcases mem_timeText isTime inTime with decimal | same | same
    · exact absurd decimal (by decide)
    · exact absurd same (by decide)
    · exact absurd same (by decide)

/-- A hyphen in a term is the sign of a count or of an offset. -/
theorem Written.hyphened (isWritten : Written form term) (divided : term = front ++ '-' :: back) :
    Hyphened front back := by
  have member : '-' ∈ term := by simp [divided]
  have undecimal : isDecimal '-' = false := by decide
  cases isWritten with
  | date isDate =>
    exact absurd ((Written.date isDate).mem_letters undecimal member) (by decide)
  | now => exact absurd (Written.now.mem_letters undecimal member) (by decide)
  | relative forward decimal written counted =>
    exact absurd ((Written.relative forward decimal written counted).mem_letters undecimal member)
      (by decide)
  | @epoch digits negative decimal written =>
    cases negative with
    | false => exact absurd member (not_mem_digits decimal undecimal)
    | true =>
      obtain ⟨rfl, _, rfl⟩ :=
        (List.append_cons_inj_of_notMem List.not_mem_nil
          (not_mem_digits decimal undecimal)).mp divided
      exact .count decimal written
  | @dateTime date time zone zoneText isDate isTime isZone =>
    have beforeZone := unhyphened isDate isTime
    rw [← List.cons_append, ← List.append_assoc] at divided member
    cases isZone with
    | absent =>
      rw [List.append_nil] at member
      exact absurd member beforeZone
    | zulu =>
      rcases List.mem_append.mp member with early | late
      · exact absurd early beforeZone
      · exact absurd late (by decide)
    | @offset sign hour minute colon signed isHour isMinute =>
      have unsigned : '-' ∉ hour ++ ((if colon then [':'] else []) ++ minute) := by
        intro inOffset
        rcases mem_offset isHour isMinute inOffset with decimal | same
        · exact absurd decimal (by decide)
        · exact absurd same (by decide)
      obtain ⟨rfl, _, rfl⟩ := (List.append_cons_inj_of_notMem beforeZone unsigned).mp divided
      exact .offset colon isDate isTime isHour isMinute

/-- A date and time stands before the hyphen, or nothing at all. -/
theorem Hyphened.before (hyphened : Hyphened front back) :
    front = [] ∨ '_' ∈ front ∧ 'T' ∈ front := by
  cases hyphened with
  | count => exact .inl rfl
  | offset => exact .inr (by simp [dateText])

theorem Hyphened.behind (hyphened : Hyphened front back) :
    back ≠ [] ∧ ∀ c ∈ back, isDecimal c = true ∨ c = ':' := by
  cases hyphened with
  | count decimal written => exact ⟨written, fun c member => .inl (decimal c member)⟩
  | offset colon isDate isTime isHour isMinute =>
    refine ⟨fun empty => ?_, fun c member => mem_offset isHour isMinute member⟩
    have length := isHour.length
    rw [(List.append_eq_nil_iff.mp empty).1] at length
    cases length

/-- What stands between two hyphens is not what stands behind one and before another. -/
theorem Hyphened.alone {middle : List Char} (hyphened : Hyphened front middle) :
    ¬ Hyphened middle back := by
  intro again
  obtain ⟨nonempty, plain⟩ := hyphened.behind
  rcases again.before with empty | ⟨_, timed⟩
  · exact nonempty empty
  · rcases plain 'T' timed with decimal | same
    · exact absurd decimal (by decide)
    · exact absurd same (by decide)

/-! ## Meanings -/

theorem decimal_of_numeral? {digits : List Char} {value : Nat} (read : numeral? digits = some value) :
    ∀ c ∈ digits, isDecimal c = true :=
  (isDigits_of_isNumeral (numeral?_eq_some_iff.mp read).1 rfl).decimal

theorem written_of_date? (read : (date? term).isSome = true) : Written .date term := by
  obtain ⟨instant, read⟩ := Option.isSome_iff_exists.mp read
  simp only [date?, Option.bind_eq_bind, Option.bind_eq_some_iff, Prod.exists] at read
  obtain ⟨shape, rest, shaped, read⟩ := read
  split at read
  · next ends =>
    cases List.isEmpty_iff.mp ends
    obtain ⟨isDate, rfl⟩ := dateShape?_eq_some_iff.mp shaped
    rw [List.append_nil]
    exact .date isDate
  · cases read

theorem written_of_dateTime? (read : dateTime? term ≠ .ok none) : Written .dateTime term := by
  unfold dateTime? at read
  split at read
  · exact absurd rfl read
  · next shaped =>
    obtain ⟨isDate, isTime, _, isZone, rfl⟩ := dateTimeShape?_eq_some_iff.mp shaped
    exact .dateTime isDate isTime isZone

theorem written_of_epoch? (read : (epoch? term).isSome = true) : Written .epoch term := by
  obtain ⟨instant, read⟩ := Option.isSome_iff_exists.mp read
  have counted {digits : List Char} {goesOn : Nat → Option Instant} (negative : Bool)
      (written : digits ≠ []) (read : (numeral? digits).bind goesOn = some instant) :
      Written .epoch (signedText negative digits) := by
    obtain ⟨value, numbered, _⟩ := Option.bind_eq_some_iff.mp read
    exact .epoch negative (decimal_of_numeral? numbered) written
  by_cases minus : term.head? = some '-'
  · obtain ⟨digits, rfl⟩ := List.head?_eq_some_iff.mp minus
    cases digits with
    | nil => cases read
    | cons c rest => exact counted true (List.cons_ne_nil c rest) read
  · have unsigned : ∀ digits, term ≠ '-' :: digits := by
      rintro digits rfl
      exact minus rfl
    cases term with
    | nil => cases read
    | cons c rest =>
      -- the sign is looked for in a match, which `unsigned` decides
      simp only [epoch?] at read
      exact counted false (List.cons_ne_nil c rest) read

theorem written_of_days? {forward : Bool} {amount : List Char}
    (read : (days? forward amount).isSome = true) :
    ∃ digits unit, digits ≠ [] ∧ (∀ c ∈ digits, isDecimal c = true) ∧ (unit = 'd' ∨ unit = 'w') ∧
      amount = digits ++ [unit] := by
  obtain ⟨days, read⟩ := Option.isSome_iff_exists.mp read
  simp only [days?, Option.bind_eq_bind, Option.bind_eq_some_iff] at read
  obtain ⟨unit, last, unitDays, named, read⟩ := read
  split at read
  · cases read
  · next written =>
    obtain ⟨value, numbered, _⟩ := Option.bind_eq_some_iff.mp read
    obtain ⟨digits, rfl⟩ := List.getLast?_eq_some_iff.mp last
    rw [List.dropLast_concat] at written numbered
    refine ⟨digits, unit, by simpa using written, decimal_of_numeral? numbered, ?_, rfl⟩
    unfold daysInUnit? at named
    split at named
    · next day => exact .inl day
    · split at named
      · next week => exact .inr week
      · cases named

theorem written_of_relative? (read : (relative? clock term).isSome = true) :
    Written .relative term := by
  obtain ⟨instant, read⟩ := Option.isSome_iff_exists.mp read
  obtain ⟨rest, named, read⟩ := Option.bind_eq_some_iff.mp read
  rw [stripStart_eq_some_iff.mp named]
  dsimp only at read
  split at read
  · next amount forward =>
    obtain ⟨days, moves, _⟩ := Option.bind_eq_some_iff.mp read
    rw [stripStart_eq_some_iff.mp forward]
    obtain ⟨digits, unit, written, decimal, counted, rfl⟩ :=
      written_of_days? (Option.isSome_of_eq_some moves)
    exact .relative true decimal written counted
  · obtain ⟨days, moves, _⟩ := Option.bind_eq_some_iff.mp read
    obtain ⟨amount, back, moves⟩ := Option.bind_eq_some_iff.mp moves
    rw [stripStart_eq_some_iff.mp back]
    obtain ⟨digits, unit, written, decimal, counted, rfl⟩ :=
      written_of_days? (Option.isSome_of_eq_some moves)
    exact .relative false decimal written counted

/-- A form in which a term means something, or is refused, is a form of the term. -/
theorem written_of_read (read : form.read clock term ≠ .ok none) : Written form term := by
  have found {reading : Option Instant}
      (read : (Except.ok reading : Except DateFault (Option Instant)) ≠ .ok none) :
      reading.isSome = true :=
    Option.isSome_iff_ne_none.mpr fun unread => read (congrArg Except.ok unread)
  cases form with
  | date => exact written_of_date? (found read)
  | dateTime => exact written_of_dateTime? read
  | epoch => exact written_of_epoch? (found read)
  | now =>
    have named : term = ['n', 'o', 'w'] := by
      by_contra other
      exact read (congrArg Except.ok (if_neg other))
    rw [named]
    exact .now
  | relative => exact written_of_relative? (found read)

end SearchCompiler.TermForms
