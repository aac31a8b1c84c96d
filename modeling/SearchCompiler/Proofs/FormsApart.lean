import SearchCompiler.Query.Tokenize
import SearchCompiler.Proofs.TermForms

/-! The forms of a date term never overlap, so it does not matter in which order they are tried. A
range, two terms joined by a hyphen, can be divided into two terms in one way only, since neither of
them holds a hyphen that could join two terms; and a date written with hyphens is no term. -/
namespace SearchCompiler.FormsApart
open Calendar Calendar.DateTerm Query Text
open TermForms

/-- What a term means when some forms are tried one after another: a form in which it means nothing
leaves it to the forms behind. -/
def readIn (clock : Instant) (term : List Char) : List Form → Except DateFault (Option Instant)
  | [] => .ok none
  | form :: others =>
    match form.read clock term with
    | .ok none => readIn clock term others
    | settled => settled

/-- A term has a meaning. -/
def Accepted (clock : Instant) (term : List Char) : Prop :=
  ∃ instant, resolve clock term = .ok (some instant)

/-- A range is divided by a hyphen into two terms that have meanings. -/
structure Divided (clock : Instant) (range start stop : List Char) : Prop where
  joined : range = start ++ '-' :: stop
  start : Accepted clock start
  stop : Accepted clock stop

variable {clock : Instant} {form other : Form} {term rest front back range start stop : List Char}

/-! ## Reading in any order -/

theorem readAny_eq_readIn :
    readAny clock term = readIn clock term [.date, .dateTime, .epoch, .now, .relative] := by
  unfold readAny
  simp only [readIn, Form.read]
  cases date? term with
  | some instant => rfl
  | none =>
    cases dateTime? term with
    | error fault => rfl
    | ok found =>
      cases found with
      | some instant => rfl
      | none => cases epoch? term <;> cases now? clock term <;> cases relative? clock term <;> rfl

theorem readIn_eq_none {order : List Form}
    (unread : ∀ form ∈ order, form.read clock term = .ok none) :
    readIn clock term order = .ok none := by
  induction order with
  | nil => rfl
  | cons form others ih =>
    rw [List.forall_mem_cons] at unread
    rw [readIn, unread.1]
    exact ih unread.2

/-- Where a term means something in one form only, the place of this form does not matter. -/
theorem readIn_eq_read {order : List Form} (tried : form ∈ order)
    (only : ∀ other ∈ order, other ≠ form → other.read clock term = .ok none) :
    readIn clock term order = form.read clock term := by
  induction order with
  | nil => cases tried
  | cons first others ih =>
    rw [List.forall_mem_cons] at only
    by_cases same : first = form
    · subst same
      rw [readIn]
      split
      · next unread =>
        rw [unread]
        refine readIn_eq_none fun other later => ?_
        by_cases same : other = first
        · rw [same, unread]
        · exact only.2 other later same
      · rfl
    · rw [readIn, only.1 same]
      exact ih (List.mem_of_ne_of_mem (Ne.symm same) tried) only.2

/-- Any order of the forms gives a term the meaning that it has. -/
theorem resolve_eq_readIn {order : List Form} (all : ∀ form, form ∈ order) :
    resolve clock term =
      (readIn clock term order).map fun found => found.filter Instant.isRenderable := by
  have whole (form : Form) : form ∈ [.date, .dateTime, .epoch, .now, .relative] := by
    cases form <;> decide
  rw [resolve, readAny_eq_readIn]
  by_cases formed : ∃ form, Written form term
  · obtain ⟨form, isWritten⟩ := formed
    have only (order : List Form) :
        ∀ other ∈ order, other ≠ form → other.read clock term = .ok none := by
      intro other _ different
      by_contra read
      exact different ((written_of_read read).unique isWritten)
    rw [readIn_eq_read (whole form) (only _), readIn_eq_read (all form) (only _)]
  · have unread (order : List Form) : ∀ form ∈ order, form.read clock term = .ok none := by
      intro form _
      by_contra read
      exact formed ⟨form, written_of_read read⟩
    rw [readIn_eq_none (unread _), readIn_eq_none (unread _)]

theorem resolve_eq_none (formless : ∀ form, ¬ Written form term) : resolve clock term = .ok none := by
  rw [resolve, readAny_eq_readIn, readIn_eq_none fun form _ => ?_]
  · rfl
  · by_contra read
    exact formless form (written_of_read read)

theorem Accepted.written (accepted : Accepted clock term) : ∃ form, Written form term := by
  obtain ⟨instant, resolved⟩ := accepted
  by_contra formless
  rw [resolve_eq_none (not_exists.mp formless)] at resolved
  cases resolved

/-! ## Hyphens -/

/-- Where numerals stand for a year and a month, a hyphen behind either of them belongs to no term. -/
theorem not_accepted_of_hyphen {year month : List Char} {first second : Char}
    (written : year ≠ []) (isYear : ∀ c ∈ year, isDecimal c = true)
    (isMonth : ∀ c ∈ month, isDecimal c = true) (hyphen : first = '-' ∨ second = '-') :
    ¬ Accepted clock (year ++ first :: (month ++ second :: rest)) := by
  intro accepted
  obtain ⟨form, isWritten⟩ := accepted.written
  rcases hyphen with rfl | rfl
  · rcases (isWritten.hyphened rfl).before with empty | ⟨_, timed⟩
    · exact written empty
    · exact not_mem_digits isYear (by decide) timed
  · have divided :
        year ++ first :: (month ++ '-' :: rest) = (year ++ first :: month) ++ '-' :: rest := by
      simp
    rcases (isWritten.hyphened divided).before with empty | ⟨parted, timed⟩
    · exact written (List.append_eq_nil_iff.mp empty).1
    · have same {c : Char} (other : isDecimal c = false) (member : c ∈ year ++ first :: month) :
          c = first := by
        rw [List.mem_append, List.mem_cons] at member
        rcases member with inYear | same | inMonth
        · exact absurd inYear (not_mem_digits isYear other)
        · exact same
        · exact absurd inMonth (not_mem_digits isMonth other)
      exact absurd ((same (by decide) parted).trans (same (by decide) timed).symm) (by decide)

/-! ## Ranges -/

/-- The text between two hyphens would stand behind one in a term and before the other in a term. -/
theorem Accepted.hyphen_once {middle : List Char} (first : Accepted clock (front ++ '-' :: middle)) :
    ¬ Accepted clock (middle ++ '-' :: back) := by
  intro second
  obtain ⟨_, isWritten⟩ := first.written
  obtain ⟨_, alsoWritten⟩ := second.written
  exact (isWritten.hyphened rfl).alone (alsoWritten.hyphened rfl)

/-- A range can be divided into two terms at one hyphen only. -/
theorem Divided.unique {also last : List Char} (divided : Divided clock range start stop)
    (again : Divided clock range also last) : also = start ∧ last = stop := by
  have same := divided.joined.symm.trans again.joined
  rcases List.append_eq_append_iff.mp same with ⟨between, rfl, behind⟩ | ⟨between, rfl, behind⟩
  · cases between with
    | nil => exact ⟨List.append_nil start, (List.cons.inj behind).2.symm⟩
    | cons c middle =>
      obtain ⟨rfl, rfl⟩ := List.cons.inj behind
      exact absurd divided.stop again.start.hyphen_once
  · cases between with
    | nil => exact ⟨(List.append_nil also).symm, (List.cons.inj behind).2⟩
    | cons c middle =>
      obtain ⟨rfl, rfl⟩ := List.cons.inj behind
      exact absurd again.stop divided.start.hyphen_once

theorem Divided.quoteless (divided : Divided clock range start stop) : '"' ∉ range := by
  rw [divided.joined, List.mem_append, List.mem_cons]
  rintro (inStart | same | inStop)
  · obtain ⟨form, isWritten⟩ := divided.start.written
    exact (isWritten.plain inStart).2.1 rfl
  · cases same
  · obtain ⟨form, isWritten⟩ := divided.stop.written
    exact (isWritten.plain inStop).2.1 rfl

/-- The ends of a range are read as what stands around its first hyphen. -/
theorem rangeEndpoints_hyphen (quoteless : '"' ∉ start ++ '-' :: stop) (first : '-' ∉ start) :
    rangeEndpoints (start ++ '-' :: stop) = ⟨String.ofList start, String.ofList stop⟩ := by
  rw [rangeEndpoints, unquote_of_quoteless quoteless, cutFirst_append first]

/-- The ends of a range are its two terms, unless the first of them holds a hyphen. -/
theorem Divided.endpoints (divided : Divided clock range start stop) :
    ('-' ∉ start → rangeEndpoints range = ⟨String.ofList start, String.ofList stop⟩) ∧
    ('-' ∈ start → ¬ Divided clock range (rangeEndpoints range).start.toList
      (rangeEndpoints range).stop.toList) := by
  have quoteless := divided.quoteless
  have joined := divided.joined
  constructor
  · intro first
    rw [joined] at quoteless ⊢
    exact rangeEndpoints_hyphen quoteless first
  · intro later again
    obtain ⟨before, after, cut, first⟩ :
        ∃ before after, range = before ++ '-' :: after ∧ '-' ∉ before := by
      cases cut : cutFirst '-' range with
      | none =>
        rw [cutFirst_eq_none_iff, joined] at cut
        simp at cut
      | some halves => exact ⟨_, _, eq_append_of_cutFirst cut⟩
    have same := divided.unique again
    rw [cut] at quoteless same
    rw [rangeEndpoints_hyphen quoteless first, String.toList_ofList] at same
    exact first (same.1 ▸ later)

/-- **Forms never overlap, and ranges divide in one way.** A term has one form at most, so the order in
which forms are tried does not matter, and without a form it has no meaning. A term that has a meaning
holds no blank, no quote and no comma, and a hyphen in it is the sign of a count or of an offset, never
a divider in a date. A range can be divided into two terms in one way; its ends are read so where the
first of them holds no hyphen, and otherwise not as two terms. -/
theorem forms_apart (clock : Instant) (term : List Char) :
    (∀ form other : Form, form.Matches term → other.Matches term → form = other) ∧
    (∀ order : List Form, (∀ form, form ∈ order) →
      resolve clock term =
        (readIn clock term order).map fun found => found.filter Instant.isRenderable) ∧
    ((∀ form : Form, ¬ form.Matches term) → resolve clock term = .ok none) ∧
    (Accepted clock term →
      (∀ c ∈ term, isBlank c = false ∧ c ≠ '"' ∧ c ≠ ',') ∧
      ∀ front back, term = front ++ '-' :: back → Hyphened front back) ∧
    (∀ year month rest first second, term = year ++ first :: (month ++ second :: rest) →
      year ≠ [] → (∀ c ∈ year, isDecimal c = true) → (∀ c ∈ month, isDecimal c = true) →
      first = '-' ∨ second = '-' → ¬ Accepted clock term) ∧
    (∀ start stop, Divided clock term start stop →
      (∀ other last, Divided clock term other last → other = start ∧ last = stop) ∧
      ('-' ∉ start → rangeEndpoints term = ⟨String.ofList start, String.ofList stop⟩) ∧
      ('-' ∈ start → ¬ Divided clock term (rangeEndpoints term).start.toList
        (rangeEndpoints term).stop.toList)) := by
  simp only [matches_iff]
  refine ⟨fun form other isWritten also => isWritten.unique also,
    fun order all => resolve_eq_readIn all,
    resolve_eq_none, fun accepted => ?_, ?_, fun start stop divided =>
      ⟨fun other last => divided.unique, divided.endpoints⟩⟩
  · obtain ⟨form, isWritten⟩ := accepted.written
    exact ⟨fun c => isWritten.plain, fun front back => isWritten.hyphened⟩
  · rintro year month rest first second rfl written isYear isMonth hyphen
    exact not_accepted_of_hyphen written isYear isMonth hyphen

/-! ## A range from an offset -/

def newYear1970 : Instant := .ofSeconds 0

/-- The range `2023_10_01T12:30:45-0200-now`. -/
def offsetRange : List Char := "2023_10_01T12:30:45-0200-now".toList

/-- The range divides into two terms at its second hyphen and nowhere else, but its ends are read as
what stands around the first one, and the second of them is no term. -/
theorem offset_range_unread :
    Divided newYear1970 offsetRange "2023_10_01T12:30:45-0200".toList "now".toList ∧
      (∀ other last, Divided newYear1970 offsetRange other last →
        other = "2023_10_01T12:30:45-0200".toList ∧ last = "now".toList) ∧
      rangeEndpoints offsetRange = ⟨"2023_10_01T12:30:45", "0200-now"⟩ ∧
      resolve newYear1970 "0200-now".toList = .ok none ∧
      ¬ Accepted newYear1970 "2023-10-01".toList := by
  have first : Accepted newYear1970 "2023_10_01T12:30:45-0200".toList :=
    ⟨.ofSeconds 1696170645, by decide +kernel⟩
  have second : Accepted newYear1970 "now".toList := ⟨newYear1970, by decide +kernel⟩
  have divided : Divided newYear1970 offsetRange "2023_10_01T12:30:45-0200".toList "now".toList :=
    ⟨by decide, first, second⟩
  obtain ⟨_, _, formless, _⟩ := forms_apart newYear1970 "0200-now".toList
  obtain ⟨_, _, _, _, undated, _⟩ := forms_apart newYear1970 "2023-10-01".toList
  obtain ⟨_, _, _, _, _, ranges⟩ := forms_apart newYear1970 offsetRange
  refine ⟨divided, (ranges _ _ divided).1, by decide +kernel, formless fun form => ?_, ?_⟩
  · cases form <;> decide +kernel
  · exact undated ['2', '0', '2', '3'] ['1', '0'] ['0', '1'] '-' '-' rfl (List.cons_ne_nil _ _)
      (List.all_eq_true.mp rfl) (List.all_eq_true.mp rfl) (.inl rfl)

end SearchCompiler.FormsApart
