import Mathlib.Data.List.Basic
import Mathlib.Data.Nat.Find

/-! Patterns, as a reader matches them that tries one way after another. The ways through a pattern
have an order, the first of two choices before the second and more repetitions before fewer, and the
reader settles on the first way that leads to the end of the pattern. So a pattern is told by what it
may leave of a text, in the order in which the ways are tried. A search takes the leftmost match and
goes on behind it. -/
namespace SearchCompiler.Patterns

/-! ## Patterns -/

inductive Pattern where
  | nothing
  | one (admits : Char → Bool)
  | follow (first second : Pattern)
  | either (preferred other : Pattern)
  /-- As often as possible, and as often as there are characters at most. -/
  | many (body : Pattern)

/-- What so many rounds of a step can leave, the most rounds first. -/
def rounds (step : List Char → List (List Char)) : Nat → List Char → List (List Char)
  | 0, text => [text]
  | count + 1, text => (step text).flatMap (rounds step count) ++ [text]

namespace Pattern

/-- What a pattern may leave of a text behind its match, in the order in which it is tried. -/
def rests : Pattern → List Char → List (List Char)
  | .nothing, text => [text]
  | .one _, [] => []
  | .one admits, c :: rest => if admits c then [rest] else []
  | .follow first second, text => (first.rests text).flatMap second.rests
  | .either preferred other, text => preferred.rests text ++ other.rests text
  | .many body, text => rounds body.rests text.length text

/-- What is left behind the match that a reader settles on. -/
def first? (pattern : Pattern) (text : List Char) : Option (List Char) := (pattern.rests text).head?

/-- A pattern matches the whole of a text. -/
def Whole (pattern : Pattern) (text : List Char) : Prop := [] ∈ pattern.rests text

instance (pattern : Pattern) (text : List Char) : Decidable (pattern.Whole text) :=
  inferInstanceAs (Decidable (_ ∈ _))

def char (expected : Char) : Pattern := .one (· == expected)

/-- Once at least. -/
def some (body : Pattern) : Pattern := .follow body (.many body)

def optional (body : Pattern) : Pattern := .either body .nothing

/-- One pattern behind the other. -/
def sequence : List Pattern → Pattern
  | [] => .nothing
  | pattern :: others => .follow pattern (sequence others)

def times (count : Nat) (body : Pattern) : Pattern := sequence (List.replicate count body)

def word (letters : List Char) : Pattern := sequence (letters.map char)

/-- A pattern whose matches are never empty. -/
def Takes (pattern : Pattern) : Prop :=
  ∀ text, ∀ rest ∈ pattern.rests text, rest.length < text.length

end Pattern

/-! ## Searching -/

/-- The places in a text where a part of it starts and where it stops. -/
structure Span where
  start : Nat
  stop : Nat
  deriving DecidableEq, Repr

/-- The part of a text between two places. -/
def Span.cut (span : Span) (text : List Char) : List Char :=
  (text.take span.stop).drop span.start

/-- The matches that a search finds from a place on: each is the first from where the search stands,
and the search goes on where it stops. -/
inductive Finds (pattern : Pattern) (text : List Char) : Nat → List Span → Prop
  | done {place : Nat}
      (unmatched : ∀ later, place ≤ later → pattern.first? (text.drop later) = none) :
    Finds pattern text place []
  | next {place : Nat} {span : Span} {others : List Span} (ahead : place ≤ span.start)
      (skipped : ∀ earlier, place ≤ earlier → earlier < span.start →
        pattern.first? (text.drop earlier) = none)
      (matched : pattern.first? (text.drop span.start) = some (text.drop span.stop))
      (within : span.stop ≤ text.length) (goesOn : Finds pattern text span.stop others) :
    Finds pattern text place (span :: others)

variable {pattern first second body : Pattern} {text rest : List Char} {c : Char}

/-! ## What patterns leave -/

namespace Pattern

theorem rests_one_cons (admits : Char → Bool) :
    (one admits).rests (c :: rest) = if admits c then [rest] else [] := rfl

theorem rests_char (expected : Char) :
    (char expected).rests (c :: rest) = if c = expected then [rest] else [] := by
  rw [char, rests_one_cons]
  simp only [beq_iff_eq]

theorem rests_follow : (follow first second).rests text = (first.rests text).flatMap second.rests :=
  rfl

theorem rests_optional : (optional body).rests text = body.rests text ++ [text] := rfl

theorem mem_rests_one {admits : Char → Bool} :
    rest ∈ (one admits).rests text ↔ ∃ c, admits c = true ∧ text = c :: rest := by
  cases text with
  | nil => simp [rests]
  | cons c more =>
    rw [rests_one_cons]
    by_cases admitted : admits c = true
    · rw [if_pos admitted, List.mem_singleton]
      constructor
      · rintro rfl
        exact ⟨c, admitted, rfl⟩
      · rintro ⟨d, _, same⟩
        exact (List.cons.inj same).2.symm
    · simp [admitted]

theorem mem_rests_char {expected : Char} :
    rest ∈ (char expected).rests text ↔ text = expected :: rest := by
  rw [char, mem_rests_one]
  simp only [beq_iff_eq, exists_eq_left]

theorem mem_rests_follow :
    rest ∈ (follow first second).rests text ↔
      ∃ middle ∈ first.rests text, rest ∈ second.rests middle :=
  List.mem_flatMap

theorem mem_rests_either :
    rest ∈ (either first second).rests text ↔
      rest ∈ first.rests text ∨ rest ∈ second.rests text :=
  List.mem_append

theorem mem_rests_nothing : rest ∈ nothing.rests text ↔ text = rest := by
  rw [rests, List.mem_singleton, eq_comm]

theorem mem_rests_optional :
    rest ∈ (optional body).rests text ↔ rest ∈ body.rests text ∨ text = rest :=
  mem_rests_either.trans (or_congr_right mem_rests_nothing)

theorem mem_rests_word {letters : List Char} :
    rest ∈ (word letters).rests text ↔ text = letters ++ rest := by
  induction letters generalizing text with
  | nil => exact mem_rests_nothing
  | cons c letters ih =>
    change rest ∈ (follow (char c) (word letters)).rests text ↔ _
    simp only [mem_rests_follow, mem_rests_char, ih]
    constructor
    · rintro ⟨_, rfl, rfl⟩
      rfl
    · rintro rfl
      exact ⟨_, rfl, rfl⟩

theorem mem_rests_times_one {admits : Char → Bool} {count : Nat} :
    rest ∈ (times count (one admits)).rests text ↔
      ∃ taken, taken.length = count ∧ (∀ c ∈ taken, admits c = true) ∧ text = taken ++ rest := by
  induction count generalizing text with
  | zero =>
    refine mem_rests_nothing.trans ⟨fun same => ⟨[], rfl, List.forall_mem_nil _, same⟩, ?_⟩
    rintro ⟨taken, empty, _, rfl⟩
    rw [List.eq_nil_of_length_eq_zero empty, List.nil_append]
  | succ count ih =>
    change rest ∈ (follow (one admits) (times count (one admits))).rests text ↔ _
    simp only [mem_rests_follow, mem_rests_one, ih]
    constructor
    · rintro ⟨_, ⟨c, admitted, rfl⟩, taken, rfl, each, rfl⟩
      exact ⟨c :: taken, rfl, List.forall_mem_cons.mpr ⟨admitted, each⟩, rfl⟩
    · rintro ⟨taken, length, each, rfl⟩
      obtain ⟨c, others, rfl⟩ := List.exists_cons_of_length_eq_add_one length
      rw [List.forall_mem_cons] at each
      exact ⟨_, ⟨c, each.1, rfl⟩, others, Nat.succ.inj length, each.2, rfl⟩

theorem takes_one (admits : Char → Bool) : (one admits).Takes := by
  intro text rest left
  obtain ⟨c, _, rfl⟩ := mem_rests_one.mp left
  exact Nat.lt_succ_self _

theorem Takes.either (takes : first.Takes) (alsoTakes : second.Takes) :
    (either first second).Takes := by
  intro text rest left
  rcases List.mem_append.mp left with preferred | other
  · exact takes text rest preferred
  · exact alsoTakes text rest other

/-- More rounds than there are characters leave nothing else. -/
theorem rounds_eq (takes : body.Takes) {count : Nat} (enough : text.length ≤ count) :
    rounds body.rests count text = rounds body.rests text.length text := by
  induction count using Nat.strong_induction_on generalizing text with
  | _ count ih =>
    cases count with
    | zero => rw [Nat.le_zero.mp enough]
    | succ count =>
      have same {size : Nat} (below : size ≤ count) (fits : text.length ≤ size + 1) :
          (body.rests text).flatMap (rounds body.rests size) =
            (body.rests text).flatMap fun rest => rounds body.rests rest.length rest := by
        refine List.flatMap_congr fun rest left => ?_
        have shorter : rest.length < text.length := takes text rest left
        exact ih size (Nat.lt_succ_of_le below) (by omega)
      cases size : text.length with
      | zero =>
        have nothing : body.rests text = [] :=
          List.eq_nil_iff_forall_not_mem.mpr fun rest left => by
            have shorter := takes text rest left
            omega
        simp [rounds, nothing]
      | succ less =>
        rw [rounds, rounds, same (Nat.le_refl _) (by omega), same (by omega) (by omega)]

/-- A repetition is one match and then a repetition, or nothing. -/
theorem rests_many (takes : body.Takes) :
    (many body).rests text = (body.rests text).flatMap (many body).rests ++ [text] := by
  have enough : text.length ≤ text.length + 1 := Nat.le_succ _
  change rounds body.rests text.length text = _
  rw [← rounds_eq takes enough, rounds]
  congr 1
  refine List.flatMap_congr fun rest left => ?_
  exact rounds_eq takes (Nat.le_of_lt (takes text rest left))

theorem mem_rests_many (takes : body.Takes) :
    rest ∈ (many body).rests text ↔
      rest = text ∨ ∃ middle ∈ body.rests text, rest ∈ (many body).rests middle := by
  rw [rests_many takes, List.mem_append, List.mem_flatMap, List.mem_singleton, or_comm]

theorem rests_many_one (admits : Char → Bool) :
    (many (one admits)).rests (c :: rest) =
      if admits c then (many (one admits)).rests rest ++ [c :: rest] else [c :: rest] := by
  rw [rests_many (takes_one admits), rests_one_cons]
  split <;> simp

theorem mem_rests_many_one {admits : Char → Bool} :
    rest ∈ (many (one admits)).rests text ↔
      ∃ taken, (∀ c ∈ taken, admits c = true) ∧ text = taken ++ rest := by
  induction text with
  | nil =>
    rw [mem_rests_many (takes_one admits)]
    constructor
    · rintro (rfl | ⟨_, once, _⟩)
      · exact ⟨[], List.forall_mem_nil _, rfl⟩
      · cases once
    · rintro ⟨taken, _, same⟩
      exact .inl (List.append_eq_nil_iff.mp same.symm).2
  | cons c more ih =>
    rw [mem_rests_many (takes_one admits)]
    constructor
    · rintro (rfl | ⟨_, once, further⟩)
      · exact ⟨[], List.forall_mem_nil _, rfl⟩
      · obtain ⟨_, admitted, same⟩ := mem_rests_one.mp once
        obtain ⟨rfl, rfl⟩ := List.cons.inj same
        obtain ⟨taken, each, rfl⟩ := ih.mp further
        exact ⟨c :: taken, List.forall_mem_cons.mpr ⟨admitted, each⟩, rfl⟩
    · rintro ⟨taken, each, same⟩
      cases taken with
      | nil => exact .inl same.symm
      | cons d others =>
        obtain ⟨rfl, rfl⟩ := List.cons.inj same
        rw [List.forall_mem_cons] at each
        exact .inr ⟨_, mem_rests_one.mpr ⟨c, each.1, rfl⟩, ih.mpr ⟨others, each.2, rfl⟩⟩

theorem mem_rests_some_one {admits : Char → Bool} :
    rest ∈ (some (one admits)).rests text ↔
      ∃ taken, taken ≠ [] ∧ (∀ c ∈ taken, admits c = true) ∧ text = taken ++ rest := by
  rw [some]
  simp only [mem_rests_follow, mem_rests_one, mem_rests_many_one]
  constructor
  · rintro ⟨_, ⟨c, admitted, rfl⟩, taken, each, rfl⟩
    exact ⟨c :: taken, List.cons_ne_nil _ _, List.forall_mem_cons.mpr ⟨admitted, each⟩, rfl⟩
  · rintro ⟨taken, nonempty, each, rfl⟩
    obtain ⟨c, others, rfl⟩ := List.exists_cons_of_ne_nil nonempty
    rw [List.forall_mem_cons] at each
    exact ⟨_, ⟨c, each.1, rfl⟩, others, each.2, rfl⟩

/-- What is left of a text is an end of it. -/
theorem suffix_of_mem_rests (left : rest ∈ pattern.rests text) : rest <:+ text := by
  have rounded {step : List Char → List (List Char)}
      (ends : ∀ {text rest}, rest ∈ step text → rest <:+ text) {count : Nat} {text rest : List Char}
      (left : rest ∈ rounds step count text) : rest <:+ text := by
    induction count generalizing text with
    | zero =>
      cases List.mem_singleton.mp left
      exact List.suffix_rfl
    | succ count ih =>
      rcases List.mem_append.mp left with further | same
      · obtain ⟨middle, once, more⟩ := List.mem_flatMap.mp further
        exact (ih more).trans (ends once)
      · cases List.mem_singleton.mp same
        exact List.suffix_rfl
  induction pattern generalizing text rest with
  | nothing =>
    cases List.mem_singleton.mp left
    exact List.suffix_rfl
  | one admits =>
    obtain ⟨c, _, rfl⟩ := mem_rests_one.mp left
    exact List.suffix_cons c rest
  | follow first second ihFirst ihSecond =>
    obtain ⟨middle, before, behind⟩ := List.mem_flatMap.mp left
    exact (ihSecond behind).trans (ihFirst before)
  | either preferred other ihPreferred ihOther =>
    rcases List.mem_append.mp left with first | second
    · exact ihPreferred first
    · exact ihOther second
  | many body ih => exact rounded ih left

theorem first?_follow :
    (follow first second).first? text = ((first.rests text).findSome? second.first?) := by
  unfold first?
  rw [rests_follow]
  induction first.rests text with
  | nil => rfl
  | cons middle others ih =>
    rw [List.flatMap_cons, List.head?_append, ih, List.findSome?_cons]
    cases (second.rests middle).head? <;> rfl

theorem first?_either :
    (either first second).first? text = (first.first? text).or (second.first? text) :=
  List.head?_append

/-- Where no more than one text can be left, the order of the ways does not matter. -/
theorem first?_eq_of_mem_iff {left : Option (List Char)}
    (only : ∀ rest, rest ∈ pattern.rests text ↔ left = Option.some rest) :
    pattern.first? text = left := by
  unfold first?
  cases ways : pattern.rests text with
  | nil =>
    refine (Option.eq_none_iff_forall_ne_some.mpr fun rest same => ?_).symm
    have member := (only rest).mpr same
    rw [ways] at member
    cases member
  | cons rest others =>
    rw [ways] at only
    exact ((only rest).mp List.mem_cons_self).symm

theorem Takes.followed (takes : first.Takes) : (follow first second).Takes := by
  intro text rest left
  obtain ⟨middle, before, behind⟩ := mem_rests_follow.mp left
  exact Nat.lt_of_le_of_lt (suffix_of_mem_rests behind).length_le (takes text middle before)

theorem Takes.behind (takes : second.Takes) : (follow first second).Takes := by
  intro text rest left
  obtain ⟨middle, before, last⟩ := mem_rests_follow.mp left
  exact Nat.lt_of_lt_of_le (takes middle rest last) (suffix_of_mem_rests before).length_le

end Pattern

/-! ## What a search finds -/

/-- A search finds one list of matches. -/
theorem Finds.unique {place : Nat} {found others : List Span} (finds : Finds pattern text place found)
    (also : Finds pattern text place others) : found = others := by
  induction finds generalizing others with
  | done unmatched =>
    cases also with
    | done => rfl
    | @next _ span _ ahead _ matched =>
      rw [unmatched span.start ahead] at matched
      cases matched
  | @next place span rest ahead skipped matched within goesOn ih =>
    cases also with
    | done unmatched =>
      rw [unmatched span.start ahead] at matched
      cases matched
    | @next _ other _ alsoAhead alsoSkipped alsoMatched alsoWithin alsoGoesOn =>
      have starts : span.start = other.start := by
        rcases Nat.lt_trichotomy span.start other.start with before | same | behind
        · rw [alsoSkipped span.start ahead before] at matched
          cases matched
        · exact same
        · rw [skipped other.start alsoAhead behind] at alsoMatched
          cases alsoMatched
      have stops : span.stop = other.stop := by
        rw [starts, alsoMatched] at matched
        have left := congrArg List.length (Option.some.inj matched)
        rw [List.length_drop, List.length_drop] at left
        omega
      obtain ⟨start, stop⟩ := span
      obtain ⟨otherStart, otherStop⟩ := other
      cases starts
      cases stops
      rw [ih alsoGoesOn]

/-- A search for a pattern whose matches are never empty comes to an end. -/
theorem finds_exists (takes : pattern.Takes) (text : List Char) (place : Nat) :
    ∃ found, Finds pattern text place found := by
  induction ahead : text.length - place using Nat.strong_induction_on generalizing place with
  | _ remaining ih =>
    by_cases unmatched : ∀ later, place ≤ later → pattern.first? (text.drop later) = none
    · exact ⟨[], .done unmatched⟩
    · have somewhere : ∃ later, place ≤ later ∧
          (pattern.first? (text.drop later)).isSome = true := by
        simpa [Option.isSome_iff_ne_none] using unmatched
      let start := Nat.find somewhere
      obtain ⟨here, matched⟩ : place ≤ start ∧ (pattern.first? (text.drop start)).isSome = true :=
        Nat.find_spec somewhere
      obtain ⟨rest, settled⟩ := Option.isSome_iff_exists.mp matched
      have left : rest ∈ pattern.rests (text.drop start) := List.mem_of_mem_head? settled
      have shorter : rest.length < text.length - start := by
        rw [← List.length_drop]
        exact takes _ rest left
      have ends : rest = text.drop (text.length - rest.length) :=
        List.suffix_iff_eq_drop.mp ((Pattern.suffix_of_mem_rests left).trans (List.drop_suffix _ _))
      obtain ⟨others, goesOn⟩ :=
        ih (text.length - (text.length - rest.length)) (by omega) _ rfl
      refine ⟨⟨start, text.length - rest.length⟩ :: others, .next here ?_ ?_ (Nat.sub_le _ _) goesOn⟩
      · intro earlier behind before
        have missed := Nat.find_min somewhere before
        rw [not_and, Option.not_isSome_iff_eq_none] at missed
        exact missed behind
      · rw [settled, ← ends]

end SearchCompiler.Patterns
