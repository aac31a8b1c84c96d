import SearchCompiler.Proofs.QuotedContent

/-! The terms of a query as the matches of one pattern, searched from left to right. The pattern
tries a field with a quoted value first, with its run as long as possible, then a quoted phrase, then
a run; what it settles on is told here without trying anything, by the run that begins at a place and
the quotes that close in it. Every place that is not blank lies in exactly one match. -/
namespace SearchCompiler.TermSpans
open Query Text
open Patterns QuotedContent TermScanning

/-! ## The pattern -/

def nonblankPattern : Pattern := .one fun c => !isBlank c

/-- The pattern `:"(?:[^"\\]|\\.)*"` behind the name of a field. -/
def valuePattern : Pattern := .follow (.char ':') literalPattern

/-- The pattern `\S+:"(?:[^"\\]|\\.)*"|-?"(?:[^"\\]|\\.)*"|\S+` of a term. -/
def termPattern : Pattern :=
  .either (.follow nonblankPattern.some valuePattern)
    (.either (.follow (Pattern.char '-').optional literalPattern) nonblankPattern.some)

/-! ## The rule -/

/-- A quoted value in the run that begins a text: behind some characters that are not blank stands a
colon, and behind the colon a quoted text that closes. -/
structure HoldsValue (text front content : List Char) : Prop where
  nonblank : ∀ c ∈ front, isBlank c = false
  isContent : IsContent content
  begins : front ++ ':' :: '"' :: content ++ ['"'] <+: text

/-- A quoted phrase that begins a text, behind a minus sign or none. -/
structure HoldsPhrase (text sign content : List Char) : Prop where
  signed : sign = [] ∨ sign = ['-']
  isContent : IsContent content
  begins : sign ++ '"' :: content ++ ['"'] <+: text

/-- The term that begins a text. A colon at the very beginning is not one behind a field. -/
inductive EndsTerm (text : List Char) : List Char → Prop
  | value {front content : List Char} (named : front ≠ []) (holds : HoldsValue text front content)
      (last : ∀ other otherContent, other ≠ [] → HoldsValue text other otherContent →
        other.length ≤ front.length) :
    EndsTerm text (front ++ ':' :: '"' :: content ++ ['"'])
  | phrase {sign content : List Char}
      (valueless : ∀ front content, front ≠ [] → ¬ HoldsValue text front content)
      (holds : HoldsPhrase text sign content) : EndsTerm text (sign ++ '"' :: content ++ ['"'])
  | run {term : List Char}
      (valueless : ∀ front content, front ≠ [] → ¬ HoldsValue text front content)
      (phraseless : ∀ sign content, ¬ HoldsPhrase text sign content) (nonempty : term ≠ [])
      (nonblank : ∀ c ∈ term, isBlank c = false) (begins : term <+: text)
      (longest : ∀ other, other <+: text → (∀ c ∈ other, isBlank c = false) →
        other.length ≤ term.length) : EndsTerm text term

/-- How spans cover what is not blank in a text from a place on. -/
structure Covers (text : List Char) (place : Nat) (spans : List Span) : Prop where
  nonempty : ∀ span ∈ spans, span.start < span.stop
  within : ∀ span ∈ spans, place ≤ span.start ∧ span.stop ≤ text.length
  ordered : spans.Pairwise fun first second => first.stop ≤ second.start
  covered : ∀ i c, place ≤ i → text[i]? = some c → isBlank c = false →
    ∃! span, span ∈ spans ∧ span.start ≤ i ∧ i < span.stop

variable {text rest term front content other otherContent sign : List Char} {c : Char}

/-! ## One value and one phrase -/

/-- A value whose colon comes first is a colon and a text in quotes. -/
theorem holdsValue_here_iff :
    HoldsValue (c :: rest) [] content ↔
      c = ':' ∧ literal? rest = some ('"' :: content ++ ['"']) := by
  rw [literal?_eq_some_iff]
  constructor
  · rintro ⟨_, isContent, begins⟩
    obtain ⟨rfl, inner⟩ := List.cons_prefix_cons.mp begins
    exact ⟨rfl, ⟨content, isContent, rfl⟩, inner⟩
  · rintro ⟨rfl, ⟨other, isContent, same⟩, begins⟩
    have contents : content = other := by simpa using same
    exact ⟨List.forall_mem_nil _, contents ▸ isContent, (List.prefix_cons_inj ':').mpr begins⟩

/-- Any other value is one of what follows the first character. -/
theorem holdsValue_later_iff {d : Char} :
    HoldsValue (c :: rest) (d :: front) content ↔
      d = c ∧ isBlank c = false ∧ HoldsValue rest front content := by
  constructor
  · rintro ⟨nonblank, isContent, begins⟩
    obtain ⟨rfl, inner⟩ := List.cons_prefix_cons.mp begins
    rw [List.forall_mem_cons] at nonblank
    exact ⟨rfl, nonblank.1, nonblank.2, isContent, inner⟩
  · rintro ⟨rfl, first, nonblank, isContent, begins⟩
    exact ⟨List.forall_mem_cons.mpr ⟨first, nonblank⟩, isContent,
      (List.prefix_cons_inj d).mpr begins⟩

/-- Where a value is held, its front decides the rest. -/
theorem HoldsValue.unique (holds : HoldsValue text front content)
    (also : HoldsValue text other otherContent) (length : front.length = other.length) :
    front = other ∧ content = otherContent := by
  have fronts : front = other := by
    have begins : front <+: text := by
      refine List.IsPrefix.trans ?_ holds.begins
      rw [List.append_assoc]
      exact List.prefix_append _ _
    have alsoBegins : other <+: text := by
      refine List.IsPrefix.trans ?_ also.begins
      rw [List.append_assoc]
      exact List.prefix_append _ _
    exact (List.prefix_of_prefix_length_le begins alsoBegins (Nat.le_of_eq length)).eq_of_length
      length
  subst fronts
  obtain ⟨behind, written⟩ := holds.begins
  obtain ⟨alsoBehind, alsoWritten⟩ := also.begins
  rw [← alsoWritten, List.append_assoc, List.append_assoc, List.append_assoc, List.append_assoc,
    List.append_cancel_left_eq] at written
  exact ⟨rfl, (holds.isContent.unique also.isContent (by simpa using written)).1⟩

/-- A sign is told by the character that it is or that follows it. -/
theorem HoldsPhrase.unique (holds : HoldsPhrase text sign content)
    {otherSign : List Char} (also : HoldsPhrase text otherSign otherContent) :
    sign ++ '"' :: content ++ ['"'] = otherSign ++ '"' :: otherContent ++ ['"'] := by
  obtain ⟨signed, isContent, behind, written⟩ := holds
  obtain ⟨alsoSigned, alsoContent, alsoBehind, alsoWritten⟩ := also
  rw [← alsoWritten] at written
  have signs : sign = otherSign := by
    obtain rfl | rfl := signed <;> obtain rfl | rfl := alsoSigned
    · rfl
    · exact absurd (List.cons.inj written).1 (by decide)
    · exact absurd (List.cons.inj written).1 (by decide)
    · rfl
  subst signs
  have same : content ++ '"' :: behind = otherContent ++ '"' :: alsoBehind := by
    rw [List.append_assoc, List.append_assoc, List.append_assoc, List.append_assoc,
      List.append_cancel_left_eq] at written
    simpa using written
  rw [(isContent.unique alsoContent same).1]

/-! ## The term of a place -/

theorem not_holdsValue_blank (blank : isBlank c = true) : ¬ HoldsValue (c :: rest) front content := by
  intro holds
  cases front with
  | nil =>
    obtain ⟨rfl, _⟩ := holdsValue_here_iff.mp holds
    cases blank
  | cons d behind =>
    obtain ⟨_, nonblank, _⟩ := holdsValue_later_iff.mp holds
    rw [blank] at nonblank
    cases nonblank

theorem lastQuotedValue?_eq_none_iff :
    lastQuotedValue? text = none ↔ ∀ front content, ¬ HoldsValue text front content := by
  induction text with
  | nil =>
    refine iff_of_true rfl fun front content holds => ?_
    have empty := List.prefix_nil.mp holds.begins
    simp at empty
  | cons c rest ih =>
    rw [lastQuotedValue?]
    split
    · next blank =>
      exact iff_of_true rfl fun front content => not_holdsValue_blank blank
    · next nonblank =>
      rw [Bool.not_eq_true] at nonblank
      cases later : lastQuotedValue? rest with
      | some value =>
        rw [later] at ih
        refine iff_of_false (fun none => by cases none) fun valueless => ?_
        exact absurd (ih.mpr fun front content holds =>
          valueless (c :: front) content (holdsValue_later_iff.mpr ⟨rfl, nonblank, holds⟩))
          (Option.some_ne_none _)
      | none =>
        have valueless := ih.mp later
        constructor
        · intro lost front content holds
          cases front with
          | nil =>
            obtain ⟨rfl, found⟩ := holdsValue_here_iff.mp holds
            simp [found] at lost
          | cons d behind => exact valueless behind content (holdsValue_later_iff.mp holds).2.2
        · intro nowhere
          dsimp only
          split
          · next colon =>
            cases found : literal? rest with
            | none => rfl
            | some literal =>
              obtain ⟨⟨content, _, rfl⟩, _⟩ := literal?_eq_some_iff.mp found
              exact absurd (holdsValue_here_iff.mpr ⟨colon, found⟩) (nowhere [] content)
          · rfl

/-- The value that is found is the one with the longest front. -/
theorem holds_of_lastQuotedValue? {value : List Char} (found : lastQuotedValue? text = some value) :
    ∃ front content, value = front ++ ':' :: '"' :: content ++ ['"'] ∧
      HoldsValue text front content ∧
      ∀ other otherContent, HoldsValue text other otherContent → other.length ≤ front.length := by
  induction text generalizing value with
  | nil => cases found
  | cons c rest ih =>
    rw [lastQuotedValue?] at found
    split at found
    · cases found
    · next nonblank =>
      rw [Bool.not_eq_true] at nonblank
      split at found
      · next later inner =>
        cases found
        obtain ⟨front, content, rfl, holds, last⟩ := ih inner
        refine ⟨c :: front, content, rfl, holdsValue_later_iff.mpr ⟨rfl, nonblank, holds⟩, ?_⟩
        intro other otherContent also
        cases other with
        | nil => exact Nat.zero_le _
        | cons d behind =>
          exact Nat.succ_le_succ (last behind otherContent (holdsValue_later_iff.mp also).2.2)
      · next later =>
        split at found
        · next colon =>
          obtain ⟨literal, begins, rfl⟩ := Option.map_eq_some_iff.mp found
          obtain ⟨⟨content, _, rfl⟩, _⟩ := literal?_eq_some_iff.mp begins
          refine ⟨[], content, by rw [colon]; rfl, holdsValue_here_iff.mpr ⟨colon, begins⟩, ?_⟩
          intro other otherContent also
          cases other with
          | nil => exact Nat.le_refl _
          | cons d behind =>
            exact absurd (holdsValue_later_iff.mp also).2.2
              (lastQuotedValue?_eq_none_iff.mp later behind otherContent)
        · cases found

theorem signedLiteral?_eq_some_iff {phrase : List Char} :
    signedLiteral? text = some phrase ↔
      ∃ sign content, phrase = sign ++ '"' :: content ++ ['"'] ∧ HoldsPhrase text sign content := by
  constructor
  · intro found
    cases text with
    | nil => cases found
    | cons c rest =>
      rw [signedLiteral?] at found
      split at found
      · next minus =>
        obtain ⟨literal, begins, rfl⟩ := Option.map_eq_some_iff.mp found
        obtain ⟨⟨content, isContent, rfl⟩, within⟩ := literal?_eq_some_iff.mp begins
        exact ⟨[c], content, rfl, .inr (by rw [minus]), isContent, (List.prefix_cons_inj c).mpr within⟩
      · obtain ⟨⟨content, isContent, rfl⟩, within⟩ := literal?_eq_some_iff.mp found
        exact ⟨[], content, rfl, .inl rfl, isContent, within⟩
  · rintro ⟨sign, content, rfl, signed, isContent, behind, rfl⟩
    have begins : literal? ('"' :: content ++ ['"'] ++ behind) = some ('"' :: content ++ ['"']) :=
      literal?_eq_some_iff.mpr ⟨⟨content, isContent, rfl⟩, List.prefix_append _ _⟩
    obtain rfl | rfl := signed
    · exact begins
    · change (literal? ('"' :: content ++ ['"'] ++ behind)).map _ = _
      rw [begins]
      rfl

/-- A value behind the first character is what is looked for in the rest of the run. -/
theorem valueless_iff (nonblank : isBlank c = false) :
    (∀ front content, front ≠ [] → ¬ HoldsValue (c :: rest) front content) ↔
      lastQuotedValue? rest = none := by
  rw [lastQuotedValue?_eq_none_iff]
  constructor
  · intro valueless front content holds
    exact valueless (c :: front) content (List.cons_ne_nil _ _)
      (holdsValue_later_iff.mpr ⟨rfl, nonblank, holds⟩)
  · intro valueless front content named holds
    cases front with
    | nil => exact named rfl
    | cons d behind => exact valueless behind content (holdsValue_later_iff.mp holds).2.2

/-- The scanner reads the term of the rule. -/
theorem endsTerm_termAt (nonblank : isBlank c = false) : EndsTerm (c :: rest) (termAt c rest) := by
  unfold termAt
  cases found : lastQuotedValue? rest with
  | some value =>
    obtain ⟨front, content, rfl, holds, last⟩ := holds_of_lastQuotedValue? found
    have led : HoldsValue (c :: rest) (c :: front) content :=
      holdsValue_later_iff.mpr ⟨rfl, nonblank, holds⟩
    refine .value (List.cons_ne_nil c front) led fun other otherContent named also => ?_
    cases other with
    | nil => exact absurd rfl named
    | cons d behind =>
      exact Nat.succ_le_succ (last behind otherContent (holdsValue_later_iff.mp also).2.2)
  | none =>
    have valueless := (valueless_iff nonblank).mpr found
    dsimp only
    cases phrased : signedLiteral? (c :: rest) with
    | some phrase =>
      obtain ⟨sign, content, rfl, holds⟩ := signedLiteral?_eq_some_iff.mp phrased
      exact .phrase valueless holds
    | none =>
      have run_cons : run (c :: rest) = c :: run rest := by
        simp [run, nonblank]
      refine .run valueless (fun sign content holds => ?_) ?_ (fun d member => ?_)
        (List.takeWhile_prefix _) fun other begins others => ?_
      · rw [signedLiteral?_eq_some_iff.mpr ⟨sign, content, rfl, holds⟩] at phrased
        cases phrased
      · rw [run_cons]
        exact List.cons_ne_nil _ _
      · simpa using List.mem_takeWhile_imp member
      · obtain ⟨behind, written⟩ := begins
        rw [← written]
        unfold run
        rw [List.takeWhile_append_of_pos (fun d member => by simp [others d member]),
          List.length_append]
        exact Nat.le_add_right _ _

theorem EndsTerm.nonempty (ends : EndsTerm text term) : term ≠ [] := by
  cases ends with
  | value => simp
  | phrase => simp
  | run _ _ nonempty => exact nonempty

/-- There is one term at a place. -/
theorem EndsTerm.unique (ends : EndsTerm text term) (also : EndsTerm text other) : term = other := by
  cases ends with
  | value named holds last =>
    cases also with
    | value alsoNamed alsoHolds alsoLast =>
      have length := Nat.le_antisymm (alsoLast _ _ named holds) (last _ _ alsoNamed alsoHolds)
      obtain ⟨rfl, rfl⟩ := holds.unique alsoHolds length
      rfl
    | phrase valueless => exact absurd holds (valueless _ _ named)
    | run valueless => exact absurd holds (valueless _ _ named)
  | phrase valueless holds =>
    cases also with
    | value named alsoHolds => exact absurd alsoHolds (valueless _ _ named)
    | phrase _ alsoHolds => exact holds.unique alsoHolds
    | run _ phraseless => exact absurd holds (phraseless _ _)
  | run valueless phraseless _ nonblank begins longest =>
    cases also with
    | value named holds => exact absurd holds (valueless _ _ named)
    | phrase _ holds => exact absurd holds (phraseless _ _)
    | run _ _ _ alsoNonblank alsoBegins alsoLongest =>
      have length :=
        Nat.le_antisymm (alsoLongest _ begins nonblank) (longest _ alsoBegins alsoNonblank)
      exact (List.prefix_of_prefix_length_le begins alsoBegins (Nat.le_of_eq length)).eq_of_length
        length

/-! ## What the pattern settles on -/

theorem first?_literalPattern :
    literalPattern.first? text = (literal? text).map fun literal => text.drop literal.length := by
  refine Pattern.first?_eq_of_mem_iff fun rest => ?_
  simp only [mem_rests_literalPattern, Option.map_eq_some_iff, literal?_eq_some_iff]
  constructor
  · rintro ⟨literal, closed, rfl⟩
    exact ⟨literal, ⟨closed, List.prefix_append _ _⟩, List.drop_left⟩
  · rintro ⟨literal, ⟨closed, behind, rfl⟩, rfl⟩
    exact ⟨literal, closed, by rw [List.drop_left]⟩

theorem first?_valuePattern :
    valuePattern.first? (c :: rest) =
      if c = ':' then (literal? rest).map fun literal => rest.drop literal.length else none := by
  rw [valuePattern, Pattern.first?_follow, Pattern.rests_char]
  split
  · rw [List.findSome?_singleton, first?_literalPattern]
  · rfl

/-- The longest run comes first, so the last value that closes is the one that is settled on. -/
theorem first?_run_value :
    (Pattern.follow nonblankPattern.many valuePattern).first? text =
      (lastQuotedValue? text).map fun value => text.drop value.length := by
  rw [Pattern.first?_follow]
  induction text with
  | nil => rfl
  | cons c rest ih =>
    rw [nonblankPattern, Pattern.rests_many_one, lastQuotedValue?]
    cases blank : isBlank c with
    | true =>
      have other : c ≠ ':' := by
        rintro rfl
        cases blank
      simp [first?_valuePattern, other]
    | false =>
      rw [← nonblankPattern, if_pos (by rfl), List.findSome?_append, ih,
        List.findSome?_singleton, first?_valuePattern]
      cases lastQuotedValue? rest with
      | some value => rfl
      | none =>
        by_cases colon : c = ':'
        · simp [colon, Function.comp_def]
        · simp [colon]

theorem first?_phrase :
    (Pattern.follow (Pattern.char '-').optional literalPattern).first? text =
      (signedLiteral? text).map fun phrase => text.drop phrase.length := by
  rw [Pattern.first?_follow, Pattern.rests_optional, List.findSome?_append, List.findSome?_singleton,
    first?_literalPattern]
  cases text with
  | nil => rfl
  | cons c rest =>
    rw [Pattern.rests_char, signedLiteral?]
    by_cases minus : c = '-'
    · have unopened : literal? (c :: rest) = none :=
        literal?_eq_none fun opened => by
          rw [minus] at opened
          cases opened
      rw [if_pos minus, if_pos minus, unopened, List.findSome?_singleton, first?_literalPattern,
        Option.map_map]
      simp [Function.comp_def]
    · rw [if_neg minus, if_neg minus]
      rfl

theorem first?_run : nonblankPattern.many.first? text = some (text.drop (run text).length) := by
  unfold Pattern.first?
  induction text with
  | nil => rfl
  | cons c rest ih =>
    rw [nonblankPattern, Pattern.rests_many_one]
    cases blank : isBlank c with
    | true => simp [run, blank]
    | false =>
      rw [← nonblankPattern, Bool.not_false, if_pos rfl, List.head?_append, ih]
      simp [run, blank]

theorem rests_some_nonblank (nonblank : isBlank c = false) :
    nonblankPattern.some.rests (c :: rest) = nonblankPattern.many.rests rest := by
  rw [Pattern.some, Pattern.rests_follow]
  conv => lhs; rw [nonblankPattern, Pattern.rests_one_cons, nonblank]
  exact List.flatMap_singleton _ _

/-- From a character that is not blank the pattern settles on the term that the scanner reads. -/
theorem first?_termPattern (nonblank : isBlank c = false) :
    termPattern.first? (c :: rest) = some ((c :: rest).drop (termAt c rest).length) := by
  have named : (Pattern.follow nonblankPattern.some valuePattern).first? (c :: rest) =
      (lastQuotedValue? rest).map fun value => rest.drop value.length := by
    rw [← first?_run_value, Pattern.first?_follow, Pattern.first?_follow,
      rests_some_nonblank nonblank]
  have ran : nonblankPattern.some.first? (c :: rest) =
      some ((c :: rest).drop (run (c :: rest)).length) := by
    rw [Pattern.first?, rests_some_nonblank nonblank, ← Pattern.first?, first?_run]
    simp [run, nonblank]
  rw [termPattern, Pattern.first?_either, Pattern.first?_either, named, first?_phrase, ran, termAt]
  cases lastQuotedValue? rest with
  | some value => rfl
  | none =>
    cases signedLiteral? (c :: rest) with
    | some phrase => rfl
    | none => rfl

/-- A search stands still only before blanks and at the end. -/
theorem first?_termPattern_blank (gap : AtGap text) : termPattern.first? text = none := by
  cases text with
  | nil => rfl
  | cons c rest =>
    have blank : isBlank c = true := gap c rfl
    have stops : nonblankPattern.some.rests (c :: rest) = [] := by
      rw [Pattern.some, Pattern.rests_follow, nonblankPattern, Pattern.rests_one_cons, blank]
      rfl
    have unsigned : signedLiteral? (c :: rest) = none := by
      rw [signedLiteral?, if_neg (fun same => by cases same; cases blank)]
      exact literal?_eq_none fun opened => by cases opened; cases blank
    rw [termPattern, Pattern.first?_either, Pattern.first?_either, Pattern.first?_follow,
      first?_phrase, Pattern.first?, stops, unsigned]
    rfl

theorem takes_termPattern : termPattern.Takes := by
  have nonblank : nonblankPattern.some.Takes := (Pattern.takes_one _).followed
  have quote : literalPattern.Takes := (Pattern.takes_one _).followed
  exact nonblank.followed.either (quote.behind.either nonblank)

theorem first?_termPattern_eq_none_iff : termPattern.first? text = none ↔ AtGap text := by
  refine ⟨fun stands => ?_, first?_termPattern_blank⟩
  cases text with
  | nil => exact atGap_nil
  | cons c rest =>
    cases blank : isBlank c with
    | true => exact atGap_cons blank
    | false =>
      rw [first?_termPattern blank] at stands
      cases stands

/-- The pattern leaves what stands behind the term of the rule, and reading goes on there. -/
theorem endsTerm_of_first? (settles : termPattern.first? text = some rest) :
    ∃ term, EndsTerm text term ∧ text = term ++ rest ∧ terms text = term :: terms rest := by
  cases text with
  | nil => cases settles
  | cons c more =>
    cases blank : isBlank c with
    | true =>
      rw [first?_termPattern_blank (atGap_cons blank)] at settles
      cases settles
    | false =>
      have ends : EndsTerm (c :: more) (termAt c more) := endsTerm_termAt blank
      obtain ⟨behind, written⟩ : termAt c more <+: c :: more := termAt_begins
      obtain ⟨d, inner, taken⟩ := List.exists_cons_of_ne_nil ends.nonempty
      rw [first?_termPattern blank, ← written, List.drop_left, Option.some.injEq] at settles
      subst settles
      rw [taken, List.cons_append] at written
      obtain ⟨rfl, rfl⟩ := List.cons.inj written
      exact ⟨d :: inner, taken ▸ ends, rfl, terms_cons blank taken⟩

/-! ## Searching -/

variable {place start stop : Nat} {span : Span} {spans others : List Span}

theorem blank_of_skipped
    (skipped : ∀ i, place ≤ i → i < stop → termPattern.first? (text.drop i) = none) {i : Nat}
    (behind : place ≤ i) (before : i < stop) (found : text[i]? = some c) : isBlank c = true := by
  have gap : AtGap (text.drop i) := first?_termPattern_eq_none_iff.mp (skipped i behind before)
  exact gap c (by rw [List.head?_drop, found]; rfl)

/-- Blanks from a place to another are passed over. -/
theorem terms_drop (blank : ∀ i c, place ≤ i → i < stop → text[i]? = some c → isBlank c = true)
    (ahead : place ≤ stop) : terms (text.drop place) = terms (text.drop stop) := by
  have divided : text.drop place = (text.drop place).take (stop - place) ++ text.drop stop := by
    conv => lhs; rw [← List.take_append_drop (stop - place) (text.drop place)]
    rw [List.drop_drop, Nat.add_sub_of_le ahead]
  rw [divided]
  refine terms_blanks fun c member => ?_
  obtain ⟨i, found⟩ := List.mem_iff_getElem?.mp member
  have bound : i < stop - place := by
    by_contra beyond
    rw [List.getElem?_take_eq_none (Nat.not_lt.mp beyond)] at found
    cases found
  rw [List.getElem?_take_of_lt bound, List.getElem?_drop] at found
  exact blank (place + i) c (Nat.le_add_right _ _) (by omega) found

/-- A match is a term, whole and not empty. -/
theorem span_of_matched
    (matched : termPattern.first? (text.drop span.start) = some (text.drop span.stop))
    (within : span.stop ≤ text.length) :
    span.start < span.stop ∧ EndsTerm (text.drop span.start) (span.cut text) ∧
      terms (text.drop span.start) = span.cut text :: terms (text.drop span.stop) := by
  obtain ⟨term, ends, written, read⟩ := endsTerm_of_first? matched
  have sizes := congrArg List.length written
  have positive : 0 < term.length := List.length_pos_of_ne_nil ends.nonempty
  rw [List.length_append, List.length_drop, List.length_drop] at sizes
  have taken : span.cut text = term := by
    have width : span.stop - span.start = term.length := by omega
    rw [Span.cut, List.drop_take, width, written, List.take_left]
  rw [taken]
  exact ⟨by omega, ends, read⟩

theorem Covers.next (ahead : place ≤ span.start) (nonempty : span.start < span.stop)
    (within : span.stop ≤ text.length)
    (blank : ∀ i c, place ≤ i → i < span.start → text[i]? = some c → isBlank c = true)
    (covers : Covers text span.stop others) : Covers text place (span :: others) := by
  have later : ∀ other ∈ others, span.stop ≤ other.start := fun other member =>
    (covers.within other member).1
  refine ⟨List.forall_mem_cons.mpr ⟨nonempty, covers.nonempty⟩,
    List.forall_mem_cons.mpr ⟨⟨ahead, within⟩, fun other member => ?_⟩,
    List.pairwise_cons.mpr ⟨later, covers.ordered⟩, fun i c behind found ink => ?_⟩
  · have bounds := covers.within other member
    exact ⟨by omega, bounds.2⟩
  · have started : span.start ≤ i := by
      by_contra before
      rw [blank i c behind (Nat.not_le.mp before) found] at ink
      cases ink
    by_cases inside : i < span.stop
    · refine ⟨span, ⟨List.mem_cons_self, started, inside⟩, fun other ⟨member, low, _⟩ => ?_⟩
      rcases List.mem_cons.mp member with rfl | elsewhere
      · rfl
      · have bound := later other elsewhere
        omega
    · obtain ⟨other, ⟨member, low, high⟩, only⟩ :=
        covers.covered i c (Nat.not_lt.mp inside) found ink
      refine ⟨other, ⟨List.mem_cons_of_mem _ member, low, high⟩, fun third ⟨also, lies⟩ => ?_⟩
      rcases List.mem_cons.mp also with rfl | elsewhere
      · exact absurd lies.2 inside
      · exact only third ⟨elsewhere, lies⟩

/-- What a search finds from a place on covers what is not blank there, and is what the scanner
reads, by the rule. -/
theorem searched (finds : Finds termPattern text place spans) :
    Covers text place spans ∧ terms (text.drop place) = spans.map (Span.cut · text) ∧
      ∀ span ∈ spans, EndsTerm (text.drop span.start) (span.cut text) := by
  induction finds with
  | @done place unmatched =>
    have blank {stop : Nat} (i : Nat) (c : Char) (behind : place ≤ i) (before : i < stop)
        (found : text[i]? = some c) : isBlank c = true :=
      blank_of_skipped (fun i behind _ => unmatched i behind) behind before found
    refine ⟨⟨List.forall_mem_nil _, List.forall_mem_nil _, .nil, fun i c behind found ink => ?_⟩, ?_,
      List.forall_mem_nil _⟩
    · rw [blank i c behind (Nat.lt_succ_self i) found] at ink
      cases ink
    · have passed : terms (text.drop place) = terms (text.drop (place + text.length)) :=
        terms_drop blank (Nat.le_add_right _ _)
      rw [passed, List.drop_eq_nil_of_le (Nat.le_add_left _ _)]
      rfl
  | @next place span others ahead skipped matched within goesOn ih =>
    obtain ⟨covers, reads, rule⟩ := ih
    obtain ⟨nonempty, ends, read⟩ := span_of_matched matched within
    have blank (i : Nat) (c : Char) (behind : place ≤ i) (before : i < span.start)
        (found : text[i]? = some c) : isBlank c = true :=
      blank_of_skipped skipped behind before found
    refine ⟨covers.next ahead nonempty within blank, ?_, List.forall_mem_cons.mpr ⟨ends, rule⟩⟩
    rw [terms_drop blank ahead, read, reads]
    rfl

/-- **The terms are the matches of the pattern, told by a rule.** A search for the pattern finds one
list of matches in a query, and their texts are the terms. They are not empty, follow one another
without overlap and leave only blanks out, so that every other character lies in exactly one of them.
Each is told by the text from where it starts: it ends where the last quoted value of its run closes,
else where a phrase that begins there closes, else with the run. -/
theorem terms_matched (query : List Char) :
    ∃ spans, (∀ found, Finds termPattern query 0 found ↔ found = spans) ∧
      terms query = spans.map (Span.cut · query) ∧ Covers query 0 spans ∧
      ∀ span ∈ spans, ∀ term, EndsTerm (query.drop span.start) term ↔ term = span.cut query := by
  obtain ⟨spans, finds⟩ := finds_exists takes_termPattern query 0
  obtain ⟨covers, reads, rule⟩ := searched finds
  refine ⟨spans, fun found => ⟨fun also => also.unique finds, fun same => same ▸ finds⟩, reads,
    covers, fun span member term => ⟨fun ends => ends.unique (rule span member), fun same => ?_⟩⟩
  rw [same]
  exact rule span member

end SearchCompiler.TermSpans
