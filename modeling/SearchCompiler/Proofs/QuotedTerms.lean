import SearchCompiler.Proofs.TermGrouping
import SearchCompiler.Proofs.TermSpans

/-! Which values count as quoted. The terms of a query are found by quotes that close, but whether a
value is quoted is told by its first and its last character alone. The two agree but for two kinds of
values: one whose last quote is escaped, so that nothing closes it and its run is the term, and one
whose closing quote opens the value that the term ends with. -/
namespace SearchCompiler.QuotedTerms
open Query Text
open Patterns QuotedContent TermGrouping TermScanning TermSpans

/-! ## Values that only look quoted -/

/-- The last quote of a value is taken by a backslash, so the value is never closed. -/
def EndsEscaped (value : List Char) : Prop :=
  ∃ content, IsContent content ∧ value = '"' :: content ++ ['\\', '"']

/-- The quote behind a colon of the value opens another one, which closes with the value. -/
def Reopened (value : List Char) : Prop :=
  ∃ front content, (∀ c ∈ front, isBlank c = false) ∧ IsContent content ∧
    value = '"' :: front ++ ':' :: '"' :: content ++ ['"']

/-- What stands before the value in its term: a sign or none, or a key and its colon. -/
inductive Leads : List Char → Prop
  | sign {sign : List Char} (signed : sign = [] ∨ sign = ['-']) : Leads sign
  | key {name : List Char} (nonempty : name ≠ []) (first : ':' ∉ name) : Leads (name ++ [':'])

variable {vocabulary : Vocabulary} {routed : Routed}
variable {text term lead inner content front behind : List Char}

/-! ## Runs that stay open -/

/-- Text on one line that a quote behind it does not close ends in the backslash that takes it. -/
theorem endsEscaped_of_unclosed (line : '\n' ∉ inner)
    (unclosed : ∀ content, IsContent content → ¬ content ++ ['"'] <+: inner ++ ['"']) :
    ∃ content, IsContent content ∧ inner = content ++ ['\\'] := by
  fun_induction closeQuote inner with
  | case1 => exact absurd List.prefix_rfl (unclosed [] ⟨[], .done⟩)
  | case2 rest => exact absurd ⟨rest ++ ['"'], rfl⟩ (unclosed [] ⟨[], .done⟩)
  | case3 => exact ⟨[], ⟨[], .done⟩, rfl⟩
  | case4 => simp at line
  | case5 d more notLine _ ih =>
    have inner : '\n' ∉ more := fun member =>
      line (List.mem_cons_of_mem _ (List.mem_cons_of_mem _ member))
    have stillOpen : ∀ content, IsContent content → ¬ content ++ ['"'] <+: more ++ ['"'] := by
      rintro content ⟨steps, reads⟩ begins
      exact unclosed ('\\' :: d :: content) ⟨_, .pair notLine reads⟩
        ((List.prefix_cons_inj '\\').mpr ((List.prefix_cons_inj d).mpr begins))
    obtain ⟨content, ⟨steps, reads⟩, rfl⟩ := ih inner stillOpen
    exact ⟨'\\' :: d :: content, ⟨_, .pair notLine reads⟩, rfl⟩
  | case6 c more quote backslash ih =>
    have inner : '\n' ∉ more := fun member => line (List.mem_cons_of_mem _ member)
    have stillOpen : ∀ content, IsContent content → ¬ content ++ ['"'] <+: more ++ ['"'] := by
      rintro content ⟨steps, reads⟩ begins
      exact unclosed (c :: content) ⟨_, .plain quote backslash reads⟩
        ((List.prefix_cons_inj c).mpr begins)
    obtain ⟨content, ⟨steps, reads⟩, rfl⟩ := ih inner stillOpen
    exact ⟨c :: content, ⟨_, .plain quote backslash reads⟩, rfl⟩

/-! ## Values in their terms -/

/-- A value that a term ends with either begins where the term's last value does, or before it. -/
theorem Leads.value_cases (leads : Leads lead) (named : front ≠ [])
    (written : lead ++ '"' :: inner = front ++ ':' :: '"' :: content) :
    inner = content ∨ ∃ between, front = lead ++ '"' :: between ∧
      inner = between ++ ':' :: '"' :: content := by
  rcases List.append_eq_append_iff.mp written with
    ⟨further, fronts, later⟩ | ⟨further, leading, later⟩
  · cases further with
    | nil => exact absurd (List.cons.inj later).1 (by decide)
    | cons d between =>
      obtain ⟨rfl, rest⟩ := List.cons.inj later
      exact .inr ⟨between, fronts, rest⟩
  · cases further with
    | nil => exact absurd (List.cons.inj later).1 (by decide)
    | cons d between =>
      obtain ⟨rfl, rest⟩ := List.cons.inj later
      cases between with
      | nil => exact .inl (List.cons.inj rest).2.symm
      | cons e others =>
        cases leads with
        | sign signed =>
          obtain ⟨d, more, rfl⟩ := List.exists_cons_of_ne_nil named
          have length := congrArg List.length leading
          obtain rfl | rfl := signed
          · cases length
          · simp at length
        | @key name _ first =>
          refine absurd ?_ first
          have ends : (name ++ [':']).dropLast = (front ++ ':' :: e :: others).dropLast :=
            congrArg List.dropLast leading
          rw [List.dropLast_concat] at ends
          rw [ends]
          simp [List.dropLast]

/-- A phrase names no field, as no quote behind a colon stands in it: its value is the phrase. -/
theorem Leads.phrase {sign : List Char} (leads : Leads lead) (signed : sign = [] ∨ sign = ['-'])
    (isContent : IsContent content) (written : lead ++ '"' :: inner = sign ++ '"' :: content) :
    inner = content := by
  cases leads with
  | sign alsoSigned =>
    obtain rfl | rfl := alsoSigned <;> obtain rfl | rfl := signed
    · exact (List.cons.inj written).2
    · exact absurd (List.cons.inj written).1 (by decide)
    · exact absurd (List.cons.inj written).1 (by decide)
    · exact (List.cons.inj (List.cons.inj written).2).2
  | @key name nonempty first =>
    have divided : name ++ ':' :: '"' :: inner = (sign ++ ['"']) ++ content := by
      simpa using written
    rcases List.append_eq_append_iff.mp divided with ⟨further, opened, later⟩ | ⟨further, _, later⟩
    · cases further with
      | nil =>
        have colon : content = [] ++ ':' :: '"' :: inner := later.symm
        exact absurd colon isContent.uncoloned
      | cons d others =>
        have colon : ':' ∈ sign ++ ['"'] := by
          rw [opened, (List.cons.inj later).1]
          simp
        obtain rfl | rfl := signed
        · exact absurd colon (by decide)
        · exact absurd colon (by decide)
    · exact absurd later isContent.uncoloned

/-- A value of a run that begins with a quote is not closed, not even behind the run. -/
theorem Leads.run_unclosed (leads : Leads lead)
    (valueless : ∀ front content, front ≠ [] → ¬ HoldsValue text front content)
    (phraseless : ∀ sign content, ¬ HoldsPhrase text sign content)
    (nonblank : ∀ c ∈ lead, isBlank c = false) (begins : lead ++ '"' :: inner ++ ['"'] <+: text) :
    ∀ content, IsContent content → ¬ content ++ ['"'] <+: inner ++ ['"'] := by
  intro content isContent closes
  have whole : lead ++ '"' :: content ++ ['"'] <+: text := by
    refine List.IsPrefix.trans ?_ begins
    rw [List.append_assoc, List.append_assoc, List.prefix_append_right_inj]
    exact (List.prefix_cons_inj '"').mpr closes
  cases leads with
  | sign signed => exact phraseless lead content ⟨signed, isContent, whole⟩
  | @key name nonempty _ =>
    refine valueless name content nonempty ⟨fun c member => ?_, isContent, ?_⟩
    · exact nonblank c (List.mem_append_left _ member)
    · simpa using whole

/-- A value of a term that begins and ends with a quote is closed, or is one of the two kinds. -/
theorem EndsTerm.quoted (ends : EndsTerm text (lead ++ '"' :: inner ++ ['"']))
    (leads : Leads lead) :
    IsClosed ('"' :: inner ++ ['"']) ∨ EndsEscaped ('"' :: inner ++ ['"']) ∨
      Reopened ('"' :: inner ++ ['"']) := by
  generalize written : lead ++ '"' :: inner ++ ['"'] = term at ends
  cases ends with
  | @value front content named holds _ =>
    rcases leads.value_cases named (List.append_cancel_right written) with rfl | ⟨between, rfl, rfl⟩
    · exact .inl ⟨inner, holds.isContent, rfl⟩
    · refine .inr (.inr ⟨between, content, fun c member => ?_, holds.isContent, rfl⟩)
      exact holds.nonblank c (List.mem_append_right _ (List.mem_cons_of_mem _ member))
  | phrase _ holds =>
    have same := leads.phrase holds.signed holds.isContent (List.append_cancel_right written)
    exact .inl ⟨inner, same ▸ holds.isContent, rfl⟩
  | run valueless phraseless _ nonblank begins _ =>
    subst written
    have leading : ∀ c ∈ lead, isBlank c = false := fun c member =>
      nonblank c (List.mem_append_left _ (List.mem_append_left _ member))
    have line : '\n' ∉ inner := fun member => by
      have blank : isBlank '\n' = false := nonblank '\n' (by simp [member])
      exact absurd blank (by decide)
    obtain ⟨content, isContent, rfl⟩ := endsEscaped_of_unclosed line
      (leads.run_unclosed valueless phraseless leading begins)
    exact .inr (.inl ⟨content, isContent, by simp⟩)

/-! ## Agreement -/

/-- What stands before the value of a routed term leads it. -/
theorem leads_of_routes (named : "" ∉ vocabulary.keywords ∧ "" ∉ vocabulary.ranges)
    (routes : Routes vocabulary term routed) :
    ∃ lead, Leads lead ∧ term = lead ++ routed.content := by
  obtain ⟨negated, place, value⟩ := routed
  obtain ⟨body, signed, goes⟩ := routes
  dsimp only at signed goes ⊢
  obtain ⟨sign, isSign, rfl⟩ : ∃ sign, (sign = [] ∨ sign = ['-']) ∧ term = sign ++ body := by
    cases signed with
    | minus => exact ⟨['-'], .inr rfl, rfl⟩
    | lone => exact ⟨[], .inl rfl, rfl⟩
    | plain => exact ⟨[], .inl rfl, rfl⟩
  have keyed {key : String} {value : List Char} (keyed : Keyed body key value) (nonempty : key ≠ "") :
      ∃ lead, Leads lead ∧ sign ++ body = lead ++ value := by
    refine ⟨(sign ++ key.toList) ++ [':'], .key ?_ ?_, ?_⟩
    · intro empty
      exact nonempty (String.toList_eq_nil_iff.mp (List.append_eq_nil_iff.mp empty).2)
    · intro member
      rcases List.mem_append.mp member with inSign | inKey
      · obtain rfl | rfl := isSign
        · cases inSign
        · exact absurd inSign (by decide)
      · exact keyed.first inKey
    · rw [keyed.divided]
      simp
  cases goes with
  | keyword isKeyed known => exact keyed isKeyed fun empty => named.1 (empty ▸ known)
  | range isKeyed known => exact keyed isKeyed fun empty => named.2 (empty ▸ known)
  | text => exact ⟨sign, .sign isSign, rfl⟩

theorem unquote_quoted_iff {value : List Char} :
    (unquote value).2 = true ↔ ∃ inner, value = '"' :: inner ++ ['"'] := by
  rw [← isQuoted_iff, unquote]
  cases isQuoted value <;> simp

theorem endsTerm_of_mem {query : List Char} (member : term ∈ terms query) :
    ∃ text, EndsTerm text term := by
  obtain ⟨spans, finds⟩ := finds_exists takes_termPattern query 0
  obtain ⟨_, reads, rule⟩ := searched finds
  change terms query = _ at reads
  rw [reads] at member
  obtain ⟨span, isSpan, rfl⟩ := List.mem_map.mp member
  exact ⟨_, rule span isSpan⟩

/-- **What counts as quoted.** Of the values in the terms of a query, the closed texts in quotes count
as quoted, and beside them just the two kinds that are not closed by their last quote: those in which
it is escaped, and those in which an earlier quote was reopened. No closed text is of these kinds. -/
theorem quoted_values_told {query : List Char}
    (named : "" ∉ vocabulary.keywords ∧ "" ∉ vocabulary.ranges) (member : term ∈ terms query)
    (routes : Routes vocabulary term routed) :
    ((unquote routed.content).2 = true ↔
      literalPattern.Whole routed.content ∨ EndsEscaped routed.content ∨
        Reopened routed.content) ∧
    (literalPattern.Whole routed.content →
      ¬ EndsEscaped routed.content ∧ ¬ Reopened routed.content) := by
  obtain ⟨lead, leads, written⟩ := leads_of_routes named routes
  obtain ⟨text, ends⟩ := endsTerm_of_mem member
  rw [written] at ends
  generalize routed.content = value at ends ⊢
  rw [unquote_quoted_iff, whole_literalPattern_iff]
  refine ⟨⟨?_, ?_⟩, ?_⟩
  · rintro ⟨inner, rfl⟩
    exact EndsTerm.quoted (by simpa using ends) leads
  · rintro (⟨content, _, rfl⟩ | ⟨content, _, rfl⟩ | ⟨front, content, _, _, rfl⟩)
    · exact ⟨content, rfl⟩
    · exact ⟨content ++ ['\\'], by simp⟩
    · exact ⟨front ++ ':' :: '"' :: content, by simp⟩
  · rintro ⟨content, isContent, rfl⟩
    constructor
    · rintro ⟨other, alsoContent, same⟩
      have behind : '"' :: content ++ ['"'] = '"' :: (other ++ ['\\']) ++ ['"'] := by
        simpa using same
      have contents := (List.cons.inj (List.append_cancel_right behind)).2
      exact alsoContent.not_backslash (contents ▸ isContent)
    · rintro ⟨front, other, _, _, same⟩
      have behind : '"' :: content ++ ['"'] = '"' :: (front ++ ':' :: '"' :: other) ++ ['"'] := by
        simpa using same
      exact isContent.uncoloned (List.cons.inj (List.append_cancel_right behind)).2

/-! ## A tag that stays open -/

def labels : Vocabulary := ⟨["tag"], []⟩

/-- The text `tag:"a,b\"`, whose last quote is escaped. -/
def openTag : List Char := ['t', 'a', 'g', ':', '"', 'a', ',', 'b', '\\', '"']

/-- The text `tag:"a:"b"`, whose second quote opens the value that the third one closes. -/
def reopenedTag : List Char := ['t', 'a', 'g', ':', '"', 'a', ':', '"', 'b', '"']

/-- The open value is no closed text, and yet its quotes are taken off and its comma divides nothing. -/
theorem open_tag_stripped :
    terms openTag = [openTag] ∧ ¬ literalPattern.Whole (openTag.drop 4) ∧
      unquote (openTag.drop 4) = (['a', ',', 'b', '\\'], true) ∧
      (tokenize labels (String.ofList openTag)).parsed?.map (·.included.keywords.entries) =
        some [("tag", ["a,b\\"])] := by
  decide +kernel

theorem labels_route {value : List Char} :
    Routes labels ('t' :: 'a' :: 'g' :: ':' :: value) ⟨false, .keyword "tag", value⟩ :=
  ⟨_, .plain (by simp), .keyword ⟨rfl, by decide⟩ (List.mem_singleton_self _)⟩

/-- Both values count as quoted, each for its own reason, and neither is a closed text. -/
theorem tags_told :
    terms (reopenedTag ++ ' ' :: openTag) = [reopenedTag, openTag] ∧
      (Reopened (reopenedTag.drop 4) ∧ (unquote (reopenedTag.drop 4)).2 = true ∧
        ¬ literalPattern.Whole (reopenedTag.drop 4)) ∧
      EndsEscaped (openTag.drop 4) ∧ (unquote (openTag.drop 4)).2 = true ∧
        ¬ literalPattern.Whole (openTag.drop 4) := by
  have divided : terms (reopenedTag ++ ' ' :: openTag) = [reopenedTag, openTag] := by decide
  have named : "" ∉ labels.keywords ∧ "" ∉ labels.ranges := by decide
  have reopened : Reopened (reopenedTag.drop 4) :=
    ⟨['a'], ['b'], List.forall_mem_singleton.mpr (by decide),
      ⟨_, .plain (by decide) (by decide) .done⟩, rfl⟩
  have escaped : EndsEscaped (openTag.drop 4) :=
    ⟨['a', ',', 'b'], ⟨_, .plain (by decide) (by decide) (.plain (by decide) (by decide)
      (.plain (by decide) (by decide) .done))⟩, rfl⟩
  obtain ⟨first, firstOpen⟩ :=
    quoted_values_told named (by rw [divided]; exact List.mem_cons_self) labels_route
  obtain ⟨second, secondOpen⟩ := quoted_values_told named
    (by rw [divided]; exact List.mem_cons_of_mem _ List.mem_cons_self) labels_route
  exact ⟨divided,
    ⟨reopened, first.mpr (.inr (.inr reopened)), fun whole => (firstOpen whole).2 reopened⟩,
    escaped, second.mpr (.inr (.inl escaped)), fun whole => (secondOpen whole).1 escaped⟩

end SearchCompiler.QuotedTerms
