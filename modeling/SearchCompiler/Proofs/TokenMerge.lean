import SearchCompiler.Proofs.TermScanning
import SearchCompiler.Proofs.TokenGroups

/-! Two queries in a row. No term reaches over the blanks between them, unless both hold quotes, so
what they say together is what each of them says, merged field by field: values add up, a later range
replaces an earlier one, and free text is joined by a space. -/
namespace SearchCompiler.TokenMerge
open Query Text
open TermScanning TokenGroups

/-! ## Merging -/

/-- A map that holds what two others hold. Names come in the order in which they first come in the
two, and under a name of both stands what `join` makes of their values. -/
structure JoinsMaps {α : Type} (join : α → α → α) (first second whole : OrderedMap α) : Prop where
  order : whole.names = (first.names ++ second.names).eraseDups
  values : ∀ name, whole.get? name = (first.get? name).merge join (second.get? name)

/-- A group that says what two groups say, one after the other. -/
structure MergesGroups (first second whole : TokenGroup) : Prop where
  keywords : JoinsMaps (fun values more => values ++ more) first.keywords second.keywords
    whole.keywords
  ranges : JoinsMaps (fun _ later => later) first.ranges second.ranges whole.ranges
  text : whole.text = joined ((first.text ++ second.text).map String.toList)

/-- A query that says what two queries say, on either side. -/
structure Merges (first second whole : ParsedQuery) : Prop where
  included : MergesGroups first.included second.included whole.included
  excluded : MergesGroups first.excluded second.excluded whole.excluded

/-! ## There is one merge -/

theorem JoinsMaps.unique {α : Type} {join : α → α → α} {first second whole other : OrderedMap α}
    (joins : JoinsMaps join first second whole) (also : JoinsMaps join first second other) :
    whole = other :=
  OrderedMap.eq_of_get? (joins.order.trans also.order.symm) fun name =>
    (joins.values name).trans (also.values name).symm

theorem MergesGroups.unique {first second whole other : TokenGroup}
    (merges : MergesGroups first second whole) (also : MergesGroups first second other) :
    whole = other := by
  obtain ⟨keywords, ranges, text⟩ := whole
  obtain ⟨otherKeywords, otherRanges, otherText⟩ := other
  obtain rfl : keywords = otherKeywords := merges.keywords.unique also.keywords
  obtain rfl : ranges = otherRanges := merges.ranges.unique also.ranges
  obtain rfl : text = otherText := merges.text.trans also.text.symm
  rfl

theorem Merges.unique {first second whole other : ParsedQuery} (merges : Merges first second whole)
    (also : Merges first second other) : whole = other := by
  obtain ⟨included, excluded⟩ := whole
  obtain ⟨otherIncluded, otherExcluded⟩ := other
  obtain rfl : included = otherIncluded := merges.included.unique also.included
  obtain rfl : excluded = otherExcluded := merges.excluded.unique also.excluded
  rfl

/-! ## Tokens in a row -/

theorem eraseDups_eraseDups (names : List String) : names.eraseDups.eraseDups = names.eraseDups := by
  induction names using List.reverseRecOn with
  | nil => rfl
  | append_singleton earlier name ih =>
    rw [eraseDups_concat]
    by_cases present : name ∈ earlier.eraseDups
    · rw [if_pos present, ih]
    · rw [if_neg present, eraseDups_concat, ih, if_neg present]

/-- Names in the order in which they first come can be put in order part by part. -/
theorem eraseDups_parts (first second : List String) :
    (first.eraseDups ++ second.eraseDups).eraseDups = (first ++ second).eraseDups := by
  induction second using List.reverseRecOn with
  | nil =>
    rw [List.append_nil]
    exact (congrArg List.eraseDups (List.append_nil _)).trans (eraseDups_eraseDups first)
  | append_singleton earlier name ih =>
    rw [← List.append_assoc, eraseDups_concat, eraseDups_concat, ← ih]
    by_cases present : name ∈ earlier.eraseDups
    · rw [if_pos present, if_pos (List.mem_eraseDups.mpr (List.mem_append_right _ present))]
    · rw [if_neg present, ← List.append_assoc, eraseDups_concat]

theorem gathered_append (first second : List (List String)) :
    gathered (first ++ second) =
      (gathered first).merge (fun values more => values ++ more) (gathered second) := by
  cases first <;> cases second <;> simp [gathered, Option.merge]

theorem joinWords_append {first second : List (List Char)} (nonempty : first ≠ [])
    (also : second ≠ []) :
    joinWords (first ++ second) = joinWords [joinWords first, joinWords second] := by
  unfold joinWords
  induction first with
  | nil => exact absurd rfl nonempty
  | cons word rest ih =>
    cases rest with
    | nil => simp [List.intercalate_cons_of_ne_nil also]
    | cons next others =>
      rw [List.cons_append, List.intercalate_cons_of_ne_nil (by simp), ih (by simp)]
      simp [List.intercalate_cons_of_ne_nil]

theorem joined_append (first second : List (List Char)) :
    joined (first ++ second) = joined ((joined first ++ joined second).map String.toList) := by
  cases first with
  | nil => cases second <;> simp [joined, joinWords]
  | cons word rest =>
    cases second with
    | nil => simp [joined, joinWords]
    | cons next others =>
      have whole := joinWords_append (List.cons_ne_nil word rest) (List.cons_ne_nil next others)
      simp only [joined, List.cons_append] at whole ⊢
      simp [whole]

/-- What tokens in a row say is what the first and the last of them say, merged. -/
theorem merges_ofTokens (first second : List Token) :
    MergesGroups (.ofTokens first) (.ofTokens second) (.ofTokens (first ++ second)) := by
  have before := gathers_ofTokens first
  have behind := gathers_ofTokens second
  have whole := gathers_ofTokens (first ++ second)
  refine ⟨⟨?_, fun key => ?_⟩, ⟨?_, fun key => ?_⟩, ?_⟩
  · rw [whole.keywordOrder, before.keywordOrder, behind.keywordOrder, List.filterMap_append,
      eraseDups_parts]
  · rw [whole.values, before.values, behind.values, List.filterMap_append, gathered_append]
  · rw [whole.rangeOrder, before.rangeOrder, behind.rangeOrder, List.filterMap_append,
      eraseDups_parts]
  · rw [whole.endpoints, before.endpoints, behind.endpoints, List.filterMap_append,
      List.getLast?_append]
    cases (first.filterMap (endpointsFor key)).getLast? <;>
      cases (second.filterMap (endpointsFor key)).getLast? <;> rfl
  · rw [whole.text, before.text, behind.text, List.filterMap_append, joined_append]

/-! ## Queries in a row -/

variable {vocabulary : Vocabulary} {query other gap : List Char}

theorem tokensOf_gap (negated : Bool) (isGap : IsGap gap)
    (quoteless : '"' ∉ query ∨ '"' ∉ other) :
    tokensOf vocabulary negated (query ++ gap ++ other) =
      tokensOf vocabulary negated query ++ tokensOf vocabulary negated other := by
  rw [tokensOf, terms_gap isGap quoteless, List.map_append, tokens_append]
  rfl

theorem merges_parsedOf (isGap : IsGap gap) (quoteless : '"' ∉ query ∨ '"' ∉ other) :
    Merges (parsedOf vocabulary query) (parsedOf vocabulary other)
      (parsedOf vocabulary (query ++ gap ++ other)) := by
  have said (negated : Bool) :
      MergesGroups (.ofTokens (tokensOf vocabulary negated query))
        (.ofTokens (tokensOf vocabulary negated other))
        (.ofTokens (tokensOf vocabulary negated (query ++ gap ++ other))) := by
    rw [tokensOf_gap negated isGap quoteless]
    exact merges_ofTokens _ _
  exact ⟨said false, said true⟩

/-- **Tokenizing is compositional.** Two queries that name a field, with blanks between them, are
read as the merge of what is read of each, and there is one merge only. One of them may hold any
quotes, closed or not, as long as the other holds none. -/
theorem tokenize_merges {query other gap : String}
    (declared : vocabulary.keywords ≠ [] ∨ vocabulary.ranges ≠ []) (isGap : IsGap gap.toList)
    (colon : ':' ∈ query.toList) (also : ':' ∈ other.toList)
    (quoteless : '"' ∉ query.toList ∨ '"' ∉ other.toList) :
    ∃ first second whole, tokenize vocabulary query = .structured first ∧
      tokenize vocabulary other = .structured second ∧
      tokenize vocabulary (query ++ gap ++ other) = .structured whole ∧
      ∀ merged, Merges first second merged ↔ merged = whole := by
  have read {text : String} (named : ':' ∈ text.toList) :
      tokenize vocabulary text = .structured (parsedOf vocabulary text.toList) := by
    rw [← tokenize_colon declared named, String.ofList_toList]
  have named : ':' ∈ (query ++ gap ++ other).toList := by
    rw [String.toList_append]
    exact List.mem_append_right _ also
  have merges : Merges (parsedOf vocabulary query.toList) (parsedOf vocabulary other.toList)
      (parsedOf vocabulary (query ++ gap ++ other).toList) := by
    rw [String.toList_append, String.toList_append]
    exact merges_parsedOf isGap quoteless
  refine ⟨_, _, _, read colon, read also, read named, fun merged => ⟨fun others => ?_, ?_⟩⟩
  · exact others.unique merges
  · rintro rfl
    exact merges

/-! ## A pantry -/

/-- What may be named in a pantry. -/
def pantry : Vocabulary := ⟨["tag", "maker"], ["year"]⟩

/-- What is asked of the pantry first, with a quote that nothing closes. -/
def redAndOld : String := "tag:red year:2019-2021 \"old -maker:x"

def dryPort : String := "maker:y year:2022- -tag:sweet tag:dry port"

/-- The open quote keeps to its own query. The tags add up, the makers come behind them, the later
years count, and what is excluded stays apart. -/
theorem pantry_merges :
    ∃ whole, tokenize pantry (redAndOld ++ "\t " ++ dryPort) = .structured whole ∧
      whole.included.keywords.names = ["tag", "maker"] ∧
      whole.included.keywords.get? "tag" = some ["red", "dry"] ∧
      whole.included.ranges.get? "year" = some ⟨"2022", ""⟩ ∧
      whole.included.text = ["\"old port"] ∧
      whole.excluded.keywords.names = ["maker", "tag"] := by
  obtain ⟨first, second, whole, before, behind, read, only⟩ :=
    @tokenize_merges pantry redAndOld dryPort "\t " (.inl (List.cons_ne_nil _ _)) (by decide)
      (by decide +kernel) (by decide +kernel) (.inr (by decide +kernel))
  have merged := (only whole).mpr rfl
  have reads : pantry.applies redAndOld.toList = true ∧ pantry.applies dryPort.toList = true := by
    decide +kernel
  obtain rfl := Reading.structured.inj (before.symm.trans (tokenize_structured reads.1))
  obtain rfl := Reading.structured.inj (behind.symm.trans (tokenize_structured reads.2))
  refine ⟨whole, read, ?_, ?_, ?_, ?_, ?_⟩
  · rw [merged.included.keywords.order]
    decide +kernel
  · rw [merged.included.keywords.values]
    decide +kernel
  · rw [merged.included.ranges.values]
    decide +kernel
  · rw [merged.included.text]
    decide +kernel
  · rw [merged.excluded.keywords.order]
    decide +kernel

end SearchCompiler.TokenMerge
