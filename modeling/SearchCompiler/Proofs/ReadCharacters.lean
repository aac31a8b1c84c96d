import SearchCompiler.Proofs.BuildSemantics
import SearchCompiler.Proofs.TermScanning
import SearchCompiler.Proofs.TokenGroups

/-! What is read of a query stands in it. A term is a part of the query, left as it was typed; and
taking quotes off, unescaping and dividing leave no character that was not there. -/
namespace SearchCompiler.ReadCharacters
open Build Query Settings Text
open BuildSemantics TermScanning TokenGroups

/-! ## Terms -/

variable {text rest : List Char} {c : Char}

theorem termsFrom_within {skip : Nat} {term : List Char} (member : term ∈ termsFrom skip text) :
    term <:+: text := by
  fun_induction termsFrom skip text with
  | case1 => cases member
  | case2 c rest k ih => exact List.infix_cons (ih member)
  | case3 c rest blank ih => exact List.infix_cons (ih member)
  | case4 c rest nonblank ih =>
    obtain rfl | later := List.mem_cons.mp member
    · exact termAt_begins.isInfix
    · exact List.infix_cons (ih later)

/-- A term stands in the query as it is. -/
theorem terms_within {term : List Char} (member : term ∈ terms text) : term <:+: text :=
  termsFrom_within member

/-! ## Values -/

/-- Replacing a text by a part of it brings in no character. -/
theorem replaceFrom_subset {old new : List Char} {skip : Nat} (part : new ⊆ old) :
    replaceFrom old new skip text ⊆ text := by
  fun_induction replaceFrom old new skip text with
  | case1 => exact List.Subset.refl _
  | case2 c rest k ih => exact List.subset_cons_of_subset c ih
  | case3 c rest occurs ih =>
    have here : new ⊆ c :: rest :=
      List.Subset.trans part (List.isPrefixOf_iff_prefix.mp occurs).subset
    exact List.append_subset.mpr ⟨here, List.subset_cons_of_subset c ih⟩
  | case4 c rest _ ih => exact List.cons_subset_cons c ih

theorem unquote_subset : (unquote text).1 ⊆ text := by
  unfold unquote
  split
  · have content : inside text ⊆ text :=
      List.Subset.trans (List.dropLast_subset _) (List.drop_subset 1 text)
    have unescaped : unescape (inside text) ⊆ inside text := replaceFrom_subset (by decide)
    exact List.Subset.trans unescaped content
  · exact List.Subset.refl _

theorem cutFirst_subset {separator : Char} {before after : List Char}
    (cut : cutFirst separator text = some (before, after)) : before ⊆ text ∧ after ⊆ text := by
  rw [(eq_append_of_cutFirst cut).1]
  exact ⟨List.subset_append_left _ _,
    List.subset_append_of_subset_right _ (List.subset_cons_self _ _)⟩

/-- The text is the start or the stop of a range. -/
def IsEndOf (term : List Char) (ends : Endpoints) : Prop :=
  term = ends.start.toList ∨ term = ends.stop.toList

variable {term : List Char} {ends : Endpoints}

theorem rangeEndpoints_subset (isEnd : IsEndOf term (rangeEndpoints text)) : term ⊆ text := by
  unfold rangeEndpoints at isEnd
  dsimp only at isEnd
  split at isEnd
  · next start stop cut =>
    obtain ⟨before, after⟩ := cutFirst_subset cut
    obtain rfl | rfl := isEnd
    · rw [String.toList_ofList]
      exact List.Subset.trans before unquote_subset
    · rw [String.toList_ofList]
      exact List.Subset.trans after unquote_subset
  · obtain rfl | rfl := isEnd
    · rw [String.toList_ofList]
      exact unquote_subset
    · exact List.nil_subset _

theorem token_subset {vocabulary : Vocabulary} {key : String}
    (read : vocabulary.token text = .range key ends) (isEnd : IsEndOf term ends) : term ⊆ text := by
  unfold Vocabulary.token at read
  split at read
  · next name value cut =>
    dsimp only at read
    split at read
    · cases read
    · split at read
      · cases read
        exact List.Subset.trans (rangeEndpoints_subset isEnd) (cutFirst_subset cut).2
      · cases read
  · cases read

theorem ofTerm_subset (term : List Char) : (SignedTerm.ofTerm term).body ⊆ term := by
  unfold SignedTerm.ofTerm
  split
  · exact List.subset_cons_self _ _
  · exact List.Subset.refl _

/-! ## Queries -/

/-- An end of a range that some tokens give is an end that one of them gives. -/
theorem range_given {tokens : List Token} {key : String}
    (given : (TokenGroup.ofTokens tokens).values? key = some (.range ends)) :
    .range key ends ∈ tokens := by
  unfold TokenGroup.values? at given
  split at given
  · cases given
  · obtain ⟨_, found, same⟩ := Option.map_eq_some_iff.mp given
    cases same
    rw [(gathers_ofTokens tokens).endpoints] at found
    obtain ⟨token, member, names⟩ := List.mem_filterMap.mp (List.mem_of_getLast? found)
    unfold endpointsFor at names
    split at names
    · split at names
      · next same =>
        cases names
        exact same ▸ member
      · cases names
    · cases names

theorem tokensOf_subset {vocabulary : Vocabulary} {negated : Bool} {key : String}
    (member : .range key ends ∈ tokensOf vocabulary negated text) (isEnd : IsEndOf term ends) :
    term ⊆ text := by
  obtain ⟨signed, kept, read⟩ := List.mem_map.mp member
  obtain ⟨raw, stands, rfl⟩ := List.mem_map.mp (List.mem_filter.mp kept).1
  have inTerm : term ⊆ raw := List.Subset.trans (token_subset read isEnd) (ofTerm_subset raw)
  exact List.Subset.trans inTerm (terms_within stands).subset

/-- The ends of a range that the default tokenizer reads stand in the query. -/
theorem tokenize_subset {vocabulary : Vocabulary} {query : String} {polarity : Polarity}
    {key : String}
    (given : (side (tokenize vocabulary query) polarity).values? key = some (.range ends))
    (isEnd : IsEndOf term ends) : term ⊆ query.toList := by
  unfold tokenize at given
  split at given
  · cases polarity with
    | included => exact tokensOf_subset (range_given given) isEnd
    | excluded => exact tokensOf_subset (range_given given) isEnd
  · cases given

end SearchCompiler.ReadCharacters
