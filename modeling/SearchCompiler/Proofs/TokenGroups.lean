import Mathlib.Data.List.Induction
import SearchCompiler.Query.Tokenize

/-! What the tokens of one polarity say together, told field by field. A keyword has the values of
all its tokens, a range the ends of its last one, and the free text the words of the others; the
fields come in the order in which the tokens first name them. -/
namespace SearchCompiler.TokenGroups
open Query Text

/-! ## One term -/

theorem ofTerm_unsigned {term : List Char} (unsigned : term.head? ≠ some '-') :
    SignedTerm.ofTerm term = ⟨false, term⟩ := by
  unfold SignedTerm.ofTerm
  split
  · exact absurd rfl unsigned
  · rfl

/-- A term that begins with a quote names no field, where no field begins with one. -/
theorem token_of_quote {vocabulary : Vocabulary}
    (keys : ∀ key, key ∈ vocabulary.keywords ∨ key ∈ vocabulary.ranges →
      key.toList.head? ≠ some '"') (text : List Char) :
    vocabulary.token ('"' :: text) = .words (unquote ('"' :: text)).1 := by
  have other : '"' ≠ ':' := by decide
  unfold Vocabulary.token
  rw [cutFirst, if_neg other]
  cases cutFirst ':' text with
  | none => rfl
  | some halves =>
    have unnamed : ¬ (String.ofList ('"' :: halves.1) ∈ vocabulary.keywords ∨
        String.ofList ('"' :: halves.1) ∈ vocabulary.ranges) :=
      fun named => keys _ named (by simp)
    rw [not_or] at unnamed
    simp only [Option.map_some, List.contains_eq_mem, unnamed.1, unnamed.2, decide_false,
      Bool.false_eq_true, if_false]

/-- A term without a colon names no field. -/
theorem token_of_colonless {vocabulary : Vocabulary} {body : List Char} (colonless : ':' ∉ body) :
    vocabulary.token body = .words (unquote body).1 := by
  rw [Vocabulary.token, cutFirst_eq_none_iff.mpr colonless]

/-- A keyword has the values behind the colon of its key. -/
theorem token_keyword {vocabulary : Vocabulary} {key : String} (colonless : ':' ∉ key.toList)
    (known : key ∈ vocabulary.keywords) (text : List Char) :
    vocabulary.token (key.toList ++ ':' :: text) = .keyword key (keywordValues text) := by
  rw [Vocabulary.token, cutFirst_append colonless]
  simp [known]

/-- A range has the ends behind the colon of its key. -/
theorem token_range {vocabulary : Vocabulary} {key : String} (colonless : ':' ∉ key.toList)
    (known : key ∈ vocabulary.ranges) (other : key ∉ vocabulary.keywords) (text : List Char) :
    vocabulary.token (key.toList ++ ':' :: text) = .range key (rangeEndpoints text) := by
  rw [Vocabulary.token, cutFirst_append colonless]
  simp [known, other]

/-! ## One query -/

/-- What the terms of a text say with one sign. -/
def tokensOf (vocabulary : Vocabulary) (negated : Bool) (text : List Char) : List Token :=
  vocabulary.tokens negated ((terms text).map SignedTerm.ofTerm)

/-- What a text says, term by term. -/
def parsedOf (vocabulary : Vocabulary) (text : List Char) : ParsedQuery where
  included := .ofTokens (tokensOf vocabulary false text)
  excluded := .ofTokens (tokensOf vocabulary true text)

theorem applies_iff {vocabulary : Vocabulary} {text : List Char} :
    vocabulary.applies text = true ↔
      ':' ∈ text ∧ (vocabulary.keywords ≠ [] ∨ vocabulary.ranges ≠ []) := by
  simp [Vocabulary.applies]

theorem tokenize_structured {vocabulary : Vocabulary} {query : String}
    (applies : vocabulary.applies query.toList = true) :
    tokenize vocabulary query = .structured (parsedOf vocabulary query.toList) :=
  if_pos applies

/-- A query with a colon is read term by term, where there are fields that it can name. -/
theorem tokenize_colon {vocabulary : Vocabulary} {text : List Char}
    (declared : vocabulary.keywords ≠ [] ∨ vocabulary.ranges ≠ []) (colon : ':' ∈ text) :
    tokenize vocabulary (String.ofList text) = .structured (parsedOf vocabulary text) := by
  have applies : vocabulary.applies text = true := applies_iff.mpr ⟨colon, declared⟩
  rw [← String.toList_ofList (l := text)] at applies
  rw [tokenize_structured applies, String.toList_ofList]

theorem tokens_append (vocabulary : Vocabulary) (negated : Bool) (first second : List SignedTerm) :
    vocabulary.tokens negated (first ++ second) =
      vocabulary.tokens negated first ++ vocabulary.tokens negated second := by
  unfold Vocabulary.tokens
  rw [List.filter_append, List.map_append]

/-! ## What one token says about a field -/

/-- The values that a token gives to a keyword. -/
def valuesFor (key : String) : Token → Option (List String)
  | .keyword name values => if name = key then some values else none
  | _ => none

/-- The ends that a token gives to a range. -/
def endpointsFor (key : String) : Token → Option Endpoints
  | .range name endpoints => if name = key then some endpoints else none
  | _ => none

/-- The keyword that a token names. -/
def keywordKey? : Token → Option String
  | .keyword name _ => some name
  | _ => none

/-- The range that a token names. -/
def rangeKey? : Token → Option String
  | .range name _ => some name
  | _ => none

/-- A token can only name keywords that are declared. -/
theorem keyword_declared {vocabulary : Vocabulary} {body : List Char} {key : String}
    (named : keywordKey? (vocabulary.token body) = some key) : key ∈ vocabulary.keywords := by
  unfold Vocabulary.token at named
  split at named
  · dsimp only at named
    split at named
    · next known =>
      cases named
      exact List.contains_iff_mem.mp known
    · split at named <;> cases named
  · cases named

/-- A token can only name ranges that are declared, and none that is a keyword too. -/
theorem range_declared {vocabulary : Vocabulary} {body : List Char} {key : String}
    (named : rangeKey? (vocabulary.token body) = some key) :
    key ∈ vocabulary.ranges ∧ key ∉ vocabulary.keywords := by
  unfold Vocabulary.token at named
  split at named
  · dsimp only at named
    split at named
    · cases named
    · next unknown =>
      split at named
      · next known =>
        cases named
        refine ⟨List.contains_iff_mem.mp known, fun keyword => ?_⟩
        exact unknown (List.contains_iff_mem.mpr keyword)
      · cases named
  · cases named

/-! ## What several tokens say -/

/-- All the values in some lists, in order; no value and no list are different things. -/
def gathered : List (List String) → Option (List String)
  | [] => none
  | lists => some lists.flatten

/-- Words in a row, as one text where there are any. -/
def joined : List (List Char) → List String
  | [] => []
  | words => [String.ofList (joinWords words)]

/-- A group that holds what some tokens say, and nothing else. -/
structure Gathers (group : TokenGroup) (tokens : List Token) : Prop where
  values : ∀ key, group.keywords.get? key = gathered (tokens.filterMap (valuesFor key))
  keywordOrder : group.keywords.names = (tokens.filterMap keywordKey?).eraseDups
  endpoints : ∀ key, group.ranges.get? key = (tokens.filterMap (endpointsFor key)).getLast?
  rangeOrder : group.ranges.names = (tokens.filterMap rangeKey?).eraseDups
  text : group.text = joined (tokens.filterMap Token.words?)

theorem gathered_concat (lists : List (List String)) (values : List String) :
    gathered (lists ++ [values]) = some ((gathered lists).getD [] ++ values) := by
  cases lists <;> simp [gathered]

/-- A name that is added comes last, unless it came before. -/
theorem eraseDups_concat (names : List String) (name : String) :
    (names ++ [name]).eraseDups =
      if name ∈ names.eraseDups then names.eraseDups else names.eraseDups ++ [name] := by
  rw [List.eraseDups_append, List.removeAll]
  by_cases present : name ∈ names <;> simp [present, List.eraseDups_cons]

/-- Names stand in the order in which the steps of a run first write to them. -/
theorem names_foldl {σ step : Type} (names : σ → List String) {add : σ → step → σ}
    {key? : step → Option String} {start : σ} (unwritten : names start = [])
    (adds : ∀ state step, names (add state step) = match key? step with
      | none => names state
      | some name => if name ∈ names state then names state else names state ++ [name])
    (steps : List step) : names (steps.foldl add start) = (steps.filterMap key?).eraseDups := by
  induction steps using List.reverseRecOn with
  | nil => exact unwritten
  | append_singleton earlier step ih =>
    rw [List.foldl_append, List.filterMap_append, List.foldl_cons, List.foldl_nil, adds, ih,
      List.filterMap_cons]
    cases key? step with
    | none => exact (congrArg List.eraseDups (List.append_nil _)).symm
    | some name => exact (eraseDups_concat _ name).symm

variable {tokens : List Token}

/-- The values of a keyword are those of its tokens, one list after the other. -/
theorem values_foldl (key : String) :
    (tokens.foldl addKeyword ∅).get? key = gathered (tokens.filterMap (valuesFor key)) := by
  induction tokens using List.reverseRecOn with
  | nil => rfl
  | append_singleton earlier token ih =>
    rw [List.foldl_append, List.filterMap_append, List.foldl_cons, List.foldl_nil]
    cases token with
    | keyword name values =>
      rw [addKeyword, OrderedMap.get?_alter]
      by_cases same : key = name
      · subst same
        simp [valuesFor, gathered_concat, ih]
      · simp [valuesFor, same, Ne.symm same, ih]
    | range name endpoints => simp [addKeyword, valuesFor, ih, List.filterMap_cons]
    | words text => simp [addKeyword, valuesFor, ih, List.filterMap_cons]

/-- The ends of a range are those of its last token. -/
theorem endpoints_foldl (key : String) :
    (tokens.foldl addRange ∅).get? key = (tokens.filterMap (endpointsFor key)).getLast? := by
  induction tokens using List.reverseRecOn with
  | nil => rfl
  | append_singleton earlier token ih =>
    rw [List.foldl_append, List.filterMap_append, List.foldl_cons, List.foldl_nil]
    cases token with
    | range name endpoints =>
      rw [addRange, OrderedMap.insert, OrderedMap.get?_alter]
      by_cases same : key = name
      · subst same
        simp [endpointsFor]
      · simp [endpointsFor, same, Ne.symm same, ih]
    | keyword name values => simp [addRange, endpointsFor, ih, List.filterMap_cons]
    | words text => simp [addRange, endpointsFor, ih, List.filterMap_cons]

/-- The group of some tokens holds what they say. -/
theorem gathers_ofTokens (tokens : List Token) : Gathers (.ofTokens tokens) tokens where
  values := values_foldl
  keywordOrder := by
    refine names_foldl OrderedMap.names rfl (fun map token => ?_) tokens
    cases token with
    | keyword name values => exact OrderedMap.names_alter map name _
    | range name endpoints => rfl
    | words text => rfl
  endpoints := endpoints_foldl
  rangeOrder := by
    refine names_foldl OrderedMap.names rfl (fun map token => ?_) tokens
    cases token with
    | keyword name values => rfl
    | range name endpoints => exact OrderedMap.names_alter map name _
    | words text => rfl
  text := by
    change freeTextOf tokens = _
    unfold freeTextOf
    cases tokens.filterMap Token.words? <;> rfl

/-- A token of no words says nothing. -/
theorem ofTokens_wordless (tokens : List Token) :
    TokenGroup.ofTokens (tokens ++ [.words []]) = .ofTokens tokens := by
  simp [TokenGroup.ofTokens, addKeyword, addRange, freeTextOf, Token.words?]

/-! ## Groups that agree on the fields -/

/-- Two groups with the same values and ends of the same fields in the same order. -/
structure SameFields (first second : TokenGroup) : Prop where
  keywords : first.keywords = second.keywords
  ranges : first.ranges = second.ranges

theorem SameFields.values? {first second : TokenGroup} (same : SameFields first second)
    (key : String) : first.values? key = second.values? key := by
  unfold TokenGroup.values?
  rw [same.keywords, same.ranges]

theorem SameFields.fields {first second : TokenGroup} (same : SameFields first second) :
    first.fields = second.fields := by
  unfold TokenGroup.fields
  rw [same.keywords, same.ranges]

theorem SameFields.symm {first second : TokenGroup} (same : SameFields first second) :
    SameFields second first := ⟨same.keywords.symm, same.ranges.symm⟩

theorem SameFields.trans {first second third : TokenGroup} (same : SameFields first second)
    (others : SameFields second third) : SameFields first third :=
  ⟨same.keywords.trans others.keywords, same.ranges.trans others.ranges⟩

/-- Words do not touch the fields. -/
theorem sameFields_words (before after : List Token) (text : List Char) :
    SameFields (.ofTokens (before ++ .words text :: after)) (.ofTokens (before ++ after)) where
  keywords := by simp [TokenGroup.ofTokens, addKeyword]
  ranges := by simp [TokenGroup.ofTokens, addRange]

end SearchCompiler.TokenGroups
