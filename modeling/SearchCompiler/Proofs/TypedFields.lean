import SearchCompiler.Proofs.FittingQueries
import SearchCompiler.Proofs.LoneFields
import SearchCompiler.Proofs.QueryLanguage
import SearchCompiler.Proofs.ReadCharacters

/-! Fields as a person types them: a key, a colon and a value, behind a minus sign or without. Usable
settings promise that each of their keys can be typed so. The promise is kept for every key but those
that begin with a quoted text: such a key is divided behind its quotes, and the query then names the
field nowhere. -/
namespace SearchCompiler.TypedFields
open Build Query Settings Text
open BuildSemantics DefaultReading FittingQueries LoneFields QueryLanguage ReadCharacters
open TermScanning TokenGroups

/-- What can be typed behind the colon of a declared field, with what it says of that field: a value,
or the two ends of a range. -/
inductive Typed (settings : Entity) (key : String) : List Char → TokenGroup → Prop
  | value {field : Field} {value : List Char} (declared : (key, field) ∈ settings.fields.entries)
      (kind : field.kind ≠ .range) (nonempty : value ≠ []) (undivided : ',' ∉ value)
      (bare : IsBare value) :
      Typed settings key value { keywords := ⟨[(key, [String.ofList value])], by simp⟩ }
  | range {field : Field} {start stop : List Char}
      (declared : (key, field) ∈ settings.fields.entries) (kind : field.kind = .range)
      (undivided : '-' ∉ start) (bareStart : IsBare start) (bareStop : IsBare stop) :
      Typed settings key (start ++ '-' :: stop)
        { ranges := ⟨[(key, ⟨String.ofList start, String.ofList stop⟩)], by simp⟩ }

/-- A key that begins with a quoted text, closing quote included. -/
def BeginsQuoted (key : String) : Prop := (literal? key.toList).isSome = true

theorem beginsQuoted_iff {key : String} :
    BeginsQuoted key ↔ ∃ content behind, key.toList = '"' :: content ++ '"' :: behind ∧
      closeQuote (content ++ '"' :: behind) = some (content, behind) := by
  unfold BeginsQuoted
  constructor
  · intro quoted
    unfold literal? at quoted
    split at quoted
    · cases quoted
    · next c rest letters =>
      split at quoted
      · next quote =>
        obtain ⟨⟨content, behind⟩, closed⟩ := Option.isSome_iff_exists.mp (Option.isSome_map ▸ quoted)
        have written := eq_append_of_closeQuote closed
        exact ⟨content, behind, by rw [letters, quote, written]; rfl, written ▸ closed⟩
      · cases quoted
  · rintro ⟨content, behind, letters, closed⟩
    rw [letters, List.cons_append, literal?_of_closeQuote closed]
    rfl

/-! ## What names a field -/

variable {settings : Entity} {key : String} {polarity : Polarity}
variable {vocabulary : Vocabulary} {text front rest body : List Char}

/-- A field is named where a token names it. -/
theorem mem_fields_ofTokens {tokens : List Token} :
    key ∈ (TokenGroup.ofTokens tokens).fields ↔
      ∃ token ∈ tokens, keywordKey? token = some key ∨ rangeKey? token = some key := by
  have gathers := gathers_ofTokens tokens
  rw [TokenGroup.fields, gathers.keywordOrder, gathers.rangeOrder, List.mem_append,
    List.mem_eraseDups, List.mem_eraseDups, List.mem_filterMap, List.mem_filterMap]
  simp only [and_or_left, exists_or]

/-- What names a field begins with its key. -/
theorem token_names (named : keywordKey? (vocabulary.token body) = some key ∨
      rangeKey? (vocabulary.token body) = some key) :
    ∃ value, body = key.toList ++ ':' :: value := by
  unfold Vocabulary.token at named
  split at named
  · next before value cut =>
    have written := (eq_append_of_cutFirst cut).1
    dsimp only at named
    split at named
    · obtain same | other := named
      · cases same
        exact ⟨value, by rw [String.toList_ofList, written]⟩
      · cases other
    · split at named
      · obtain other | same := named
        · cases other
        · cases same
          exact ⟨value, by rw [String.toList_ofList, written]⟩
      · obtain other | other := named <;> cases other
  · obtain other | other := named <;> cases other

theorem ofTerm_suffix (term : List Char) : (SignedTerm.ofTerm term).body <:+ term := by
  unfold SignedTerm.ofTerm
  split
  · exact List.suffix_cons _ _
  · exact List.suffix_rfl

/-- A field that a query names stands in one of its terms, with its colon. -/
theorem names_within {negated : Bool}
    (named : key ∈ (TokenGroup.ofTokens (tokensOf vocabulary negated text)).fields) :
    ∃ term ∈ terms text, key.toList ++ [':'] <:+: term := by
  obtain ⟨token, read, names⟩ := mem_fields_ofTokens.mp named
  obtain ⟨signed, kept, rfl⟩ := List.mem_map.mp read
  obtain ⟨term, stands, rfl⟩ := List.mem_map.mp (List.mem_filter.mp kept).1
  obtain ⟨value, written⟩ := token_names names
  have inBody : key.toList ++ [':'] <:+: (SignedTerm.ofTerm term).body := by
    rw [written, List.append_cons _ _ value]
    exact (List.prefix_append _ _).isInfix
  exact ⟨term, stands, inBody.trans (ofTerm_suffix term).isInfix⟩

/-! ## The term of a typed field -/

/-- Before the first colon no quoted value begins. -/
theorem lastQuotedValue?_of_colonless (colonless : ':' ∉ front)
    (nothing : lastQuotedValue? rest = none) : lastQuotedValue? (front ++ rest) = none := by
  induction front with
  | nil => exact nothing
  | cons c more ih =>
    rw [List.mem_cons, not_or] at colonless
    rw [List.cons_append, lastQuotedValue?, ih colonless.2, if_neg (Ne.symm colonless.1), ite_self]

/-- Quotes before the colon never open a quoted value, and none follow. -/
theorem lastQuotedValue?_typed (colonless : ':' ∉ front) (quoteless : '"' ∉ text) :
    lastQuotedValue? (front ++ ':' :: text) = none := by
  refine lastQuotedValue?_of_colonless colonless ?_
  have plain : '"' ∉ ':' :: text := fun member =>
    quoteless ((List.mem_cons.mp member).resolve_left (by decide))
  have nothing := lastQuotedValue?_of_quoteless plain atGap_nil
  rwa [List.append_nil] at nothing

theorem signedLiteral?_sign (nonempty : body ≠ []) (unsigned : body.head? ≠ some '-') :
    signedLiteral? (sign polarity ++ body) = (literal? body).map (sign polarity ++ ·) := by
  cases polarity with
  | included =>
    obtain ⟨c, more, rfl⟩ := List.exists_cons_of_ne_nil nonempty
    have other : c ≠ '-' := fun same => unsigned (by rw [same]; rfl)
    change signedLiteral? (c :: more) = (literal? (c :: more)).map id
    rw [signedLiteral?, if_neg other, Option.map_id, id]
  | excluded => rfl

/-- A run without a quoted value that begins with no phrase is one term, quotes or not. -/
theorem terms_of_run {c : Char} (nonblank : ∀ d ∈ c :: text, isBlank d = false)
    (valueless : lastQuotedValue? text = none) (phraseless : signedLiteral? (c :: text) = none) :
    terms (c :: text) = [c :: text] := by
  have whole : termAt c (text ++ []) = c :: text := by
    rw [List.append_nil, termAt, valueless, phraseless]
    exact run_of_nonblank nonblank
  have divided := terms_cons (nonblank c List.mem_cons_self) whole
  rwa [List.append_nil] at divided

/-- A typed field is one term, unless its key begins with a quoted text. -/
theorem terms_typed (typeable : Typeable key.toList) (bare : IsBare text)
    (unquoted : literal? key.toList = none) :
    terms (typedQuery polarity key text) = [typedQuery polarity key text] := by
  obtain ⟨c, front, letters, colonless, nonblank⟩ := typeable.signed polarity
  have written : typedQuery polarity key text = c :: (front ++ ':' :: text) := by
    rw [typedQuery, letters]
    rfl
  have plain : '"' ∉ ':' :: text := fun member =>
    bare.quoteless ((List.mem_cons.mp member).resolve_left (by decide))
  have phraseless : signedLiteral? (typedQuery polarity key text) = none := by
    have nonempty : key.toList ++ ':' :: text ≠ [] :=
      List.append_ne_nil_of_left_ne_nil typeable.nonempty _
    rw [typedQuery, List.append_assoc, signedLiteral?_sign nonempty (typeable.unsigned_append _),
      literal?_append plain, unquoted, Option.map_none]
  rw [written] at phraseless ⊢
  refine terms_of_run ?_ (lastQuotedValue?_typed colonless bare.quoteless) phraseless
  rw [← List.cons_append]
  exact List.forall_mem_append.mpr ⟨nonblank, List.forall_mem_cons.mpr ⟨isBlank_colon, bare.nonblank⟩⟩

/-- A key that begins with a quoted text is divided behind it. -/
theorem terms_divided {content behind : List Char} (typeable : Typeable key.toList)
    (quoteless : '"' ∉ text) (letters : key.toList = '"' :: content ++ '"' :: behind)
    (closed : closeQuote (content ++ '"' :: behind) = some (content, behind)) :
    terms (typedQuery polarity key text) =
      (sign polarity ++ '"' :: content ++ ['"']) :: terms (behind ++ ':' :: text) := by
  have plain : '"' ∉ ':' :: text := fun member =>
    quoteless ((List.mem_cons.mp member).resolve_left (by decide))
  have colonless : ':' ∉ content ++ '"' :: behind := fun colon =>
    typeable.colonless (by rw [letters]; exact List.mem_cons_of_mem '"' colon)
  have closedHere : closeQuote (content ++ '"' :: (behind ++ ':' :: text)) =
      some (content, behind ++ ':' :: text) := by
    have extended : closeQuote (content ++ '"' :: behind ++ ':' :: text) = _ :=
      closeQuote_append plain
    rw [closed] at extended
    simpa using extended
  have valueless : lastQuotedValue? (content ++ '"' :: (behind ++ ':' :: text)) = none := by
    have none_found := lastQuotedValue?_typed colonless quoteless
    simpa using none_found
  have divided := terms_phrase (sign_eq polarity) closedHere valueless
  rw [typedQuery, letters]
  simpa using divided

/-! ## What is read -/

/-- What a typed field says is what was typed for it. -/
theorem token_typed (usable : settings.error? = none) {group : TokenGroup}
    (typed : Typed settings key text group) :
    .ofTokens [settings.vocabulary.token (key.toList ++ ':' :: text)] = group := by
  have typeable (declared : key ∈ settings.fields.names) : Typeable key.toList :=
    typeable_of_declared usable declared
  cases typed with
  | @value field _ declared kind nonempty undivided bare =>
    have known : key ∈ settings.vocabulary.keywords :=
      mem_vocabulary_keywords.mpr ⟨field, declared, kind⟩
    have values : keywordValues text = [String.ofList text] := by
      rw [keywordValues, unquote_of_quoteless bare.quoteless]
      simp [pieces_of_absent undivided, nonempty]
    rw [token_keyword (typeable (List.mem_map_of_mem declared)).colonless known, values]
    rfl
  | @range field start stop declared kind undivided bareStart bareStop =>
    have known : key ∈ settings.vocabulary.ranges :=
      mem_vocabulary_ranges.mpr ⟨field, declared, kind⟩
    have other : key ∉ settings.vocabulary.keywords := by
      intro keyword
      obtain ⟨again, declaredAgain, apart⟩ := mem_vocabulary_keywords.mp keyword
      exact apart (field_unique declaredAgain declared ▸ kind)
    have bare := bareStart.append (IsBare.cons isBlank_minus (by decide) bareStop)
    have ends : rangeEndpoints (start ++ '-' :: stop) =
        ⟨String.ofList start, String.ofList stop⟩ := by
      rw [rangeEndpoints, unquote_of_quoteless bare.quoteless, cutFirst_append undivided]
    rw [token_range (typeable (List.mem_map_of_mem declared)).colonless known other, ends]
    rfl

variable {group : TokenGroup}

theorem Typed.declared (typed : Typed settings key text group) : key ∈ settings.fields.names := by
  cases typed with
  | value declared kind nonempty undivided bare => exact List.mem_map_of_mem declared
  | range declared kind undivided bareStart bareStop => exact List.mem_map_of_mem declared

theorem Typed.bare (typed : Typed settings key text group) : IsBare text := by
  cases typed with
  | value declared kind nonempty undivided bare => exact bare
  | range declared kind undivided bareStart bareStop =>
    exact bareStart.append (IsBare.cons isBlank_minus (by decide) bareStop)

theorem Typed.names (typed : Typed settings key text group) : key ∈ group.fields := by
  cases typed <;> simp [TokenGroup.fields, OrderedMap.names]

theorem parsedOf_typed (usable : settings.error? = none) (typed : Typed settings key text group)
    (unquoted : literal? key.toList = none) :
    parsedOf settings.vocabulary (typedQuery polarity key text) = onSide polarity group := by
  have typeable := typeable_of_declared usable typed.declared
  rw [parsedOf_alone typeable (terms_typed typeable typed.bare unquoted), token_typed usable typed]

/-- Behind the quotes that its key begins with, too few are left to name the field. -/
theorem unnamed_of_beginsQuoted (typeable : Typeable key.toList) (quoteless : '"' ∉ text)
    (quoted : BeginsQuoted key) {negated : Bool} :
    key ∉ (TokenGroup.ofTokens
      (tokensOf vocabulary negated (typedQuery polarity key text))).fields := by
  intro named
  obtain ⟨content, behind, letters, closed⟩ := beginsQuoted_iff.mp quoted
  obtain ⟨term, stands, within⟩ := names_within named
  rw [terms_divided typeable quoteless letters closed] at stands
  rcases List.mem_cons.mp stands with rfl | later
  · have colon : ':' ∈ sign polarity ++ '"' :: content ++ ['"'] := within.subset (by simp)
    have absent : ':' ∉ content := fun member =>
      typeable.colonless (by rw [letters]; simp [member])
    cases polarity <;> simp [sign, absent] at colon
  · have counted := (within.trans (terms_within later)).sublist.count_le '"'
    have scarce : text.count '"' = 0 := List.count_eq_zero.mpr quoteless
    rw [letters] at counted
    simp [scarce] at counted
    omega

/-- **A typed field is read as that field, unless its key begins with a quoted text.** A declared key
of usable settings, a colon and a value or two ends are always read term by term. With any other key
the query says of that field what was typed, on the side of its sign, and nothing else; with a key
that begins with a quoted text it names the field on neither side. -/
theorem typed_field_read_iff (usable : settings.error? = none)
    (typed : Typed settings key text group) (polarity : Polarity) :
    ∃ parsed, tokenize settings.vocabulary (String.ofList (typedQuery polarity key text)) =
        .structured parsed ∧
      (parsed = onSide polarity group ↔ ¬ BeginsQuoted key) ∧
      (BeginsQuoted key → key ∉ parsed.included.fields ∧ key ∉ parsed.excluded.fields) := by
  have unnamed (quoted : BeginsQuoted key) (negated : Bool) :
      key ∉ (TokenGroup.ofTokens (tokensOf settings.vocabulary negated
        (typedQuery polarity key text))).fields :=
    unnamed_of_beginsQuoted (typeable_of_declared usable typed.declared) typed.bare.quoteless quoted
  refine ⟨_, tokenize_colon (vocabulary_nonempty (List.ne_nil_of_mem typed.declared))
    (by simp [typedQuery]), ?_, fun quoted => ⟨unnamed quoted false, unnamed quoted true⟩⟩
  constructor
  · intro same quoted
    have named := typed.names
    cases polarity with
    | included =>
      have included : TokenGroup.ofTokens _ = group := congrArg ParsedQuery.included same
      rw [← included] at named
      exact unnamed quoted false named
    | excluded =>
      have excluded : TokenGroup.ofTokens _ = group := congrArg ParsedQuery.excluded same
      rw [← excluded] at named
      exact unnamed quoted true named
  · intro unquoted
    exact parsedOf_typed usable typed (Option.not_isSome_iff_eq_none.mp unquoted)

/-! ## Screens -/

/-- Screens that are found by their inches, under a key that ends in a quote, and by their tags, under
one that stands in quotes. -/
def screens : Entity where
  fields :=
    ⟨[("size\"", { kind := .range, indexField := "inches" }),
      ("\"tag\"", { kind := .term, indexField := "tags" })], by decide⟩
  phraseFields := ["title"]

theorem screens_usable : screens.error? = none := by
  have typeable : ["size\"", "\"tag\""].findSome? keyError? = none := by decide +kernel
  exact Option.or_eq_none_iff.mpr ⟨typeable, rfl⟩

/-- A key in quotes is accepted and cannot be typed: it is read as a phrase. -/
theorem quoted_key_unread :
    screens.error? = none ∧
      tokenize screens.vocabulary "\"tag\":red" =
        .structured { included := { text := ["tag :red"] } } := by
  have asked : tokensOf screens.vocabulary false ['"', 't', 'a', 'g', '"', ':', 'r', 'e', 'd'] =
      [.words ['t', 'a', 'g'], .words [':', 'r', 'e', 'd']] := by decide +kernel
  have refused : tokensOf screens.vocabulary true ['"', 't', 'a', 'g', '"', ':', 'r', 'e', 'd'] =
      [] := by decide +kernel
  refine ⟨screens_usable, ?_⟩
  rw [tokenize_colon (.inl (by decide +kernel)) (by decide +kernel), parsedOf, asked, refused]
  rfl

/-- A key that only ends in a quote is typed as any other. -/
theorem screens_read_sizes :
    tokenize screens.vocabulary (String.ofList (typedQuery .excluded "size\"" ['2', '-', '9'])) =
      .structured (onSide .excluded { ranges := ⟨[("size\"", ⟨"2", "9"⟩)], by simp⟩ }) := by
  have typed : Typed screens "size\"" (['2'] ++ '-' :: ['9'])
      { ranges := ⟨[("size\"", ⟨String.ofList ['2'], String.ofList ['9']⟩)], by simp⟩ } :=
    .range List.mem_cons_self rfl (by decide) (by decide) (by decide)
  have unquoted : ¬ BeginsQuoted "size\"" := by
    rw [BeginsQuoted, literal?_eq_none (by decide +kernel)]
    exact Bool.noConfusion
  obtain ⟨parsed, read, same, _⟩ := typed_field_read_iff screens_usable typed .excluded
  rw [same.mpr unquoted] at read
  exact read

end SearchCompiler.TypedFields
