import SearchCompiler.Proofs.TermScanning
import SearchCompiler.Proofs.TokenGroups

/-! The language of queries, written and read back. A query is a row of items, each with or without
a minus sign: values of a keyword, bare or quoted, the two ends of a range, a quoted phrase, or a
word. Reading what was written gives for both signs what the items of that sign say, whatever stands
between and beside them. -/
namespace SearchCompiler.QueryLanguage
open Query Text
open TermScanning TokenGroups

/-! ## Items -/

/-- One thing that a query can say. -/
inductive Item where
  /-- Values of a keyword, separated by commas. -/
  | bare (key : String) (values : List (List Char))
  /-- One value of a keyword, in quotes. -/
  | quoted (key : String) (value : List Char)
  | range (key : String) (start stop : List Char)
  /-- Free text in quotes. -/
  | phrase (text : List Char)
  | word (text : List Char)

/-- An item as it is written, its sign apart. -/
def Item.written : Item → List Char
  | .bare key values => key.toList ++ ':' :: List.intercalate [','] values
  | .quoted key value => key.toList ++ ':' :: '"' :: escape value ++ ['"']
  | .range key start stop => key.toList ++ ':' :: (start ++ '-' :: stop)
  | .phrase text => '"' :: escape text ++ ['"']
  | .word text => text

/-- What an item says: its values in order, its ends, or its text. -/
def Item.token : Item → Token
  | .bare key values => .keyword key (values.map String.ofList)
  | .quoted key value => .keyword key [String.ofList value]
  | .range key start stop => .range key ⟨String.ofList start, String.ofList stop⟩
  | .phrase text => .words text
  | .word text => .words text

/-- An item that is asked for or excluded. -/
structure SignedItem where
  negated : Bool
  item : Item

def SignedItem.written (signed : SignedItem) : List Char :=
  (if signed.negated then ['-'] else []) ++ signed.item.written

/-- What the items of one sign say, in order. -/
def said (negated : Bool) (items : List SignedItem) : List Token :=
  (items.filter fun signed => signed.negated == negated).map fun signed => signed.item.token

/-! ## What can be written -/

/-- Text that holds neither a blank nor a quote. -/
structure IsBare (text : List Char) : Prop where
  nonblank : ∀ c ∈ text, isBlank c = false
  quoteless : '"' ∉ text

/-- Text that can be written in quotes. A backslash would be read with what follows it, and a colon
at the end would make the closing quote open a value. -/
structure IsQuotable (text : List Char) : Prop where
  plain : '\\' ∉ text
  closed : text.getLast? ≠ some ':'

/-- A key that a term can begin with. -/
structure IsKey (key : List Char) : Prop extends IsBare key where
  nonempty : key ≠ []
  colonless : ':' ∉ key
  unsigned : key.head? ≠ some '-'

/-- Fields that can be told apart: there are some, with keys that a term can begin with, and none is
both a keyword and a range. -/
structure IsPlain (vocabulary : Vocabulary) : Prop where
  some : vocabulary.keywords ≠ [] ∨ vocabulary.ranges ≠ []
  disjoint : ∀ key ∈ vocabulary.keywords, key ∉ vocabulary.ranges
  keys : ∀ key, key ∈ vocabulary.keywords ∨ key ∈ vocabulary.ranges → IsKey key.toList

/-- The items that can be written. -/
inductive Writable (vocabulary : Vocabulary) : Item → Prop
  | bare {key : String} {values : List (List Char)} (declared : key ∈ vocabulary.keywords)
      (some : values ≠ [])
      (each : ∀ value ∈ values, value ≠ [] ∧ ',' ∉ value ∧ IsBare value) :
      Writable vocabulary (.bare key values)
  | quoted {key : String} {value : List Char} (declared : key ∈ vocabulary.keywords)
      (quotable : IsQuotable value) : Writable vocabulary (.quoted key value)
  | range {key : String} {start stop : List Char} (declared : key ∈ vocabulary.ranges)
      (undivided : '-' ∉ start) (bareStart : IsBare start) (bareStop : IsBare stop) :
      Writable vocabulary (.range key start stop)
  | phrase {text : List Char} (nonempty : text ≠ []) (quotable : IsQuotable text) :
      Writable vocabulary (.phrase text)
  | word {text : List Char} (nonempty : text ≠ []) (bare : IsBare text) (colonless : ':' ∉ text)
      (unsigned : text.head? ≠ some '-') : Writable vocabulary (.word text)

theorem isBare_iff {text : List Char} :
    IsBare text ↔ (text.all fun c => !isBlank c && c != '"') = true := by
  rw [List.all_eq_true]
  constructor
  · rintro ⟨nonblank, quoteless⟩ c member
    have plain : c ≠ '"' := fun same => quoteless (same ▸ member)
    simp [nonblank c member, plain]
  · intro each
    refine ⟨fun c member => ?_, fun quote => ?_⟩
    · have both := each c member
      rw [Bool.and_eq_true, Bool.not_eq_true'] at both
      exact both.1
    · exact absurd (each '"' quote) (by decide)

instance (text : List Char) : Decidable (IsBare text) := decidable_of_iff _ isBare_iff.symm

theorem IsBare.append {front back : List Char} (bareFront : IsBare front) (bareBack : IsBare back) :
    IsBare (front ++ back) where
  nonblank := List.forall_mem_append.mpr ⟨bareFront.nonblank, bareBack.nonblank⟩
  quoteless := by
    rw [List.mem_append, not_or]
    exact ⟨bareFront.quoteless, bareBack.quoteless⟩

theorem IsBare.cons {c : Char} {text : List Char} (nonblank : isBlank c = false) (plain : c ≠ '"')
    (bare : IsBare text) : IsBare (c :: text) where
  nonblank := List.forall_mem_cons.mpr ⟨nonblank, bare.nonblank⟩
  quoteless := by
    rw [List.mem_cons, not_or]
    exact ⟨Ne.symm plain, bare.quoteless⟩

theorem IsBare.intercalate {texts : List (List Char)} (bare : ∀ text ∈ texts, IsBare text) :
    IsBare (List.intercalate [','] texts) := by
  have comma : IsBare [','] := by decide
  induction texts with
  | nil => exact ⟨by simp [List.intercalate], by simp [List.intercalate]⟩
  | cons text rest ih =>
    rw [List.forall_mem_cons] at bare
    cases rest with
    | nil => simpa using bare.1
    | cons next others =>
      have joined := bare.1.append (comma.append (ih bare.2))
      simpa [List.intercalate] using joined

/-- The sign of an item is no blank and no quote. -/
theorem isBare_sign (negated : Bool) : IsBare (if negated then ['-'] else []) := by
  cases negated <;> decide

/-! ## Reading one item -/

variable {vocabulary : Vocabulary} {item : Item}

/-- An item begins with a character that is no sign. -/
theorem written_head (plain : IsPlain vocabulary) (writable : Writable vocabulary item) :
    ∃ c rest, item.written = c :: rest ∧ c ≠ '-' := by
  have ofKey {key : String} (declared : key ∈ vocabulary.keywords ∨ key ∈ vocabulary.ranges)
      (rest : List Char) : ∃ c more, key.toList ++ rest = c :: more ∧ c ≠ '-' := by
    have isKey := plain.keys key declared
    cases letters : key.toList with
    | nil => exact absurd letters isKey.nonempty
    | cons c more => exact ⟨c, more ++ rest, rfl, fun same => isKey.unsigned (by simp [letters, same])⟩
  cases writable with
  | bare declared some each => exact ofKey (.inl declared) _
  | @quoted key value declared quotable => simpa [Item.written] using ofKey (.inl declared) _
  | range declared undivided bareStart bareStop => exact ofKey (.inr declared) _
  | phrase nonempty quotable => exact ⟨'"', _, rfl, by decide⟩
  | @word text nonempty bare colonless unsigned =>
    cases text with
    | nil => exact absurd rfl nonempty
    | cons c more => exact ⟨c, more, rfl, fun same => unsigned (by simp [same])⟩

/-- The sign of an item is read apart from the item. -/
theorem ofTerm_written (plain : IsPlain vocabulary) {signed : SignedItem}
    (writable : Writable vocabulary signed.item) :
    SignedTerm.ofTerm signed.written = ⟨signed.negated, signed.item.written⟩ := by
  obtain ⟨negated, item⟩ := signed
  obtain ⟨c, rest, written, unsigned⟩ := written_head plain writable
  unfold SignedItem.written
  cases negated with
  | true => simp only [written]; rfl
  | false =>
    refine ofTerm_unsigned ?_
    simpa [written] using unsigned

/-- An item is one term before any gap. -/
theorem terms_item (plain : IsPlain vocabulary) {signed : SignedItem}
    (writable : Writable vocabulary signed.item) {rest : List Char} (gap : AtGap rest) :
    terms (signed.written ++ rest) = signed.written :: terms rest := by
  obtain ⟨negated, item⟩ := signed
  have asRun (bare : IsBare item.written) :
      terms (SignedItem.written ⟨negated, item⟩ ++ rest) =
        SignedItem.written ⟨negated, item⟩ :: terms rest := by
    have whole : IsBare (SignedItem.written ⟨negated, item⟩) := (isBare_sign negated).append bare
    obtain ⟨c, more, written, _⟩ := written_head plain writable
    exact terms_run (by simp [SignedItem.written, written]) whole.nonblank whole.quoteless gap
  cases writable with
  | bare declared some each =>
    have isKey := plain.keys _ (.inl declared)
    refine asRun (isKey.toIsBare.append (IsBare.cons isBlank_colon (by decide) ?_))
    exact IsBare.intercalate fun value member => (each value member).2.2
  | @quoted key value declared quotable =>
    have isKey := plain.keys _ (.inl declared)
    have front := (isBare_sign negated).append isKey.toIsBare
    have divided := terms_quotedValue (by simp [isKey.nonempty]) front.nonblank
      (closeQuote_escape quotable.plain)
      (lastQuotedValue?_escape gap fun ends => absurd ends quotable.closed)
    simpa [SignedItem.written, Item.written] using divided
  | range declared undivided bareStart bareStop =>
    have isKey := plain.keys _ (.inr declared)
    refine asRun (isKey.toIsBare.append (IsBare.cons isBlank_colon (by decide) ?_))
    exact bareStart.append (IsBare.cons isBlank_minus (by decide) bareStop)
  | phrase nonempty quotable =>
    have sign : (if negated then ['-'] else []) = [] ∨ (if negated then ['-'] else []) = ['-'] := by
      cases negated <;> simp
    have divided := terms_escaped sign quotable.plain gap
      fun ends => absurd ends quotable.closed
    simpa [SignedItem.written, Item.written] using divided
  | word nonempty bare colonless unsigned => exact asRun bare

/-- What is read from an item is what it says. -/
theorem token_written (plain : IsPlain vocabulary) (writable : Writable vocabulary item) :
    vocabulary.token item.written = item.token := by
  cases writable with
  | @bare key values declared some each =>
    have bare := IsBare.intercalate fun value member => (each value member).2.2
    have whole : values.filter (fun value => !value.isEmpty) = values := by
      refine List.filter_eq_self.mpr fun value member => ?_
      simpa using (each value member).1
    have divided := pieces_intercalate some fun value member => (each value member).2.1
    have colonless := (plain.keys key (.inl declared)).colonless
    rw [Item.written, token_keyword colonless declared, keywordValues,
      unquote_of_quoteless bare.quoteless]
    simp [divided, whole, Item.token]
  | @quoted key value declared quotable =>
    have colonless := (plain.keys key (.inl declared)).colonless
    have read := token_keyword colonless declared ('"' :: escape value ++ ['"'])
    rw [keywordValues, unquote_escape quotable.plain] at read
    simpa [Item.written, Item.token] using read
  | @range key start stop declared undivided bareStart bareStop =>
    have bare := bareStart.append (IsBare.cons isBlank_minus (by decide) bareStop)
    have colonless := (plain.keys key (.inr declared)).colonless
    have other : key ∉ vocabulary.keywords := fun keyword => plain.disjoint key keyword declared
    rw [Item.written, token_range colonless declared other, rangeEndpoints,
      unquote_of_quoteless bare.quoteless, cutFirst_append undivided]
    rfl
  | @phrase text nonempty quotable =>
    have unnamed key (declared : key ∈ vocabulary.keywords ∨ key ∈ vocabulary.ranges) :
        key.toList.head? ≠ Option.some '"' := fun opened =>
      (plain.keys key declared).quoteless (List.mem_of_head? opened)
    have read := token_of_quote unnamed (escape text ++ ['"'])
    rw [← List.cons_append, unquote_escape quotable.plain] at read
    exact read
  | word nonempty bare colonless unsigned =>
    rw [Item.written, Vocabulary.token, cutFirst_eq_none_iff.mpr colonless,
      unquote_of_quoteless bare.quoteless]
    rfl

/-! ## Reading a row of items -/

/-- The tokens of a row are what its items say, sign by sign. -/
theorem tokens_written (plain : IsPlain vocabulary) {items : List SignedItem}
    (writable : ∀ signed ∈ items, Writable vocabulary signed.item) (negated : Bool) :
    vocabulary.tokens negated ((items.map SignedItem.written).map SignedTerm.ofTerm) =
      said negated items := by
  induction items with
  | nil => rfl
  | cons signed rest ih =>
    rw [List.forall_mem_cons] at writable
    have others := ih writable.2
    unfold Vocabulary.tokens said at others ⊢
    rw [List.map_cons, List.map_cons, ofTerm_written plain writable.1, List.filter_cons,
      List.filter_cons]
    split
    · rw [List.map_cons, List.map_cons, others, token_written plain writable.1]
    · exact others

/-- **What is written is read back.** A row of items in which a colon occurs is read as structured,
and each side of what is read holds exactly what the items of its sign say: for every keyword the
values of its items in order, for every range the ends of its last item, the fields in the order of
their first items, and the phrases and words as one text. -/
theorem tokenize_written (plain : IsPlain vocabulary) (row : Spaced SignedItem)
    (writable : ∀ signed ∈ row.items, Writable vocabulary signed.item)
    (colon : ':' ∈ row.written SignedItem.written) :
    ∃ parsed, tokenize vocabulary (String.ofList (row.written SignedItem.written)) =
        .structured parsed ∧
      Gathers parsed.included (said false row.items) ∧
      Gathers parsed.excluded (said true row.items) := by
  have divided : terms (row.written SignedItem.written) = row.items.map SignedItem.written :=
    Spaced.terms_written fun signed member _ gap => terms_item plain (writable signed member) gap
  have read (negated : Bool) : tokensOf vocabulary negated (row.written SignedItem.written) =
      said negated row.items := by
    rw [tokensOf, divided, tokens_written plain writable]
  refine ⟨parsedOf vocabulary (row.written SignedItem.written), tokenize_colon plain.some colon, ?_⟩
  rw [parsedOf, read, read]
  exact ⟨gathers_ofTokens _, gathers_ofTokens _⟩

/-- Two keywords and a range. -/
def drinks : Vocabulary := ⟨["tag", "title"], ["date"]⟩

theorem drinks_isPlain : IsPlain drinks where
  some := .inl (List.cons_ne_nil _ _)
  disjoint := by decide
  keys := by
    have typed : ∀ key ∈ ["tag", "title", "date"], IsKey key.toList := by
      intro key member
      simp only [List.mem_cons, List.not_mem_nil, or_false] at member
      obtain rfl | rfl | rfl := member
      all_goals exact ⟨by decide +kernel, by decide +kernel, by decide +kernel, by decide +kernel⟩
    rintro key (keyword | range)
    · exact typed key (List.mem_append_left ["date"] keyword)
    · exact typed key (List.mem_append_right ["tag", "title"] range)

/-- A search for red drinks that says one thing of each kind, and two of the tags. -/
def drinksRow : Spaced SignedItem where
  first := ⟨false, .bare "tag" [['r', 'e', 'd'], ['a', ':', 'b']]⟩
  others :=
    [([' '], ⟨true, .quoted "title" ['a', ' ', '"', 'b', ',', 'c']⟩),
      (['\t', '\n'], ⟨false, .range "date" ['1'] ['-', '2']⟩),
      ([' '], ⟨false, .phrase ['c', ':', 'd']⟩),
      ([' '], ⟨true, .word ['e', '-']⟩),
      ([' '], ⟨false, .quoted "tag" []⟩)]
  gaps := by
    intro other member
    simp only [List.mem_cons, List.not_mem_nil, or_false] at member
    obtain rfl | rfl | rfl | rfl | rfl := member <;> decide

/-- The row reads as it was meant. -/
theorem drinks_read_back :
    ∃ parsed, tokenize drinks (String.ofList (drinksRow.written SignedItem.written)) =
        .structured parsed ∧
      Gathers parsed.included
        [.keyword "tag" ["red", "a:b"], .range "date" ⟨"1", "-2"⟩, .words ['c', ':', 'd'],
          .keyword "tag" [""]] ∧
      Gathers parsed.excluded [.keyword "title" ["a \"b,c"], .words ['e', '-']] := by
  refine tokenize_written drinks_isPlain drinksRow ?_ (by decide +kernel)
  intro signed member
  simp only [Spaced.items, drinksRow, List.map_cons, List.map_nil, List.mem_cons, List.not_mem_nil,
    or_false] at member
  obtain rfl | rfl | rfl | rfl | rfl | rfl := member
  · refine .bare (by decide) (by decide) ?_
    intro value member
    simp only [List.mem_cons, List.not_mem_nil, or_false] at member
    obtain rfl | rfl := member <;> exact ⟨by decide, by decide, by decide⟩
  · exact .quoted (by decide) ⟨by decide, by decide⟩
  · exact .range (by decide) (by decide) (by decide) (by decide)
  · exact .phrase (by decide) ⟨by decide, by decide⟩
  · exact .word (by decide) (by decide) (by decide) (by decide)
  · exact .quoted (by decide) ⟨by decide, by decide⟩

end SearchCompiler.QueryLanguage
