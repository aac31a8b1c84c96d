import SearchCompiler.Proofs.TermScanning
import SearchCompiler.Query.Phrase

/-! Which quoted phrases a query has. The phrases are looked for in the text of a query and not in
its terms, so what stands before the quotes does not count, a minus sign no more than a word; only
the colon of a field value does. -/
namespace SearchCompiler.PhraseScanning
open Query Text
open TermScanning

variable {text rest : List Char}

theorem fieldValue?_colon (c : Char) (value : List Char) :
    fieldValue? c (':' :: value) =
      if isWordChar c then (literal? value).map (':' :: ·) else none := rfl

theorem fieldValue?_of_uncoloned {c : Char} (uncoloned : text.head? ≠ some ':') :
    fieldValue? c text = none := by
  unfold fieldValue?
  split
  · exact absurd rfl uncoloned
  · rfl

theorem fieldValue?_of_wordless {c : Char} (wordless : isWordChar c = false) :
    fieldValue? c text = none := by
  unfold fieldValue?
  split
  · rw [wordless]
    rfl
  · rfl

theorem code_of_isWordChar {c : Char} (word : isWordChar c = true) :
    0x30 ≤ c.toNat ∧ c.toNat ≤ 0x7A := by
  have between {first last : UInt32} (bounds : first ≤ c.val ∧ c.val ≤ last) :
      first.toNat ≤ c.toNat ∧ c.toNat ≤ last.toNat := bounds
  rcases Bool.or_eq_true_iff.mp word with alphanumeric | underscore
  · rcases Bool.or_eq_true_iff.mp alphanumeric with letter | digit
    · rcases Bool.or_eq_true_iff.mp letter with upper | lower
      · have code : 65 ≤ c.toNat ∧ c.toNat ≤ 90 := between (of_decide_eq_true upper)
        omega
      · obtain ⟨low, high⟩ := Bool.and_eq_true_iff.mp lower
        have code : 97 ≤ c.toNat ∧ c.toNat ≤ 122 :=
          between ⟨of_decide_eq_true low, of_decide_eq_true high⟩
        omega
    · obtain ⟨low, high⟩ := Bool.and_eq_true_iff.mp digit
      have code : 48 ≤ c.toNat ∧ c.toNat ≤ 57 :=
        between ⟨of_decide_eq_true low, of_decide_eq_true high⟩
      omega
  · rw [beq_iff_eq.mp underscore]
    decide

/-- No blank is part of a word. -/
theorem wordless_of_blank {c : Char} (blank : isBlank c = true) : isWordChar c = false := by
  refine Bool.eq_false_iff.mpr fun word => ?_
  have code := code_of_isWordChar word
  simp only [isBlank, blankRanges, List.any_cons, List.any_nil, Bool.or_eq_true, Bool.and_eq_true,
    Bool.or_false, decide_eq_true_eq] at blank
  omega

/-- A field value has a quote right behind its colon. -/
theorem fieldValue?_of_quoteless {c : Char} (quoteless : '"' ∉ text)
    (unopened : rest.head? ≠ some '"') (uncoloned : rest.head? ≠ some ':') :
    fieldValue? c (text ++ rest) = none := by
  cases text with
  | nil => exact fieldValue?_of_uncoloned uncoloned
  | cons d more =>
    by_cases colon : d = ':'
    · have unvalued : literal? (more ++ rest) = none := by
        refine literal?_eq_none fun opened => ?_
        cases more with
        | nil => exact unopened opened
        | cons e others =>
          cases opened
          exact quoteless (List.mem_cons_of_mem _ List.mem_cons_self)
      rw [colon, List.cons_append, fieldValue?_colon, unvalued, Option.map_none, ite_self]
    · refine fieldValue?_of_uncoloned ?_
      simpa using colon

/-- A character that opens nothing and begins no field value is passed over. -/
theorem phraseLiteralsFrom_skip {c : Char} (quote : c ≠ '"') (unnamed : fieldValue? c rest = none) :
    phraseLiteralsFrom 0 (c :: rest) = phraseLiteralsFrom 0 rest := by
  have unopened : literal? (c :: rest) = none :=
    literal?_eq_none fun opened => quote (Option.some.inj opened)
  rw [phraseLiteralsFrom, unnamed, unopened]

/-- Text without quotes is passed over, where neither a quote nor a colon comes next. -/
theorem phraseLiteralsFrom_quoteless (quoteless : '"' ∉ text) (unopened : rest.head? ≠ some '"')
    (uncoloned : rest.head? ≠ some ':') :
    phraseLiteralsFrom 0 (text ++ rest) = phraseLiteralsFrom 0 rest := by
  induction text with
  | nil => rfl
  | cons c more ih =>
    rw [List.mem_cons, not_or] at quoteless
    rw [List.cons_append, phraseLiteralsFrom_skip (Ne.symm quoteless.1)
      (fieldValue?_of_quoteless quoteless.2 unopened uncoloned)]
    exact ih quoteless.2

/-- Text without quotes is passed over where its run ends. -/
theorem phraseLiteralsFrom_append (quoteless : '"' ∉ text) (gap : AtGap rest) :
    phraseLiteralsFrom 0 (text ++ rest) = phraseLiteralsFrom 0 rest :=
  phraseLiteralsFrom_quoteless quoteless (gap.head?_ne isBlank_quote) (gap.head?_ne isBlank_colon)

/-- A character that is part of no word names no field, so it is passed over whatever comes next. -/
theorem phraseLiteralsFrom_wordless {c : Char} (quote : c ≠ '"') (wordless : isWordChar c = false) :
    phraseLiteralsFrom 0 (c :: rest) = phraseLiteralsFrom 0 rest :=
  phraseLiteralsFrom_skip quote (fieldValue?_of_wordless wordless)

theorem phraseLiteralsFrom_blanks {gap : List Char} (blank : ∀ c ∈ gap, isBlank c = true) :
    phraseLiteralsFrom 0 (gap ++ rest) = phraseLiteralsFrom 0 rest := by
  induction gap with
  | nil => rfl
  | cons c more ih =>
    rw [List.forall_mem_cons] at blank
    have quote : c ≠ '"' := fun same => by simp [same] at blank
    rw [List.cons_append, phraseLiteralsFrom_wordless quote (wordless_of_blank blank.1)]
    exact ih blank.2

theorem phraseLiteralsFrom_length (passed rest : List Char) :
    phraseLiteralsFrom passed.length (passed ++ rest) = phraseLiteralsFrom 0 rest := by
  induction passed with
  | nil => rfl
  | cons c more ih => exact ih

/-- A quoted text is a phrase, where no field value begins right before it. -/
theorem phraseLiteralsFrom_literal {content : List Char}
    (closed : closeQuote text = some (content, rest)) :
    phraseLiteralsFrom 0 ('"' :: text) =
      ('"' :: content ++ ['"']) :: phraseLiteralsFrom 0 rest := by
  have unnamed : fieldValue? '"' text = none := fieldValue?_of_wordless (by decide)
  have passed := phraseLiteralsFrom_length (content ++ ['"']) rest
  rw [phraseLiteralsFrom, unnamed, literal?_of_closeQuote closed, eq_append_of_closeQuote closed]
  simpa using passed

/-- The quoted value of a field is passed over. -/
theorem phraseLiteralsFrom_value {c : Char} {content : List Char} (word : isWordChar c = true)
    (closed : closeQuote text = some (content, rest)) :
    phraseLiteralsFrom 0 (c :: ':' :: '"' :: text) = phraseLiteralsFrom 0 rest := by
  have named : fieldValue? c (':' :: '"' :: text) = some (':' :: '"' :: content ++ ['"']) := by
    rw [fieldValue?_colon, if_pos word, literal?_of_closeQuote closed]
    rfl
  have passed := phraseLiteralsFrom_length (':' :: '"' :: content ++ ['"']) rest
  rw [phraseLiteralsFrom, named, eq_append_of_closeQuote closed]
  simpa using passed

/-! ## The phrases of a query -/

/-- What stands in quotes, as a phrase; empty text is none. -/
def phrase? (content : List Char) : Option (List Char) :=
  if content.isEmpty then none else some content

/-- The quoted texts that are found decide the phrases. -/
theorem phrases_congr {other : List Char}
    (same : phraseLiteralsFrom 0 text = phraseLiteralsFrom 0 other) :
    phrases text = phrases other := by
  rw [phrases, same, ← phrases]

/-- Text without backslashes, escaped and in quotes, is the first phrase of the query. -/
theorem phrases_escaped {content : List Char} (plain : '\\' ∉ content) :
    phrases ('"' :: escape content ++ '"' :: rest) = (phrase? content).toList ++ phrases rest := by
  have found : phraseLiteralsFrom 0 ('"' :: escape content ++ '"' :: rest) =
      ('"' :: escape content ++ ['"']) :: phraseLiteralsFrom 0 rest :=
    phraseLiteralsFrom_literal (closeQuote_escape plain)
  have meaning : unescape (inside ('"' :: escape content ++ ['"'])) = content := by
    simp [inside, unescape_escape plain]
  rw [phrases, found, List.map_cons, meaning, phrases, phrase?]
  cases content with
  | nil => rfl
  | cons c more => rfl

/-- A query without quotes has no phrases. -/
theorem phrases_of_quoteless (quoteless : '"' ∉ text) : phrases text = [] := by
  have none_found := phraseLiteralsFrom_append quoteless atGap_nil
  rw [List.append_nil] at none_found
  exact phrases_congr none_found

/-- A plain phrase behind text without quotes is the only one. A minus sign before it is passed over
as any other text is. -/
theorem phrases_last {sign phrase : List Char} (signed : sign = [] ∨ sign = ['-'])
    (quoteless : '"' ∉ text) (unquoted : '"' ∉ phrase) (plain : '\\' ∉ phrase) :
    phrases (text ++ ' ' :: (sign ++ '"' :: phrase ++ ['"'])) = (phrase? phrase).toList := by
  have found : phrases ('"' :: escape phrase ++ ['"']) = (phrase? phrase).toList ++ phrases [] :=
    phrases_escaped plain
  rw [escape_of_quoteless unquoted] at found
  have passed : phraseLiteralsFrom 0 (sign ++ '"' :: phrase ++ ['"']) =
      phraseLiteralsFrom 0 ('"' :: phrase ++ ['"']) := by
    obtain rfl | rfl := signed
    · rfl
    · exact phraseLiteralsFrom_wordless (by decide) (by decide)
  refine (phrases_congr ?_).trans (found.trans (List.append_nil _))
  rw [phraseLiteralsFrom_append quoteless (atGap_cons isBlank_space),
    phraseLiteralsFrom_wordless (by decide) (by decide), passed]

end SearchCompiler.PhraseScanning
