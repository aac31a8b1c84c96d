import SearchCompiler.Text.Split

/-!
Text in double quotes. Inside quotes a backslash takes the next character with it, so an escaped
quote does not close; a backslash before a newline, or at the end, makes the text unclosable.
Closing and unescaping are separate readings: `closeQuote` finds the end, `unescape` rewrites what
stands between the quotes, and `unquote` takes off a pair of outer quotes without looking inside.
-/

namespace SearchCompiler.Text

/-- Read the text after an opening quote: what it holds, and what follows the closing quote.
`none` where no quote closes it. -/
def closeQuote : List Char → Option (List Char × List Char)
  | [] => none
  | c :: rest =>
    if c = '"' then some ([], rest)
    else if c = '\\' then
      match rest with
      | [] => none
      | d :: more =>
        if d = '\n' then none
        else (closeQuote more).map fun closed => ('\\' :: d :: closed.1, closed.2)
    else (closeQuote rest).map fun closed => (c :: closed.1, closed.2)

/-- The quoted text, quotes included, that begins a text; `none` where no quote begins it or none
closes it. -/
def literal? : List Char → Option (List Char)
  | [] => none
  | c :: rest =>
    if c = '"' then (closeQuote rest).map fun closed => '"' :: closed.1 ++ ['"'] else none

/-- What stands between the two ends of a text. -/
def inside (text : List Char) : List Char := (text.drop 1).dropLast

/-- What quoted text means: each `\"` is a quote and every other character is itself. -/
def unescape (text : List Char) : List Char := replaceAll ['\\', '"'] ['"'] text

/-- Whether text begins and ends with a quote, the two being different characters. -/
def isQuoted (text : List Char) : Bool :=
  decide (2 ≤ text.length) && text.head? == some '"' && text.getLast? == some '"'

/-- The meaning of text that may be quoted, and whether it was. -/
def unquote (text : List Char) : List Char × Bool :=
  if isQuoted text then (unescape (inside text), true) else (text, false)

theorem closeQuote_quote (rest : List Char) : closeQuote ('"' :: rest) = some ([], rest) := by
  unfold closeQuote
  exact if_pos rfl

theorem closeQuote_plain {c : Char} (quote : c ≠ '"') (backslash : c ≠ '\\') (rest : List Char) :
    closeQuote (c :: rest) = (closeQuote rest).map fun closed => (c :: closed.1, closed.2) := by
  conv => lhs; unfold closeQuote
  rw [if_neg quote, if_neg backslash]

theorem closeQuote_escaped (rest : List Char) :
    closeQuote ('\\' :: '"' :: rest) =
      (closeQuote rest).map fun closed => ('\\' :: '"' :: closed.1, closed.2) := by
  conv => lhs; unfold closeQuote
  rfl

/-- Closing loses only the closing quote. -/
theorem eq_append_of_closeQuote {text content rest : List Char}
    (closed : closeQuote text = some (content, rest)) : text = content ++ '"' :: rest := by
  fun_induction closeQuote text generalizing content with
  | case1 => cases closed
  | case2 => cases closed; rfl
  | case3 => cases closed
  | case4 => cases closed
  | case5 d more _ _ ih =>
    obtain ⟨⟨left, right⟩, inner, halves⟩ := Option.map_eq_some_iff.mp closed
    cases halves
    simp [ih inner]
  | case6 c more _ _ ih =>
    obtain ⟨⟨left, right⟩, inner, halves⟩ := Option.map_eq_some_iff.mp closed
    cases halves
    simp [ih inner]

/-- Text is quoted where two quotes stand around it, whatever it is. -/
theorem isQuoted_iff {text : List Char} :
    isQuoted text = true ↔ ∃ middle, text = '"' :: middle ++ ['"'] := by
  unfold isQuoted
  simp only [Bool.and_eq_true, decide_eq_true_iff, beq_iff_eq]
  constructor
  · rintro ⟨⟨long, first⟩, last⟩
    obtain ⟨rest, rfl⟩ := List.head?_eq_some_iff.mp first
    cases rest with
    | nil => exact absurd long (by decide)
    | cons c more =>
      rw [List.getLast?_cons_cons] at last
      obtain ⟨middle, ends⟩ := List.getLast?_eq_some_iff.mp last
      exact ⟨middle, congrArg (List.cons '"') ends⟩
  · rintro ⟨middle, rfl⟩
    exact ⟨⟨by simp, rfl⟩, List.getLast?_concat⟩

theorem unquote_quoted (text : List Char) :
    unquote ('"' :: text ++ ['"']) = (unescape text, true) := by
  rw [unquote, if_pos (isQuoted_iff.mpr ⟨text, rfl⟩), inside]
  simp

theorem unquote_of_quoteless {text : List Char} (quoteless : '"' ∉ text) :
    unquote text = (text, false) := by
  have unquoted : isQuoted text = false := by
    cases text with
    | nil => rfl
    | cons c rest =>
      have other : c ≠ '"' := fun same => quoteless (same ▸ List.mem_cons_self)
      simp [isQuoted, other]
  rw [unquote, unquoted]
  rfl

theorem literal?_eq_none {text : List Char} (unopened : text.head? ≠ some '"') :
    literal? text = none := by
  cases text with
  | nil => rfl
  | cons c rest => exact if_neg fun same : c = '"' => unopened (same ▸ rfl)

theorem literal?_of_closeQuote {text content rest : List Char}
    (closed : closeQuote text = some (content, rest)) :
    literal? ('"' :: text) = some ('"' :: content ++ ['"']) := by
  simp [literal?, closed]

end SearchCompiler.Text
