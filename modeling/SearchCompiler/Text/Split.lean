/-!
Cutting and joining text. `cutFirst` divides at the first separator, `pieces` at every one, and
`replaceAll` writes one text for every occurrence of another, left to right and without overlap.
-/

namespace SearchCompiler.Text

/-- The text before and after the first occurrence of a character; `none` where there is none. -/
def cutFirst (separator : Char) : List Char → Option (List Char × List Char)
  | [] => none
  | c :: rest =>
    if c = separator then some ([], rest)
    else (cutFirst separator rest).map fun halves => (c :: halves.1, halves.2)

/-- The texts between the occurrences of a separator, empty ones included: one more than there are
occurrences. -/
def pieces (separator : Char) : List Char → List (List Char)
  | [] => [[]]
  | c :: rest =>
    if c = separator then [] :: pieces separator rest
    else match pieces separator rest with
      | first :: others => (c :: first) :: others
      | [] => [[c]]

/-- Words in a row, one space between any two. -/
def joinWords (words : List (List Char)) : List Char := List.intercalate [' '] words

/-- Replace the occurrences of a nonempty text, reading left to right and resuming after each one.
`skip` counts the characters of an occurrence that has been replaced and not yet passed. -/
def replaceFrom (old new : List Char) (skip : Nat) : List Char → List Char
  | [] => []
  | c :: rest =>
    match skip with
    | k + 1 => replaceFrom old new k rest
    | 0 =>
      if old.isPrefixOf (c :: rest) then new ++ replaceFrom old new (old.length - 1) rest
      else c :: replaceFrom old new 0 rest

/-- Replace every occurrence of `old` by `new`. The empty text occurs before each character and at
the end. -/
def replaceAll (old new text : List Char) : List Char :=
  if old.isEmpty then new ++ text.flatMap fun c => c :: new
  else replaceFrom old new 0 text

/-- A cut loses only the separator, and nothing before it holds one. -/
theorem eq_append_of_cutFirst {separator : Char} {text before after : List Char}
    (cut : cutFirst separator text = some (before, after)) :
    text = before ++ separator :: after ∧ separator ∉ before := by
  induction text generalizing before with
  | nil => cases cut
  | cons c rest ih =>
    unfold cutFirst at cut
    split at cut
    · next same => cases cut; simp [same]
    · next other =>
      obtain ⟨⟨left, right⟩, inner, halves⟩ := Option.map_eq_some_iff.mp cut
      cases halves
      obtain ⟨exact, absent⟩ := ih inner
      exact ⟨by simp [exact], by simp [Ne.symm other, absent]⟩

/-- No cut is made exactly where the separator does not occur. -/
theorem cutFirst_eq_none_iff {separator : Char} {text : List Char} :
    cutFirst separator text = none ↔ separator ∉ text := by
  induction text with
  | nil => simp [cutFirst]
  | cons c rest ih =>
    unfold cutFirst
    split
    · next same => simp [same]
    · next other => simp [ih, Ne.symm other]

/-- The first separator divides what is written on both its sides. -/
theorem cutFirst_append {separator : Char} {before : List Char} (absent : separator ∉ before)
    (after : List Char) :
    cutFirst separator (before ++ separator :: after) = some (before, after) := by
  induction before with
  | nil => exact if_pos rfl
  | cons c rest ih =>
    rw [List.mem_cons, not_or] at absent
    rw [List.cons_append, cutFirst, if_neg (Ne.symm absent.1), ih absent.2]
    rfl

/-- Text without separators is one piece. -/
theorem pieces_of_absent {separator : Char} {text : List Char} (absent : separator ∉ text) :
    pieces separator text = [text] := by
  induction text with
  | nil => rfl
  | cons c rest ih =>
    rw [List.mem_cons, not_or] at absent
    rw [pieces, if_neg (Ne.symm absent.1), ih absent.2]

theorem pieces_append {separator : Char} {before : List Char} (absent : separator ∉ before)
    (after : List Char) :
    pieces separator (before ++ separator :: after) = before :: pieces separator after := by
  induction before with
  | nil => exact if_pos rfl
  | cons c rest ih =>
    rw [List.mem_cons, not_or] at absent
    rw [List.cons_append, pieces, if_neg (Ne.symm absent.1), ih absent.2]

/-- Texts without separators are the pieces of what they are joined to. -/
theorem pieces_intercalate {separator : Char} {texts : List (List Char)} (nonempty : texts ≠ [])
    (absent : ∀ text ∈ texts, separator ∉ text) :
    pieces separator (List.intercalate [separator] texts) = texts := by
  induction texts with
  | nil => exact absurd rfl nonempty
  | cons text rest ih =>
    rw [List.forall_mem_cons] at absent
    cases rest with
    | nil => simpa using pieces_of_absent absent.1
    | cons next others =>
      have joined : List.intercalate [separator] (text :: next :: others) =
          text ++ separator :: List.intercalate [separator] (next :: others) := by
        simp [List.intercalate]
      rw [joined, pieces_append absent.1, ih (List.cons_ne_nil _ _) absent.2]

end SearchCompiler.Text
