import SearchCompiler.Text.Blank
import SearchCompiler.Text.Quoted

/-!
The terms of a query. A term starts at a character that is not blank and is the first of these that
applies.

* A field with a quoted value: the run of nonblank characters contains `:"` after its first
  character and the quote closes. The last such place of the run counts, and the term ends at the
  closing quote, which may lie far beyond the run.
* A quoted phrase, or one behind a minus sign, that closes.
* The run itself.

Blanks between terms are skipped, so every nonblank character belongs to exactly one term.
-/

namespace SearchCompiler.Query

open Text

/-- The text, from here to its closing quote, that ends at the last closed `:"` of the run. -/
def lastQuotedValue? : List Char → Option (List Char)
  | [] => none
  | c :: rest =>
    if isBlank c then none
    else match lastQuotedValue? rest with
      | some value => some (c :: value)
      | none => if c = ':' then (literal? rest).map (c :: ·) else none

/-- The quoted phrase that begins a text, with a minus sign that may stand before it. -/
def signedLiteral? : List Char → Option (List Char)
  | [] => none
  | c :: rest => if c = '-' then (literal? rest).map (c :: ·) else literal? (c :: rest)

/-- The term that begins with a nonblank character. -/
def termAt (first : Char) (rest : List Char) : List Char :=
  match lastQuotedValue? rest with
  | some value => first :: value
  | none =>
    match signedLiteral? (first :: rest) with
    | some phrase => phrase
    | none => run (first :: rest)

/-- The terms of a text; `skip` counts the characters of the last term not yet passed. -/
def termsFrom (skip : Nat) : List Char → List (List Char)
  | [] => []
  | c :: rest =>
    match skip with
    | k + 1 => termsFrom k rest
    | 0 =>
      if isBlank c then termsFrom 0 rest
      else termAt c rest :: termsFrom ((termAt c rest).length - 1) rest

/-- The terms of a query, in order. -/
def terms (query : List Char) : List (List Char) := termsFrom 0 query

end SearchCompiler.Query
