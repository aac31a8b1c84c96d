import SearchCompiler.Text.Quoted

/-!
The quoted phrases of a query, the words that a person wants matched exactly. Quotes are paired
from left to right. A quoted text right after a word character and a colon is the value of a field
and no phrase.
-/

namespace SearchCompiler.Query

open Text

/-- The characters that may stand before the colon of a field value: ASCII letters, digits and the
underscore. -/
def isWordChar (c : Char) : Bool := c.isAlphanum || c == '_'

/-- The quoted field value that begins right behind a character: the colon and the quoted text. -/
def fieldValue? (first : Char) (rest : List Char) : Option (List Char) :=
  match rest with
  | ':' :: value => if isWordChar first then (literal? value).map (':' :: ·) else none
  | _ => none

/-- The quoted texts that are no field values, quotes included; `skip` counts the characters of the
last quoted text not yet passed. -/
def phraseLiteralsFrom (skip : Nat) : List Char → List (List Char)
  | [] => []
  | c :: rest =>
    match skip with
    | k + 1 => phraseLiteralsFrom k rest
    | 0 =>
      match fieldValue? c rest with
      | some value => phraseLiteralsFrom value.length rest
      | none =>
        match literal? (c :: rest) with
        | some literal => literal :: phraseLiteralsFrom (literal.length - 1) rest
        | none => phraseLiteralsFrom 0 rest

/-- The quoted phrases of a query in order, unescaped, empty ones left out. -/
def phrases (query : List Char) : List (List Char) :=
  ((phraseLiteralsFrom 0 query).map fun literal => unescape (inside literal)).filter
    fun phrase => !phrase.isEmpty

end SearchCompiler.Query
