import SearchCompiler.Query.Group
import SearchCompiler.Query.Term

/-!
Reading a query against the fields that may be named in it. Each term is one token: values of a
keyword field, the ends of a range field, or free text. A minus sign before a term excludes it. The
tokens of one polarity are gathered by field: values of a keyword add up, a later range replaces an
earlier one, and free text is joined by spaces.
-/

namespace SearchCompiler.Query

open Text

/-- The fields that may be named in a query. A name in both lists is a keyword. -/
structure Vocabulary where
  keywords : List String
  ranges : List String
  deriving DecidableEq, Repr

/-- What one term says. -/
inductive Token where
  | keyword (key : String) (values : List String)
  | range (key : String) (endpoints : Endpoints)
  | words (text : List Char)
  deriving DecidableEq, Repr

/-- A term without its sign. -/
structure SignedTerm where
  /-- Whether a minus sign stood before the term. -/
  negated : Bool
  body : List Char
  deriving DecidableEq, Repr

/-- Take the sign off a term. A minus sign alone is a term of its own. -/
def SignedTerm.ofTerm (term : List Char) : SignedTerm :=
  match term with
  | '-' :: c :: rest => ⟨true, c :: rest⟩
  | _ => ⟨false, term⟩

/-- The values that stand behind the colon of a keyword: a quoted value is kept whole, and others
are separated by commas. -/
def keywordValues (value : List Char) : List String :=
  let (text, quoted) := unquote value
  if quoted then [String.ofList text]
  else ((pieces ',' text).filter fun piece => !piece.isEmpty).map String.ofList

/-- The ends that stand behind the colon of a range, divided at the first hyphen. -/
def rangeEndpoints (value : List Char) : Endpoints :=
  let text := (unquote value).1
  match cutFirst '-' text with
  | some (start, stop) => ⟨String.ofList start, String.ofList stop⟩
  | none => ⟨String.ofList text, ""⟩

/-- What a term says, its sign apart. -/
def Vocabulary.token (vocabulary : Vocabulary) (body : List Char) : Token :=
  match cutFirst ':' body with
  | some (key, value) =>
    let name := String.ofList key
    if vocabulary.keywords.contains name then .keyword name (keywordValues value)
    else if vocabulary.ranges.contains name then .range name (rangeEndpoints value)
    else .words (unquote body).1
  | none => .words (unquote body).1

/-- Add the values of a keyword token to those of its field. -/
def addKeyword (keywords : OrderedMap (List String)) : Token → OrderedMap (List String)
  | .keyword key values => keywords.alter key fun earlier => earlier.getD [] ++ values
  | _ => keywords

/-- Set the ends of the field of a range token. -/
def addRange (ranges : OrderedMap Endpoints) : Token → OrderedMap Endpoints
  | .range key endpoints => ranges.insert key endpoints
  | _ => ranges

/-- The free text of a token, where it has any. -/
def Token.words? : Token → Option (List Char)
  | .words text => if text.isEmpty then none else some text
  | _ => none

/-- The free text of some tokens: one entry, or none at all. -/
def freeTextOf (tokens : List Token) : List String :=
  let words := tokens.filterMap Token.words?
  if words.isEmpty then [] else [String.ofList (joinWords words)]

/-- What the tokens of one polarity say together. -/
def TokenGroup.ofTokens (tokens : List Token) : TokenGroup where
  keywords := tokens.foldl addKeyword ∅
  ranges := tokens.foldl addRange ∅
  text := freeTextOf tokens

/-- The tokens of one polarity among some terms. -/
def Vocabulary.tokens (vocabulary : Vocabulary) (negated : Bool) (terms : List SignedTerm) :
    List Token :=
  (terms.filter fun term => term.negated == negated).map fun term => vocabulary.token term.body

/-- Whether a query can hold field tokens at all. -/
def Vocabulary.applies (vocabulary : Vocabulary) (query : List Char) : Bool :=
  query.contains ':' && !(vocabulary.keywords.isEmpty && vocabulary.ranges.isEmpty)

def tokenize (vocabulary : Vocabulary) (query : String) : Reading :=
  if vocabulary.applies query.toList then
    let signed := (terms query.toList).map SignedTerm.ofTerm
    .structured
      { included := .ofTokens (vocabulary.tokens false signed)
        excluded := .ofTokens (vocabulary.tokens true signed) }
  else .bare query

end SearchCompiler.Query
