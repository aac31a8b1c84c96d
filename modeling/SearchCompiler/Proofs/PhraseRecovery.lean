import Mathlib.Data.List.Basic
import SearchCompiler.Proofs.PhraseScanning
import SearchCompiler.Proofs.QueryLanguage

/-! Quoted phrases, written and found again. The search for phrases knows no terms: it pairs quotes
from left to right, and one quote taken for another would shift every pair behind it. In a row of
words, quoted values and phrases no quote is mistaken, whatever stands between quotes and however
long the row is, so exactly the phrases are found, as they were meant and in their order. -/
namespace SearchCompiler.PhraseRecovery
open Query Text
open PhraseScanning TermScanning
open QueryLanguage (IsBare isBare_sign)

/-- One piece of a query, as far as quotes are concerned. -/
inductive Piece where
  /-- Text without quotes, of a field or not. -/
  | word (text : List Char)
  /-- A quoted value behind a key, asked for or excluded. -/
  | value (negated : Bool) (key content : List Char)
  | phrase (content : List Char)

/-- What is typed up to the quotes of a value. -/
def signedKey (negated : Bool) (key : List Char) : List Char :=
  (if negated then ['-'] else []) ++ key

def Piece.written : Piece → List Char
  | .word text => text
  | .value negated key content => signedKey negated key ++ ':' :: '"' :: escape content ++ ['"']
  | .phrase content => '"' :: escape content ++ ['"']

/-- The phrase that a piece stands for. Empty quotes stand for none. -/
def Piece.phrase? : Piece → Option (List Char)
  | .word _ => none
  | .value _ _ _ => none
  | .phrase content => PhraseScanning.phrase? content

/-- The pieces that can be written. The key of a value ends in a character by which it is known as
one; quotes may hold any text without backslashes, blanks, quotes, colons and line breaks included. -/
inductive Writable : Piece → Prop
  | word {text : List Char} (bare : IsBare text) : Writable (.word text)
  | value {negated : Bool} {key content : List Char} {last : Char} (bare : IsBare key)
      (ends : key.getLast? = some last) (word : isWordChar last = true) (plain : '\\' ∉ content) :
    Writable (.value negated key content)
  | phrase {content : List Char} (plain : '\\' ∉ content) : Writable (.phrase content)

/-- A query that is made of some pieces, with blanks between any two of them. -/
inductive Spells : List Piece → List Char → Prop
  | nothing : Spells [] []
  | row (row : Spaced Piece) : Spells row.items (row.written Piece.written)

variable {rest : List Char}

/-- A quoted value is passed over with all that stands before it up to the last gap. -/
theorem phrases_value {front content : List Char} {last : Char} (quoteless : '"' ∉ front)
    (word : isWordChar last = true) (plain : '\\' ∉ content) :
    phrases (front ++ last :: ':' :: '"' :: escape content ++ '"' :: rest) = phrases rest := by
  have passed : phraseLiteralsFrom 0 (last :: ':' :: '"' :: (escape content ++ '"' :: rest)) =
      phraseLiteralsFrom 0 rest := phraseLiteralsFrom_value word (closeQuote_escape plain)
  have unopened : some last ≠ some '"' := by
    rintro ⟨⟩
    cases word
  have uncoloned : some last ≠ some ':' := by
    rintro ⟨⟩
    cases word
  refine phrases_congr (Eq.trans ?_ passed)
  rw [List.append_assoc]
  exact phraseLiteralsFrom_quoteless quoteless unopened uncoloned

/-- Before a gap a piece is read as the phrase that it stands for, or as nothing. -/
theorem phrases_piece {piece : Piece} (writable : Writable piece) (gap : AtGap rest) :
    phrases (piece.written ++ rest) = piece.phrase?.toList ++ phrases rest := by
  cases writable with
  | word bare => exact phrases_congr (phraseLiteralsFrom_append bare.quoteless gap)
  | @value negated key content last bare ends word plain =>
    obtain ⟨front, letters⟩ := List.getLast?_eq_some_iff.mp ends
    have quoteless : '"' ∉ (if negated then ['-'] else []) ++ front := by
      have signed := ((isBare_sign negated).append bare).quoteless
      rw [letters, ← List.append_assoc] at signed
      exact fun quote => signed (List.mem_append_left _ quote)
    have passed : phrases ((if negated then ['-'] else []) ++ front ++
        last :: ':' :: '"' :: escape content ++ '"' :: rest) = phrases rest :=
      phrases_value quoteless word plain
    simpa [Piece.written, signedKey, Piece.phrase?, letters] using passed
  | @phrase content plain =>
    have found : phrases ('"' :: escape content ++ '"' :: rest) =
        (phrase? content).toList ++ phrases rest := phrases_escaped plain
    simpa [Piece.written, Piece.phrase?] using found

/-- **Exactly the phrases are found.** A query that is made of words, quoted values and phrases has
the phrases that were written into it, unescaped and in their order, empty ones left out, and no
others. -/
theorem phrases_recovered {pieces : List Piece} {query : List Char} (spells : Spells pieces query)
    (writable : ∀ piece ∈ pieces, Writable piece) :
    phrases query = pieces.filterMap Piece.phrase? := by
  cases spells with
  | nothing => rfl
  | row row =>
    rw [List.filterMap_eq_flatMap_toList]
    refine Spaced.read_written rfl (fun gap rest isGap => ?_) fun piece member rest gap => ?_
    · exact phrases_congr (phraseLiteralsFrom_blanks isGap.blank)
    · exact phrases_piece (writable piece member) gap

/-! ## A crooked query -/

/-- A word that ends in a backslash, then a phrase with quotes before a colon, a refused value that
opens with a quote, a pair of quotes around nothing, and a phrase that looks like a value. -/
def crookedRow : Spaced Piece where
  first := .word ['a', ':', '\\']
  others :=
    [([' '], .phrase ['s', 'a', 'y', ' ', '"', 'x', '"', ':', '\n']),
      (['\t', ' '], .value true ['b', ':', 'c'] ['"', ':', ' ', 'd']),
      (['\n'], .phrase []),
      ([' '], .phrase ['e', ':', '"'])]
  gaps := by
    intro other member
    simp only [List.mem_cons, List.not_mem_nil, or_false] at member
    obtain rfl | rfl | rfl | rfl := member <;> decide

/-- Its two phrases are found, with their own quotes. -/
theorem crooked_phrases_recovered :
    crookedRow.written Piece.written =
        "a:\\ \"say \\\"x\\\":\n\"\t -b:c:\"\\\": d\"\n\"\" \"e:\\\"\"".toList ∧
      phrases (crookedRow.written Piece.written) =
        ["say \"x\":\n".toList, "e:\"".toList] := by
  have writable : ∀ piece ∈ crookedRow.items, Writable piece := by
    intro piece member
    simp only [Spaced.items, crookedRow, List.map_cons, List.map_nil, List.mem_cons,
      List.not_mem_nil, or_false] at member
    obtain rfl | rfl | rfl | rfl | rfl := member
    · exact .word (by decide)
    · exact .phrase (by decide)
    · exact .value (by decide) rfl (by decide) (by decide)
    · exact .phrase (by decide)
    · exact .phrase (by decide)
  refine ⟨by decide +kernel, ?_⟩
  rw [phrases_recovered (.row crookedRow) writable]
  decide +kernel

end SearchCompiler.PhraseRecovery
