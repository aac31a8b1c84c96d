/-!
White space as Unicode defines it. Terms of a query are separated by these characters, a field
key may hold none of them, and free text made only of them counts as absent. Every reader of the
library that speaks of blanks asks `isBlank`, so the three notions cannot drift apart.
-/

namespace SearchCompiler.Text

/-- The inclusive ranges of code points that carry the White_Space property. -/
def blankRanges : List (Nat × Nat) :=
  [(0x9, 0xD), (0x20, 0x20), (0x85, 0x85), (0xA0, 0xA0), (0x1680, 0x1680), (0x2000, 0x200A),
   (0x2028, 0x2029), (0x202F, 0x202F), (0x205F, 0x205F), (0x3000, 0x3000)]

def isBlank (c : Char) : Bool :=
  blankRanges.any fun range => decide (range.1 ≤ c.toNat) && decide (c.toNat ≤ range.2)

/-- Text that holds nothing but white space; the empty text does. -/
def isBlankText (text : List Char) : Bool := text.all isBlank

/-- The longest start of a text that holds no white space. -/
def run (text : List Char) : List Char := text.takeWhile fun c => !isBlank c

end SearchCompiler.Text
