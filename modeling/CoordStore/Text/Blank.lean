/-!
# Blank characters

The characters of the Unicode `White_Space` property. A name made of nothing else counts as
empty, whatever script its blanks come from: the ideographic space U+3000 is as blank as
U+0020.
-/

namespace CoordStore.Text

/-- The code point ranges of `White_Space`, each given by its first and last member. -/
def blankRanges : List (Nat × Nat) :=
  [(0x9, 0xD), (0x20, 0x20), (0x85, 0x85), (0xA0, 0xA0), (0x1680, 0x1680),
   (0x2000, 0x200A), (0x2028, 0x2029), (0x202F, 0x202F), (0x205F, 0x205F),
   (0x3000, 0x3000)]

/-- Whether a character is a blank in the Unicode sense. -/
def isBlank (c : Char) : Bool :=
  blankRanges.any fun r => r.1 ≤ c.toNat && c.toNat ≤ r.2

/-- Drops the blanks at both ends of a text. -/
def trimBlanks (s : String) : String :=
  String.ofList (((s.toList.dropWhile isBlank).reverse.dropWhile isBlank).reverse)

end CoordStore.Text
