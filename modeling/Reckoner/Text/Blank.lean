/-!
# Blank characters

The characters that separate words and are otherwise dropped: the white space of Unicode,
both of its line and paragraph separators included, and the four information separators.
-/

namespace Reckoner

/-- Code points of blank characters, as ranges with both ends included. -/
def blankRanges : List (Nat × Nat) :=
  [(0x0009, 0x000D), (0x001C, 0x0020), (0x0085, 0x0085), (0x00A0, 0x00A0), (0x1680, 0x1680),
   (0x2000, 0x200A), (0x2028, 0x2029), (0x202F, 0x202F), (0x205F, 0x205F), (0x3000, 0x3000)]

def isBlank (c : Char) : Bool :=
  blankRanges.any fun range => range.1 ≤ c.toNat && c.toNat ≤ range.2

/-- The blanks that may surround a written number. The information separators may not. -/
def isPadding (c : Char) : Bool :=
  isBlank c && !(0x001C ≤ c.toNat && c.toNat ≤ 0x001F)

theorem isBlank_of_isPadding {c : Char} (padding : isPadding c = true) : isBlank c = true := by
  simp only [isPadding, Bool.and_eq_true] at padding
  exact padding.1

end Reckoner
