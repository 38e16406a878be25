/-!
# Sets of code points

A property of characters that a standard lists by code point is a list of ranges
(`CodeRange`), and a character has the property if a range holds its code point
(`inRanges`). White space (`isWhitespace`) is the first such property.
-/

namespace Formulary.Text

/-- The code points from `first` to `last`, both included. -/
structure CodeRange where
  first : Nat
  last : Nat
  deriving DecidableEq, Repr

/-- The range holds the code point of `c`. -/
def CodeRange.holds (r : CodeRange) (c : Char) : Bool :=
  r.first ≤ c.toNat && c.toNat ≤ r.last

/-- Some range of `ranges` holds the code point of `c`. -/
def inRanges (ranges : List CodeRange) (c : Char) : Bool :=
  ranges.any (·.holds c)

/-- The code points with the Unicode property `White_Space`. -/
def whitespaceRanges : List CodeRange :=
  [⟨0x09, 0x0D⟩, ⟨0x20, 0x20⟩, ⟨0x85, 0x85⟩, ⟨0xA0, 0xA0⟩, ⟨0x1680, 0x1680⟩, ⟨0x2000, 0x200A⟩,
   ⟨0x2028, 0x2029⟩, ⟨0x202F, 0x202F⟩, ⟨0x205F, 0x205F⟩, ⟨0x3000, 0x3000⟩]

/-- White space as Unicode has it, wider than the ASCII class of `Char.isWhitespace`. -/
def isWhitespace (c : Char) : Bool :=
  inRanges whitespaceRanges c

end Formulary.Text
