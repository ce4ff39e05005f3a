import TypeGraph.Text.RangeTable

/-!
This file tabulates the property White_Space of Unicode 16.0. The table has 10 ranges and lists
25 characters.
-/

namespace TypeGraph.Text

/-- These ranges have the property White_Space in Unicode 16.0. -/
def blankRanges : RangeTable :=
  [(0x9, 0xD), (0x20, 0x20), (0x85, 0x85), (0xA0, 0xA0), (0x1680, 0x1680), (0x2000, 0x200A),
   (0x2028, 0x2029), (0x202F, 0x202F), (0x205F, 0x205F), (0x3000, 0x3000)]

/-- A character is blank when the property table lists it. -/
def isBlank (character : Char) : Bool :=
  blankRanges.contains character.toNat

end TypeGraph.Text
