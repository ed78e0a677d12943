import StrategyDialect.Text.CodeRanges

/-!
# Blank characters

The Unicode property `White_Space`.  It holds of the no-break space and the next-line
control, and of no zero-width character.  The table is that of Unicode 15.0.
-/

namespace StrategyDialect

/-- The code points with the property `White_Space`. -/
def blankRanges : CodeRanges :=
  [(0x9, 0xD), (0x20, 0x20), (0x85, 0x85), (0xA0, 0xA0), (0x1680, 0x1680),
   (0x2000, 0x200A), (0x2028, 0x2029), (0x202F, 0x202F), (0x205F, 0x205F),
   (0x3000, 0x3000)]

/-- A character with the Unicode property `White_Space`. -/
def isBlank (c : Char) : Bool :=
  blankRanges.contains c.toNat

end StrategyDialect
