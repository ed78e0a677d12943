import StrategyDialect.Text.Alphabetic
import StrategyDialect.Text.Basic
import StrategyDialect.Text.Mark
import StrategyDialect.Text.Numeral

/-!
# Word characters and names

Two notions of a character that belongs to a name live side by side.  Patterns read
*word characters*: alphabetic characters, marks, decimal digits, connectors such as the
low line, and the two joiners.  Configured names are made of *name characters*:
alphabetic characters, numerals of every kind and the low line.  Neither class holds the
other: `²` is a name character only, a combining accent is a word character only.  The
table of connectors, like those of the other classes, is that of Unicode 15.0.

## Main definitions

* `isWord`: the characters of a word in a pattern
* `isNameChar`: the characters of a configured name
* `Text.isName`, `Text.isQualifiedName`: names, and names joined by dots
-/

namespace StrategyDialect

/-- The code points of general category `Connector_Punctuation`. -/
def connectorRanges : CodeRanges :=
  [(0x5F, 0x5F), (0x203F, 0x2040), (0x2054, 0x2054), (0xFE33, 0xFE34),
   (0xFE4D, 0xFE4F), (0xFF3F, 0xFF3F)]

/-- A connector between the parts of a word, such as the low line. -/
def isConnector (c : Char) : Bool :=
  connectorRanges.contains c.toNat

/-- The zero-width joiner or non-joiner. -/
def isJoiner (c : Char) : Bool :=
  c = '\u200C' || c = '\u200D'

/-- A word character, as patterns see it. -/
def isWord (c : Char) : Bool :=
  isAlphabetic c || isMark c || isDecimalDigit c || isConnector c || isJoiner c

/-- A letter or a numeral. -/
def isAlphanumeric (c : Char) : Bool :=
  isAlphabetic c || isNumeral c

/-- A character that may stand in a name. -/
def isNameChar (c : Char) : Bool :=
  c = '_' || isAlphanumeric c

/-- A character that a name may start with. -/
def isNameStart (c : Char) : Bool :=
  c = '_' || isAlphabetic c

namespace Text

/-- A name: a letter or a low line, then letters, numerals and low lines. -/
def isName : Text → Bool
  | [] => false
  | c :: t => isNameStart c && t.all isNameChar

/-- One or more names joined by dots. -/
def isQualifiedName (t : Text) : Bool :=
  (splitOn '.' t).all isName

end Text

end StrategyDialect
