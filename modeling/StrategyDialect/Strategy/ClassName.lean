import StrategyDialect.Text.LetterCase
import StrategyDialect.Text.Word

/-!
# Class names from file names

The words of a text, with the first letter of each raised, make a class name.
-/

namespace StrategyDialect

namespace ClassName

/-- The stretches of name characters between other characters, some of which may be
empty. -/
def words : Text → List Text
  | [] => [[]]
  | c :: t =>
    if isNameChar c then
      match words t with
      | [] => [[c]]
      | word :: rest => (c :: word) :: rest
    else [] :: words t

/-- A word with its first letter in upper case. -/
def capitalize : Text → Text
  | [] => []
  | c :: t => upperChar c ++ t

/-- The class name that a text such as the stem of a file name suggests.  There is none
in a text without name characters; a numeral at the start is put behind a word. -/
def ofText? (raw : Text) : Option Text :=
  match (words raw).flatMap capitalize with
  | [] => none
  | c :: name =>
    if isNumeral c then some ("Strategy".toList ++ c :: name) else some (c :: name)

end ClassName

end StrategyDialect
