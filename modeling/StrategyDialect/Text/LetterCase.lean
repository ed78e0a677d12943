import StrategyDialect.Text.Basic
import StrategyDialect.Text.LetterCase.Context
import StrategyDialect.Text.LetterCase.Lower
import StrategyDialect.Text.LetterCase.Upper

/-!
# Changing case

The full Unicode case mappings of characters and texts, by the tables of Unicode 15.0.
They do not depend on a language: the dotted and the dotless `i` of Turkish are mapped
as everywhere else.

## Main definitions

* `upperChar`, `lowerChar`: what a single character becomes, which may be several
  characters
* `Text.lower`: a text in lower case, where a capital sigma at the end of a word takes
  its final form
-/

namespace StrategyDialect

/-- What a character becomes under a case mapping; a character without a counterpart
stays. -/
def mapCase (runs : List CaseRun) (expansions : List (Nat × List Nat)) (c : Char) :
    Text :=
  match runs.findSome? (·.counterpart? c.toNat) with
  | some n => [Char.ofNat n]
  | none =>
    match expansions.lookup c.toNat with
    | some ns => ns.map Char.ofNat
    | none => [c]

/-- The upper case of a character. -/
def upperChar (c : Char) : Text :=
  mapCase upperRuns upperExpansions c

/-- The lower case of a character that stands alone. -/
def lowerChar (c : Char) : Text :=
  mapCase lowerRuns lowerExpansions c

namespace Text

/-- Whether a text, read from where a letter stands, has a cased letter next to that
letter, ignorable characters apart. -/
def meetsCased (t : Text) : Bool :=
  match t.dropWhile isCaseIgnorable with
  | [] => false
  | c :: _ => isCased c

/-- A capital sigma ends a word when a cased letter stands before it (`before` is read
backwards) and none after it. -/
def endsWord (before after : Text) : Bool :=
  meetsCased before && !meetsCased after

/-- The lower case of `t`, which stands after `before`, the latter read backwards. -/
def lowerAfter (before : Text) : (t : Text) → Text
  | [] => []
  | c :: t =>
    (if c = 'Σ' then [if endsWord before t then 'ς' else 'σ'] else lowerChar c)
      ++ lowerAfter (c :: before) t

/-- The text in lower case. -/
def lower (t : Text) : Text :=
  lowerAfter [] t

end Text

end StrategyDialect
