import StrategyDialect.Text.Blank

/-!
# Texts

A text is the list of its characters.  Everything the library reads or writes passes
through this type, and bytes are turned into texts once, at the edge
(`StrategyDialect.Text.Utf8`).

## Main definitions

* `Text.trim`: a text without the blanks at its two ends
* `Text.splitOn`: the stretches between the occurrences of a character
* `Text.lines`: the lines of a text, without their line ends
* `Text.afterPrefix?`: what follows a given beginning
* `Text.precedes`: the order of texts by code points
-/

namespace StrategyDialect

/-- A text, as the list of its characters. -/
abbrev Text := List Char

namespace Text

/-- The text without the blanks at its start. -/
def trimStart (t : Text) : Text :=
  t.dropWhile isBlank

/-- The text without the blanks at its end. -/
def trimEnd (t : Text) : Text :=
  (t.reverse.dropWhile isBlank).reverse

/-- The text without the blanks at its start and at its end. -/
def trim (t : Text) : Text :=
  trimEnd (trimStart t)

/-- A text with nothing but blanks in it. -/
def isAllBlank (t : Text) : Bool :=
  t.all isBlank

/-- What follows `start` in a text that begins with it. -/
def afterPrefix? : (start t : Text) → Option Text
  | [], t => some t
  | _ :: _, [] => none
  | c :: start, d :: t => if c = d then afterPrefix? start t else none

/-- Whether `part` stands somewhere in the text. -/
def hasPart (part : Text) : (t : Text) → Bool
  | [] => part.isEmpty
  | c :: t => (afterPrefix? part (c :: t)).isSome || hasPart part t

/-- The stretches between the occurrences of a character: one more than there are
occurrences. -/
def splitOn (separator : Char) : Text → List Text
  | [] => [[]]
  | c :: t =>
    if c = separator then [] :: splitOn separator t
    else match splitOn separator t with
      | [] => [[c]]
      | piece :: pieces => (c :: piece) :: pieces

/-- A line without the carriage return that stood before its newline. -/
def withoutReturn (line : Text) : Text :=
  if line.getLast? = some '\r' then line.dropLast else line

/-- The lines among the stretches between newlines.  The last stretch has no newline
after it: it keeps what it has, and is no line when it is empty. -/
def linesOfPieces : List Text → List Text
  | [] => []
  | [last] => if last.isEmpty then [] else [last]
  | piece :: pieces => withoutReturn piece :: linesOfPieces pieces

/-- The lines of a text.  A line ends at a newline, which may follow a carriage return;
a newline at the end of the text opens no further line. -/
def lines (t : Text) : List Text :=
  linesOfPieces (splitOn '\n' t)

/-- The text with its last line closed by a newline, added if it is missing.  The empty
text has no line to close. -/
def closeLastLine (t : Text) : Text :=
  if t = [] ∨ t.getLast? = some '\n' then t else t ++ ['\n']

/-- The order of the code points, character by character.  The bytes of UTF-8 have the
same order. -/
def precedes : (s t : Text) → Bool
  | [], _ => true
  | _ :: _, [] => false
  | c :: s, d :: t => if c = d then precedes s t else c.toNat < d.toNat

/-- The decimal digits of a number. -/
def ofNat (n : Nat) : Text :=
  Nat.toDigits 10 n

/-- A number with at least `width` digits, zeros leading. -/
def ofNatPadded (width n : Nat) : Text :=
  List.replicate (width - (ofNat n).length) '0' ++ ofNat n

end Text

end StrategyDialect
