import StrategyDialect.Text.Basic

/-!
# Comma-separated values

Records on lines, with commas between their fields.  A field with a comma, a quote or a
line end in it is quoted, and its quotes are doubled.

## Main definitions

* `Csv.write`: the text of some records
* `Csv.read`: the records of a text
-/

namespace StrategyDialect

namespace Csv

/-- Whether a field has to be quoted. -/
def needsQuotes (field : Text) : Bool :=
  field.any fun c => c = ',' || c = '"' || c = '\r' || c = '\n'

/-- A field with its quotes doubled. -/
def doubleQuotes (field : Text) : Text :=
  field.flatMap fun c => if c = '"' then ['"', '"'] else [c]

/-- A field of a record. -/
def writeField (field : Text) : Text :=
  if needsQuotes field then ['"'] ++ doubleQuotes field ++ ['"'] else field

/-- A record on its line. -/
def writeRecord (fields : List Text) : Text :=
  [','].intercalate (fields.map writeField) ++ ['\n']

/-- The text of some records. -/
def write (records : List (List Text)) : Text :=
  records.flatMap writeRecord

/-! ### Reading -/

/-- Where in a field a reader is. -/
inductive Position where
  /-- At its start. -/
  | start
  /-- Inside a field without quotes. -/
  | plain
  /-- Between quotes. -/
  | quoted
  /-- Behind a quote that ends the field or is the first of two. -/
  | afterQuote
deriving DecidableEq

/-- What a character means to the reader at a position: part of the field, an end, or
nothing that is allowed there. -/
inductive Step where
  /-- The character is added to the field. -/
  | add (next : Position)
  /-- The character itself is not part of the field. -/
  | skip (next : Position)
  /-- The field ends. -/
  | endField
  /-- The field and the record end. -/
  | endRecord
  /-- The character cannot stand here. -/
  | refuse

/-- What a character means outside quotes. -/
def stepOutside (quote other : Step) (c : Char) : Step :=
  if c = '"' then quote else if c = ',' then .endField else if c = '\n'
    then .endRecord else other

/-- What a character means at a position. -/
def step (c : Char) : Position → Step
  | .start => stepOutside (.skip .quoted) (.add .plain) c
  | .plain => stepOutside .refuse (.add .plain) c
  | .quoted => if c = '"' then .skip .afterQuote else .add .quoted
  | .afterQuote => stepOutside (.add .quoted) .refuse c

/-- The records of a text, of which `fields` and the characters of `field` have been
read, both backwards.  A quote that is neither doubled nor around a field is refused, as
is a last line without its end. -/
def readFrom (fields : List Text) (field : Text) (position : Position) :
    Text → Option (List (List Text))
  | [] => if fields = [] ∧ position = .start then some [] else none
  | c :: t =>
    match step c position with
    | .add next => readFrom fields (c :: field) next t
    | .skip next => readFrom fields field next t
    | .endField => readFrom (field.reverse :: fields) [] .start t
    | .endRecord => (readFrom [] [] .start t).map ((field.reverse :: fields).reverse :: ·)
    | .refuse => none

/-- The records of a text. -/
def read (t : Text) : Option (List (List Text)) :=
  readFrom [] [] .start t

end Csv

end StrategyDialect
