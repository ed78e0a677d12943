import StrategyDialect.Toml.Quoted
import StrategyDialect.Toml.Scalar

/-!
# Reading TOML

A document is read statement by statement: a header opens a table, and a key with its
value goes into the table of the header above it.

## Main definitions

* `TomlReader.readKey`, `TomlReader.readValue`: keys with dots, and values of all kinds
* `TomlTable.ofText`: the document that a text spells
-/

namespace StrategyDialect

namespace TomlReader

open TomlString (Reader isControl)

/-- The number of levels up to which arrays and inline tables are nested in each other,
and the largest number of parts of a key. -/
def depthLimit : Nat := 79

/-- The text after the spaces and tabs at its start. -/
def skipSpaces (t : Text) : Text :=
  t.dropWhile fun c => c = ' ' || c = '\t'

/-- The text after the blanks, newlines and comments at its start.  In a comment
everything is skipped up to the end of the line; a control character is left standing,
where nothing accepts it. -/
def skipLayout (inComment : Bool) : Text → Text
  | [] => []
  | '\r' :: '\n' :: t => skipLayout false t
  | c :: t =>
    if c = '\n' then skipLayout false t
    else if inComment then if isControl c then c :: t else skipLayout true t
    else if c = ' ' ∨ c = '\t' then skipLayout false t
    else if c = '#' then skipLayout true t
    else c :: t

/-! ### Keys -/

/-- A character of a key without quotes. -/
def isBareKeyChar (c : Char) : Bool :=
  c.isAlphanum || c = '_' || c = '-'

/-- One part of a key. -/
def readKeyPart : Reader Text
  | '"' :: t => TomlString.readOnLine ('"' :: t)
  | '\'' :: t => TomlString.readOnLine ('\'' :: t)
  | t =>
    match t.span isBareKeyChar with
    | ([], _) => .error .illFormed
    | (part, rest) => .ok (part, rest)

/-- A key of at most `limit` parts: the parts before the last, and the last.  Blanks
around it are skipped. -/
def readKey : (limit : Nat) → Reader (List Text × Text)
  | 0, _ => .error .tooDeep
  | limit + 1, t => do
    let (part, rest) ← readKeyPart (skipSpaces t)
    match skipSpaces rest with
    | '.' :: rest =>
      let ((path, last), rest) ← readKey limit rest
      return ((part :: path, last), rest)
    | rest => return (([], part), rest)

/-! ### Values -/

/-- The items of an array from behind its opening bracket or a comma, where `value`
reads one item.  Each round reads at least one of the `bound` characters. -/
def readItems (value : Reader TomlItem) : (bound : Nat) → Reader (List TomlItem)
  | 0, _ => .error .illFormed
  | bound + 1, t =>
    match skipLayout false t with
    | ']' :: rest => .ok ([], rest)
    | t => do
      let (item, rest) ← value t
      match skipLayout false rest with
      | ',' :: rest =>
        let (items, rest) ← readItems value bound rest
        return (item :: items, rest)
      | ']' :: rest => return ([item], rest)
      | _ => throw .illFormed

/-- A key and its value, where `value` reads the value. -/
def readPair (value : Reader TomlItem) :
    Reader ((List Text × Text) × TomlItem) := fun t => do
  match ← readKey depthLimit t with
  | (key, '=' :: rest) =>
    let (item, rest) ← value (skipSpaces rest)
    return ((key, item), rest)
  | _ => throw .illFormed

/-- The rest of an inline table from behind its opening brace or a comma; `table` holds
the pairs before.  Each round reads at least one of the `bound` characters. -/
def readPairs (value : Reader TomlItem) (table : TomlTable) :
    (bound : Nat) → Reader TomlTable
  | 0, _ => .error .illFormed
  | bound + 1, t => do
    let (((path, key), item), rest) ← readPair value t
    let table ← table.assign path key item
    match skipSpaces rest with
    | ',' :: rest => readPairs value table bound rest
    | '}' :: rest => return (table, rest)
    | _ => throw .illFormed

/-- An inline table from behind its opening brace. -/
def readInlineTable (value : Reader TomlItem) : Reader TomlTable := fun t =>
  match skipSpaces t with
  | '}' :: rest => .ok ([], rest)
  | _ => readPairs value [] t.length t

/-- A value in which arrays and inline tables are nested at most `depth` deep. -/
def readValue (depth : Nat) : Reader TomlItem := fun t =>
  match t, depth with
  | '[' :: _, 0 => .error .tooDeep
  | '{' :: _, 0 => .error .tooDeep
  | '[' :: rest, depth + 1 =>
    (readItems (readValue depth) rest.length rest).map fun (items, rest) =>
      (.array items, rest)
  | '{' :: rest, depth + 1 =>
    (readInlineTable (readValue depth) rest).map fun (table, rest) =>
      (.table .inline table, rest)
  | '"' :: rest, _ => (TomlString.read ('"' :: rest)).map fun (s, rest) => (.text s, rest)
  | '\'' :: rest, _ =>
    (TomlString.read ('\'' :: rest)).map fun (s, rest) => (.text s, rest)
  | t, _ =>
    match TomlScalar.read? t with
    | some (written, rest) => .ok (.scalar written, rest)
    | none => .error .illFormed

/-! ### Statements -/

/-- A document of which a part has been read, with the path of the table that the next
keys go into. -/
structure Progress where
  document : TomlTable
  header : List Text

/-- The text after the end of a statement: blanks and a comment may stand before the end
of the line. -/
def readLineEnd (t : Text) : Except TomlFault Text :=
  let t := skipSpaces t
  let t := if t.head? = some '#' then t.dropWhile (!isControl ·) else t
  match t with
  | [] => .ok []
  | '\n' :: rest => .ok rest
  | '\r' :: '\n' :: rest => .ok rest
  | _ => .error .illFormed

/-- A statement at the start of a text. -/
def readStatement (p : Progress) : Reader Progress
  | '[' :: '[' :: t => do
    match ← readKey depthLimit t with
    | ((path, key), ']' :: ']' :: rest) =>
      return (⟨← p.document.openElement path key, path ++ [key]⟩, rest)
    | _ => throw .illFormed
  | '[' :: t => do
    match ← readKey depthLimit t with
    | ((path, key), ']' :: rest) =>
      return (⟨← p.document.openTable path key, path ++ [key]⟩, rest)
    | _ => throw .illFormed
  | t => do
    let (((path, key), item), rest) ← readPair (readValue depthLimit) t
    return ({ p with document := ← p.document.assignBelow p.header path key item }, rest)

/-- The document whose first part is `p`.  Each round reads at least one of the `bound`
characters. -/
def readStatements (p : Progress) (bound : Nat) (t : Text) : Except TomlFault TomlTable :=
  match skipLayout false t, bound with
  | [], _ => .ok p.document
  | _ :: _, 0 => .error .illFormed
  | t, bound + 1 => do
    let (p, rest) ← readStatement p t
    readStatements p bound (← readLineEnd rest)

/-- The text without the byte-order mark that may stand at its start. -/
def afterByteOrderMark : Text → Text
  | '\uFEFF' :: t => t
  | t => t

end TomlReader

/-- The document that a text spells. -/
def TomlTable.ofText (t : Text) : Except TomlFault TomlTable :=
  TomlReader.readStatements ⟨[], []⟩ t.length (TomlReader.afterByteOrderMark t)

end StrategyDialect
