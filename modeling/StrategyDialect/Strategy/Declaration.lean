import StrategyDialect.Pattern.Match
import StrategyDialect.Strategy.Parameter
import StrategyDialect.Strategy.Rule

/-!
# Declarations of parameters

A parameter is declared by an attribute, modifiers, a type and a name.  Its default
stands in the declaration or, failing that, in the first assignment to the name that is
not made while the strategy runs.

## Main definitions

* `Dialect.declarationPattern`: the shape of a declaration
* `Block.length?`: the length of a block in braces
* `Assignment.find`: the value that a name is given
* `Dialect.parameters`: the parameters of a strategy
-/

namespace StrategyDialect

/-- The groups of a declaration. -/
inductive DeclarationPart where
  | type
  | name
  /-- What the body of the member starts with. -/
  | tail
deriving DecidableEq

namespace Dialect

open Pattern

/-- The words that may stand between the attributes and the type of a declaration. -/
def modifiers : List Text :=
  ["public".toList, "private".toList, "protected".toList, "internal".toList,
    "static".toList, "readonly".toList, "new".toList, "virtual".toList, "override".toList]

/-- Any number of modifiers. -/
def modifiersPattern : Pattern DeclarationPart :=
  star (seq (choice (modifiers.map literal)) blanks1)

/-- A type: a name with dots, type arguments without nested ones, an array suffix and a
question mark. -/
def typePattern : Pattern DeclarationPart :=
  sequence
    [one .asciiNameStart, run (.union .word (.single '.')),
     optional (sequence [blanks, char '<', run (.noneOf "<>;{}".toList), char '>']),
     optional (sequence [blanks, char '[', blanks, char ']']),
     optional (char '?')]

/-- The attribute of the dialect with its arguments, if it has any, in brackets. -/
def attributePattern (d : Dialect) : Pattern DeclarationPart :=
  sequence
    [char '[', blanks, literal d.inputAttribute, blanks,
     optional (sequence [char '(', run (.noneOf "]".toList), char ')']), blanks, char ']']

/-- Any number of attributes. -/
def attributesPattern : Pattern DeclarationPart :=
  star (sequence [char '[', run (.noneOf "]".toList), char ']', blanks])

/-- A name of ASCII start. -/
def namePattern {Label : Type} : Pattern Label :=
  seq (one .asciiNameStart) (run .word)

/-- What the body of a member starts with: a brace, an arrow, an equals sign or a
semicolon. -/
def tailPattern : Pattern DeclarationPart :=
  choice [char '{', literal "=>".toList, char '=', char ';']

/-- The declaration of a parameter. -/
def declarationPattern (d : Dialect) : Pattern DeclarationPart :=
  sequence
    [d.attributePattern, blanks, attributesPattern, modifiersPattern,
      group .type typePattern, blanks1, group .name namePattern, blanks,
      group .tail tailPattern]

/-- The head of the entry method up to the opening brace of its body. -/
def entryHeadPattern (d : Dialect) : Pattern Empty :=
  sequence
    [boundary, literal "void".toList, blanks1, literal d.entryMethod, blanks, char '(',
     run (.noneOf ")".toList), char ')', blanks, char '{']

end Dialect

/-! ### Blocks -/

namespace Block

/-- The number of characters up to the brace that closes the outermost of `depth` open
blocks. -/
def lengthFrom? (depth : Nat) : Text → Option Nat
  | [] => none
  | c :: t =>
    if c = '{' then (lengthFrom? (depth + 1) t).map (· + 1)
    else if c = '}' then
      match depth with
      | 0 => none
      | 1 => some 1
      | depth + 2 => (lengthFrom? (depth + 1) t).map (· + 1)
    else (lengthFrom? depth t).map (· + 1)

/-- The length of the block at the start of a text, up to the brace that closes it. -/
def length? (t : Text) : Option Nat :=
  lengthFrom? 0 t

end Block

/-- The positions of a text from `start` up to but not including `stop`. -/
structure Span where
  start : Nat
  stop : Nat

/-- Whether a position lies in the span. -/
def Span.contains (s : Span) (i : Nat) : Bool :=
  s.start ≤ i && i < s.stop

/-- The bodies of the entry method.  A body that is not closed reaches to the end of the
source. -/
def Dialect.entryBodies (d : Dialect) (source : Text) : List Span :=
  (d.entryHeadPattern.matchesIn source).map fun m =>
    let start := m.stop.offset - 1
    match Block.length? (source.drop start) with
    | some n => ⟨start, start + n⟩
    | none => ⟨start, source.length⟩

/-! ### Assignments -/

namespace Assignment

/-- The trimmed text before the first semicolon, if there is any. -/
def valueBeforeSemicolon? (t : Text) : Option Text :=
  match t.span (· != ';') with
  | (_, []) => none
  | (value, _ :: _) => if (Text.trim value).isEmpty then none else some (Text.trim value)

/-- The value that follows an equals sign at the start of a text, blanks apart.  Neither
a comparison nor an arrow is an equals sign. -/
def value? (t : Text) : Option Text :=
  match Text.trimStart t with
  | '=' :: rest =>
    if rest.head? = some '=' ∨ rest.head? = some '>' then none
      else valueBeforeSemicolon? rest
  | _ => none

/-- Whether a name that stands after `before`, read backwards, is a name on its own or a
member of `this`. -/
def hasOwnReceiver (before : Text) : Bool :=
  match before with
  | [] => true
  | '.' :: _ =>
    match Text.afterPrefix? ".siht".toList before with
    | none => false
    | some receiver => !receiver.head?.any isNameChar
  | c :: _ => !isNameChar c

/-- The value that is assigned where a name ends, if the name stands after `before`,
read backwards, and before `after`. -/
def valueAt? (before after : Text) : Option Text :=
  if hasOwnReceiver before && !after.head?.any isNameChar then value? after else none

/-- The value of the first assignment to `name` outside `spans`, in what is left of a
source after the `position` characters `before`.  The first `skip` characters belong to
an earlier occurrence of the name. -/
def findFrom (name : Text) (spans : List Span) (skip position : Nat) (before : Text) :
    (rest : Text) → Option Text
  | [] => none
  | c :: rest =>
    match skip with
    | skip + 1 => findFrom name spans skip (position + 1) (c :: before) rest
    | 0 =>
      match Text.afterPrefix? name (c :: rest) with
      | none => findFrom name spans 0 (position + 1) (c :: before) rest
      | some after =>
        match if spans.any (·.contains position) then none else valueAt? before after with
        | some value => some value
        | none => findFrom name spans (name.length - 1) (position + 1) (c :: before) rest

/-- The value of the first assignment to a name outside some spans. -/
def find (name : Text) (spans : List Span) (source : Text) : Option Text :=
  findFrom name spans 0 0 [] source

end Assignment

/-! ### Parameters -/

namespace Dialect

/-- A type without blanks, but for a space after each comma. -/
def normalizeType (t : Text) : Text :=
  (t.filter (!isBlank ·)).flatMap fun c => if c = ',' then ", ".toList else [c]

/-- The default in a declaration, whose body starts with `tail` and goes on with `rest`:
an expression, or the value that follows a block of accessors. -/
def inlineDefault? (tail rest : Text) : Option Text :=
  if tail = ['{'] then do
    let n ← Block.length? (tail ++ rest)
    Assignment.value? ((tail ++ rest).drop n)
  else if tail = [';'] then none
  else Assignment.valueBeforeSemicolon? rest

/-- The parameter that a match of the declaration pattern declares. -/
def parameterOf (source : Text) (bodies : List Span) (m : Match DeclarationPart) :
    Option Parameter := do
  let name ← m.groupText? .name
  let type ← m.groupText? .type
  let tail ← m.groupText? .tail
  let value := match inlineDefault? tail m.stop.rest with
    | some value => some value
    | none => Assignment.find name bodies source
  return ⟨name, normalizeType type, value⟩

/-- The parameters that a strategy declares, in the order of their declarations. -/
def parameters (d : Dialect) (source : Text) : List Parameter :=
  (d.declarationPattern.matchesIn source).filterMap
    (parameterOf source (d.entryBodies source))

end Dialect

end StrategyDialect
