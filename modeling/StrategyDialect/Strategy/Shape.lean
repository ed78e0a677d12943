import StrategyDialect.Pattern.Match
import StrategyDialect.Strategy.Declaration

/-!
# Shapes of strategies

How much of the required frame a strategy brings along: nothing but members, a class of
its own, or the whole unit.

## Main definitions

* `SourceShape`: the three shapes
* `Dialect.shape`: the shape of a strategy with the name of its class
* `SourceShape.ofJson`: the shape that a JSON text names
-/

namespace StrategyDialect

/-- How a strategy is laid out. -/
inductive SourceShape where
  /-- It declares its class inside the namespace. -/
  | completeUnit
  /-- It declares its class, but not the namespace. -/
  | classDeclaration
  /-- It has members only. -/
  | members
deriving DecidableEq

namespace SourceShape

/-- The name of a shape in JSON. -/
def key : SourceShape → Text
  | completeUnit => "complete_unit".toList
  | classDeclaration => "class_declaration".toList
  | members => "members".toList

/-- The shape as JSON. -/
def toJson (s : SourceShape) : JsonValue :=
  .text s.key

/-- The shape with the given name. -/
def ofKey (key : Text) : Except JsonFault SourceShape :=
  match [completeUnit, classDeclaration, members].find? (·.key = key) with
  | some s => .ok s
  | none => .error .wrongData

open JsonReader

/-- A shape: its name, or an object with the name as the key of `null`. -/
def read : JsonReader SourceShape := fun t =>
  match skipBlanks t with
  | [] => .error .cutShort
  | '"' :: t => do
    let (key, rest) ← JsonString.read t
    return (← ofKey key, rest)
  | '{' :: t => do
    let (key, rest) ← readText t
    let shape ← ofKey key
    match skipBlanks (← readNull (← readColon rest)) with
    | [] => throw .cutShort
    | '}' :: rest => return (shape, rest)
    | _ => throw .illFormed
  | _ => .error .illFormed

/-- The shape that a text names. -/
def ofJson (t : Text) : Except JsonFault SourceShape :=
  readWhole read t

end SourceShape

namespace Dialect

open Pattern

/-- A class that derives from the base type of the dialect.  The one group is the name
of the class. -/
def derivedClassPattern (d : Dialect) : Pattern Unit :=
  sequence <|
    [boundary, literal "class".toList, blanks1, group () namePattern, blanks,
     optional (sequence [char '<', run (.noneOf ">".toList), char '>']), blanks]
       ++ d.derivation

/-- The name of the first class that derives from the base type of the dialect. -/
def derivedClass? (d : Dialect) (source : Text) : Option Text :=
  (d.derivedClassPattern.find source).bind (·.groupText? ())

/-- The shape of a strategy, with the name of the class that derives from the base
type. -/
def shape (d : Dialect) (source : Text) : SourceShape × Option Text :=
  match d.derivedClass? source with
  | some name =>
    if d.namespaceRule.isSatisfied source then (.completeUnit, some name)
    else (.classDeclaration, some name)
  | none => (.members, none)

end Dialect

end StrategyDialect
