import StrategyDialect.Strategy.Shape
import StrategyDialect.Strategy.Validation

/-!
# Conversion

A strategy is completed by what its shape lacks: the usings of the dialect, the
namespace, and a class with a constructor.  The strategy itself is embedded as it is.

## Main definitions

* `Dialect.usingsHeader`: the usings that a strategy lacks
* `Dialect.frame`: the text around a strategy of a given shape
* `Dialect.convert`: the completed strategy
-/

namespace StrategyDialect

/-- A completed strategy. -/
structure Conversion where
  generatedCode : Text
  className : Text
  shape : SourceShape
  parameters : List Parameter
deriving DecidableEq

/-- The conversion as JSON. -/
def Conversion.toJson (c : Conversion) : JsonValue :=
  .object
    [("generatedCode".toList, .text c.generatedCode),
      ("className".toList, .text c.className), ("shape".toList, c.shape.toJson),
      ("parameters".toList, Parameter.listToJson c.parameters)]

namespace Dialect

/-- The directive that makes a namespace available. -/
def usingDirective (name : Text) : Text :=
  "using ".toList ++ name ++ ";".toList

/-- Whether a directive stands on a line of its own. -/
def hasLine (directive source : Text) : Bool :=
  source.lines.any fun line => Text.trim line = directive

/-- The directives of the dialect that a strategy lacks. -/
def missingDirectives (d : Dialect) (source : Text) : List Text :=
  (d.usings.map usingDirective).filter fun directive => !hasLine directive source

/-- The directives that a strategy lacks, one on a line, with a blank line after them. -/
def usingsHeader (d : Dialect) (source : Text) : Text :=
  match d.missingDirectives source with
  | [] => []
  | directives => directives.flatMap (· ++ ['\n']) ++ ['\n']

/-- The head of the namespace. -/
def namespaceHead (d : Dialect) : Text :=
  "namespace ".toList ++ d.namespaceName ++ "\n\x7b\n".toList

/-- The head of a class, with its constructor. -/
def classHead (d : Dialect) (className : Text) : Text :=
  "    public class ".toList ++ className ++ " : ".toList ++ d.baseType
    ++ "\n    \x7b\n".toList ++ "        public ".toList ++ className
    ++ "(object _ctx) : base(_ctx) \x7b \x7d\n\n".toList

/-- A strategy of the given shape inside the frame that it lacks. -/
def frame (d : Dialect) (className source : Text) : SourceShape → Text
  | .completeUnit => source
  | .classDeclaration => d.namespaceHead ++ Text.closeLastLine source ++ "\x7d\n".toList
  | .members =>
    d.namespaceHead ++ d.classHead className ++ Text.closeLastLine source
      ++ "    \x7d\n\x7d\n".toList

/-- The name of the class in a completed strategy: that of the class that the strategy
has, or the name that is asked for if it is one, or the configured name. -/
def chooseClassName (existing : Option Text) (requested configured : Text) : Text :=
  match existing with
  | some name => name
  | none => if requested.isName then requested else configured

/-- The completed strategy, where `requested` and `configured` are the names for a
generated class. -/
def convert (d : Dialect) (configured requested source : Text) : Conversion :=
  let (shape, existing) := d.shape source
  let className := chooseClassName existing requested configured
  { generatedCode := d.usingsHeader source ++ d.frame className source shape
    className := className
    shape := shape
    parameters := d.parameters source }

end Dialect

end StrategyDialect
