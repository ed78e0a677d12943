import StrategyDialect.Files.Tree
import StrategyDialect.Pattern.Reader
import StrategyDialect.Text.Word
import StrategyDialect.Toml.Item

/-!
# Dialects

A dialect names the pieces that a trading engine expects in every strategy: the
namespace, the type that strategies inherit from, the method that is called on every
bar, and the attribute of a tunable input.

## Main definitions

* `Dialect`, `Dialect.powerLanguage`: dialects, and the one used when none is given
* `DialectError`: what can be wrong with a dialect
* `Dialect.check`: the first field that holds no name
-/

namespace StrategyDialect

/-- The names that a strategy of a dialect has to use. -/
structure Dialect where
  /-- The namespace that every strategy lies in. -/
  namespaceName : Text
  /-- The type that strategies inherit from. -/
  baseType : Text
  /-- The method that is called once for each bar. -/
  entryMethod : Text
  /-- The attribute that marks a tunable input. -/
  inputAttribute : Text
  /-- The name of a class that has to be generated. -/
  className : Text
  /-- The namespaces that are made available ahead of a strategy. -/
  usings : List Text
deriving DecidableEq

/-- The dialect of MultiCharts PowerLanguage .NET. -/
def Dialect.powerLanguage : Dialect where
  namespaceName := "PowerLanguage.Strategy".toList
  baseType := "SignalObject".toList
  entryMethod := "CalcBar".toList
  inputAttribute := "Input".toList
  className := "ConvertedStrategy".toList
  usings :=
    ["System".toList, "System.Drawing".toList, "System.Linq".toList,
     "PowerLanguage.Function".toList, "ATCenterProxy.interop".toList]

/-- The fields of a dialect. -/
inductive DialectField where
  | namespaceName
  | baseType
  | entryMethod
  | inputAttribute
  | className
  | usings
deriving DecidableEq

/-- The key of a field in files and messages. -/
def DialectField.key : DialectField → Text
  | namespaceName => "namespace".toList
  | baseType => "base_type".toList
  | entryMethod => "entry_method".toList
  | inputAttribute => "input_attribute".toList
  | className => "class_name".toList
  | usings => "usings".toList

/-- Why a file of text cannot be read. -/
inductive TextFileError where
  /-- The file itself cannot be read. -/
  | file (e : FileError)
  /-- The file does not hold UTF-8. -/
  | notUtf8
deriving DecidableEq

/-- The text for an error. -/
def TextFileError.message : TextFileError → Text
  | file e => e.message
  | notUtf8 => "stream did not contain valid UTF-8".toList

/-- What can be wrong with a dialect, or with the rules made for one. -/
inductive DialectError where
  /-- A field is empty. -/
  | empty (field : DialectField)
  /-- A field holds no name. -/
  | invalidName (field : DialectField) (value : Text)
  /-- The file of the dialect cannot be read. -/
  | unreadable (path : Path) (cause : TextFileError)
  /-- The file of the dialect is no TOML of the expected shape. -/
  | toml (cause : TomlFault)
  /-- The pattern of a rule is malformed. -/
  | pattern (cause : PatternFault)
deriving DecidableEq

/-- The message for an error. -/
def DialectError.message : DialectError → Text
  | empty field => "Dialect field `".toList ++ field.key ++ "` cannot be empty".toList
  | invalidName field value =>
    "Dialect field `".toList ++ field.key ++ "` is not a valid name: ".toList ++ value
  | unreadable path cause =>
    "Failed to read dialect file ".toList ++ path.text ++ ": ".toList ++ cause.message
  | toml _ => "Failed to parse dialect TOML".toList
  | pattern _ => "Failed to build pattern".toList

namespace Dialect

/-- Refuses a value that is empty or not of the required form. -/
def checkField (isValid : Text → Bool) (field : DialectField) (value : Text) :
    Except DialectError Unit :=
  if value = [] then .error (.empty field)
  else if isValid value then .ok ()
  else .error (.invalidName field value)

/-- Refuses a dialect that has something other than names in its fields.  The namespace
and the usings may be qualified. -/
def check (d : Dialect) : Except DialectError Unit := do
  checkField Text.isQualifiedName .namespaceName d.namespaceName
  checkField Text.isName .baseType d.baseType
  checkField Text.isName .entryMethod d.entryMethod
  checkField Text.isName .inputAttribute d.inputAttribute
  checkField Text.isName .className d.className
  d.usings.forM (checkField Text.isQualifiedName .usings)

end Dialect

end StrategyDialect
