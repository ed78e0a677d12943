import StrategyDialect.Engine
import StrategyDialect.Pattern.Reader

/-!
# The patterns of a dialect in textual form

The patterns of a dialect can also be given in textual form, with the names of the
dialect quoted, so that no character of a name has a meaning of its own.

## Main definitions

* `Pattern.quote`: the textual form of a pattern that matches just a given text
* `Dialect.rulesFromTexts`: the rules of a dialect, with their patterns read from
  textual form
* `Engine.fromTexts`: the engine for a dialect, with all patterns read from textual form
-/

namespace StrategyDialect

namespace Pattern

/-- The characters that have a meaning of their own in the textual form of a pattern. -/
def specialChars : Text :=
  "\\.+*?()|[]\x7b\x7d^$#&-~".toList

/-- The textual form of a pattern that matches just the given text. -/
def quote (t : Text) : Text :=
  t.flatMap fun c => if specialChars.contains c then ['\\', c] else [c]

end Pattern

namespace Dialect

open Pattern

variable (d : Dialect)

/-- The textual form of `Dialect.namespacePattern`. -/
def namespaceText : Text :=
  "\\bnamespace\\s+".toList ++ quote d.namespaceName ++ "\\b".toList

/-- The textual form of `Dialect.baseTypePattern`. -/
def baseTypeText : Text :=
  ":\\s*(?:\\w+\\s*\\.\\s*)*".toList ++ quote d.baseType ++ "\\b".toList

/-- The textual form of `Dialect.entryMethodPattern`. -/
def entryMethodText : Text :=
  "\\bvoid\\s+".toList ++ quote d.entryMethod ++ "\\s*\\(".toList

/-- The textual form of `Dialect.derivedClassPattern`. -/
def derivedClassText : Text :=
  "\\bclass\\s+(?P<name>[A-Za-z_]\\w*)\\s*(?:<[^>]*>)?\\s*".toList ++ d.baseTypeText

/-- The textual form of `Dialect.modifiersPattern`. -/
def modifiersText : Text :=
  "(?:(?:public|private|protected|internal|static|readonly|new|virtual|override)\\s+)*".toList

/-- The textual form of `Dialect.typePattern`. -/
def typeText : Text :=
  "[A-Za-z_][\\w.]*(?:\\s*<[^<>;\x7b\x7d]*>)?(?:\\s*\\[\\s*\\])?\\??".toList

/-- What follows the name of the attribute in a declaration, up to the modifiers. -/
def attributeEndText : Text :=
  "\\s*(?:\\([^\\]]*\\))?\\s*\\]\\s*(?:\\[[^\\]]*\\]\\s*)*".toList

/-- What follows the modifiers in a declaration. -/
def memberText : Text :=
  "(?P<ty>".toList ++ typeText
    ++ ")\\s+(?P<name>[A-Za-z_]\\w*)\\s*(?P<tail>\\\x7b|=>|=|;)".toList

/-- The textual form of `Dialect.declarationPattern`. -/
def declarationText : Text :=
  "\\[\\s*".toList ++ quote d.inputAttribute ++ attributeEndText
    ++ modifiersText ++ memberText

/-- The textual form of `Dialect.entryHeadPattern`. -/
def entryHeadText : Text :=
  "\\bvoid\\s+".toList ++ quote d.entryMethod ++ "\\s*\\([^)]*\\)\\s*\\\x7b".toList

/-- The rules of the dialect, with their patterns read from textual form. -/
def rulesFromTexts : Except DialectError (List Rule) :=
  [(d.namespaceRule, d.namespaceText), (d.baseTypeRule, d.baseTypeText),
   (d.entryMethodRule, d.entryMethodText)].mapM fun (r, t) =>
     Rule.ofPatternText r.name r.message t

/-- The textual forms of the patterns with which a strategy is searched. -/
def searchTexts : List Text :=
  [d.derivedClassText, d.declarationText, d.entryHeadText]

/-- Refuses a text that is no pattern. -/
def checkPatternText (t : Text) : Except DialectError Unit :=
  ((ofText t).mapError .pattern).map fun _ => ()

end Dialect

/-- The engine for a dialect, with all patterns read from textual form. -/
def Engine.fromTexts (d : Dialect) : Except DialectError Engine := do
  d.check
  let rules ← d.rulesFromTexts
  d.searchTexts.forM Dialect.checkPatternText
  return ⟨d, rules, d.className⟩

end StrategyDialect
