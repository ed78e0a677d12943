import StrategyDialect.Dialect.Basic
import StrategyDialect.Pattern.Occurrence

/-!
# Structural rules

A rule is a condition on the text of a strategy with the message for a text that fails
it.  Rules see the text only: a declaration in a comment counts.

The check of a rule is derived from its condition and its message.  A rule with a check
of its own, which could disagree with the condition, cannot be built; none of the rules
of a dialect is of that kind.

## Main definitions

* `Rule`: a named condition
* `Dialect.namespacePattern`, `Dialect.baseTypePattern`, `Dialect.entryMethodPattern`:
  what the rules of a dialect look for
* `Dialect.rules`: the rules of a dialect, in the order in which they are reported
-/

namespace StrategyDialect

/-- A condition on a strategy. -/
structure Rule where
  name : Text
  message : Text
  isSatisfied : (source : Text) → Bool

namespace Rule

/-- The message for a source that fails the rule. -/
def check (r : Rule) (source : Text) : Option Text :=
  if r.isSatisfied source then none else some r.message

/-- The rule that a pattern matches somewhere. -/
def ofPattern {Label : Type} [DecidableEq Label] (name message : Text)
    (p : Pattern Label) : Rule :=
  ⟨name, message, p.occursIn⟩

/-- The rule that a pattern, given in textual form, matches somewhere. -/
def ofPatternText (name message pattern : Text) : Except DialectError Rule :=
  ((Pattern.ofText pattern).mapError .pattern).map (ofPattern name message)

/-- The rule that a text stands somewhere. -/
def containing (name message part : Text) : Rule :=
  ⟨name, message, Text.hasPart part⟩

/-- The rule that a text stands nowhere. -/
def lacking (name message part : Text) : Rule :=
  ⟨name, message, fun source => !Text.hasPart part source⟩

end Rule

namespace Pattern

variable {Label : Type}

/-- The qualifiers before a type name: words, each followed by a dot. -/
def qualifiers : Pattern Label :=
  star (sequence [run1 .word, blanks, char '.', blanks])

end Pattern

namespace Dialect

open Pattern

variable {Label : Type} (d : Dialect)

/-- A colon and the base type of the dialect, which may be qualified. -/
def derivation : List (Pattern Label) :=
  [char ':', blanks, qualifiers, literal d.baseType, boundary]

/-- `namespace N`, where `N` is the namespace of the dialect. -/
def namespacePattern : Pattern Label :=
  sequence [boundary, literal "namespace".toList, blanks1,
    literal d.namespaceName, boundary]

/-- `: B`, where `B` is the base type of the dialect, which may be qualified. -/
def baseTypePattern : Pattern Label :=
  sequence d.derivation

/-- `void M(`, where `M` is the entry method of the dialect. -/
def entryMethodPattern : Pattern Label :=
  sequence
    [boundary, literal "void".toList, blanks1, literal d.entryMethod, blanks, char '(']

/-- The strategy lies in the namespace of the dialect. -/
def namespaceRule : Rule :=
  Rule.ofPattern "namespace".toList
    ("Strategy must be in ".toList ++ d.namespaceName ++ " namespace".toList)
    (namespacePattern d : Pattern Empty)

/-- The strategy inherits from the base type of the dialect. -/
def baseTypeRule : Rule :=
  Rule.ofPattern "base_type".toList ("Strategy must inherit from ".toList ++ d.baseType)
    (baseTypePattern d : Pattern Empty)

/-- The strategy declares the entry method of the dialect. -/
def entryMethodRule : Rule :=
  Rule.ofPattern "entry_method".toList
    ("Strategy must implement ".toList ++ d.entryMethod ++ "() method".toList)
    (entryMethodPattern d : Pattern Empty)

/-- The rules of a dialect. -/
def rules : List Rule :=
  [d.namespaceRule, d.baseTypeRule, d.entryMethodRule]

end Dialect

end StrategyDialect
