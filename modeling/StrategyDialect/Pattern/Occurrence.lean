import StrategyDialect.Pattern.Basic

/-!
# Occurrences of a pattern

Whether some stretch of a text matches a pattern is decided in one pass.  The pass keeps
the patterns of which any one still has to match from the present position on, starts
the pattern anew at each position, and replaces each of them by its *derivatives* when a
character is read: the patterns for what may follow that character.  Equal patterns are
kept once, so their number is bounded by the size of the pattern.

## Main definitions

* `Pattern.matchesEmpty`: whether a pattern matches the empty stretch between two
  characters
* `Pattern.derivatives`: what may follow once a character has been read
* `Pattern.occursIn`: whether some stretch of a text matches
-/

namespace StrategyDialect

namespace Pattern

variable {Label : Type} [DecidableEq Label]

/-- Whether the pattern matches the empty stretch between two neighbouring characters. -/
def matchesEmpty (before after : Option Char) : Pattern Label → Bool
  | empty => true
  | one _ => false
  | edge e => e.holds before after
  | run _ => true
  | seq p q => p.matchesEmpty before after && q.matchesEmpty before after
  | alt p q => p.matchesEmpty before after || q.matchesEmpty before after
  | star _ => true
  | group _ p => p.matchesEmpty before after

/-- `p` and then `q`, where an empty `p` is dropped. -/
def andThen (q : Pattern Label) (p : Pattern Label) : Pattern Label :=
  if p = empty then q else seq p q

/-- The patterns for what may follow, once `x` has been read after `before`. -/
def derivatives (before : Option Char) (x : Char) : Pattern Label → List (Pattern Label)
  | empty => []
  | one k => if k.contains x then [empty] else []
  | edge _ => []
  | run k => if k.contains x then [run k] else []
  | seq p q =>
    (p.derivatives before x).map (andThen q)
      ++ if p.matchesEmpty before (some x) then q.derivatives before x else []
  | alt p q => p.derivatives before x ++ q.derivatives before x
  | star p => (p.derivatives before x).map (andThen (star p))
  | group _ p => p.derivatives before x

/-- The patterns of a list, each once.  Most of those that differ are told apart by
their sizes. -/
def distinct (ps : List (Pattern Label)) : List (Pattern Label) :=
  (ps.map fun p => (p.size, p)).eraseDups.map (·.2)

/-- Whether one of the patterns in `pending` matches from the present position on, or
`p` from that position or a later one. -/
def occursFrom (p : Pattern Label) (pending : List (Pattern Label))
    (before : Option Char) : (rest : Text) → Bool
  | [] => (p :: pending).any (·.matchesEmpty before none)
  | x :: rest =>
    (p :: pending).any (·.matchesEmpty before (some x))
      || occursFrom p (distinct
        ((p :: pending).flatMap (·.derivatives before x))) (some x) rest

/-- Whether some stretch of the text matches the pattern. -/
def occursIn (p : Pattern Label) (t : Text) : Bool :=
  p.occursFrom [] none t

end Pattern

end StrategyDialect
