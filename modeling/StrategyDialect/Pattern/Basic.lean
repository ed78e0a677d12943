import StrategyDialect.Text.Word

/-!
# Patterns

A pattern describes stretches of a text.  Patterns are values: the built-in ones are
written in terms of the constructors below, and `StrategyDialect.Pattern.Reader` reads
the others from their textual form.

What a pattern matches is said once, by the relation `Pattern.Matches` between two
positions of a text.  Two algorithms stand beside it: `Pattern.occursIn` decides whether
some stretch of a text matches (`StrategyDialect.Pattern.Occurrence`), and
`Pattern.find` returns the preferred match with its groups
(`StrategyDialect.Pattern.Match`).

## Main definitions

* `CharClass`: the sets of characters that a pattern can ask for
* `Edge`: conditions on a position that consume nothing, such as a word boundary
* `Pattern`: patterns, over a type of labels for the groups they record
* `Cursor`: a position in a text
* `Pattern.Matches`: the stretches that a pattern describes
-/

namespace StrategyDialect

/-- A set of characters. -/
inductive CharClass where
  /-- One character only. -/
  | single (c : Char)
  /-- The characters from `low` to `high`, in the order of their code points. -/
  | range (low high : Char)
  /-- Word characters. -/
  | word
  /-- Decimal digits of any script. -/
  | digit
  /-- Blanks. -/
  | blank
  /-- The characters of either class. -/
  | union (a b : CharClass)
  /-- The characters of both classes. -/
  | inter (a b : CharClass)
  /-- The characters outside a class. -/
  | except (a : CharClass)
deriving DecidableEq

namespace CharClass

/-- Membership of a character in a class. -/
def contains : CharClass → Char → Bool
  | single d, c => c = d
  | range low high, c => low ≤ c && c ≤ high
  | word, c => isWord c
  | digit, c => isDecimalDigit c
  | blank, c => isBlank c
  | union a b, c => a.contains c || b.contains c
  | inter a b, c => a.contains c && b.contains c
  | except a, c => !a.contains c

/-- Every character. -/
def any : CharClass :=
  union blank (except blank)

/-- No character. -/
def none : CharClass :=
  inter blank (except blank)

/-- The characters listed. -/
def oneOf (cs : Text) : CharClass :=
  cs.foldr (fun c k => union (single c) k) none

/-- The characters that are not listed. -/
def noneOf (cs : Text) : CharClass :=
  except (oneOf cs)

/-- The characters an ASCII name starts with: the Latin letters and the low line. -/
def asciiNameStart : CharClass :=
  union (range 'A' 'Z') (union (range 'a' 'z') (single '_'))

end CharClass

/-- A condition on the characters before and after a position. -/
inductive Edge where
  /-- A word character on exactly one side. -/
  | wordBoundary
  /-- Word characters on both sides or on neither. -/
  | noWordBoundary
  /-- A word character on the right only. -/
  | wordStart
  /-- A word character on the left only. -/
  | wordEnd
  /-- The start of the text. -/
  | textStart
  /-- The end of the text. -/
  | textEnd
deriving DecidableEq

/-- Whether there is a character and it belongs to a word. -/
def isWordAt (c : Option Char) : Bool :=
  c.any isWord

/-- Whether the condition holds between two neighbouring characters; `none` stands for
an end of the text. -/
def Edge.holds (before after : Option Char) : Edge → Bool
  | wordBoundary => isWordAt before != isWordAt after
  | noWordBoundary => isWordAt before == isWordAt after
  | wordStart => !isWordAt before && isWordAt after
  | wordEnd => isWordAt before && !isWordAt after
  | textStart => before.isNone
  | textEnd => after.isNone

/-- A description of stretches of text, which records the places of its labelled
groups. -/
inductive Pattern (Label : Type) where
  /-- The empty stretch. -/
  | empty
  /-- One character of a class. -/
  | one (k : CharClass)
  /-- The empty stretch, where a condition holds. -/
  | edge (e : Edge)
  /-- Any number of characters of a class, as many as possible. -/
  | run (k : CharClass)
  /-- One stretch after the other. -/
  | seq (p q : Pattern Label)
  /-- Either stretch; the first is preferred. -/
  | alt (p q : Pattern Label)
  /-- Any number of stretches one after the other, as many as possible. -/
  | star (p : Pattern Label)
  /-- A stretch whose place is recorded. -/
  | group (label : Label) (p : Pattern Label)
deriving DecidableEq

namespace Pattern

variable {Label : Type}

/-- The number of single characters, runs and edges in a pattern. -/
def size : Pattern Label → Nat
  | empty => 0
  | one _ | edge _ | run _ => 1
  | seq p q | alt p q => p.size + q.size
  | star p | group _ p => p.size

/-- The characters of a text, one after the other. -/
def literal (t : Text) : Pattern Label :=
  t.foldr (fun c p => seq (one (.single c)) p) empty

/-- Several patterns one after the other. -/
def sequence (ps : List (Pattern Label)) : Pattern Label :=
  ps.foldr seq empty

/-- At least one character of a class, as many as possible. -/
def run1 (k : CharClass) : Pattern Label :=
  seq (one k) (run k)

/-- A stretch or nothing; the stretch is preferred. -/
def optional (p : Pattern Label) : Pattern Label :=
  alt p empty

/-- The first of several patterns that leads to a match. -/
def choice : List (Pattern Label) → Pattern Label
  | [] => one .none
  | [p] => p
  | p :: ps => alt p (choice ps)

/-- Any number of blanks. -/
def blanks : Pattern Label :=
  run .blank

/-- At least one blank. -/
def blanks1 : Pattern Label :=
  run1 .blank

/-- A word boundary. -/
def boundary : Pattern Label :=
  edge .wordBoundary

/-- A single character. -/
def char (c : Char) : Pattern Label :=
  one (.single c)

end Pattern

/-- A position in a text: the characters before it, read backwards, and the characters
after it. -/
structure Cursor where
  before : Text
  rest : Text

namespace Cursor

/-- The start of a text. -/
def start (t : Text) : Cursor :=
  ⟨[], t⟩

/-- The number of characters before the position. -/
def offset (c : Cursor) : Nat :=
  c.before.length

/-- The whole text that the position lies in. -/
def text (c : Cursor) : Text :=
  c.before.reverse ++ c.rest

/-- The stretch between two positions of one text. -/
def textTo (c d : Cursor) : Text :=
  c.rest.take (d.offset - c.offset)

/-- Whether a condition holds at the position. -/
def meets (c : Cursor) (e : Edge) : Bool :=
  e.holds c.before.head? c.rest.head?

end Cursor

namespace Pattern

variable {Label : Type}

/-- `Matches p c d`: the stretch from `c` to `d` is one that `p` describes. -/
inductive Matches : Pattern Label → Cursor → Cursor → Prop where
  | empty (c : Cursor) : Matches empty c c
  | one {k : CharClass} {x : Char} (b r : Text) (h : k.contains x) :
      Matches (one k) ⟨b, x :: r⟩ ⟨x :: b, r⟩
  | edge {e : Edge} (c : Cursor) (h : c.meets e) : Matches (edge e) c c
  | runStop {k : CharClass} (c : Cursor) : Matches (run k) c c
  | runNext {k : CharClass} {x : Char} {b r : Text} {d : Cursor} (h : k.contains x)
      (more : Matches (run k) ⟨x :: b, r⟩ d) : Matches (run k) ⟨b, x :: r⟩ d
  | seq {p q : Pattern Label} {c d e : Cursor} (first : Matches p c d)
      (second : Matches q d e) :
      Matches (seq p q) c e
  | altLeft {p q : Pattern Label} {c d : Cursor} (h : Matches p c d) :
      Matches (alt p q) c d
  | altRight {p q : Pattern Label} {c d : Cursor} (h : Matches q c d) :
      Matches (alt p q) c d
  | starStop {p : Pattern Label} (c : Cursor) : Matches (star p) c c
  | starNext {p : Pattern Label} {c d e : Cursor} (first : Matches p c d)
      (more : Matches (star p) d e) : Matches (star p) c e
  | group {l : Label} {p : Pattern Label} {c d : Cursor} (h : Matches p c d) :
      Matches (group l p) c d

end Pattern

end StrategyDialect
