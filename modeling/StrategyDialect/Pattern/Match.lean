import StrategyDialect.Pattern.Basic

/-!
# Preferred matches

Among the ways in which a pattern matches from a position, one is preferred: runs and
repetitions take as much as possible, and the left side of an alternative goes before
the right.  The search tries the ways in this order and hands each end to the remaining
search, which may refuse it.

## Main definitions

* `Pattern.first`: the first way of matching that the remaining search accepts
* `Pattern.find`: the preferred match at the earliest position that has one
* `Pattern.matchesIn`: the preferred matches of a text, from left to right and without
  overlaps
-/

namespace StrategyDialect

/-- The places recorded while matching, the latest first. -/
abbrev Groups (Label : Type) := List (Label × Cursor × Cursor)

/-- The positions that a run of a class can reach, the farthest first, and then the
positions `nearer`. -/
def runEndsThen (k : CharClass) (nearer : List Cursor) (before : Text) :
    (rest : Text) → List Cursor
  | [] => ⟨before, []⟩ :: nearer
  | x :: rest =>
    if k.contains x then runEndsThen k (⟨before, x :: rest⟩ :: nearer) (x :: before) rest
    else ⟨before, x :: rest⟩ :: nearer

/-- The positions that a run of a class can reach, the farthest first. -/
def runEnds (k : CharClass) (c : Cursor) : List Cursor :=
  runEndsThen k [] c.before c.rest

namespace Pattern

variable {Label : Type} {α : Type}

/-- A search from a position onwards, given the places recorded so far. -/
abbrev Search (Label α : Type) := Cursor → Groups Label → Option α

/-- At most one round of a search step for each character of `bound`, as many as
possible, then the remaining search. -/
def repeatUpTo (step : Search Label α → Search Label α) (accept : Search Label α) :
    (bound : Text) → Search Label α
  | [] => accept
  | _ :: bound => fun c g =>
    match step (repeatUpTo step accept bound) c g with
    | some found => some found
    | none => accept c g

/-- The first way of matching a pattern whose end the remaining search `accept` takes.
A repetition is bounded by the characters that are left. -/
def first : Pattern Label → (accept : Search Label α) → Search Label α
  | empty, accept => accept
  | one k, accept => fun c g =>
    match c.rest with
    | [] => none
    | x :: rest => if k.contains x then accept ⟨x :: c.before, rest⟩ g else none
  | edge e, accept => fun c g => if c.meets e then accept c g else none
  | run k, accept => fun c g => (runEnds k c).findSome? (accept · g)
  | seq p q, accept => first p (first q accept)
  | alt p q, accept => fun c g =>
    match first p accept c g with
    | some found => some found
    | none => first q accept c g
  | star p, accept => fun c g => repeatUpTo (first p) accept c.rest c g
  | group l p, accept => fun c g => first p (fun d g => accept d ((l, c, d) :: g)) c g

end Pattern

/-- A stretch of text found by a pattern, with the places of its groups. -/
structure Match (Label : Type) where
  start : Cursor
  stop : Cursor
  groups : Groups Label

namespace Match

variable {Label : Type}

/-- The place of a group; of several rounds that recorded the group, the last. -/
def group? [BEq Label] (m : Match Label) (l : Label) : Option (Cursor × Cursor) :=
  m.groups.lookup l

/-- The text of a group. -/
def groupText? [BEq Label] (m : Match Label) (l : Label) : Option Text :=
  (m.group? l).map fun place => place.1.textTo place.2

/-- The number of characters of the match. -/
def length (m : Match Label) : Nat :=
  m.stop.offset - m.start.offset

end Match

namespace Pattern

variable {Label : Type}

/-- The preferred match at a position. -/
def matchAt (p : Pattern Label) (c : Cursor) : Option (Match Label) :=
  first p (fun d g => some ⟨c, d, g⟩) c []

/-- The preferred match at the earliest position from which the pattern matches, looking
from `before` onwards. -/
def findFrom (p : Pattern Label) (before : Text) : (rest : Text) → Option (Match Label)
  | [] => p.matchAt ⟨before, []⟩
  | x :: rest =>
    match p.matchAt ⟨before, x :: rest⟩ with
    | some m => some m
    | none => findFrom p (x :: before) rest

/-- The preferred match at the earliest position of a text. -/
def find (p : Pattern Label) (t : Text) : Option (Match Label) :=
  p.findFrom [] t

/-- The matches from `before` onwards, where the first `skip` positions lie inside an
earlier match. -/
def matchesFrom (p : Pattern Label) (skip : Nat) (before : Text) :
    (rest : Text) → List (Match Label)
  | [] => if skip = 0 then (p.matchAt ⟨before, []⟩).toList else []
  | x :: rest =>
    match skip with
    | skip + 1 => matchesFrom p skip (x :: before) rest
    | 0 =>
      match p.matchAt ⟨before, x :: rest⟩ with
      | some m => m :: matchesFrom p (m.length - 1) (x :: before) rest
      | none => matchesFrom p 0 (x :: before) rest

/-- The matches of a text from left to right.  Each search starts where the match before
it stopped, or one character on if that match was empty. -/
def matchesIn (p : Pattern Label) (t : Text) : List (Match Label) :=
  p.matchesFrom 0 [] t

end Pattern

end StrategyDialect
