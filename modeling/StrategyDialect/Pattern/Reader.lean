import StrategyDialect.Pattern.Basic

/-!
# Patterns in textual form

The textual form of a pattern is read in two steps: the text is cut into tokens, and the
tokens are assembled with one stack frame for each open group.

The form has literal characters, `.` for any character but a newline, the edges `^`,
`$`, `\b`, `\B`, `\A`, `\z`, `\<` and `\>`, the classes `\d`, `\s`, `\w` with their
complements, bracketed classes, groups `(…)`, `(?:…)`, `(?P<name>…)` and `(?<name>…)`,
alternatives, and the repetitions `*`, `+`, `?`, `{m}`, `{m,}` and `{m,n}`, each of
which may be followed by `?`.  A repetition may repeat a repetition.  Look-around and
references to groups are refused.

## Main definitions

* `PatternFault`: why a text is no pattern
* `PatternToken`, `PatternToken.readAll`: the tokens of a pattern
* `Pattern.ofTokens`: the pattern that the tokens spell
* `Pattern.ofText`: the pattern that a text spells
-/

namespace StrategyDialect

/-- Why a text is no pattern. -/
inductive PatternFault where
  /-- A group is not closed. -/
  | openGroup
  /-- A group is closed that was not opened. -/
  | strayClose
  /-- A bracketed class is not closed. -/
  | openClass
  /-- A range of a class runs downwards or has an end that is no character. -/
  | badRange
  /-- A backslash is followed by nothing that it can be followed by. -/
  | badEscape
  /-- What follows `(?` is neither a name nor a colon. -/
  | badGroup
  /-- A repetition has nothing to repeat. -/
  | nothingToRepeat
  /-- The counts in braces are missing, not closed, or in the wrong order. -/
  | badCount
  /-- Two groups have the same name. -/
  | sameName
  /-- The pattern is too large once its repetitions are written out. -/
  | tooLarge
deriving DecidableEq

/-- A token of a pattern in textual form. -/
inductive PatternToken where
  /-- A pattern that a repetition applies to as a whole. -/
  | atom (p : Pattern Text)
  /-- A repetition of at least `least` and at most `most` rounds; `none` is no limit. -/
  | repetition (least : Nat) (most : Option Nat)
  /-- The bar between alternatives. -/
  | bar
  /-- The start of a group, with its name if it has one. -/
  | opening (name : Option Text)
  /-- The end of a group. -/
  | closing

namespace PatternToken

/-- What a backslash and the characters after it stand for. -/
inductive Escape where
  | char (c : Char)
  | chars (k : CharClass)
  | edge (e : Edge)

/-- The ASCII characters that stand for themselves after a backslash: all but letters,
digits and the angle brackets. -/
def isEscapable (c : Char) : Bool :=
  c.toNat < 0x80 && !c.isAlphanum && c ≠ '<' && c ≠ '>'

/-- What the character after a backslash makes of it. -/
def escape? (c : Char) : Option Escape :=
  match c with
  | 'd' => some (.chars .digit)
  | 'D' => some (.chars (.except .digit))
  | 's' => some (.chars .blank)
  | 'S' => some (.chars (.except .blank))
  | 'w' => some (.chars .word)
  | 'W' => some (.chars (.except .word))
  | 'b' => some (.edge .wordBoundary)
  | 'B' => some (.edge .noWordBoundary)
  | '<' => some (.edge .wordStart)
  | '>' => some (.edge .wordEnd)
  | 'A' => some (.edge .textStart)
  | 'z' => some (.edge .textEnd)
  | 'a' => some (.char '\x07')
  | 'f' => some (.char '\x0C')
  | 'n' => some (.char '\n')
  | 'r' => some (.char '\r')
  | 't' => some (.char '\t')
  | 'v' => some (.char '\x0B')
  | c => if isEscapable c then some (.char c) else none

/-- What the text after a backslash stands for, with the text after that. -/
def readEscape : Text → Except PatternFault (Escape × Text)
  | [] => .error .badEscape
  | c :: t =>
    match escape? c with
    | some e => .ok (e, t)
    | none => .error .badEscape

/-! ### Bracketed classes -/

/-- An operation between the parts of a bracketed class. -/
inductive ClassOperation where
  | intersection
  | difference
  | symmetricDifference

namespace ClassOperation

/-- The class that the operation makes of two classes. -/
def apply : ClassOperation → CharClass → CharClass → CharClass
  | intersection, a, b => .inter a b
  | difference, a, b => .inter a (.except b)
  | symmetricDifference, a, b => .union (.inter a (.except b)) (.inter b (.except a))

end ClassOperation

/-- The class read so far: `items` follow the operation in `pending`, if there is one. -/
def closeClass (pending : Option (ClassOperation × CharClass)) (items : CharClass) :
    CharClass :=
  match pending with
  | none => items
  | some (operation, left) => operation.apply left items

/-- A character or an escape inside a bracketed class. -/
def readClassItem : Text → Except PatternFault (Escape × Text)
  | [] => .error .openClass
  | '\\' :: t => readEscape t
  | c :: t => .ok (.char c, t)

/-- The class that an item stands for by itself. -/
def itemClass : Escape → Except PatternFault CharClass
  | .char c => .ok (.single c)
  | .chars k => .ok k
  | .edge _ => .error .badEscape

/-- Whether the text goes on with the second end of a range.  A hyphen before a closing
bracket or another hyphen opens no range. -/
def startsRange : Text → Bool
  | '-' :: ']' :: _ => false
  | '-' :: '-' :: _ => false
  | '-' :: _ => true
  | _ => false

/-- An item of a bracketed class or a range between two. -/
def readClassRange (t : Text) : Except PatternFault (CharClass × Text) := do
  let (low, rest) ← readClassItem t
  if startsRange rest then
    let (high, rest) ← readClassItem (rest.drop 1)
    match low, high with
    | .char low, .char high =>
      if low ≤ high then return (.range low high, rest) else throw .badRange
    | _, _ => throw .badRange
  else
    return (← itemClass low, rest)

/-- The start of a bracketed class: whether it is negated, the hyphens and the closing
bracket that stand for themselves there, and the text after them. -/
def readClassStart (t : Text) : Bool × CharClass × Text :=
  let (negated, t) := match t with
    | '^' :: t => (true, t)
    | t => (false, t)
  match t.span (· = '-') with
  | ([], ']' :: rest) => (negated, .single ']', rest)
  | ([], rest) => (negated, .none, rest)
  | (_ :: _, rest) => (negated, .single '-', rest)

/-- A bracketed class from behind its opening bracket, with the text after its closing
bracket.  Each round reads at least one of the `bound` characters. -/
def readClassItems (bound : Nat) (pending : Option (ClassOperation × CharClass))
    (items : CharClass) (t : Text) : Except PatternFault (CharClass × Text) :=
  match bound, t with
  | 0, _ => .error .openClass
  | _ + 1, [] => .error .openClass
  | _ + 1, ']' :: t => .ok (closeClass pending items, t)
  | bound + 1, '&' :: '&' :: t =>
    readClassItems bound (some (.intersection, closeClass pending items)) .none t
  | bound + 1, '-' :: '-' :: t =>
    readClassItems bound (some (.difference, closeClass pending items)) .none t
  | bound + 1, '~' :: '~' :: t =>
    readClassItems bound (some (.symmetricDifference, closeClass pending items)) .none t
  | bound + 1, '[' :: t => do
    let (negated, start, t) := readClassStart t
    let (inner, t) ← readClassItems bound none start t
    readClassItems bound pending
      (.union items (if negated then .except inner else inner)) t
  | bound + 1, t => do
    let (item, t) ← readClassRange t
    readClassItems bound pending (.union items item) t

/-- A bracketed class from behind its opening bracket, with the text after it. -/
def readClass (t : Text) : Except PatternFault (CharClass × Text) := do
  let (negated, start, rest) := readClassStart t
  let (inner, rest) ← readClassItems (t.length + 1) none start rest
  return (if negated then .except inner else inner, rest)

/-! ### Groups and counts -/

/-- A character of a group name. -/
def isGroupNameChar (c : Char) : Bool :=
  isNameChar c || c = '.' || c = '[' || c = ']'

/-- A group name and the angle bracket after it. -/
def readGroupName (t : Text) : Except PatternFault (Text × Text) :=
  match t.span isGroupNameChar with
  | (c :: name, '>' :: rest) =>
    if isNameStart c then .ok (c :: name, rest) else .error .badGroup
  | _ => .error .badGroup

/-- What follows an opening parenthesis. -/
def readOpening : Text → Except PatternFault (PatternToken × Text)
  | '?' :: ':' :: t => .ok (opening none, t)
  | '?' :: 'P' :: '<' :: t =>
    (readGroupName t).map fun (name, t) => (opening (some name), t)
  | '?' :: '<' :: t => (readGroupName t).map fun (name, t) => (opening (some name), t)
  | '?' :: _ => .error .badGroup
  | t => .ok (opening none, t)

/-- The largest count that a repetition may have. -/
def largestCount : Nat := 4294967295

/-- A count between blanks. -/
def readCount (t : Text) : Except PatternFault (Nat × Text) :=
  match (t.dropWhile isBlank).span Char.isDigit with
  | ([], _) => .error .badCount
  | (digits, rest) =>
    let n := digits.foldl (fun n d => 10 * n + (d.toNat - '0'.toNat)) 0
    if n ≤ largestCount then .ok (n, rest.dropWhile isBlank) else .error .badCount

/-- The closing brace of a repetition, whose counts are in order. -/
def closeCounts (least : Nat) (most : Option Nat) :
    Text → Except PatternFault (PatternToken × Text)
  | '}' :: t =>
    if most.all (least ≤ ·) then .ok (repetition least most, t) else .error .badCount
  | _ => .error .badCount

/-- What follows the opening brace of a repetition. -/
def readCounts (t : Text) : Except PatternFault (PatternToken × Text) := do
  match ← readCount t with
  | (least, ',' :: '}' :: t) => return (repetition least none, t)
  | (least, ',' :: t) =>
    let (most, t) ← readCount t
    closeCounts least (some most) t
  | (count, t) => closeCounts count (some count) t

/-- The text after the question mark that may follow a repetition.  It asks for as few
rounds as possible, which does not change the stretches that the pattern describes. -/
def afterReluctance : Text → Text
  | '?' :: t => t
  | t => t

/-! ### Tokens -/

/-- The first token of a text, with the text after it. -/
def read : Text → Except PatternFault (PatternToken × Text)
  | [] => .error .badEscape
  | '(' :: t => readOpening t
  | ')' :: t => .ok (closing, t)
  | '|' :: t => .ok (bar, t)
  | '*' :: t => .ok (repetition 0 none, afterReluctance t)
  | '+' :: t => .ok (repetition 1 none, afterReluctance t)
  | '?' :: t => .ok (repetition 0 (some 1), afterReluctance t)
  | '{' :: t => (readCounts t).map fun (token, t) => (token, afterReluctance t)
  | '.' :: t => .ok (atom (.one (.except (.single '\n'))), t)
  | '^' :: t => .ok (atom (.edge .textStart), t)
  | '$' :: t => .ok (atom (.edge .textEnd), t)
  | '[' :: t => (readClass t).map fun (k, t) => (atom (.one k), t)
  | '\\' :: t => (readEscape t).map fun
    | (.char c, t) => (atom (.char c), t)
    | (.chars k, t) => (atom (.one k), t)
    | (.edge e, t) => (atom (.edge e), t)
  | c :: t => .ok (atom (.char c), t)

/-- The tokens of a text of at most `bound` characters. -/
def readUpTo : (bound : Nat) → Text → Except PatternFault (List PatternToken)
  | _, [] => .ok []
  | 0, _ :: _ => .error .badEscape
  | bound + 1, t => do
    let (token, rest) ← read t
    return token :: (← readUpTo bound rest)

/-- The tokens of a text. -/
def readAll (t : Text) : Except PatternFault (List PatternToken) :=
  readUpTo t.length t

end PatternToken

namespace Pattern

variable {Label : Type}

/-- The size up to which repetitions are written out. -/
def largestSize : Nat := 262144

/-- Any number of rounds. -/
def anyNumber : Pattern Label → Pattern Label
  | one k => run k
  | p => star p

/-- Up to `n` rounds, as many as possible. -/
def upTo (p : Pattern Label) : Nat → Pattern Label
  | 0 => empty
  | n + 1 => optional (seq p (upTo p n))

/-- Exactly `n` rounds. -/
def times (p : Pattern Label) : Nat → Pattern Label
  | 0 => empty
  | n + 1 => seq p (times p n)

/-- A pattern repeated at least `least` and at most `most` times. -/
def repeated (p : Pattern Label) (least : Nat) : (most : Option Nat) → Pattern Label
  | none => if least = 0 then p.anyNumber else seq (p.times least) p.anyNumber
  | some most => seq (p.times least) (p.upTo (most - least))

/-- A group that is being read: its name, its finished alternatives and the items of the
alternative that is being read, both the latest first. -/
structure Frame where
  name : Option Text
  alternatives : List (Pattern Text)
  items : List (Pattern Text)

namespace Frame

/-- A frame in which nothing has been read. -/
def opened (name : Option Text) : Frame :=
  ⟨name, [], []⟩

/-- The frame with one more item. -/
def push (f : Frame) (p : Pattern Text) : Frame :=
  { f with items := p :: f.items }

/-- The frame with its alternative finished. -/
def finishAlternative (f : Frame) : Frame :=
  { f with alternatives := sequence f.items.reverse :: f.alternatives, items := [] }

/-- The pattern of a group that is complete. -/
def pattern (f : Frame) : Pattern Text :=
  let p := choice f.finishAlternative.alternatives.reverse
  match f.name with
  | none => p
  | some name => group name p

/-- The frame with its last item repeated. -/
def repeatLast (f : Frame) (least : Nat) (most : Option Nat) :
    Except PatternFault Frame :=
  match f.items with
  | [] => .error .nothingToRepeat
  | p :: items =>
    if p.size * max least (most.getD 1) ≤ largestSize then
      .ok { f with items := p.repeated least most :: items }
    else .error .tooLarge

end Frame

/-- The open groups once a token has been read, the innermost first. -/
def readToken : (frames : Frame × List Frame) → PatternToken →
    Except PatternFault (Frame × List Frame)
  | (f, outer), .atom p => .ok (f.push p, outer)
  | (f, outer), .repetition least most =>
    (f.repeatLast least most).map fun f => (f, outer)
  | (f, outer), .bar => .ok (f.finishAlternative, outer)
  | (f, outer), .opening name => .ok (.opened name, f :: outer)
  | (_, []), .closing => .error .strayClose
  | (f, f' :: outer), .closing => .ok (f'.push f.pattern, outer)

/-- The names of the groups among the tokens. -/
def groupNames (tokens : List PatternToken) : List Text :=
  tokens.filterMap fun
    | .opening name => name
    | _ => none

/-- The pattern that the tokens spell. -/
def ofTokens (tokens : List PatternToken) : Except PatternFault (Pattern Text) := do
  if ¬(groupNames tokens).Nodup then throw .sameName
  match ← tokens.foldlM readToken (Frame.opened none, []) with
  | (f, []) => return f.pattern
  | (_, _ :: _) => throw .openGroup

/-- The pattern that a text spells. -/
def ofText (t : Text) : Except PatternFault (Pattern Text) := do
  ofTokens (← PatternToken.readAll t)

end Pattern

end StrategyDialect
