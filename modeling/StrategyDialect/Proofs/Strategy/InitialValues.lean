import Mathlib.Data.List.DropRight
import StrategyDialect.Proofs.Strategy.EntryBodies

/-!
# Initial values

A default that is not part of a declaration comes from an assignment, and that should be
an initial assignment to the member: the name stands there as a whole, on its own or as
a member of `this`, and outside of the entry method (`Dialect.IsInitial`).  The search
tries the occurrences of the name from left to right, and looks at the characters next
to the name only.  So three things escape it:

* a word character that is no character of configured names, such as a combining accent,
  in front of the name;
* a dot with blanks behind it;
* an entry method whose body is an expression.

Nothing else does (`Dialect.isInitial_iff`): the value, the character behind the name,
receivers that are written next to the name, and blocks are all as they should be.

## Main definitions

* `Assignment.occurrences`, `Assignment.site?`: the occurrences of a name, and the one
  whose assignment is taken
* `Assignment.IsOwn`: names on their own and members of `this`
* `Dialect.IsInitial`: initial assignments

## Main statements

* `Assignment.find_eq`: the search for an assignment takes the first occurrence that it
  accepts
* `Dialect.isInitial_iff`: when the assignment that gives a default is an initial one
-/

namespace StrategyDialect

namespace Text

/-! ### Words at a position -/

/-- The longest run of word characters at the end of a text. -/
def lastWord (t : Text) : Text :=
  t.rtakeWhile isWord

/-- The longest run of word characters around a position. -/
def wordAround (before after : Text) : Text :=
  lastWord before ++ after.takeWhile isWord

/-- Whether the character at the end of a text, if it belongs to a word, belongs to a
configured name as well. -/
def EdgeAgrees (t : Text) : Prop :=
  ∀ c ∈ t.getLast?, isWord c = true → isNameChar c = true

/-- Only the character at the end has to be looked at. -/
instance (t : Text) : Decidable (EdgeAgrees t) :=
  decidable_of_iff (t.getLast?.all fun c => !isWord c || isNameChar c) (by
    rw [EdgeAgrees]
    cases t.getLast? <;> simp [or_iff_not_imp_left])

variable {t u before after name : Text}

/-- A text has no last word if it ends with something else. -/
theorem lastWord_eq_nil_iff : lastWord t = [] ↔ ∀ c ∈ t.getLast?, isWord c = false := by
  rw [lastWord, List.rtakeWhile_eq_nil_iff]
  rcases List.eq_nil_or_concat' t with rfl | ⟨u, c, rfl⟩ <;> simp

/-- Word characters at the end of a text prolong its last word. -/
theorem lastWord_append (hu : ∀ x ∈ u, isWord x = true) :
    lastWord (t ++ u) = lastWord t ++ u := by
  rw [lastWord, lastWord, List.rtakeWhile, List.reverse_append,
    List.takeWhile_append_of_pos (by simpa using hu), List.reverse_append,
    List.reverse_reverse, List.rtakeWhile]

/-- A name is the whole word at its place if no word character stands on either side. -/
theorem wordAround_eq_iff (hname : ∀ x ∈ name, isWord x = true)
    (hafter : ∀ x ∈ after.head?, isWord x = false) :
    wordAround before (name ++ after) = name ↔
      ∀ c ∈ before.getLast?, isWord c = false := by
  have hstop : after.takeWhile isWord = [] := by
    cases after with
    | nil => rfl
    | cons x after => simp [hafter x rfl]
  rw [wordAround, List.takeWhile_append_of_pos hname, hstop, List.append_nil,
    List.append_left_eq_self, lastWord_eq_nil_iff]

/-- Where no character of a name stands, the two notions agree if no word character
does. -/
theorem edgeAgrees_iff (h : ∀ c ∈ t.getLast?, isNameChar c = false) :
    EdgeAgrees t ↔ ∀ c ∈ t.getLast?, isWord c = false := by
  refine forall₂_congr fun c hc => ?_
  simp [h c hc]

end Text

namespace Assignment

open Text

/-! ### The occurrences of a name -/

/-- The occurrences of a name in what is left of a text after `before`, read backwards,
each with the text before it and the text after it.  The first `skip` characters belong
to an earlier occurrence. -/
def occurrencesFrom (name : Text) (skip : Nat) (before : Text) :
    (rest : Text) → List (Text × Text)
  | [] => []
  | c :: rest =>
    match skip with
    | skip + 1 => occurrencesFrom name skip (c :: before) rest
    | 0 =>
      match afterPrefix? name (c :: rest) with
      | none => occurrencesFrom name 0 (c :: before) rest
      | some after =>
        (before.reverse, after)
          :: occurrencesFrom name (name.length - 1) (c :: before) rest

/-- The occurrences of a name from left to right, without overlaps. -/
def occurrences (name source : Text) : List (Text × Text) :=
  occurrencesFrom name 0 [] source

/-- The value that is assigned at an occurrence, unless it lies in one of the spans. -/
def assignedAt? (spans : List Span) (site : Text × Text) : Option Text :=
  if spans.any (·.contains site.1.length) then none else valueAt? site.1.reverse site.2

/-- The occurrence of a name whose assignment is taken. -/
def site? (name : Text) (spans : List Span) (source : Text) : Option (Text × Text) :=
  (occurrences name source).find? fun site => (assignedAt? spans site).isSome

variable {name before rest source : Text} {spans : List Span} {skip : Nat}
  {site : Text × Text}

/-- The search is a search among the occurrences: it takes the first one that gives a
value. -/
theorem findFrom_eq_findSome? {position : Nat} (hposition : position = before.length) :
    findFrom name spans skip position before rest =
      (occurrencesFrom name skip before rest).findSome? (assignedAt? spans) := by
  induction rest generalizing skip position before with
  | nil => rfl
  | cons c rest ih =>
    have hlater : ∀ {skip : Nat},
        findFrom name spans skip (position + 1) (c :: before) rest =
        (occurrencesFrom name skip (c :: before) rest).findSome? (assignedAt? spans) :=
      ih (congrArg (· + 1) hposition)
    cases skip with
    | succ skip => exact hlater
    | zero =>
      rw [findFrom, occurrencesFrom]
      cases afterPrefix? name (c :: rest) with
      | none => exact hlater
      | some after =>
        -- The two differ in how they keep the text before the name, and its length.
        have hhere : (if spans.any (·.contains position) then none
          else valueAt? before after) = assignedAt? spans (before.reverse, after) := by
          rw [assignedAt?, List.length_reverse, List.reverse_reverse, hposition]
        dsimp only
        rw [List.findSome?_cons, hhere, hlater]
        cases assignedAt? spans (before.reverse, after) <;> rfl

/-- **The search for an assignment** takes the first occurrence that it accepts. -/
theorem find_eq (name : Text) (spans : List Span) (source : Text) :
    find name spans source = (site? name spans source).bind (assignedAt? spans) := by
  have hfirst : ∀ sites : List (Text × Text),
      sites.findSome? (assignedAt? spans) =
        (sites.find? fun site => (assignedAt? spans site).isSome).bind
          (assignedAt? spans) := by
    intro sites
    induction sites with
    | nil => rfl
    | cons site sites ih =>
      rw [List.findSome?_cons, List.find?_cons]
      cases h : assignedAt? spans site with
      | none => exact ih
      | some value => exact h.symm
  rw [find, findFrom_eq_findSome? (show 0 = List.length [] from rfl)]
  exact hfirst _

/-- An occurrence splits the text at the name. -/
theorem eq_append_of_mem_occurrencesFrom
    (h : site ∈ occurrencesFrom name skip before rest) :
    before.reverse ++ rest = site.1 ++ name ++ site.2 := by
  induction rest generalizing skip before with
  | nil => cases h
  | cons c rest ih =>
    have hlater : ∀ {skip}, site ∈ occurrencesFrom name skip (c :: before) rest →
        before.reverse ++ c :: rest = site.1 ++ name ++ site.2 := by
      intro skip hmem
      rw [← ih hmem]
      simp
    cases skip with
    | succ skip => exact hlater h
    | zero =>
      rw [occurrencesFrom] at h
      split at h
      next => exact hlater h
      next after hafter =>
        rcases List.mem_cons.mp h with rfl | h
        · rw [afterPrefix?_eq_some_iff.mp hafter, List.append_assoc]
        · exact hlater h

/-- An occurrence is a place where the name stands. -/
theorem eq_append_of_site? {before after : Text}
    (h : site? name spans source = some (before, after)) :
    source = before ++ name ++ after := by
  have hmem : (before, after) ∈ occurrencesFrom name 0 [] source :=
    List.mem_of_find?_eq_some h
  exact eq_append_of_mem_occurrencesFrom hmem

/-! ### Where a value is assigned -/

/-- A value stands behind blanks and an equals sign, so nothing of a word stands next to
the name. -/
theorem isWord_eq_false_of_value? {after value : Text} (h : value? after = some value) :
    ∀ x ∈ after.head?, isWord x = false := by
  intro x hx
  obtain ⟨after, rfl⟩ : ∃ t, after = x :: t := by
    cases after with
    | nil => cases hx
    | cons y t => exact ⟨t, by rw [Option.some.inj hx]⟩
  cases hblank : isBlank x with
  | true => exact isWord_eq_false_of_isBlank hblank
  | false =>
    by_cases hequals : x = '='
    · subst hequals
      decide
    · have hnone : value? (x :: after) = none :=
        value?_of_trimStart (by simpa [trimStart, hblank] using hequals)
      rw [hnone] at h
      cases h

/-- The text before a name is kept from its end to its start, so `this.` is looked for
the other way round. -/
private theorem afterPrefix?_reverse_iff {before r : Text} :
    afterPrefix? ".siht".toList before.reverse = some r.reverse ↔
      before = r ++ "this.".toList := by
  have hthis : ".siht".toList = "this.".toList.reverse := by decide
  rw [afterPrefix?_eq_some_iff, hthis, ← List.reverse_append, List.reverse_inj]

/-- What the search asks of the text before a name: no character of a name stands next
to it, and a dot only with `this` before it, on whose other side no character of a name
stands. -/
theorem hasOwnReceiver_reverse_iff {before : Text} :
    hasOwnReceiver before.reverse = true ↔
      (∀ c ∈ before.getLast?, isNameChar c = false) ∧
        (before.getLast? = some '.' → ∃ r,
          before = r ++ "this.".toList ∧ ∀ c ∈ r.getLast?, isNameChar c = false) := by
  have hdot : isNameChar '.' = false := by decide
  rcases List.eq_nil_or_concat' before with rfl | ⟨t, c, rfl⟩
  · simp [hasOwnReceiver]
  · by_cases hc : c = '.'
    · subst hc
      have hreverse : (t ++ ['.']).reverse = '.' :: t.reverse := List.reverse_concat ..
      -- Behind a dot, `this` has to stand, and nothing of a name before it.
      cases hafter : afterPrefix? ".siht".toList (t ++ ['.']).reverse with
      | none =>
        have hrefused : hasOwnReceiver (t ++ ['.']).reverse = false := by
          rw [hreverse] at hafter ⊢
          rw [hasOwnReceiver, hafter]
        have hnone : ∀ r, t ++ ['.'] ≠ r ++ "this.".toList := by
          intro r hr
          rw [afterPrefix?_reverse_iff.mpr hr] at hafter
          cases hafter
        constructor
        · intro h
          rw [hrefused] at h
          cases h
        · rintro ⟨-, h⟩
          obtain ⟨r, hr, -⟩ := h (by simp)
          exact absurd hr (hnone r)
      | some receiver =>
        obtain ⟨r, rfl⟩ : ∃ r : Text, receiver = r.reverse :=
          ⟨receiver.reverse, (List.reverse_reverse _).symm⟩
        have hr := afterPrefix?_reverse_iff.mp hafter
        have hedge : hasOwnReceiver (t ++ ['.']).reverse = true ↔
            ∀ c ∈ r.getLast?, isNameChar c = false := by
          rw [hreverse] at hafter ⊢
          rw [hasOwnReceiver, hafter]
          dsimp only
          rw [List.head?_reverse]
          cases r.getLast? <;> simp
        rw [hedge]
        constructor
        · intro h
          exact ⟨by simp [hdot], fun _ => ⟨r, hr, h⟩⟩
        · rintro ⟨-, h⟩
          obtain ⟨r', hr', hedge'⟩ := h (by simp)
          rwa [List.append_cancel_right (hr'.symm.trans hr)] at hedge'
    · have hreceiver : hasOwnReceiver (t ++ [c]).reverse = !isNameChar c := by
        rw [List.reverse_append]
        simp [hasOwnReceiver]
      rw [hreceiver]
      simp [hc]

/-- Whether a name that stands after `before` is a name on its own or a member of
`this`: where a dot stands before it, blanks aside, the word before the dot is
`this`. -/
def IsOwn (before : Text) : Prop :=
  ∀ r w : Text, before = r ++ '.' :: w → w.IsBlank → lastWord (trimEnd r) = "this".toList

/-- `this` is a word of its own unless a word character precedes it that belongs to no
configured name. -/
private theorem lastWord_trimEnd_this_iff {r : Text}
    (hr : ∀ c ∈ r.getLast?, isNameChar c = false) :
    lastWord (trimEnd (r ++ "this".toList)) = "this".toList ↔ EdgeAgrees r := by
  have hthis : "this".toList = "thi".toList ++ ['s'] := by decide
  have htrim : trimEnd (r ++ "this".toList) = r ++ "this".toList := by
    rw [hthis, ← List.append_assoc]
    exact trimEnd_append_of_not_isBlank (by decide)
  rw [htrim, lastWord_append (by decide), List.append_left_eq_self, lastWord_eq_nil_iff,
    edgeAgrees_iff hr]

/-- **What the search makes of receivers**: where it accepts a name, the name is a name
on its own or a member of `this`, unless a word character that it does not know stands
before `this`, or a dot stands some blanks before the name. -/
theorem isOwn_iff {before : Text} (h : hasOwnReceiver before.reverse = true) :
    IsOwn before ↔
      (∀ r, before = r ++ "this.".toList → EdgeAgrees r) ∧
        ∀ r w : Text, before = r ++ '.' :: w → w ≠ [] → w.IsBlank →
          lastWord (trimEnd r) = "this".toList := by
  have hthis : "this.".toList = "this".toList ++ ['.'] := by decide
  obtain ⟨-, hdot⟩ := hasOwnReceiver_reverse_iff.mp h
  have hmember : ∀ r, before = r ++ "this.".toList →
      ∀ c ∈ r.getLast?, isNameChar c = false := by
    intro r hr
    obtain ⟨r', hr', hedge⟩ := hdot (by rw [hr, hthis]; simp)
    rwa [List.append_cancel_right (hr.symm.trans hr')]
  constructor
  · intro hown
    refine ⟨fun r hr => ?_, fun r w hr _ hw => hown r w hr hw⟩
    refine (lastWord_trimEnd_this_iff (hmember r hr)).mp (hown _ [] ?_ isBlank_nil)
    rw [hr, hthis, List.append_assoc]
  · rintro ⟨hnear, hfar⟩ r w hr hw
    by_cases hne : w = []
    · -- The dot is next to the name, so the search has seen `this` before it.
      subst hne
      obtain ⟨r', hr', hedge⟩ := hdot (by rw [hr]; simp)
      have hsame : r = r' ++ "this".toList := by
        rw [hr', hthis, ← List.append_assoc] at hr
        exact (List.append_cancel_right hr).symm
      rw [hsame, lastWord_trimEnd_this_iff hedge]
      exact hnear r' hr'
    · exact hfar r w hr hne hw

end Assignment

namespace Dialect

open Text Assignment Pattern

variable {d : Dialect} {source before name after : Text} {p : Parameter}

/-! ### Initial assignments -/

/-- A parameter with a default that is not part of its declaration. -/
def IsAssigned (d : Dialect) (source : Text) (p : Parameter) : Prop :=
  ∃ m ∈ d.declarationPattern.matchesIn source,
    parameterOf source (d.entryBodies source) m = some p ∧
    (∃ tail, m.groupText? .tail = some tail ∧ inlineDefault? tail m.stop.rest = none) ∧
    p.defaultValue.isSome = true

/-- An initial assignment to a member: its name is a whole word, on its own or a member
of `this`, and stands outside of the entry method. -/
structure IsInitial (d : Dialect) (source before name after : Text) : Prop where
  word : wordAround before (name ++ after) = name
  own : IsOwn before
  notInBlock : ¬d.InBlockBody source before.length
  notInExpression : ¬d.InExpressionBody source before.length

/-- A default that is not part of the declaration is what the search for an assignment
finds. -/
theorem IsAssigned.defaultValue_eq (hd : d.Accepted) (hp : d.IsAssigned source p) :
    p.name.IsIdentifier ∧ p.defaultValue = find p.name (d.entryBodies source) source ∧
      p.defaultValue.isSome = true := by
  obtain ⟨m, hm, hparameter, ⟨tail, htail, hinline⟩, hsome⟩ := hp
  obtain ⟨-, hat⟩ := matchAt_of_mem_matchesIn hm
  obtain ⟨t, type, name, tail', hdeclaration, -, -, -, htype, hname, -⟩ :=
    exists_of_matchAt_declarationPattern hd hat
  rw [parameterOf_eq htype hname htail, hinline, Option.none_or] at hparameter
  obtain rfl := Option.some.inj hparameter
  exact ⟨hdeclaration.isIdentifier, rfl, hsome⟩

/-- **A default that does not come from its declaration** is the value that is assigned
at the first occurrence of the name that the search accepts, with nothing of a word
behind it, and outside the blocks of the entry method.  The assignment is an initial one
just if none of three things is overlooked: in front of the name or of `this` no word
character that is no character of configured names; no receiver whose dot is parted from
the name by blanks; and no expression that is the body of the entry method. -/
theorem isInitial_iff (hcheck : d.check = .ok ()) (hp : d.IsAssigned source p) :
    ∃ before after, site? p.name (d.entryBodies source) source = some (before, after) ∧
      source = before ++ p.name ++ after ∧ value? after = p.defaultValue ∧
      ¬d.InBlockBody source before.length ∧
      (d.IsInitial source before p.name after ↔
        (EdgeAgrees before ∧ ∀ r, before = r ++ "this.".toList → EdgeAgrees r) ∧
          (∀ r w : Text, before = r ++ '.' :: w → w ≠ [] → w.IsBlank →
            lastWord (trimEnd r) = "this".toList) ∧
          ¬d.InExpressionBody source before.length) := by
  have hd : d.Accepted := check_eq_ok_iff.mp hcheck
  obtain ⟨hidentifier, hfind, hsome⟩ := hp.defaultValue_eq hd
  obtain ⟨value, hdefault⟩ := Option.isSome_iff_exists.mp hsome
  rw [hdefault, find_eq] at hfind
  obtain ⟨⟨before, after⟩, hsite, hassigned⟩ := Option.bind_eq_some_iff.mp hfind.symm
  rw [assignedAt?, Option.ite_none_left_eq_some, valueAt?, Option.ite_none_right_eq_some,
    Bool.and_eq_true] at hassigned
  obtain ⟨houtside, ⟨hreceiver, -⟩, hvalue⟩ := hassigned
  have hsource := eq_append_of_site? hsite
  -- Blocks are seen by the search, so this clause holds in any case.
  have hblock : ¬d.InBlockBody source before.length := by
    rwa [any_entryBodies_iff hd] at houtside
    obtain ⟨x, rest, hname, -, -⟩ := hidentifier
    simp [hsource, hname]
  -- Behind the name stands the equals sign, so only the character before it counts.
  have hword : wordAround before (p.name ++ after) = p.name ↔ EdgeAgrees before := by
    rw [wordAround_eq_iff (fun _ => hidentifier.isWord)
      (isWord_eq_false_of_value? hvalue),
      edgeAgrees_iff (hasOwnReceiver_reverse_iff.mp hreceiver).1]
  refine ⟨before, after, hsite, hsource, hvalue.trans hdefault.symm, hblock, ?_⟩
  constructor
  · rintro ⟨hwhole, hown, -, hexpression⟩
    obtain ⟨hnear, hfar⟩ := (isOwn_iff hreceiver).mp hown
    exact ⟨⟨hword.mp hwhole, hnear⟩, hfar, hexpression⟩
  · rintro ⟨⟨hedge, hnear⟩, hfar, hexpression⟩
    exact ⟨hword.mpr hedge, (isOwn_iff hreceiver).mpr ⟨hnear, hfar⟩, hblock, hexpression⟩

/-- A declaration that a search shows to have no default of its own. -/
private theorem isAssigned_of_mem {name type value : Text}
    (h : (some ⟨name, type, some value⟩, some none) ∈
      (d.declarationPattern.matchesIn source).map fun m =>
        (parameterOf source (d.entryBodies source) m,
          (m.groupText? .tail).map (inlineDefault? · m.stop.rest))) :
    d.IsAssigned source ⟨name, type, some value⟩ := by
  obtain ⟨m, hm, heq⟩ := List.mem_map.mp h
  obtain ⟨hparameter, htail⟩ := Prod.mk.inj heq
  exact ⟨m, hm, hparameter, Option.map_eq_some_iff.mp htail, rfl⟩

/-- A default that is set in a method, after an assignment in the entry method that is
passed over. -/
theorem isInitial_iff_setup :
    let front : Text :=
      "[Input] public int Length \x7b get; set; \x7d\nvoid CalcBar() \x7b Length = 1; \x7d\nvoid Setup() \x7b ".toList
    let source : Text := front ++ "this.Length = 14; \x7d".toList
    powerLanguage.check = .ok () ∧
    powerLanguage.IsAssigned source ⟨"Length".toList, "int".toList, some "14".toList⟩ ∧
      ∃ before after, source = before ++ "Length".toList ++ after ∧
        Assignment.value? after = some "14".toList ∧
        powerLanguage.IsInitial source before "Length".toList after := by
  intro front source
  have hcheck : powerLanguage.check = .ok () := by decide
  have hp : powerLanguage.IsAssigned source
      ⟨"Length".toList, "int".toList, some "14".toList⟩ :=
    isAssigned_of_mem (by decide +kernel)
  have hsite : site? "Length".toList (powerLanguage.entryBodies source) source =
      some (front ++ "this.".toList, " = 14; \x7d".toList) := by
    decide +kernel
  obtain ⟨before, after, hfound, hsource, hvalue, -, hinitial⟩ := isInitial_iff hcheck hp
  obtain ⟨rfl, rfl⟩ : front ++ "this.".toList = before ∧ " = 14; \x7d".toList = after :=
    Prod.mk.inj (Option.some.inj (hsite.symm.trans hfound))
  refine ⟨hcheck, hp, _, _, hsource, hvalue, hinitial.mpr ⟨⟨?_, ?_⟩, ?_, ?_⟩⟩
  · decide
  · intro r hr
    rw [← List.append_cancel_right hr]
    decide
  · intro r w hr hne hw
    obtain ⟨v, x, rfl⟩ := (List.eq_nil_or_concat' w).resolve_left hne
    have hlast : some '.' = some x := by
      have hends := congrArg List.getLast? hr
      rwa [← List.cons_append, ← List.append_assoc, List.getLast?_concat] at hends
    exact absurd (hw x (by simp)) (by rw [← Option.some.inj hlast]; decide)
  · rintro ⟨head, rest, hhead, -⟩
    have harrow : '>' ∈ source := by
      rw [hhead]
      simp
    exact absurd harrow (by decide)

/-- A strategy in which a default comes from an assignment that is no initial one. -/
def HasStrayDefault (d : Dialect) (source : Text) : Prop :=
  ∃ p before after, d.IsAssigned source p ∧
    site? p.name (d.entryBodies source) source = some (before, after) ∧
    ¬d.IsInitial source before p.name after

/-- What is overlooked: another receiver whose dot is parted from the name, an entry
method that is given by an expression, and a longer name that ends like the name of the
parameter. -/
theorem hasStrayDefault_overlooked :
    let declaration : Text := "[Input] public int Length \x7b get; set; \x7d\n".toList
    powerLanguage.check = .ok () ∧
      powerLanguage.HasStrayDefault
        (declaration ++ "void Setup() \x7b other . Length = 5; \x7d".toList) ∧
      powerLanguage.HasStrayDefault
        (declaration ++ "void CalcBar() => Length = 5;".toList) ∧
      powerLanguage.HasStrayDefault
        (declaration ++ "void Setup() \x7b x\u0301Length = 5; \x7d".toList) := by
  intro declaration
  refine ⟨by decide, ?receiver, ?expression, ?word⟩
  case receiver =>
    refine ⟨⟨"Length".toList, "int".toList, some "5".toList⟩,
      declaration ++ "void Setup() \x7b other . ".toList, " = 5; \x7d".toList,
      isAssigned_of_mem (by decide +kernel), by decide +kernel, ?_⟩
    intro h
    have hother := h.own (declaration ++ "void Setup() \x7b other ".toList) " ".toList
      (by decide) isBlank_space
    revert hother
    decide
  case expression =>
    refine ⟨⟨"Length".toList, "int".toList, some "5".toList⟩,
      declaration ++ "void CalcBar() => ".toList, " = 5;".toList,
      isAssigned_of_mem (by decide +kernel), by decide +kernel, ?_⟩
    intro h
    refine h.notInExpression ⟨declaration ++ "void CalcBar() ".toList,
      " Length = 5;".toList, by decide, ?_, by decide, ?_⟩
    · exact ⟨declaration, " ".toList, [], [], " ".toList, by decide, by decide,
        isBlank_space, isBlank_nil, by decide, isBlank_space, by decide⟩
    · intro k hk
      have hlength : expressionLength? 0 " Length = 5;".toList = some 12 := by decide
      obtain rfl := Option.some.inj (hlength.symm.trans hk)
      decide
  case word =>
    refine ⟨⟨"Length".toList, "int".toList, some "5".toList⟩,
      declaration ++ "void Setup() \x7b x\u0301".toList, " = 5; \x7d".toList,
      isAssigned_of_mem (by decide +kernel), by decide +kernel, ?_⟩
    intro h
    have hword := h.word
    revert hword
    decide

end Dialect

end StrategyDialect
