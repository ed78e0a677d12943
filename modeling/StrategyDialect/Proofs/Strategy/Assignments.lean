import StrategyDialect.Proofs.Strategy.InitialValues

/-!
# Assignments

The search for an assignment to a name takes the first occurrence that it accepts, but
it does not see all of them: behind an occurrence it goes on where that occurrence ends.
Nothing is missed.  An occurrence that is passed over starts inside another one, so a
character of the name stands right before it
(`Assignment.mem_occurrencesFrom_or_exists_mem`), and where a character of a name stands
before the name, no value is assigned to it.  The occurrences that are seen are listed
from left to right, so the first accepted one is the leftmost of all
(`Assignment.find_leftmost`).

## Main definitions

* `Assignment.Assigns`: a text that starts with an equals sign and a value
* `Assignment.IsAssignedAt`: the positions at which a name is assigned a value

## Main statements

* `Assignment.value?_eq_some_iff`: the value that is read is the one that is assigned
* `Assignment.find_leftmost`: the search returns the value at the leftmost assignment
-/

namespace StrategyDialect

namespace Assignment

open Text

/-! ### Values -/

/-- A text that starts with an assignment, blanks aside: an equals sign, which does not
start a comparison or an arrow, and a text up to the first semicolon, which is not
blank.  The value is that text, trimmed. -/
def Assigns (t value : Text) : Prop :=
  ∃ gap written rest : Text, t = gap ++ '=' :: (written ++ ';' :: rest) ∧ gap.IsBlank ∧
    written.head? ≠ some '=' ∧ written.head? ≠ some '>' ∧ ';' ∉ written ∧
    ¬written.IsBlank ∧ value = trim written

variable {name before rest source t u v value : Text} {spans : List Span} {skip n : Nat}
  {site : Text × Text}

/-- A value ends at the first semicolon, and it is what stands before it less the blanks
at its ends; where nothing is left, there is no value. -/
theorem valueBeforeSemicolon?_eq_some_iff :
    valueBeforeSemicolon? t = some value ↔
      ∃ written rest : Text, t = written ++ ';' :: rest ∧ ';' ∉ written ∧
        ¬written.IsBlank ∧ value = trim written := by
  have hcut : ∀ {written rest : Text}, ';' ∉ written →
      (valueBeforeSemicolon? (written ++ ';' :: rest) = some value ↔
        ¬written.IsBlank ∧ value = trim written) := by
    intro written rest h
    rw [valueBeforeSemicolon?_append_cons h, Option.ite_none_left_eq_some,
      List.isEmpty_iff, trim_eq_nil_iff, Option.some_inj, eq_comm]
    exact Iff.rfl
  constructor
  · intro h
    by_cases hmem : ';' ∈ t
    · obtain ⟨written, rest, rfl, hwritten⟩ := List.eq_append_cons_of_mem hmem
      exact ⟨written, rest, rfl, hwritten, (hcut hwritten).mp h⟩
    · rw [valueBeforeSemicolon?_of_not_mem hmem] at h
      cases h
  · rintro ⟨written, rest, rfl, hwritten, h⟩
    exact (hcut hwritten).mpr h

/-- Blanks before an equals sign are passed over, and the sign itself is visible, so no
more than they go. -/
private theorem trimStart_append_equals {gap : Text} (hgap : gap.IsBlank) :
    trimStart (gap ++ '=' :: t) = '=' :: t := by
  have hequals : isBlank '=' = false := by decide
  rw [trimStart, List.dropWhile_append_of_pos hgap, ← trimStart,
    trimStart_cons_of_not_isBlank hequals]

/-- **The value that is read** is the one that is assigned. -/
theorem value?_eq_some_iff : value? t = some value ↔ Assigns t value := by
  have hread : ∀ {gap r : Text}, gap.IsBlank →
      (value? (gap ++ '=' :: r) = some value ↔
        (r.head? ≠ some '=' ∧ r.head? ≠ some '>') ∧
        valueBeforeSemicolon? r = some value) := by
    intro gap r hgap
    rw [value?, trimStart_append_equals hgap]
    change (if r.head? = some '=' ∨ r.head? = some '>' then none
      else valueBeforeSemicolon? r) = some value ↔ _
    rw [Option.ite_none_left_eq_some, not_or]
  -- A value is not blank, so the character behind the equals sign belongs to it.
  have hhead : ∀ {written rest : Text}, ¬written.IsBlank →
      (written ++ ';' :: rest).head? = written.head? := by
    intro written rest h
    cases written with
    | nil => exact absurd isBlank_nil h
    | cons x written => rfl
  constructor
  · intro h
    obtain ⟨r, hr⟩ : ∃ r, trimStart t = '=' :: r := by
      by_contra hnot
      have hnone : value? t = none := by
        refine value?_of_trimStart fun hequals => hnot ?_
        exact List.head?_eq_some_iff.mp hequals
      rw [hnone] at h
      cases h
    have hgap : IsBlank (t.takeWhile isBlank) := fun x hx => List.mem_takeWhile_imp hx
    have ht : t = t.takeWhile isBlank ++ '=' :: r := by
      rw [← hr, trimStart, List.takeWhile_append_dropWhile]
    rw [ht, hread hgap] at h
    obtain ⟨⟨hequals, harrow⟩, hvalue⟩ := h
    obtain ⟨written, rest, rfl, hsemicolon, hblank, rfl⟩ :=
      valueBeforeSemicolon?_eq_some_iff.mp hvalue
    rw [hhead hblank] at hequals harrow
    exact ⟨_, written, rest, ht, hgap, hequals, harrow, hsemicolon, hblank, rfl⟩
  · rintro ⟨gap, written, rest, rfl, hgap, hequals, harrow, hsemicolon, hblank, rfl⟩
    rw [hread hgap, hhead hblank]
    exact ⟨⟨hequals, harrow⟩,
      valueBeforeSemicolon?_eq_some_iff.mpr ⟨written, rest, rfl, hsemicolon, hblank, rfl⟩⟩

/-! ### Positions -/

/-- A name stands at a position, outside of some spans, and is assigned a value there.
No character of a name stands next to it; it stands on its own or as a member of `this`,
before which no character of a name stands either. -/
def IsAssignedAt (name : Text) (spans : List Span) (source : Text) (n : Nat)
    (value : Text) : Prop :=
  ∃ before after : Text, source = before ++ name ++ after ∧ before.length = n ∧
    (∀ s ∈ spans, ¬(s.start ≤ n ∧ n < s.stop)) ∧
    (∀ c ∈ before.getLast?, isNameChar c = false) ∧
    (before.getLast? = some '.' →
      ∃ r, before = r ++ "this.".toList ∧ ∀ c ∈ r.getLast?, isNameChar c = false) ∧
    (∀ c ∈ after.head?, isNameChar c = false) ∧ Assigns after value

/-- An occurrence gives a value under five conditions, in the order in which they are
tried: it lies in no body of the entry method, no character of a name stands before it,
a dot before it belongs to `this.`, no character of a name follows, and a value is
assigned. -/
theorem assignedAt?_eq_some_iff {before after : Text} :
    assignedAt? spans (before, after) = some value ↔
      (∀ s ∈ spans, ¬(s.start ≤ before.length ∧ before.length < s.stop)) ∧
        (∀ c ∈ before.getLast?, isNameChar c = false) ∧
        (before.getLast? = some '.' →
          ∃ r, before = r ++ "this.".toList ∧ ∀ c ∈ r.getLast?, isNameChar c = false) ∧
        (∀ c ∈ after.head?, isNameChar c = false) ∧ Assigns after value := by
  have hspans : ¬(spans.any (·.contains before.length) = true) ↔
      ∀ s ∈ spans, ¬(s.start ≤ before.length ∧ before.length < s.stop) := by
    simp [Span.contains]
  have hafter : (!after.head?.any isNameChar) = true ↔
      ∀ c ∈ after.head?, isNameChar c = false := by
    cases after <;> simp
  rw [assignedAt?, Option.ite_none_left_eq_some, hspans, valueAt?,
    Option.ite_none_right_eq_some, Bool.and_eq_true, hasOwnReceiver_reverse_iff, hafter,
    value?_eq_some_iff]
  simp only [and_assoc]

/-- The positions of assignments, in terms of the cuts of the source at the name. -/
theorem isAssignedAt_iff :
    IsAssignedAt name spans source n value ↔
      ∃ site : Text × Text, source = site.1 ++ name ++ site.2 ∧ site.1.length = n ∧
        assignedAt? spans site = some value := by
  constructor
  · rintro ⟨before, after, hsource, rfl, h⟩
    exact ⟨(before, after), hsource, rfl, assignedAt?_eq_some_iff.mpr h⟩
  · rintro ⟨⟨before, after⟩, hsource, rfl, h⟩
    exact ⟨before, after, hsource, rfl, assignedAt?_eq_some_iff.mp h⟩

/-- At one position at most one value is assigned. -/
theorem IsAssignedAt.value_eq {other : Text} (h : IsAssignedAt name spans source n value)
    (h' : IsAssignedAt name spans source n other) : value = other := by
  obtain ⟨⟨before, after⟩, hsource, hn, hvalue⟩ := isAssignedAt_iff.mp h
  obtain ⟨⟨before', after'⟩, hsource', hn', hother⟩ := isAssignedAt_iff.mp h'
  obtain ⟨rfl, hrest⟩ : before = before' ∧ name ++ after = name ++ after' := by
    refine List.append_inj ?_ (hn.trans hn'.symm)
    rw [← List.append_assoc, ← List.append_assoc, ← hsource, ← hsource']
  obtain rfl := List.append_cancel_left hrest
  exact Option.some.inj (hvalue.symm.trans hother)

/-! ### Occurrences -/

/-- **The occurrences that are passed over** start inside another one: a character of
the name stands before them. -/
theorem mem_occurrencesFrom_or_exists_mem (hne : name ≠ []) (h : rest = u ++ name ++ v)
    (hskip : skip ≤ u.length) :
    (before.reverse ++ u, v) ∈ occurrencesFrom name skip before rest ∨ ∃ c ∈ u.getLast?,
      c ∈ name := by
  induction rest generalizing skip before u with
  | nil => simp [hne] at h
  | cons c rest ih =>
    cases u with
    | nil =>
      -- The search looks at this position, since it skips nothing here.
      obtain rfl : skip = 0 := Nat.le_zero.mp hskip
      have hafter : afterPrefix? name (c :: rest) = some v :=
        afterPrefix?_eq_some_iff.mpr h
      left
      rw [occurrencesFrom, hafter, List.append_nil]
      exact List.mem_cons_self
    | cons x u =>
      obtain ⟨rfl, hrest⟩ : c = x ∧ rest = u ++ name ++ v := List.cons.inj h
      have hlater : ∀ {skip : Nat}, skip ≤ u.length →
          (before.reverse ++ c :: u, v) ∈ occurrencesFrom name skip (c :: before) rest ∨
            ∃ y ∈ (c :: u).getLast?, y ∈ name := by
        intro skip hle
        have hnext : ((c :: before).reverse ++ u, v) ∈
            occurrencesFrom name skip (c :: before) rest ∨
            ∃ y ∈ u.getLast?, y ∈ name := ih hrest hle
        rw [List.reverse_cons, List.append_assoc, List.singleton_append] at hnext
        refine hnext.imp_right ?_
        rintro ⟨y, hy, hmem⟩
        refine ⟨y, ?_, hmem⟩
        rw [List.getLast?_cons, Option.mem_def.mp hy]
        rfl
      cases skip with
      | succ skip => exact hlater (Nat.le_of_succ_le_succ hskip)
      | zero =>
        rw [occurrencesFrom]
        split
        next => exact hlater (Nat.zero_le _)
        next after hafter =>
          by_cases hinside : name.length - 1 ≤ u.length
          · exact (hlater hinside).imp_left (List.mem_cons_of_mem _)
          · -- The position lies inside the occurrence that starts here.
            have hsame : name ++ after = (c :: u) ++ (name ++ v) := by
              rw [← afterPrefix?_eq_some_iff.mp hafter, hrest]
              simp
            obtain ⟨w, hw⟩ : c :: u <+: name :=
              List.prefix_of_prefix_length_le ⟨name ++ v, hsame.symm⟩ ⟨after, rfl⟩
                (by rw [List.length_cons]; omega)
            refine .inr ⟨_, List.getLast?_eq_some_getLast (List.cons_ne_nil c u), ?_⟩
            rw [← hw]
            exact List.mem_append_left w (List.getLast_mem _)

/-- The search never goes back: what stands before an occurrence is at least as long as
what stood before the place from which it was looked for. -/
theorem le_length_of_mem_occurrencesFrom
    (h : site ∈ occurrencesFrom name skip before rest) :
    before.length ≤ site.1.length := by
  induction rest generalizing skip before with
  | nil => cases h
  | cons c rest ih =>
    have hlater : ∀ {skip}, site ∈ occurrencesFrom name skip (c :: before) rest →
        before.length ≤ site.1.length :=
      fun hmem => Nat.le_of_succ_le (ih hmem)
    cases skip with
    | succ skip => exact hlater h
    | zero =>
      rw [occurrencesFrom] at h
      split at h
      next => exact hlater h
      next =>
        rcases List.mem_cons.mp h with rfl | h
        · exact Nat.le_of_eq (List.length_reverse ..).symm
        · exact hlater h

/-- The occurrences are listed from left to right, each of them once, so the first one
in the list that is accepted is the leftmost. -/
theorem pairwise_occurrencesFrom :
    (occurrencesFrom name skip before rest).Pairwise fun site site' =>
      site.1.length < site'.1.length := by
  induction rest generalizing skip before with
  | nil => exact .nil
  | cons c rest ih =>
    cases skip with
    | succ skip => exact ih
    | zero =>
      rw [occurrencesFrom]
      split
      next => exact ih
      next =>
        refine .cons (fun site hsite => ?_) ih
        have hle := le_length_of_mem_occurrencesFrom hsite
        rw [List.length_reverse]
        exact hle

/-- An occurrence at which a value is assigned is not passed over. -/
theorem mem_occurrences_of_assignedAt? (hne : name ≠ [])
    (hname : ∀ x ∈ name, isNameChar x = true)
    (hsource : source = site.1 ++ name ++ site.2)
    (h : assignedAt? spans site = some value) : site ∈ occurrences name source := by
  obtain ⟨before, after⟩ := site
  have hlisted : (([] : Text).reverse ++ before, after) ∈
      occurrencesFrom name 0 [] source ∨
      ∃ c ∈ before.getLast?, c ∈ name :=
    mem_occurrencesFrom_or_exists_mem hne hsource (Nat.zero_le _)
  rcases hlisted with hmem | ⟨c, hc, hmem⟩
  · exact hmem
  · have hnot := (assignedAt?_eq_some_iff.mp h).2.1 c hc
    rw [hname c hmem] at hnot
    cases hnot

/-- The occurrence that is taken is the first that is accepted. -/
theorem length_le_of_site? {other : Text × Text} (h : site? name spans source = some site)
    (hmem : other ∈ occurrences name source)
    (hother : (assignedAt? spans other).isSome = true) :
    site.1.length ≤ other.1.length := by
  obtain ⟨-, sites, sites', hsites, hrefused⟩ := List.find?_eq_some_iff_append.mp h
  have hordered : (sites ++ site :: sites').Pairwise fun s s' =>
      s.1.length < s'.1.length := by
    rw [← hsites]
    exact pairwise_occurrencesFrom
  rw [hsites] at hmem
  rcases List.mem_append.mp hmem with hbefore | hbehind
  · have hnot := hrefused other hbefore
    rw [hother] at hnot
    cases hnot
  · rcases List.mem_cons.mp hbehind with rfl | hbehind
    · exact Nat.le_refl _
    · have hlater :=
        (List.pairwise_cons.mp (List.pairwise_append.mp hordered).2.1).1 other hbehind
      exact Nat.le_of_lt hlater

/-! ### The search -/

/-- **The search for an assignment** misses none: it finds a value if there is an
assignment to the name at all, and returns the value at the leftmost one.  This is so
although the search never sees an occurrence that starts inside one that it has passed
over. -/
theorem find_leftmost (hne : name ≠ []) (hname : ∀ x ∈ name, isNameChar x = true)
    (spans : List Span) (source : Text) :
    (find name spans source = none ↔ ∀ n value, ¬IsAssignedAt name spans source n value) ∧
      ∀ value, find name spans source = some value ↔
        ∃ n, IsAssignedAt name spans source n value ∧
          ∀ m other, IsAssignedAt name spans source m other → n ≤ m := by
  -- What is found is assigned somewhere, and nowhere further left is anything assigned.
  have hfound : ∀ {value}, find name spans source = some value →
      ∃ n, IsAssignedAt name spans source n value ∧ ∀ m other,
      IsAssignedAt name spans source m other → n ≤ m := by
    intro value hvalue
    rw [find_eq] at hvalue
    obtain ⟨site, hsite, hassigned⟩ := Option.bind_eq_some_iff.mp hvalue
    refine ⟨site.1.length,
      isAssignedAt_iff.mpr ⟨site, eq_append_of_site? hsite, rfl, hassigned⟩, ?_⟩
    intro m other hother
    obtain ⟨site', hsource, rfl, hassigned'⟩ := isAssignedAt_iff.mp hother
    have hmem := mem_occurrences_of_assignedAt? hne hname hsource hassigned'
    exact length_le_of_site? hsite hmem (Option.isSome_of_mem hassigned')
  -- Where something is assigned, something is found.
  have hfinds : ∀ {n value}, IsAssignedAt name spans source n value →
      ∃ other, find name spans source = some other := by
    intro n value h
    obtain ⟨site, hsource, -, hassigned⟩ := isAssignedAt_iff.mp h
    have hmem := mem_occurrences_of_assignedAt? hne hname hsource hassigned
    obtain ⟨first, hfirst⟩ : ∃ first, site? name spans source = some first :=
      Option.isSome_iff_exists.mp
        (List.find?_isSome.mpr ⟨site, hmem, Option.isSome_of_mem hassigned⟩)
    have haccepted : (assignedAt? spans first).isSome = true :=
      (List.find?_eq_some_iff_append.mp hfirst).1
    obtain ⟨other, hother⟩ := Option.isSome_iff_exists.mp haccepted
    exact ⟨other, by rw [find_eq, hfirst, Option.bind_some, hother]⟩
  refine ⟨⟨fun hnone n value h => ?_, fun h => ?_⟩, fun value => ⟨hfound, ?_⟩⟩
  · obtain ⟨other, hother⟩ := hfinds h
    rw [hnone] at hother
    cases hother
  · rw [Option.eq_none_iff_forall_ne_some]
    intro value hvalue
    obtain ⟨n, hn, -⟩ := hfound hvalue
    exact h n value hn
  · rintro ⟨n, hn, hleast⟩
    obtain ⟨other, hother⟩ := hfinds hn
    obtain ⟨m, hm, hleast'⟩ := hfound hother
    obtain rfl : n = m := Nat.le_antisymm (hleast m other hm) (hleast' n value hn)
    rw [hother, hm.value_eq hn]

/-- A name that overlaps itself: it stands inside a longer name, in a span, and as a
member of something else before the assignment that counts. -/
theorem find_leftmost_overlapping :
    let name : Text := "aa".toList
    let source : Text := "aaa = 1; aa = 2; other.aa = 3; this.aa = 4;".toList
    name ≠ [] ∧ (∀ x ∈ name, isNameChar x = true) ∧
      ∃ n, IsAssignedAt name [⟨9, 12⟩] source n "4".toList ∧
        ∀ m other, IsAssignedAt name [⟨9, 12⟩] source m other → n ≤ m := by
  intro name source
  have hne : name ≠ [] := by decide
  have hname : ∀ x ∈ name, isNameChar x = true := by decide
  have hfind : find name [⟨9, 12⟩] source = some "4".toList := by decide
  exact ⟨hne, hname, ((find_leftmost hne hname [⟨9, 12⟩] source).2 _).mp hfind⟩

end Assignment

end StrategyDialect
