import StrategyDialect.Proofs.Strategy.Declarations

/-!
# Declarations can be read in one way only

The pattern of a declaration can be matched in many ways: a modifier can be read as a
type, a type as a modifier, and each of the optional parts of a type can be left out.
Nevertheless at most one way leads to a whole declaration.  All that is needed is what
comes next: the first character, where a stretch of one class ends, or the first visible
character (`Text.firstVisible`), where blanks and optional brackets may stand.

Only a tail is preferred rather than determined, because `=` is the start of `=>`; that
is why the tail `=` comes with the condition that no `>` follows.

## Main definitions

* `Text.firstVisible`: the first character that is not blank
* `Text.StartsName`: a name starts at the start of a text

## Main statements

* `Text.IsType.append_inj`: a type with blanks and a name after it
* `Dialect.IsDeclaration.append_inj`: a declaration at the start of a text
* `Dialect.exists_matchAt_of_isDeclaration`: a match of a declaration is the preferred
  one
-/

namespace StrategyDialect

namespace Text

variable {t t' u v w w' r r' s s' : Text} {x x' y : Char}

/-! ## What comes next -/

/-- The first character that is not blank. -/
def firstVisible (t : Text) : Option Char :=
  (trimStart t).head?

/-- A text at whose start a name starts. -/
def StartsName (t : Text) : Prop :=
  ∃ x u, t = x :: u ∧ CharClass.asciiNameStart.contains x = true

/-- Blanks in front do not change the first visible character. -/
theorem firstVisible_append_of_isBlank (hw : w.IsBlank) :
    firstVisible (w ++ t) = firstVisible t := by
  rw [firstVisible, firstVisible, trimStart, trimStart, List.dropWhile_append_of_pos hw]

/-- A visible character in front is the first one. -/
theorem firstVisible_cons (hx : isBlank x = false) : firstVisible (x :: t) = some x := by
  rw [firstVisible, trimStart_cons_of_not_isBlank hx]
  rfl

/-- What a name starts with is visible. -/
theorem isBlank_eq_false_of_asciiNameStart
    (hx : CharClass.asciiNameStart.contains x = true) : isBlank x = false :=
  isBlank_eq_false_of_isWord (isWord_of_asciiNameStart hx)

/-- Where a name starts, its first character is the first visible one. -/
theorem StartsName.exists_firstVisible (h : StartsName t) :
    ∃ x, firstVisible t = some x ∧ CharClass.asciiNameStart.contains x = true := by
  obtain ⟨x, u, rfl, hx⟩ := h
  exact ⟨x, firstVisible_cons (isBlank_eq_false_of_asciiNameStart hx), hx⟩

/-- Where a name starts, no blank stands in front. -/
theorem StartsName.head?_eq_false (h : StartsName t) :
    ∀ x ∈ t.head?, isBlank x = false := by
  obtain ⟨y, u, rfl, hy⟩ := h
  exact forall_mem_head?_cons (isBlank_eq_false_of_asciiNameStart hy) u

/-- An identifier starts a name, whatever follows it. -/
theorem IsIdentifier.startsName (h : IsIdentifier t) (r : Text) :
    StartsName (t ++ r) := by
  obtain ⟨x, u, rfl, hx, -⟩ := h
  exact ⟨x, u ++ r, rfl, hx⟩

/-- So does the name of a type. -/
theorem IsTypeName.startsName (h : IsTypeName t) (r : Text) : StartsName (t ++ r) := by
  obtain ⟨x, u, rfl, hx, -⟩ := h
  exact ⟨x, u ++ r, rfl, hx⟩

/-- And so does a type, as its name comes first. -/
theorem IsType.startsName (h : IsType t) (r : Text) : StartsName (t ++ r) := by
  obtain ⟨name, arguments, array, mark, hname, -, -, -, rfl⟩ := h
  have hstart := hname.startsName (arguments ++ (array ++ (mark ++ r)))
  simpa using hstart

/-- Blanks end where a visible character stands, so they can be split off in one way
only. -/
theorem append_inj_of_isBlank (h : w ++ r = w' ++ r') (hw : w.IsBlank) (hw' : w'.IsBlank)
    (hr : ∀ x ∈ r.head?, isBlank x = false) (hr' : ∀ x ∈ r'.head?, isBlank x = false) :
    w = w' ∧ r = r' :=
  append_inj_of_class h hw hw' hr hr'

/-- Names end where no word character stands, so they, too, can be split off in one way
only. -/
theorem append_inj_of_isIdentifier (h : t ++ r = t' ++ r') (ht : IsIdentifier t)
    (ht' : IsIdentifier t') (hr : ∀ x ∈ r.head?, isWord x = false)
    (hr' : ∀ x ∈ r'.head?, isWord x = false) : t = t' ∧ r = r' :=
  append_inj_of_class h (fun _ hx => ht.isWord hx) (fun _ hx => ht'.isWord hx) hr hr'

/-! ## Types -/

/-- Optional brackets are there if and only if their opening bracket comes next. -/
theorem IsBracketed.append_inj {opening closing : Char} {k : CharClass}
    (hopening : isBlank opening = false) (hclosing : k.contains closing = false)
    (h : t ++ r = t' ++ r') (ht : IsBracketed opening closing k t)
    (ht' : IsBracketed opening closing k t') (hr : firstVisible r ≠ some opening)
    (hr' : firstVisible r' ≠ some opening) : t = t' ∧ r = r' := by
  have hvisible : ∀ {gap r : Text}, gap.IsBlank →
      firstVisible (gap ++ (opening :: r)) = some opening :=
    fun hgap => by rw [firstVisible_append_of_isBlank hgap, firstVisible_cons hopening]
  cases ht with
  | absent =>
    cases ht' with
    | absent => exact ⟨rfl, h⟩
    | present hgap' hinner' =>
      -- The opening bracket would be the first visible character behind the brackets
      -- that are left out.
      refine absurd ?_ hr
      rw [show r = _ from h]
      simpa using hvisible hgap'
  | @present gap inner hgap hinner =>
    cases ht' with
    | absent =>
      refine absurd ?_ hr'
      rw [show r' = _ from h.symm]
      simpa using hvisible hgap
    | @present gap' inner' hgap' hinner' =>
      have hgaps : gap ++ (opening :: (inner ++ (closing :: r))) =
          gap' ++ (opening :: (inner' ++ (closing :: r'))) := by simpa using h
      obtain ⟨rfl, hinners⟩ :=
        append_inj_of_isBlank hgaps hgap hgap' (forall_mem_head?_cons hopening _)
          (forall_mem_head?_cons hopening _)
      obtain ⟨rfl, hrest⟩ := append_inj_of_class (List.cons.inj hinners).2 hinner hinner'
        (forall_mem_head?_cons hclosing _) (forall_mem_head?_cons hclosing _)
      exact ⟨rfl, (List.cons.inj hrest).2⟩

/-- Optional brackets are left out, or their opening bracket comes next. -/
theorem IsBracketed.eq_nil_or {opening closing : Char} {k : CharClass}
    (hopening : isBlank opening = false)
    (ht : IsBracketed opening closing k t) (r : Text) :
    t = [] ∨ firstVisible (t ++ r) = Option.some opening := by
  cases ht with
  | absent => exact .inl rfl
  | @present gap inner hgap hinner =>
    right
    have hvisible : firstVisible (gap ++ (opening :: (inner ++ (closing :: r)))) =
        Option.some opening := by
      rw [firstVisible_append_of_isBlank hgap, firstVisible_cons hopening]
    simpa using hvisible

/-- A blank ends the name of a type. -/
theorem typeClass_eq_false_of_isBlank (hx : isBlank x = true) :
    typeClass.contains x = false := by
  have hdot : x ≠ '.' := by
    rintro rfl
    exact absurd hx (by decide)
  simp [typeClass, CharClass.contains, isWord_eq_false_of_isBlank hx, hdot]

/-- Word characters go on with the name of a type, and so does a dot. -/
theorem typeClass_of_isWord (hx : isWord x = true) : typeClass.contains x = true := by
  simp [typeClass, CharClass.contains, hx]

/-- The name of a type is made of such characters throughout. -/
theorem IsTypeName.contains (h : IsTypeName t) (hx : x ∈ t) :
    typeClass.contains x = true := by
  obtain ⟨y, u, rfl, hy, hu⟩ := h
  rcases List.mem_cons.mp hx with rfl | hx
  · exact typeClass_of_isWord (isWord_of_asciiNameStart hy)
  · exact hu x hx

/-- Optional brackets do not continue the name of a type. -/
private theorem typeClass_head?_bracketed {opening closing : Char} {k : CharClass}
    (hopening : typeClass.contains opening = false) (ht : IsBracketed opening closing k t)
    (hr : ∀ x ∈ r.head?, typeClass.contains x = false) :
    ∀ x ∈ (t ++ r).head?, typeClass.contains x = false := by
  cases ht with
  | absent => exact hr
  | @present gap inner hgap hinner =>
    have hvisible := forall_mem_head?_append_cons
      (fun x hx => typeClass_eq_false_of_isBlank (hgap x hx)) hopening
        (inner ++ closing :: r)
    simpa using hvisible

/-- What stands behind the name of a type: type arguments, the brackets of an array, a
question mark, and then blanks and a name. -/
private structure AfterTypeName (arguments array mark w r : Text) : Prop where
  arguments : IsBracketed '<' '>' argumentClass arguments
  array : IsBracketed '[' ']' .blank array
  mark : mark = ['?'] ∨ mark = []
  ne_nil : w ≠ []
  isBlank : w.IsBlank
  startsName : StartsName r

variable {arguments array mark arguments' array' mark' : Text}

/-- Behind the brackets of a type comes a question mark, or the name that is
declared. -/
private theorem AfterTypeName.firstVisible_mark
    (h : AfterTypeName arguments array mark w r) :
    ∃ z, firstVisible (mark ++ (w ++ r)) = some z ∧
      (z = '?' ∨ CharClass.asciiNameStart.contains z = true) := by
  rcases h.mark with rfl | rfl
  · exact ⟨'?', firstVisible_cons (by decide), .inl rfl⟩
  · obtain ⟨z, hz, hstart⟩ := h.startsName.exists_firstVisible
    exact ⟨z, (firstVisible_append_of_isBlank h.isBlank).trans hz, .inr hstart⟩

/-- Behind its arguments comes the bracket of an array, or one of these. -/
private theorem AfterTypeName.firstVisible_array
    (h : AfterTypeName arguments array mark w r) :
    ∃ z, firstVisible (array ++ (mark ++ (w ++ r))) = some z ∧
      (z = '[' ∨ z = '?' ∨ CharClass.asciiNameStart.contains z = true) := by
  rcases h.array.eq_nil_or (by decide) (mark ++ (w ++ r)) with hnil | hvisible
  · obtain ⟨z, hz, hstart⟩ := h.firstVisible_mark
    rw [hnil]
    exact ⟨z, hz, .inr hstart⟩
  · exact ⟨'[', hvisible, .inl rfl⟩

/-- Behind the name of a type there is no tail of a declaration.  This is what keeps a
type from being read as the name that is declared. -/
private theorem AfterTypeName.firstVisible_arguments
    (h : AfterTypeName arguments array mark w r) :
    ∃ z, firstVisible (arguments ++ (array ++ (mark ++ (w ++ r)))) = some z ∧
      (z ∈ ['<', '[', '?'] ∨ CharClass.asciiNameStart.contains z = true) := by
  rcases h.arguments.eq_nil_or (by decide) (array ++ (mark ++ (w ++ r)))
    with hnil | hvisible
  · obtain ⟨z, hz, rfl | rfl | hstart⟩ := h.firstVisible_array
    · exact ⟨_, by rw [hnil]; exact hz, .inl (by decide)⟩
    · exact ⟨_, by rw [hnil]; exact hz, .inl (by decide)⟩
    · exact ⟨z, by rw [hnil]; exact hz, .inr hstart⟩
  · exact ⟨'<', hvisible, .inl (by decide)⟩

/-- What stands directly behind the name of a type does not go on with it. -/
private theorem AfterTypeName.typeClass_head?
    (h : AfterTypeName arguments array mark w r) :
    ∀ x ∈ (arguments ++ (array ++ (mark ++ (w ++ r)))).head?,
      typeClass.contains x = false := by
  refine typeClass_head?_bracketed (by decide) h.arguments
    (typeClass_head?_bracketed (by decide) h.array ?_)
  rcases h.mark with rfl | rfl
  · exact forall_mem_head?_cons (by decide) (w ++ r)
  · obtain ⟨y, w, rfl⟩ := List.exists_cons_of_ne_nil h.ne_nil
    exact forall_mem_head?_cons
      (typeClass_eq_false_of_isBlank (h.isBlank y (by simp))) (w ++ r)

/-- A question mark is there if and only if it comes next. -/
private theorem AfterTypeName.mark_eq (h : AfterTypeName arguments array mark w r)
    (h' : AfterTypeName arguments' array' mark' w' r')
    (heq : mark ++ (w ++ r) = mark' ++ (w' ++ r')) : mark = mark' := by
  have hnot : ∀ {w r : Text}, w.IsBlank → StartsName r →
      firstVisible (w ++ r) ≠ some '?' := by
    intro w r hw hr hvisible
    obtain ⟨z, hz, hstart⟩ := hr.exists_firstVisible
    rw [firstVisible_append_of_isBlank hw, hz] at hvisible
    obtain rfl : z = '?' := by simpa using hvisible
    exact absurd hstart (by decide)
  have hthere : ∀ {t : Text}, firstVisible (['?'] ++ t) = some '?' :=
    firstVisible_cons (by decide)
  rcases h.mark with rfl | rfl <;> rcases h'.mark with rfl | rfl
  · rfl
  · exact absurd (heq ▸ hthere) (hnot h'.isBlank h'.startsName)
  · exact absurd (heq ▸ hthere) (hnot h.isBlank h.startsName)
  · rfl

/-- The parts behind the name of a type are determined. -/
private theorem AfterTypeName.append_inj (h : AfterTypeName arguments array mark w r)
    (h' : AfterTypeName arguments' array' mark' w' r')
    (heq : arguments ++ (array ++ (mark ++ (w ++ r))) =
      arguments' ++ (array' ++ (mark' ++ (w' ++ r')))) :
    arguments = arguments' ∧ array = array' ∧ mark = mark' ∧ w = w' ∧ r = r' := by
  have hnoArray : ∀ {arguments array mark w r : Text},
      AfterTypeName arguments array mark w r →
      firstVisible (mark ++ (w ++ r)) ≠ some '[' := by
    intro arguments array mark w r h hvisible
    obtain ⟨z, hz, hcases⟩ := h.firstVisible_mark
    obtain rfl : z = '[' := by simpa [hz] using hvisible
    exact absurd hcases (by decide)
  have hnoArguments : ∀ {arguments array mark w r : Text},
      AfterTypeName arguments array mark w r →
      firstVisible (array ++ (mark ++ (w ++ r))) ≠ some '<' := by
    intro arguments array mark w r h hvisible
    obtain ⟨z, hz, hcases⟩ := h.firstVisible_array
    obtain rfl : z = '<' := by simpa [hz] using hvisible
    exact absurd hcases (by decide)
  obtain ⟨rfl, harrays⟩ :=
    IsBracketed.append_inj (by decide) (by decide) heq h.arguments h'.arguments
      (hnoArguments h) (hnoArguments h')
  obtain ⟨rfl, hmarks⟩ :=
    IsBracketed.append_inj (by decide) (by decide) harrays h.array h'.array
      (hnoArray h) (hnoArray h')
  obtain rfl := h.mark_eq h' hmarks
  obtain ⟨rfl, rfl⟩ :=
    append_inj_of_isBlank (List.append_cancel_left hmarks) h.isBlank h'.isBlank
      h.startsName.head?_eq_false h'.startsName.head?_eq_false
  exact ⟨rfl, rfl, rfl, rfl, rfl⟩

/-- **A type with blanks and a name after it** can be read in one way only. -/
theorem IsType.append_inj (h : t ++ (w ++ r) = t' ++ (w' ++ r')) (ht : IsType t)
    (ht' : IsType t') (hne : w ≠ []) (hne' : w' ≠ []) (hw : w.IsBlank) (hw' : w'.IsBlank)
    (hr : StartsName r) (hr' : StartsName r') : t = t' ∧ w = w' ∧ r = r' := by
  obtain ⟨name, arguments, array, mark, hname, harguments, harray, hmark, rfl⟩ := ht
  obtain ⟨name', arguments', array', mark', hname', harguments', harray', hmark', rfl⟩ :=
    ht'
  have hafter : AfterTypeName arguments array mark w r :=
    ⟨harguments, harray, hmark, hne, hw, hr⟩
  have hafter' : AfterTypeName arguments' array' mark' w' r' :=
    ⟨harguments', harray', hmark', hne', hw', hr'⟩
  have hsplit : name ++ (arguments ++ (array ++ (mark ++ (w ++ r)))) =
      name' ++ (arguments' ++ (array' ++ (mark' ++ (w' ++ r')))) := by simpa using h
  obtain ⟨rfl, hrest⟩ := append_inj_of_class hsplit (fun _ hx => hname.contains hx)
    (fun _ hx => hname'.contains hx) hafter.typeClass_head? hafter'.typeClass_head?
  obtain ⟨rfl, rfl, rfl, rfl, rfl⟩ := hafter.append_inj hafter' hrest
  exact ⟨rfl, rfl, rfl⟩

/-- A name that is followed by the tail of a declaration cannot be read as a type with a
name after it. -/
theorem IsType.ne_append_of_isIdentifier (ht : IsType t) (hne : w ≠ []) (hw : w.IsBlank)
    (hr : StartsName r) (hu : IsIdentifier u) (hv : v.IsBlank)
    (hy : y ∈ ['{', '=', ';']) : u ++ (v ++ y :: s) ≠ t ++ (w ++ r) := by
  intro h
  obtain ⟨name, arguments, array, mark, hname, harguments, harray, hmark, rfl⟩ := ht
  have hafter : AfterTypeName arguments array mark w r :=
    ⟨harguments, harray, hmark, hne, hw, hr⟩
  have hmarks : ∀ y ∈ ['{', '=', ';'], typeClass.contains y = false ∧ isBlank y = false ∧
      y ∉ ['<', '[', '?'] ∧ CharClass.asciiNameStart.contains y = false := by decide
  obtain ⟨hyclass, hyblank, hynot, hystart⟩ := hmarks y hy
  have hsplit : u ++ (v ++ y :: s) =
      name ++ (arguments ++ (array ++ (mark ++ (w ++ r)))) := by
    simpa using h
  have hhead : ∀ x ∈ (v ++ y :: s).head?, typeClass.contains x = false :=
    forall_mem_head?_append_cons
      (fun x hx => typeClass_eq_false_of_isBlank (hv x hx)) hyclass s
  obtain ⟨-, hrest⟩ :=
    append_inj_of_class hsplit (fun _ hx => typeClass_of_isWord (hu.isWord hx))
      (fun _ hx => hname.contains hx) hhead hafter.typeClass_head?
  -- Behind the name, the first visible character starts the tail in one reading and
  -- continues the type, or starts the second name, in the other.
  obtain ⟨z, hz, hcases⟩ := hafter.firstVisible_arguments
  rw [← hrest, firstVisible_append_of_isBlank hv, firstVisible_cons hyblank] at hz
  obtain rfl : y = z := by simpa using hz
  rcases hcases with hcases | hcases
  · exact hynot hcases
  · simp [hystart] at hcases

/-! ## Attributes -/

/-- An attribute starts with a bracket and not like a name. -/
theorem IsAttribute.not_startsName (h : IsAttribute t) : ¬StartsName (t ++ r) := by
  obtain ⟨inner, gap, -, -, rfl⟩ := h
  rintro ⟨x, u, hxu, hx⟩
  obtain rfl : '[' = x := (List.cons.inj hxu).1
  exact absurd hx (by decide)

/-- Attributes are visible at their start, and so is a name. -/
theorem head?_eq_false_of_attributes (ht : Pattern.Repeats IsAttribute t)
    (hr : StartsName r) : ∀ x ∈ (t ++ r).head?, isBlank x = false := by
  cases ht with
  | nil => exact hr.head?_eq_false
  | cons h more =>
    obtain ⟨inner, gap, -, -, rfl⟩ := h
    exact forall_mem_head?_cons (by decide) _

/-- An attribute ends at its first closing bracket, and the blanks behind it end at the
next visible character. -/
theorem IsAttribute.append_inj (h : t ++ r = t' ++ r') (ht : IsAttribute t)
    (ht' : IsAttribute t') (hr : ∀ x ∈ r.head?, isBlank x = false)
    (hr' : ∀ x ∈ r'.head?, isBlank x = false) : t = t' ∧ r = r' := by
  obtain ⟨inner, w, hinner, hw, rfl⟩ := ht
  obtain ⟨inner', w', hinner', hw', rfl⟩ := ht'
  have hsplit : inner ++ (']' :: (w ++ r)) = inner' ++ (']' :: (w' ++ r')) := by
    simpa using h
  have hinside : ∀ {inner : Text}, ']' ∉ inner → ∀ x ∈ inner, (x != ']') = true := by
    intro inner hinner x hx
    have hne : x ≠ ']' := fun heq => hinner (heq ▸ hx)
    simpa using hne
  obtain ⟨rfl, hgaps⟩ := append_inj_of_class hsplit (hinside hinner) (hinside hinner')
    (forall_mem_head?_cons (by decide) _) (forall_mem_head?_cons (by decide) _)
  obtain ⟨rfl, rfl⟩ := append_inj_of_isBlank (List.cons.inj hgaps).2 hw hw' hr hr'
  exact ⟨rfl, rfl⟩

/-! ## Names -/

/-- An identifier is a type, one without any of the optional parts.  A modifier can be
taken for a type by this. -/
theorem isType_of_isIdentifier (h : IsIdentifier t) : IsType t := by
  obtain ⟨x, u, rfl, hx, hu⟩ := h
  exact ⟨x :: u, [], [], [], ⟨x, u, rfl, hx, fun y hy => typeClass_of_isWord (hu y hy)⟩,
    .absent, .absent, .inr rfl, by simp⟩

end Text

namespace Dialect

open Text Pattern

/-! ## Modifiers -/

/-- Modifiers are spelled like identifiers, which a computation over the list shows. -/
theorem isIdentifier_of_mem_modifiers {m : Text} (h : m ∈ modifiers) :
    IsIdentifier m := by
  have hall : ∀ m ∈ modifiers,
      m.head?.any CharClass.asciiNameStart.contains = true ∧ m.all isWord = true := by
    decide
  obtain ⟨hhead, hword⟩ := hall m h
  cases m with
  | nil => simp at hhead
  | cons x u =>
    exact ⟨x, u, rfl, by simpa using hhead,
      fun y hy => List.all_eq_true.mp hword y (by simp [hy])⟩

variable {attributes attributes' modifiers modifiers' r r' s s' : Text}

/-- A type, a name and the first character of a tail, with blanks between them. -/
structure IsMember (type gap name gap' : Text) (y : Char) : Prop where
  isType : IsType type
  ne_nil : gap ≠ []
  isBlank : gap.IsBlank
  isIdentifier : name.IsIdentifier
  isBlank' : gap'.IsBlank
  mem : y ∈ ['{', '=', ';']

variable {type type' gap gap' name name' gap₂ gap₂' : Text} {y y' : Char}

/-- Modifiers and what follows them start a name, if what follows does. -/
theorem startsName_modifiers (hmodifiers : Repeats IsModifier modifiers)
    (hr : StartsName r) : StartsName (modifiers ++ r) := by
  cases hmodifiers with
  | nil => exact hr
  | @cons u v h more =>
    obtain ⟨m, hm, gap, -, -, rfl⟩ := h
    have hstart := (isIdentifier_of_mem_modifiers hm).startsName (gap ++ (v ++ r))
    simpa using hstart

/-- What follows a name is visible or a blank, and so no part of the name. -/
theorem IsMember.head?_eq_false (h : IsMember type gap name gap' y) :
    ∀ x ∈ (gap' ++ y :: s).head?, isWord x = false := by
  have hmarks : ∀ y ∈ ['{', '=', ';'], isWord y = false := by decide
  exact forall_mem_head?_append_cons
    (fun x hx => isWord_eq_false_of_isBlank (h.isBlank' x hx)) (hmarks y h.mem) s

/-- The tails of a declaration start with a visible character. -/
theorem isBlank_head?_of_mem (hy : y ∈ ['{', '=', ';']) :
    ∀ x ∈ (y :: s).head?, isBlank x = false := by
  have hmarks : ∀ y ∈ ['{', '=', ';'], isBlank y = false := by decide
  exact forall_mem_head?_cons (hmarks y hy) s

/-- A member starts a name, that of its type. -/
theorem IsMember.startsName (h : IsMember type gap name gap₂ y) (s : Text) :
    StartsName (type ++ (gap ++ (name ++ (gap₂ ++ y :: s)))) :=
  h.isType.startsName _

/-- The type of a member is no modifier of a longer reading: what follows it would have
to be the name and the tail, and at the same time a modifier or a type with a name
behind it. -/
private theorem IsMember.ne_cons_modifiers (h : IsMember type gap name gap₂ y)
    (h' : IsMember type' gap' name' gap₂' y') {m : Text} (hm : IsModifier m)
    (hmodifiers : Repeats IsModifier modifiers) :
    type ++ (gap ++ (name ++ (gap₂ ++ y :: s))) ≠
      m ++ (modifiers ++ (type' ++ (gap' ++ (name' ++ (gap₂' ++ y' :: s'))))) := by
  intro heq
  -- A modifier can be read as a type, so the first modifier is the type, and what
  -- follows both is the same.
  obtain ⟨k, hk, w, hne, hw, rfl⟩ := hm
  rw [List.append_assoc] at heq
  obtain ⟨rfl, rfl, hrest⟩ := IsType.append_inj heq h.isType
    (isType_of_isIdentifier (isIdentifier_of_mem_modifiers hk)) h.ne_nil hne h.isBlank hw
    (h.isIdentifier.startsName _) (startsName_modifiers hmodifiers (h'.startsName s'))
  cases hmodifiers with
  | nil =>
    exact IsType.ne_append_of_isIdentifier h'.isType h'.ne_nil h'.isBlank
      (h'.isIdentifier.startsName _) h.isIdentifier h.isBlank' h.mem hrest
  | @cons u v hm more =>
    obtain ⟨k', hk', w', hne', hw', rfl⟩ := hm
    rw [List.append_assoc, List.append_assoc] at hrest
    exact IsType.ne_append_of_isIdentifier
      (isType_of_isIdentifier (isIdentifier_of_mem_modifiers hk')) hne' hw'
      (startsName_modifiers more (h'.startsName s')) h.isIdentifier h.isBlank' h.mem hrest

/-- **The modifiers before a member** are determined.  A modifier more or less would
leave a type and a name that are followed by no tail. -/
theorem append_inj_of_modifiers (hmodifiers : Repeats IsModifier modifiers)
    (hmodifiers' : Repeats IsModifier modifiers') (h : IsMember type gap name gap₂ y)
    (h' : IsMember type' gap' name' gap₂' y')
    (heq : modifiers ++ (type ++ (gap ++ (name ++ (gap₂ ++ y :: s)))) =
      modifiers' ++ (type' ++ (gap' ++ (name' ++ (gap₂' ++ y' :: s'))))) :
    modifiers = modifiers' ∧ type ++ (gap ++ (name ++ (gap₂ ++ y :: s))) =
      type' ++ (gap' ++ (name' ++ (gap₂' ++ y' :: s'))) := by
  induction hmodifiers generalizing modifiers' with
  | nil =>
    cases hmodifiers' with
    | nil => exact ⟨rfl, heq⟩
    | cons hm' more' =>
      -- The other reading has a modifier where this one has the type.
      rw [List.append_assoc] at heq
      exact absurd heq (h.ne_cons_modifiers h' hm' more')
  | @cons m v hm more ih =>
    cases hmodifiers' with
    | nil =>
      rw [List.append_assoc] at heq
      exact absurd heq.symm (h'.ne_cons_modifiers h hm more)
    | @cons m' v' hm' more' =>
      obtain ⟨k, hk, w, hne, hw, rfl⟩ := hm
      obtain ⟨k', hk', w', hne', hw', rfl⟩ := hm'
      simp only [List.append_assoc] at heq
      obtain ⟨rfl, rfl, hrest⟩ := IsType.append_inj heq
        (isType_of_isIdentifier (isIdentifier_of_mem_modifiers hk))
        (isType_of_isIdentifier (isIdentifier_of_mem_modifiers hk')) hne hne' hw hw'
        (startsName_modifiers more (h.startsName s))
          (startsName_modifiers more' (h'.startsName s'))
      obtain ⟨rfl, hmember⟩ := ih more' hrest
      exact ⟨rfl, hmember⟩

/-- **The attributes before a name** are determined, since the name starts with no
bracket. -/
theorem append_inj_of_attributes (hattributes : Repeats IsAttribute attributes)
    (hattributes' : Repeats IsAttribute attributes') (hr : StartsName r)
    (hr' : StartsName r') (heq : attributes ++ r = attributes' ++ r') :
    attributes = attributes' ∧ r = r' := by
  -- Both lists are taken apart together; where one ends, no bracket follows.
  induction hattributes generalizing attributes' with
  | nil =>
    cases hattributes' with
    | nil => exact ⟨rfl, heq⟩
    | cons h' more' =>
      rw [List.nil_append, List.append_assoc] at heq
      exact absurd (heq ▸ hr) h'.not_startsName
  | @cons t v h more ih =>
    cases hattributes' with
    | nil =>
      rw [List.nil_append, List.append_assoc] at heq
      exact absurd (heq.symm ▸ hr') h.not_startsName
    | @cons t' v' h' more' =>
      rw [List.append_assoc, List.append_assoc] at heq
      obtain ⟨rfl, hrest⟩ :=
        IsAttribute.append_inj heq h h' (head?_eq_false_of_attributes more hr)
          (head?_eq_false_of_attributes more' hr')
      obtain ⟨rfl, rfl⟩ := ih more' hrest
      exact ⟨rfl, rfl⟩

/-! ## Declarations -/

variable {t t' tail tail' : Text}

/-- Each tail has a first character, which is one of three. -/
theorem exists_of_mem_tails (h : tail ∈ tails) :
    ∃ y u, tail = y :: u ∧ y ∈ ['{', '=', ';'] := by
  have hall : ∀ tail ∈ tails, tail.head?.any (· ∈ ['{', '=', ';']) = true := by decide
  have hhead := hall tail h
  cases tail with
  | nil => simp at hhead
  | cons y u => exact ⟨y, u, rfl, by simpa using hhead⟩

/-- The tail `=` is read only where no arrow is, so tails are determined, too. -/
theorem append_inj_of_mem_tails (h : tail ∈ tails) (h' : tail' ∈ tails)
    (hlonger : tail = ['='] → r.head? ≠ some '>')
    (hlonger' : tail' = ['='] → r'.head? ≠ some '>') (heq : tail ++ r = tail' ++ r') :
    tail = tail' ∧ r = r' := by
  have hsame : tail = tail' := by
    simp only [tails, List.mem_cons, List.not_mem_nil, or_false] at h h'
    rcases h with rfl | rfl | rfl | rfl <;> rcases h' with rfl | rfl | rfl | rfl
      <;> simp at heq ⊢
    · exact hlonger' rfl (by simp [← heq])
    · exact hlonger rfl (by simp [heq])
  subst hsame
  exact ⟨rfl, List.append_cancel_left heq⟩

/-- **A declaration at the start of a text** can be read in one way only. -/
theorem IsDeclaration.append_inj (h : IsDeclaration t type name tail)
    (h' : IsDeclaration t' type' name' tail')
    (hlonger : tail = ['='] → r.head? ≠ some '>')
    (hlonger' : tail' = ['='] → r'.head? ≠ some '>') (heq : t ++ r = t' ++ r') :
    t = t' ∧ type = type' ∧ name = name' ∧ tail = tail' ∧ r = r' := by
  obtain ⟨hattributes, hmodifiers, htype, hne, hgap, hname, hgap₂, htail⟩ := h
  obtain ⟨hattributes', hmodifiers', htype', hne', hgap', hname', hgap₂', htail'⟩ := h'
  obtain ⟨y, u, rfl, hy⟩ := exists_of_mem_tails htail
  obtain ⟨y', u', rfl, hy'⟩ := exists_of_mem_tails htail'
  simp only [List.append_assoc, List.cons_append] at heq
  have hmember : IsMember type _ name _ y := ⟨htype, hne, hgap, hname, hgap₂, hy⟩
  have hmember' : IsMember type' _ name' _ y' :=
    ⟨htype', hne', hgap', hname', hgap₂', hy'⟩
  -- Part by part from the left: what a part is followed by says where it ends.
  obtain ⟨rfl, hmembers⟩ := append_inj_of_attributes hattributes hattributes'
    (startsName_modifiers hmodifiers (hmember.startsName _))
    (startsName_modifiers hmodifiers' (hmember'.startsName _)) heq
  obtain ⟨rfl, htypes⟩ :=
    append_inj_of_modifiers hmodifiers hmodifiers' hmember hmember' hmembers
  obtain ⟨rfl, rfl, hnames⟩ := IsType.append_inj htypes htype htype' hne hne' hgap hgap'
    (hname.startsName _) (hname'.startsName _)
  obtain ⟨rfl, hgaps⟩ :=
    append_inj_of_isIdentifier hnames hname hname' hmember.head?_eq_false
      hmember'.head?_eq_false
  obtain ⟨rfl, hrest⟩ :=
    append_inj_of_isBlank hgaps hgap₂ hgap₂' (isBlank_head?_of_mem hy)
      (isBlank_head?_of_mem hy')
  obtain ⟨htails, rfl⟩ := append_inj_of_mem_tails htail htail' hlonger hlonger' hrest
  rw [htails]
  exact ⟨rfl, rfl, rfl, rfl, rfl⟩

/-- **Any way of matching a declaration** is the preferred one, and it records the parts
of the declaration. -/
theorem exists_matchAt_of_isDeclaration {d : Dialect} {c e : Cursor} (hd : d.Accepted)
    (hmatches : Matches d.declarationPattern c e) (h : IsDeclaration t type name tail)
    (hreads : c.Reads t e) (hlonger : tail = ['='] → e.rest.head? ≠ some '>') :
    ∃ m, d.declarationPattern.matchAt c = some m ∧ m.stop = e ∧
      m.groupText? .type = some type ∧
      m.groupText? .name = some name ∧ m.groupText? .tail = some tail := by
  cases hm : d.declarationPattern.matchAt c with
  | none => exact absurd hmatches (matchAt_eq_none_iff.mp hm e)
  | some m =>
    obtain ⟨t', type', name', tail', h', -, hreads', hlonger', htype, hname, htail⟩ :=
      exists_of_matchAt_declarationPattern hd hm
    have heq : t ++ e.rest = t' ++ m.stop.rest :=
      hreads.rest_eq.symm.trans hreads'.rest_eq
    obtain ⟨rfl, rfl, rfl, rfl, -⟩ := h.append_inj h' hlonger hlonger' heq
    exact ⟨m, rfl, hreads'.eq hreads, htype, hname, htail⟩

end Dialect

end StrategyDialect
