import StrategyDialect.Proofs.Strategy.Frame
import StrategyDialect.Proofs.Text.LetterCase
import StrategyDialect.Strategy.ClassName

/-!
# Class names from other texts

A class name is made of the words of a text, each with its first character in upper
case.  The words consist of name characters, but what is put in the place of their first
characters may bring along others: `ǰ` becomes a `J` and a combining caron, which
belongs to no name.  So the result is a name if that happens in no word
(`ClassName.RaisesToName`), and otherwise conversion refuses it, and made into a class
name again it becomes another one (`ClassName.ofText?_spec`).

Two things are true in any case.  There is a result unless the text holds no name
character at all; and the result starts as a name does, with a character that upper case
leaves alone.  The latter comes from the tables
(`StrategyDialect.Proofs.Text.LetterCase`).

## Main definitions

* `ClassName.RaisesToName`: the words of a text stay made of name characters in upper
  case
* `ClassName.joined`: the words of a text in upper case, put together

## Main statements

* `ClassName.ofText?_eq_self_iff`: which results are left alone
* `ClassName.ofText?_spec`: when the class name that a text suggests is a name
-/

namespace StrategyDialect

namespace ClassName

/-! ### Words -/

variable {raw name t u v word : Text} {c x y : Char} {ws : List Text}

/-- There is always a word, though it may be empty: a text without separators is one
word. -/
theorem words_ne_nil (t : Text) : words t ≠ [] := by
  cases t with
  | nil => simp [words]
  | cons c t =>
    rw [words]
    split
    · split <;> simp
    · simp

/-- A separator at the start of a text puts an empty word in front. -/
theorem words_cons_of_not_isNameChar (hc : isNameChar c = false) (t : Text) :
    words (c :: t) = [] :: words t := by
  simp [words, hc]

/-- A name character at the start of a text belongs to its first word. -/
theorem exists_words_cons (hc : isNameChar c = true) (t : Text) :
    ∃ word rest, words t = word :: rest ∧ words (c :: t) = (c :: word) :: rest := by
  obtain ⟨word, rest, hwords⟩ := List.exists_cons_of_ne_nil (words_ne_nil t)
  exact ⟨word, rest, hwords, by simp [words, hc, hwords]⟩

/-- The words of a text hold its name characters. -/
theorem exists_mem_words_iff :
    (∃ word ∈ words t, c ∈ word) ↔ c ∈ t ∧ isNameChar c = true := by
  induction t with
  | nil => simp [words]
  | cons x t ih =>
    cases hx : isNameChar x with
    | false =>
      have hother : c = x → ¬isNameChar c = true := by
        rintro rfl
        simp [hx]
      rw [words_cons_of_not_isNameChar hx]
      simp only [List.mem_cons, exists_eq_or_imp, List.not_mem_nil, false_or, ih]
      constructor
      · rintro ⟨hmem, hc⟩
        exact ⟨.inr hmem, hc⟩
      · rintro ⟨hmem, hc⟩
        exact ⟨hmem.resolve_left fun h => hother h hc, hc⟩
    | true =>
      obtain ⟨word, rest, hwords, hcons⟩ := exists_words_cons hx t
      rw [hwords] at ih
      rw [hcons]
      simp only [List.mem_cons, exists_eq_or_imp] at ih ⊢
      rw [or_assoc, ih]
      constructor
      · rintro (rfl | ⟨hmem, hc⟩)
        · exact ⟨.inl rfl, hx⟩
        · exact ⟨.inr hmem, hc⟩
      · rintro ⟨rfl | hmem, hc⟩
        · exact .inl rfl
        · exact .inr ⟨hmem, hc⟩

/-- A text of name characters is a single word. -/
theorem words_of_forall (h : ∀ x ∈ t, isNameChar x = true) : words t = [t] := by
  induction t with
  | nil => rfl
  | cons c t ih =>
    simp [words, h c List.mem_cons_self, ih fun x hx => h x (List.mem_cons_of_mem c hx)]

/-- A word ends at the first separator, and the other words are those behind it. -/
theorem words_append_cons (hu : ∀ x ∈ u, isNameChar x = true)
    (hx : isNameChar x = false) : words (u ++ x :: v) = u :: words v := by
  induction u with
  | nil => exact words_cons_of_not_isNameChar hx v
  | cons c u ih =>
    rw [List.cons_append, words, if_pos (hu c List.mem_cons_self),
      ih fun y hy => hu y (List.mem_cons_of_mem c hy)]

example : words "ßeta-v2".toList = ["ßeta".toList, "v2".toList] := by decide +kernel

/-! ### Words in upper case -/

/-- The words of a text, each with its first letter in upper case, put together. -/
def joined (raw : Text) : Text :=
  (words raw).flatMap capitalize

/-- The first character of each word becomes name characters in upper case. -/
def RaisesToName (raw : Text) : Prop :=
  ∀ word ∈ words raw, ∀ c ∈ word.head?, ∀ x ∈ upperChar c, isNameChar x = true

/-- The words are looked at one by one. -/
instance (raw : Text) : Decidable (RaisesToName raw) :=
  decidable_of_iff ((words raw).all fun word => word.head?.all fun c =>
    (upperChar c).all isNameChar) (by
    simp only [RaisesToName, List.all_eq_true]
    refine forall₂_congr fun word _ => ?_
    cases word <;> simp)

/-- A word in upper case starts with a name character that is in upper case. -/
theorem exists_capitalize_eq (hc : isNameChar c = true) :
    ∃ x u, capitalize (c :: t) = x :: u ∧ isNameChar x = true ∧ upperChar x = [x] := by
  obtain ⟨x, u, hupper, hx, hfixed⟩ := exists_upperChar_eq_cons c
  refine ⟨x, u ++ t, by rw [capitalize, hupper]; rfl, ?_, hfixed⟩
  rcases hx with rfl | halphabetic
  · exact hc
  · simp [isNameChar, isAlphanumeric, halphabetic]

/-- Words that are put together start as the first of them does that is not empty. -/
theorem flatMap_capitalize_cases (h : ∀ word ∈ ws, ∀ c ∈ word, isNameChar c = true) :
    (ws.flatMap capitalize = [] ∧ ∀ word ∈ ws, word = []) ∨
      (∃ word ∈ ws, word ≠ []) ∧
        ∃ x u, ws.flatMap capitalize = x :: u ∧ isNameChar x = true ∧
          upperChar x = [x] := by
  -- Empty words vanish, so the first word that is not empty gives the first character.
  induction ws with
  | nil => exact .inl ⟨rfl, by simp⟩
  | cons word ws ih =>
    rw [List.flatMap_cons]
    cases word with
    | nil =>
      rcases ih fun word hword => h word (List.mem_cons_of_mem _ hword)
        with ⟨hnil, hempty⟩ | ⟨⟨word, hword, hne⟩, hnext⟩
      · exact .inl ⟨hnil, by simpa using hempty⟩
      · exact .inr ⟨⟨word, List.mem_cons_of_mem _ hword, hne⟩, hnext⟩
    | cons c t =>
      obtain ⟨x, u, hupper, hx, hfixed⟩ :=
        exists_capitalize_eq (t := t) (h _ List.mem_cons_self c List.mem_cons_self)
      refine .inr ⟨⟨c :: t, List.mem_cons_self, List.cons_ne_nil c t⟩, x,
        u ++ ws.flatMap capitalize, ?_, hx, hfixed⟩
      rw [hupper]
      rfl

/-- There are words where there are name characters, and then something is put
together. -/
theorem joined_cases (raw : Text) :
    (joined raw = [] ∧ ∀ c ∈ raw, isNameChar c = false) ∨
      (∃ c ∈ raw, isNameChar c = true) ∧ ∃ x u,
        joined raw = x :: u ∧ isNameChar x = true ∧ upperChar x = [x] := by
  have hwords : ∀ word ∈ words raw, ∀ c ∈ word, isNameChar c = true :=
    fun word hword c hc => (exists_mem_words_iff.mp ⟨word, hword, hc⟩).2
  rcases flatMap_capitalize_cases hwords with ⟨hnil, hempty⟩ | ⟨⟨word, hword, hne⟩, hnext⟩
  · refine .inl ⟨hnil, fun c hc => ?_⟩
    by_contra hname
    obtain ⟨word, hword, hmem⟩ := exists_mem_words_iff.mpr ⟨hc, by simpa using hname⟩
    rw [hempty word hword] at hmem
    cases hmem
  · obtain ⟨c, t, rfl⟩ := List.exists_cons_of_ne_nil hne
    exact .inr ⟨⟨c, exists_mem_words_iff.mp ⟨_, hword, List.mem_cons_self⟩⟩, hnext⟩

/-- A single word only has its first character put in upper case. -/
theorem joined_of_forall (h : ∀ x ∈ t, isNameChar x = true) :
    joined t = capitalize t := by
  rw [joined, words_of_forall h, List.flatMap_singleton]

/-- Words are joined without the separators between them. -/
theorem joined_append_cons (hu : ∀ x ∈ u, isNameChar x = true)
    (hx : isNameChar x = false) : joined (u ++ x :: v) = capitalize u ++ joined v := by
  rw [joined, words_append_cons hu hx, List.flatMap_cons, joined]

/-- The words stay a name when they are joined if each of them does in upper case.
Separators play no part, as none of them is left. -/
theorem forall_mem_joined_iff :
    (∀ x ∈ joined raw, isNameChar x = true) ↔ RaisesToName raw := by
  constructor
  · intro h word hword c hc x hx
    refine h x (List.mem_flatMap.mpr ⟨word, hword, ?_⟩)
    obtain ⟨t, rfl⟩ := List.head?_eq_some_iff.mp hc
    exact List.mem_append_left t hx
  · intro h x hx
    obtain ⟨word, hword, hmem⟩ := List.mem_flatMap.mp hx
    cases word with
    | nil => cases hmem
    | cons c t =>
      rcases List.mem_append.mp hmem with hupper | htail
      · exact h _ hword c rfl x hupper
      · exact (exists_mem_words_iff.mp ⟨c :: t, hword, List.mem_cons_of_mem c htail⟩).2

/-! ### Class names -/

/-- Nothing is put in front of joined words that start with no numeral. -/
theorem ofText?_eq_of_joined (h : joined raw = y :: u) (hy : isNumeral y = false) :
    ofText? raw = some (y :: u) := by
  rw [joined] at h
  rw [ofText?, h]
  simp [hy]

/-- A text suggests no class name only if it holds no name character at all. -/
theorem ofText?_eq_none_iff : ofText? raw = none ↔ ∀ c ∈ raw, isNameChar c = false := by
  rcases joined_cases raw with ⟨hnil, hother⟩ | ⟨⟨c, hc, hname⟩, x, u, hjoined, -, -⟩
  · rw [joined] at hnil
    rw [ofText?, hnil]
    exact iff_of_true rfl hother
  · have hsome : ofText? raw ≠ none := by
      rw [joined] at hjoined
      rw [ofText?, hjoined]
      dsimp only
      split <;> simp
    refine iff_of_false hsome fun h => ?_
    rw [h c hc] at hname
    cases hname

/-- A class name starts as a name does, with a character in upper case. -/
theorem exists_of_ofText?_eq_some (h : ofText? raw = some name) :
    (∃ y u, name = y :: u ∧ isNameStart y = true ∧ isNumeral y = false ∧
      upperChar y = [y]) ∧
      ((∀ x ∈ name, isNameChar x = true) ↔ RaisesToName raw) := by
  rw [← forall_mem_joined_iff]
  rcases joined_cases raw with ⟨-, hother⟩ | ⟨-, x, u, hjoined, hx, hfixed⟩
  · rw [ofText?_eq_none_iff.mpr hother] at h
    cases h
  · cases hnumeral : isNumeral x with
    | false =>
      rw [ofText?_eq_of_joined hjoined hnumeral] at h
      obtain rfl := Option.some.inj h
      refine ⟨⟨x, u, rfl, ?_, hnumeral, hfixed⟩, by rw [hjoined]⟩
      simpa [isNameChar, isNameStart, isAlphanumeric, hnumeral] using hx
    | true =>
      obtain rfl : "Strategy".toList ++ x :: u = name := by
        rw [joined] at hjoined
        rw [ofText?, hjoined] at h
        simpa [hnumeral] using h
      -- The word that is put in front is one of names, and starts in upper case itself.
      have hstrategy : ∀ x ∈ "Strategy".toList, isNameChar x = true := by decide
      refine ⟨⟨'S', "trategy".toList ++ x :: u, rfl, by decide, by decide, by decide⟩, ?_⟩
      rw [hjoined, List.forall_mem_append]
      exact and_iff_right hstrategy

/-- **A class name is left alone** if it holds name characters only. -/
theorem ofText?_eq_self_iff (hstart : isNameStart y = true)
    (hnumeral : isNumeral y = false) (hfixed : upperChar y = [y]) :
    ofText? (y :: u) = some (y :: u) ↔ ∀ x ∈ y :: u, isNameChar x = true := by
  have hraised : ∀ v, capitalize (y :: v) = y :: v := fun v => by
    rw [capitalize, hfixed]; rfl
  constructor
  · intro h
    by_contra hnot
    -- The text is cut at the first other character, and what is read behind it does not
    -- start with it.
    obtain ⟨x, hx⟩ : ∃ x, (y :: u).find? (!isNameChar ·) = some x := by
      push Not at hnot
      obtain ⟨z, hz, hznot⟩ := hnot
      exact Option.isSome_iff_exists.mp
        (List.find?_isSome.mpr ⟨z, hz, by simpa using hznot⟩)
    obtain ⟨hother, v, w, hsplit, hbefore⟩ := List.find?_eq_some_iff_append.mp hx
    have hname : ∀ z ∈ v, isNameChar z = true := fun z hz => by simpa using hbefore z hz
    have hother' : isNameChar x = false := by simpa using hother
    obtain ⟨v, rfl⟩ : ∃ v', v = y :: v' := by
      cases v with
      | nil =>
        obtain ⟨rfl, -⟩ := List.cons.inj hsplit
        rw [isNameChar_of_isNameStart hstart] at hother'
        cases hother'
      | cons z v =>
        obtain ⟨rfl, -⟩ := List.cons.inj hsplit
        exact ⟨v, rfl⟩
    have hjoined : joined (y :: u) = y :: (v ++ joined w) := by
      rw [hsplit, joined_append_cons hname hother', hraised]
      rfl
    rw [ofText?_eq_of_joined hjoined hnumeral, hsplit, Option.some_inj] at h
    have hafter : (y :: v) ++ joined w = (y :: v) ++ x :: w := h
    have hrest : joined w = x :: w := List.append_cancel_left hafter
    rcases joined_cases w with ⟨hnil, -⟩ | ⟨-, z, t, hz, hzname, -⟩
    · rw [hnil] at hrest
      cases hrest
    · obtain ⟨rfl, -⟩ := List.cons.inj (hz.symm.trans hrest)
      rw [hother'] at hzname
      cases hzname
  · intro h
    exact ofText?_eq_of_joined (by rw [joined_of_forall h, hraised]) hnumeral

variable {d : Dialect} {configured source : Text}

/-- A requested name is used for a generated class if it is a name. -/
theorem className_convert (hmembers : (d.shape source).1 = .members) :
    (d.convert configured name source).className = if name.isName = true then name
    else configured := by
  change Dialect.chooseClassName (d.shape source).2 name configured = _
  rw [Dialect.shape_of_derivedClass?_eq_none
    (Dialect.derivedClass?_eq_none_of_shape hmembers)]
  rfl

/-- The class that members are put into is named as requested exactly if the requested
name is a name. -/
theorem className_convert_eq_iff (hconfigured : configured.isName = true)
    (hmembers : (d.shape source).1 = .members) :
    (d.convert configured name source).className = name ↔ name.isName = true := by
  rw [className_convert hmembers]
  split
  next h => simp [h]
  next h =>
    refine iff_of_false ?_ h
    rintro rfl
    exact h hconfigured

/-- **The class name that a text suggests.**  There is one if the text holds a name
character.  It is a name, is used for a generated class, and is left alone, if the words
of the text start with characters that stay name characters in upper case; otherwise it
is none of this. -/
theorem ofText?_spec (raw : Text) :
    (ofText? raw = none ↔ ∀ c ∈ raw, isNameChar c = false) ∧
      ∀ name, ofText? raw = some name →
        (name.isName = true ↔ RaisesToName raw) ∧
          (ofText? name = some name ↔ RaisesToName raw) ∧
          ∀ (d : Dialect) (configured source : Text), configured.isName = true →
            (d.shape source).1 = .members →
            ((d.convert configured name source).className = name ↔ RaisesToName raw) := by
  refine ⟨ofText?_eq_none_iff, fun name hname => ?_⟩
  obtain ⟨⟨y, u, rfl, hstart, hnumeral, hfixed⟩, hraises⟩ :=
    exists_of_ofText?_eq_some hname
  have hisName : Text.isName (y :: u) = true ↔ RaisesToName raw := by
    rw [← hraises, Text.isName, hstart, Bool.true_and, List.all_eq_true,
      List.forall_mem_cons]
    exact (and_iff_right (isNameChar_of_isNameStart hstart)).symm
  refine ⟨hisName, (ofText?_eq_self_iff hstart hnumeral hfixed).trans hraises, ?_⟩
  intro d configured source hconfigured hmembers
  exact (className_convert_eq_iff hconfigured hmembers).trans hisName

/-- A field on its own is a text of bare members; the examples convert it. -/
private theorem shape_field :
    (Dialect.powerLanguage.shape "int x;".toList).1 = .members := by decide +kernel

/-- Words that stay made of name characters, also where one becomes two. -/
theorem ofText?_spec_sharpS :
    let name : Text := "SSetaV2".toList
    ofText? "ßeta-v2".toList = some name ∧ RaisesToName "ßeta-v2".toList ∧
      Dialect.powerLanguage.className.isName = true ∧
      (Dialect.powerLanguage.shape "int x;".toList).1 = .members ∧
      name.isName = true ∧ ofText? name = some name ∧
      (Dialect.powerLanguage.convert Dialect.powerLanguage.className name
        "int x;".toList).className = name := by
  intro name
  have hname : ofText? "ßeta-v2".toList = some name := by decide
  have hraises : RaisesToName "ßeta-v2".toList := by decide
  have hconfigured : Dialect.powerLanguage.className.isName = true := by decide
  obtain ⟨hisName, hself, hconvert⟩ := (ofText?_spec "ßeta-v2".toList).2 name hname
  exact ⟨hname, hraises, hconfigured, shape_field, hisName.mpr hraises, hself.mpr hraises,
    (hconvert Dialect.powerLanguage Dialect.powerLanguage.className "int x;".toList
      hconfigured shape_field).mpr hraises⟩

/-- A letter whose upper case brings along an accent: the class name is none, is not
used, and is not left alone. -/
theorem ofText?_accent :
    let raw : Text := "\u01F0".toList
    let name : Text := "J\u030C".toList
    (∃ c ∈ raw, isNameChar c = true) ∧ ofText? raw = some name ∧ name.isName = false ∧
      ofText? name = some "J".toList ∧
      (Dialect.powerLanguage.convert Dialect.powerLanguage.className name
        "int x;".toList).className =
        Dialect.powerLanguage.className := by
  intro raw name
  have hname : name.isName = false := by decide
  refine ⟨⟨'\u01F0', by decide, by decide⟩, by decide, hname, by decide, ?_⟩
  rw [className_convert shape_field, hname]
  rfl

end ClassName

end StrategyDialect
