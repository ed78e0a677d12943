import Mathlib.Data.Char
import Mathlib.Data.List.Lex
import StrategyDialect.Files.Path
import StrategyDialect.Proofs.Text.Lines

/-!
# Names and paths

A file in a directory has a path that ends in its name: whatever the path of the
directory looks like, with a slash at its end or a dot, joining a name adds one part to
it (`Path.components_join`).  All that a path tells of its file, the stem and the
extension, is then a matter of the name alone.

Paths are ordered part by part.  In one directory this is the order of the names, which
is the order of their code points.

One step up, the last part of a path is left out, with everything around it that does
not count (`Path.LiesIn`).  Two directories are written in their own way: the root with
a slash more than it has as a beginning, and the directory of a lone name with nothing
at all.

## Main definitions

* `IsFileName`: what can be the name of a file
* `Path.Before`: the order of paths
* `Path.LiesIn`: how a path goes on from the directory above it

## Main statements

* `Text.precedes_iff_le`: texts are ordered as lists of characters
* `Path.components_join`: a name below a directory is one part more
* `Path.exists_liesIn_of_parent?`: every path goes on from the directory above it
* `Path.cutName_eq_iff`: a name is cut at its last dot, if there is something before it
-/

namespace StrategyDialect

/-- What can be the name of a file or directory. -/
structure IsFileName (name : Text) : Prop where
  ne_nil : name ≠ []
  ne_dot : name ≠ ['.']
  ne_dots : name ≠ ['.', '.']
  slash_not_mem : '/' ∉ name

instance (name : Text) : Decidable (IsFileName name) :=
  decidable_of_iff (name ≠ [] ∧ name ≠ ['.'] ∧ name ≠ ['.', '.'] ∧ '/' ∉ name)
    ⟨fun ⟨hne, hdot, hdots, hslash⟩ => ⟨hne, hdot, hdots, hslash⟩,
      fun h => ⟨h.ne_nil, h.ne_dot, h.ne_dots, h.slash_not_mem⟩⟩

/-- Where there is a name, there is more than an empty stretch. -/
theorem IsFileName.ne_root {name : Text} {pieces : List Text} (h : IsFileName name)
    (hmem : name ∈ pieces) : pieces ≠ [[]] := by
  rintro rfl
  exact h.ne_nil (List.mem_singleton.mp hmem)

/-- A text without slashes that does not end in a dot is the name of a file. -/
theorem isFileName_concat {t : Text} {x : Char} (ht : '/' ∉ t) (hslash : x ≠ '/')
    (hdot : x ≠ '.') : IsFileName (t ++ [x]) where
  ne_nil := by simp
  ne_dot h := hdot (by simpa using congrArg List.getLast? h)
  ne_dots h := hdot (by simpa using congrArg List.getLast? h)
  slash_not_mem := by simp [ht, hslash.symm]

namespace Text

/-- **The order of texts** is the order of lists of characters. -/
theorem precedes_iff_le (s t : Text) : precedes s t = true ↔ s ≤ t := by
  rw [← not_lt]
  induction s generalizing t with
  | nil =>
    have hnot : ¬t < [] := List.not_lt_nil t
    simp [precedes, hnot]
  | cons c s ih =>
    cases t with
    | nil =>
      have hlt : [] < c :: s := List.nil_lt_cons c s
      simp [precedes, hlt]
    | cons d t =>
      rw [precedes, List.cons_lt_cons_iff]
      split
      next h =>
        subst h
        simp [ih]
      next h =>
        have hlt : d < c ↔ d.toNat < c.toNat := Iff.rfl
        have hne : c.toNat ≠ d.toNat := fun heq => h (Char.ext (UInt32.toNat_inj.mp heq))
        simp only [hlt, Ne.symm h, false_and, or_false, decide_eq_true_eq]
        omega

/-- A text begins with a separator if it is split right there. -/
theorem head?_eq_some_iff_splitOn {x : Char} {t first : Text} {rest : List Text}
    (h : splitOn x t = first :: rest) : t.head? = some x ↔ first = [] ∧ rest ≠ [] := by
  cases t with
  | nil =>
    obtain ⟨rfl, rfl⟩ := List.cons.inj h
    simp
  | cons c t =>
    rw [splitOn] at h
    split at h
    next hc =>
      obtain ⟨rfl, rfl⟩ := List.cons.inj h
      simp [hc, splitOn_ne_nil]
    next hc =>
      have hne : first ≠ [] := by
        rintro rfl
        split at h <;> cases h
      simp [hc, hne]

/-- A text has the characters of its stretches, and a separator between any two of
them. -/
theorem length_splitOn (x : Char) (t : Text) :
    ((splitOn x t).map (·.length + 1)).sum = t.length + 1 := by
  induction t with
  | nil => rfl
  | cons c t ih =>
    rw [splitOn]
    split
    · rw [List.map_cons, List.sum_cons, ih, List.length_cons]
      simp only [List.length_nil]
      omega
    · split
      next hnil => exact absurd hnil (splitOn_ne_nil x t)
      next piece pieces hcons =>
        rw [hcons] at ih
        simp only [List.map_cons, List.sum_cons, List.length_cons] at ih ⊢
        omega

/-- A text that has the stretches of another one and more besides is longer.  It is why
there is an end to the steps up from a path. -/
theorem length_lt_of_splitOn {x : Char} {s t : Text} {rest : List Text}
    (h : splitOn x t = splitOn x s ++ rest) (hne : rest ≠ []) : s.length < t.length := by
  have hs := length_splitOn x s
  have ht := length_splitOn x t
  obtain ⟨piece, pieces, rfl⟩ := List.exists_cons_of_ne_nil hne
  rw [h, List.map_append, List.sum_append, hs, List.map_cons, List.sum_cons] at ht
  omega

/-- The stretches between separators hold none, since they are cut at every one. -/
theorem not_mem_of_mem_splitOn {x : Char} {t piece : Text} (h : piece ∈ splitOn x t) :
    x ∉ piece := by
  induction t generalizing piece with
  | nil =>
    obtain rfl := List.mem_singleton.mp h
    simp
  | cons c t ih =>
    rw [splitOn] at h
    split at h
    · rcases List.mem_cons.mp h with rfl | h
      · simp
      · exact ih h
    next hc =>
      cases hsplit : splitOn x t with
      | nil => exact absurd hsplit (splitOn_ne_nil x t)
      | cons first rest =>
        rw [hsplit] at h ih
        rcases List.mem_cons.mp h with rfl | h
        · have hfirst : x ∉ first := ih (List.mem_cons_self ..)
          simp [Ne.symm hc, hfirst]
        · exact ih (by simp [h])

/-- A single empty stretch is that of the empty text only. -/
theorem eq_nil_of_splitOn {x : Char} {t : Text} (h : splitOn x t = [[]]) : t = [] := by
  cases t with
  | nil => rfl
  | cons c t =>
    rw [splitOn] at h
    split at h
    · exact absurd (List.cons.inj h).2 (splitOn_ne_nil x t)
    · split at h <;> simp at h

end Text

/-! ## The order of paths -/

/-- Where a part comes among the parts of other kinds. -/
def PathComponent.rank : PathComponent → Nat
  | root => 0
  | here => 1
  | up => 2
  | name _ => 3

/-- The order of parts: first by their kind, and names by their code points. -/
def PathComponent.Before (a b : PathComponent) : Prop :=
  a.rank < b.rank ∨ ∃ m n, a = .name m ∧ b = .name n ∧ m ≠ n ∧ Text.precedes m n = true

namespace Path

open Text

/-- The order of paths, part by part. -/
def Before (p q : Path) : Prop :=
  List.Lex PathComponent.Before p.components q.components

variable {directory : Path} {name stem extension : Text}

/-! ## Names below a directory -/

/-- A name counts as a part, and stands for itself.  The two stretches that would not
count and the one that leads up are no names. -/
theorem component?_of_isFileName (h : IsFileName name) :
    component? name = some (.name name) := by
  simp [component?, h.ne_nil, h.ne_dot, h.ne_dots]

/-- Two stretches do not count, the empty one and the dot. -/
theorem component?_eq_none_iff {piece : Text} :
    component? piece = none ↔ piece = [] ∨ piece = ['.'] := by
  rw [component?]
  split
  next h => simp [h]
  next h => split <;> simp [h]

/-- No stretch between slashes stands for the root, which is told from the first slash
alone. -/
private theorem ne_root_of_component? {piece : Text} {c : PathComponent}
    (h : component? piece = some c) : c ≠ .root := by
  rw [component?] at h
  rintro rfl
  split at h
  · cases h
  · split at h <;> cases h

/-- Something is left of the stretches when the idle ones at the end are dropped: the
first stretch always stays, since it tells a path from the root apart. -/
theorem dropIdle_ne_nil {pieces : List Text} (h : pieces ≠ []) :
    dropIdle pieces ≠ [] := by
  induction pieces with
  | nil => exact absurd rfl h
  | cons piece pieces ih =>
    rw [dropIdle]
    split
    next hdrop => exact ih hdrop.1
    next => simp

/-- Nothing counts in a path that lies in no directory, the root apart. -/
theorem component?_eq_none_of_parent? {p : Path} (h : p.parent? = none) :
    ∀ piece ∈ splitOn '/' p.text, component? piece = none := by
  -- The last branch of `parent?` always gives a directory, so the path ended before it.
  have hlast : p.components.getLast? = none ∨ p.components.getLast? = some .root := by
    rw [parent?] at h
    split at h
    next hnone => exact .inl hnone
    next hroot => exact .inr hroot
    next =>
      split at h
      next hdrop => exact absurd hdrop (dropIdle_ne_nil (by simp [splitOn_ne_nil]))
      next => split at h <;> cases h
  obtain ⟨first, rest, hsplit⟩ := List.exists_cons_of_ne_nil (splitOn_ne_nil '/' p.text)
  rw [components, hsplit] at hlast
  dsimp only at hlast
  have hrest : rest.filterMap component? = [] := by
    rcases List.eq_nil_or_concat (rest.filterMap component?) with hnil | ⟨cs, c, hconcat⟩
    · exact hnil
    · exfalso
      obtain ⟨piece, -, hc⟩ :=
        List.mem_filterMap.mp (show c ∈ rest.filterMap component? by simp [hconcat])
      rw [hconcat, List.concat_eq_append, ← List.append_assoc, List.getLast?_concat]
        at hlast
      simp [ne_root_of_component? hc] at hlast
  rw [hsplit, List.forall_mem_cons]
  refine ⟨?_, List.filterMap_eq_nil_iff.mp hrest⟩
  -- Only the first piece could count, and then it would be the last part.
  cases hfirst : component? first with
  | none => rfl
  | some c =>
    exfalso
    have hidle : ¬(first = [] ∨ first = ['.']) := by
      rw [← component?_eq_none_iff, hfirst]
      simp
    rw [not_or] at hidle
    simp [hrest, hidle, hfirst, ne_root_of_component? hfirst] at hlast

/-- What has a name among its parts lies in a directory. -/
theorem exists_parent?_of_mem {p : Path} (h : IsFileName name)
    (hmem : name ∈ splitOn '/' p.text) : ∃ above, p.parent? = some above := by
  refine Option.ne_none_iff_exists'.mp fun hnone => ?_
  have hidle := component?_eq_none_of_parent? hnone name hmem
  rw [component?_of_isFileName h] at hidle
  cases hidle

/-- How a name below a directory is split: the name takes the place of an empty stretch
at the end, or comes behind the last stretch. -/
theorem splitOn_join (h : IsFileName name) (hne : directory.text ≠ []) :
    ∃ first rest, splitOn '/' (directory.join name).text = first :: (rest ++ [name]) ∧
      (splitOn '/' directory.text = first :: rest ∧ (first = [] → rest ≠ []) ∨
        splitOn '/' directory.text = first :: (rest ++ [[]])) := by
  have hname := splitOn_of_not_mem h.slash_not_mem
  by_cases hslash : directory.text.getLast? = some '/'
  · obtain ⟨u, hu⟩ := List.getLast?_eq_some_iff.mp hslash
    obtain ⟨first, rest, hpieces⟩ := List.exists_cons_of_ne_nil (splitOn_ne_nil '/' u)
    refine ⟨first, rest, ?_, .inr ?_⟩
    · rw [join, if_pos (.inr hslash), hu, List.append_assoc, List.singleton_append,
        splitOn_append, hpieces, hname]
      rfl
    · rw [hu, splitOn_append, hpieces]
      rfl
  · obtain ⟨first, rest, hpieces⟩ :=
      List.exists_cons_of_ne_nil (splitOn_ne_nil '/' directory.text)
    refine ⟨first, rest, ?_, .inl ⟨hpieces, ?_⟩⟩
    · rw [join, if_neg (by simp [hne, hslash]), splitOn_append, hpieces, hname]
      rfl
    · rintro rfl rfl
      exact hne (eq_nil_of_splitOn hpieces)

/-- **A name below a directory** is one part more. -/
theorem components_join (h : IsFileName name) :
    (directory.join name).components = directory.components ++ [.name name] := by
  have hlast : [name].filterMap component? = [.name name] := by
    simp [component?_of_isFileName h]
  have hidle : [([] : Text)].filterMap component? = [] := rfl
  -- Without a directory there is no slash; otherwise only the piece at the end changes.
  by_cases hempty : directory.text = []
  · have hnone : directory.components = [] := by
      rw [components, hempty]
      rfl
    rw [hnone, components, join, if_pos (.inl hempty), hempty, List.nil_append,
      splitOn_of_not_mem h.slash_not_mem]
    simp [h.ne_nil, h.ne_dot, component?_of_isFileName h]
  · obtain ⟨first, rest, hsplit, ⟨hpieces, hrest⟩ | hpieces⟩ := splitOn_join h hempty
    · have hroot : (first = [] ∧ rest ++ [name] ≠ []) ↔ (first = [] ∧ rest ≠ []) := by
        simpa using hrest
      rw [components, components, hsplit, hpieces]
      simp only [hroot, List.filterMap_append, hlast, List.append_assoc]
    · have hroot : (first = [] ∧ rest ++ [name] ≠ []) ↔
          (first = [] ∧ rest ++ [[]] ≠ []) := by
        simp
      rw [components, components, hsplit, hpieces]
      simp only [hroot, List.filterMap_append, hlast, hidle, List.append_nil,
        List.append_assoc]

/-- The file name of a path that ends in a name is this name. -/
theorem fileName?_join (h : IsFileName name) :
    (directory.join name).fileName? = some name := by
  rw [fileName?, components_join h, List.getLast?_concat]

/-- Different names below a directory have different paths.  The path need not be in a
canonical form for that; it is its last part that tells. -/
theorem join_injective {name' : Text} (h : directory.join name = directory.join name') :
    name = name' := by
  rw [join, join] at h
  split at h
  · exact List.append_cancel_left (congrArg Path.text h)
  · exact (List.cons.inj (List.append_cancel_left (congrArg Path.text h))).2

/-- The stem of a path is that of its name, so two files with one name in different
directories have the same stem. -/
theorem stem?_join (h : IsFileName name) :
    (directory.join name).stem? = some (cutName name).1 := by
  rw [stem?, fileName?_join h]
  rfl

/-- The extension, too, is a matter of the name. -/
theorem extension?_join (h : IsFileName name) :
    (directory.join name).extension? = (cutName name).2 := by
  rw [extension?, fileName?_join h]
  rfl

/-- In one directory, paths are in the order of their names. -/
theorem before_join {name' : Text} (h : IsFileName name) (h' : IsFileName name')
    (hne : name ≠ name') (hle : precedes name name' = true) :
    (directory.join name).Before (directory.join name') := by
  rw [Before, components_join h, components_join h']
  exact List.Lex.append_left _ (.rel (.inr ⟨name, name', rfl, rfl, hne, hle⟩)) _

/-! ## The directory above -/

/-- Stretches without slashes are those of the path that they make up. -/
theorem splitOn_ofPieces {pieces : List Text} (hne : pieces ≠ [])
    (h : ∀ piece ∈ pieces, '/' ∉ piece) :
    splitOn '/' (ofPieces pieces.reverse).text = pieces := by
  rw [ofPieces, List.reverse_reverse]
  induction pieces with
  | nil => exact absurd rfl hne
  | cons piece pieces ih =>
    have hpiece := splitOn_of_not_mem (h piece (by simp))
    cases pieces with
    | nil => rw [List.intercalate_singleton, hpiece]
    | cons next pieces =>
      rw [List.intercalate_cons_cons, List.append_assoc, List.singleton_append,
        splitOn_append, hpiece, ih (by simp) fun p hp => h p (by simp [hp])]
      rfl

/-- What is left of the stretches of a path without the idle ones at its end. -/
theorem exists_dropIdle (pieces : List Text) :
    ∃ idle, pieces = idle ++ dropIdle pieces ∧ ∀ piece ∈ idle,
      component? piece = none := by
  induction pieces with
  | nil => exact ⟨[], rfl, by simp⟩
  | cons piece pieces ih =>
    rw [dropIdle]
    split
    next hdrop =>
      obtain ⟨idle, hpieces, hidle⟩ := ih
      refine ⟨piece :: idle, by rw [List.cons_append, ← hpieces], ?_⟩
      rw [List.forall_mem_cons]
      exact ⟨Option.isNone_iff_eq_none.mp hdrop.2, hidle⟩
    next => exact ⟨[], rfl, by simp⟩

/-- The stretch that the idle ones end at counts, unless it is the first one, which is
not looked at. -/
theorem isSome_component?_of_dropIdle {pieces rest : List Text} {piece : Text}
    (h : dropIdle pieces = piece :: rest) (hne : rest ≠ []) :
    (component? piece).isSome := by
  induction pieces with
  | nil => cases h
  | cons first pieces ih =>
    rw [dropIdle] at h
    split at h
    next => exact ih h
    next hkeep =>
      obtain ⟨rfl, rfl⟩ := List.cons.inj h
      rw [not_and, Option.isNone_iff_eq_none] at hkeep
      exact Option.isSome_iff_ne_none.mpr (hkeep hne)

/-- How the stretches of a path go on from those of the directory above it, which are
`start`: by some that do not count, by its last part, and by some that do not count
again. -/
structure LiesIn (p above : Path) (start between : List Text) (last : Text)
    (after : List Text) : Prop where
  splitOn_eq : splitOn '/' p.text = start ++ (between ++ last :: after)
  idle_between : ∀ piece ∈ between, component? piece = none
  idle_after : ∀ piece ∈ after, component? piece = none
  /-- The only part of a path lies in the directory with the empty path. -/
  text_above : start = [] → between = [] ∧ above.text = []
  isSome_last : start ≠ [] → (component? last).isSome
  /-- The directory is written without anything idle at its end, unless it is nothing
  else. -/
  isSome_getLast : ∀ front piece, start = front ++ [piece] → front ≠ [] →
      (component? piece).isSome
  /-- The root directory is written with one stretch more. -/
  text_root : start = [[]] → above.text = ['/']
  splitOn_above : start ≠ [] → start ≠ [[]] → splitOn '/' above.text = start

/-- **Every path with a directory above it** goes on from there. -/
theorem exists_liesIn_of_parent? {p above : Path} (h : p.parent? = some above) :
    ∃ start between last after, p.LiesIn above start between last after := by
  rw [parent?] at h
  split at h
  · cases h
  · cases h
  next =>
    -- From the end of the path: idle pieces, the last piece that counts, idle pieces
    -- again, and then what is left of the directory.
    obtain ⟨after, hpieces, hafter⟩ := exists_dropIdle (splitOn '/' p.text).reverse
    cases hdrop : dropIdle (splitOn '/' p.text).reverse with
    | nil =>
      rw [hdrop] at h
      cases h
    | cons last before =>
      rw [hdrop] at h hpieces
      dsimp only at h
      obtain ⟨between, hbefore, hbetween⟩ := exists_dropIdle before
      have hsplit : splitOn '/' p.text =
          (dropIdle before).reverse ++ (between.reverse ++ last :: after.reverse) := by
        rw [← List.reverse_inj, hpieces]
        nth_rewrite 1 [hbefore]
        simp
      have hslash : ∀ piece ∈ (dropIdle before).reverse, '/' ∉ piece :=
        fun piece hpiece =>
        not_mem_of_mem_splitOn (x := '/') (t := p.text)
          (by rw [hsplit]; exact List.mem_append_left _ hpiece)
      refine ⟨(dropIdle before).reverse, between.reverse, last, after.reverse, hsplit,
        by simpa using hbetween, by simpa using hafter, fun hnil => ?_, fun hne => ?_,
        fun front piece hstart hfront => ?_, fun hroot => ?_, fun hne hroot => ?_⟩
      · have hnone : dropIdle before = [] := List.reverse_eq_nil_iff.mp hnil
        obtain rfl : before = [] := by
          by_contra hne
          exact dropIdle_ne_nil hne hnone
        rw [hnone] at h hbefore
        obtain rfl := Option.some.inj h
        exact ⟨by simpa using hbefore, rfl⟩
      · refine isSome_component?_of_dropIdle hdrop ?_
        rintro rfl
        exact hne rfl
      · have hdropped : dropIdle before = piece :: front.reverse := by
          rw [← List.reverse_inj, hstart]
          simp
        exact isSome_component?_of_dropIdle hdropped (by simpa using hfront)
      · have hempty : dropIdle before = [[]] := by simpa using congrArg List.reverse hroot
        rw [hempty] at h
        obtain rfl := Option.some.inj h
        rfl
      · split at h
        next hempty => exact absurd (by rw [hempty]; rfl) hroot
        next =>
          obtain rfl := Option.some.inj h
          have hsplit := splitOn_ofPieces hne hslash
          rwa [List.reverse_reverse] at hsplit

section LiesIn

variable {p above : Path} {start between after : List Text} {last : Text}

/-- A name of a path is the last part or one of the directory above. -/
theorem LiesIn.name_cases (h : p.LiesIn above start between last after)
    (hname : IsFileName name) {before after' : List Text}
    (hsplit : splitOn '/' p.text = before ++ name :: after') :
    (∃ rest, start = before ++ name :: rest ∧
      after' = rest ++ (between ++ last :: after)) ∨
      before = start ++ between ∧ name = last ∧ after' = after := by
  have hidle : component? name ≠ none := by
    rw [component?_of_isFileName hname]
    exact Option.some_ne_none _
  have hbetween : name ∉ between := fun hmem => hidle (h.idle_between name hmem)
  have hafter : name ∉ after := fun hmem => hidle (h.idle_after name hmem)
  -- Around the last part there are only stretches that do not count, and so no name.
  rw [h.splitOn_eq] at hsplit
  rcases List.append_eq_append_iff.mp hsplit
    with ⟨front, rfl, hrest⟩ | ⟨_ | ⟨first, rest⟩, hstart, hrest⟩
  · right
    rcases List.append_eq_append_iff.mp hrest with
      ⟨_ | ⟨first, rest⟩, rfl, hlast⟩ | ⟨_ | ⟨first, rest⟩, rfl, hlast⟩
    · simpa [eq_comm] using hlast
    · simp [(List.cons.inj hlast).2] at hafter
    · simpa using hlast
    · simp [(List.cons.inj hlast).1] at hbetween
  · right
    cases between with
    | nil => simpa [hstart] using hrest
    | cons first between => simp [(List.cons.inj hrest).1] at hbetween
  · left
    obtain ⟨rfl, rfl⟩ := List.cons.inj hrest
    exact ⟨rest, hstart, rfl⟩

/-- A directory with a name among its parts is written with the stretches that the path
goes on from. -/
theorem LiesIn.splitOn_of_mem (h : p.LiesIn above start between last after)
    (hname : IsFileName name) (hmem : name ∈ start) : splitOn '/' above.text = start :=
  h.splitOn_above (List.ne_nil_of_mem hmem) (hname.ne_root hmem)

end LiesIn

/-! ## Names of files -/

/-- A name among the parts of a path is one of its stretches. -/
private theorem exists_component?_of_mem {p : Path} {name : Text}
    (h : .name name ∈ p.components) :
    ∃ piece ∈ splitOn '/' p.text, component? piece = some (.name name) := by
  obtain ⟨first, rest, hsplit⟩ := List.exists_cons_of_ne_nil (splitOn_ne_nil '/' p.text)
  rw [components, hsplit] at h
  rw [hsplit]
  dsimp only at h
  rcases List.mem_append.mp h with hstart | hrest
  · refine ⟨first, List.mem_cons_self, ?_⟩
    split at hstart
    · simp at hstart
    · split at hstart
      · simp at hstart
      · simpa using hstart
  · obtain ⟨piece, hpiece, hname⟩ := List.mem_filterMap.mp hrest
    exact ⟨piece, List.mem_cons_of_mem first hpiece, hname⟩

/-- A path that ends in a name is that of a file with this name. -/
theorem fileName?_of_splitOn {p : Path} {before : List Text} (h : IsFileName name)
    (hsplit : splitOn '/' p.text = before ++ [name]) : p.fileName? = some name := by
  cases before with
  | nil =>
    simp [fileName?, components, hsplit, h.ne_nil, h.ne_dot, component?_of_isFileName h]
  | cons first rest =>
    rw [fileName?, components, hsplit]
    dsimp only [List.cons_append]
    rw [List.filterMap_append, ← List.append_assoc]
    simp [component?_of_isFileName h]

/-- **The name of a file is a file name**, whatever the path looks like. -/
theorem isFileName_of_fileName? {p : Path} (h : p.fileName? = some name) :
    IsFileName name := by
  have hmem : PathComponent.name name ∈ p.components := by
    rw [fileName?] at h
    split at h
    next n hlast =>
      obtain rfl := Option.some.inj h
      exact List.mem_of_getLast? hlast
    next => cases h
  -- A part that is a name comes from a piece between slashes, which is that name.
  obtain ⟨piece, hpiece, hname⟩ := exists_component?_of_mem hmem
  rw [component?] at hname
  split at hname
  · cases hname
  next hidle =>
    split at hname
    · cases hname
    next hup =>
      obtain rfl : piece = name := PathComponent.name.inj (Option.some.inj hname)
      exact ⟨fun hnil => hidle (.inl hnil), fun hdot => hidle (.inr hdot), hup,
        not_mem_of_mem_splitOn hpiece⟩

/-! ## Stem and extension -/

/-- **A name is cut at its last dot** if something stands before it. -/
theorem cutName_eq_iff :
    cutName name = (stem, some extension) ↔
      name = stem ++ '.' :: extension ∧ stem ≠ [] ∧ '.' ∉ extension := by
  rw [cutName, List.span_eq_takeWhile_dropWhile]
  constructor
  · intro h
    -- Read backwards, the extension is what stands before the first dot.
    have hparts := List.takeWhile_append_dropWhile (p := (· != '.')) (l := name.reverse)
    dsimp only at h
    generalize htake : name.reverse.takeWhile (· != '.') = after at h hparts
    split at h
    · cases h
    · cases h
    next x before hne hdrop =>
      obtain ⟨rfl, heq⟩ := Prod.mk.inj h
      obtain rfl := Option.some.inj heq
      have hhead := List.head?_dropWhile_not (· != '.') name.reverse
      rw [hdrop] at hhead hparts
      obtain rfl : x = '.' := by simpa using hhead
      refine ⟨?_, ?_, fun hmem => ?_⟩
      · rw [← List.reverse_inj, ← hparts]
        simp
      · intro hnil
        exact hne (by simpa using hnil)
      · rw [List.mem_reverse, ← htake] at hmem
        simpa using List.mem_takeWhile_imp hmem
  · rintro ⟨rfl, hne, hextension⟩
    have hreverse : (stem ++ '.' :: extension).reverse =
        extension.reverse ++ '.' :: stem.reverse := by simp
    have hall : ∀ x ∈ extension.reverse, (x != '.') = true := by
      intro x hx
      simp only [bne_iff_ne, ne_eq]
      rintro rfl
      exact hextension (List.mem_reverse.mp hx)
    rw [hreverse, List.takeWhile_append_of_pos hall, List.dropWhile_append_of_pos hall]
    obtain ⟨u, y, rfl⟩ := List.eq_nil_or_concat stem |>.resolve_left hne
    simp

/-- A name that is not cut is its own stem. -/
theorem eq_of_cutName (h : cutName name = (stem, none)) : name = stem := by
  rw [cutName] at h
  dsimp only at h
  split at h
  · exact (Prod.mk.inj h).1
  · exact (Prod.mk.inj h).1
  · cases (Prod.mk.inj h).2

/-- A name is its stem, with a dot and the extension behind it if there is one. -/
theorem eq_stem_append (name : Text) :
    ∃ rest, name = (cutName name).1 ++ rest ∧ (rest = [] ∨ rest.head? = some '.') := by
  cases hcut : cutName name with
  | mk stem extension? =>
    cases extension? with
    | none => exact ⟨[], by simpa using eq_of_cutName hcut, .inl rfl⟩
    | some extension => exact ⟨'.' :: extension, (cutName_eq_iff.mp hcut).1, .inr rfl⟩

/-- Stem and extension of a path hold no slash. -/
theorem slash_not_mem_stem? {p : Path} (h : p.stem? = some stem) : '/' ∉ stem := by
  obtain ⟨name, hname, rfl⟩ := Option.map_eq_some_iff.mp h
  have hslash := (isFileName_of_fileName? hname).slash_not_mem
  cases hcut : cutName name with
  | mk stem extension? =>
    cases extension? with
    | none => rwa [← eq_of_cutName hcut]
    | some extension =>
      rw [(cutName_eq_iff.mp hcut).1] at hslash
      exact fun hmem => hslash (List.mem_append_left _ hmem)

/-- An extension has no slash in it, like the name that it is the end of.  An output
that is named after stem and extension therefore stays in its directory. -/
theorem slash_not_mem_extension? {p : Path} (h : p.extension? = some extension) :
    '/' ∉ extension := by
  obtain ⟨name, hname, hcut⟩ := Option.bind_eq_some_iff.mp h
  have hslash := (isFileName_of_fileName? hname).slash_not_mem
  rw [(cutName_eq_iff.mp (Prod.ext rfl hcut)).1] at hslash
  exact fun hmem => hslash (List.mem_append_right _ (List.mem_cons_of_mem _ hmem))

end Path

end StrategyDialect
