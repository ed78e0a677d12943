import StrategyDialect.Proofs.Files.Tree

/-!
# Making directories

Which directories are made on the way to a path, and when that fails.  The paths above
the one that is asked for are tried from the longest to the shortest, until one of them
can be made or is there already, and then the way back.  What decides is the first name
on the way that is missing in a directory that is there (`FileTree.Misses`): a path that
goes on behind this name is refused for lack of it
(`FileTree.Misses.createDirectory_eq`), and the path that ends with it succeeds.  Only a
path that goes on with nothing but dots is refused without anybody trying the name
itself, because dots do not count when the path above is looked for, but do when a
directory is asked for.

Directories that were made stay when a later one fails.  That needs a way that leaves
the missing name again by `..`, or ends in a dot: a path of nothing but names
(`Path.IsStraight`) is made as a whole, in a tree in which everything lies in a
directory (`FileTree.IsClosed`).

## Main definitions

* `FileTree.Misses`: a missing name on the way along a path
* `FileTree.MakesFirst`: such a name that is made when the path is asked for
* `FileTree.IsClosed`, `Path.IsStraight`: what it takes for all directories of a path to
  be made
* `FileTree.MakesUpTo`: a tree in which they have been made

## Main statements

* `FileTree.createDirectories_eq_self_iff`: when no directory is made
* `FileTree.IsClosed.createDirectories_eq`: when all of them are
-/

namespace StrategyDialect

namespace FileTree

open Text

variable {t t' : FileTree} {p above : Path} {loc : Location}
  {before after : List Text} {name : Text}

/-! ## Missing names -/

/-- A name on the way along a path that is missing in a directory that is there. -/
structure Misses (t : FileTree) (p : Path) (before : List Text) (name : Text)
    (after : List Text) : Prop where
  splitOn_eq : splitOn '/' p.text = before ++ name :: after
  isFileName : IsFileName name
  missing : ∃ loc, t.follow (t.origin p) before = .ok loc ∧
    t.node? loc = some .directory ∧
    t.node? (loc ++ [name]) = none

/-- A missing name leads nowhere, whatever comes behind it. -/
theorem follow_of_missing (hname : IsFileName name) (hloc : t.node? loc = some .directory)
    (hmissing : t.node? (loc ++ [name]) = none) (pieces : List Text) :
    t.follow loc (name :: pieces) = .error .notFound := by
  have hidle : ¬(name = [] ∨ name = ['.']) := not_or.mpr ⟨hname.ne_nil, hname.ne_dot⟩
  rw [follow, hloc]
  dsimp only
  rw [if_neg hidle, if_neg hname.ne_dots, if_neg (by simp [hmissing])]

/-- Whatever comes behind the missing name, the path is refused there.  The stretches
behind the name are arbitrary, so the lemma serves for the path itself and for the paths
above it. -/
theorem Misses.follow_eq (h : t.Misses p before name after) (pieces : List Text) :
    t.follow (t.origin p) (before ++ name :: pieces) = .error .notFound := by
  obtain ⟨loc, hfollow, hloc, hmissing⟩ := h.missing
  rw [follow_append, hfollow]
  exact follow_of_missing h.isFileName hloc hmissing pieces

/-- A path with a missing name is not empty, as the name is among its stretches and is
more than an empty one. -/
theorem Misses.text_ne (h : t.Misses p before name after) : p.text ≠ [] := by
  intro hnil
  have hsplit := h.splitOn_eq
  rw [hnil] at hsplit
  obtain rfl : name = [] := by
    have hmem : name ∈ [([] : Text)] := by
      rw [show [([] : Text)] = splitOn '/' [] from rfl, hsplit]
      simp
    simpa using hmem
  exact h.isFileName.ne_nil rfl

/-- A path with a missing name leads nowhere, and the error is always that something was
not found: no file is in the way before the name. -/
theorem Misses.resolve_eq (h : t.Misses p before name after) :
    t.resolve p = .error .notFound := by
  rw [resolve, if_neg h.text_ne, h.splitOn_eq, h.follow_eq]

/-- **A path that goes on behind a missing name** is refused for lack of it. -/
theorem Misses.createDirectory_eq (h : t.Misses p before name after)
    (hafter : ∃ piece ∈ after, (Path.component? piece).isSome) :
    t.createDirectory p = .error .notFound := by
  have htarget : t.target p = .error .notFound := by
    obtain ⟨piece, hpiece, hsome⟩ := hafter
    have hsplit : splitOn '/' p.text = (before ++ [name]) ++ after := by
      simpa using h.splitOn_eq
    refine target_of_follow_eq_error hsplit h.text_ne ⟨piece, hpiece, ?_⟩ (h.follow_eq [])
    rintro rfl
    cases hsome
  rw [createDirectory, htarget]
  rfl

/-- **A path that ends with the missing name** can be made. -/
theorem Misses.exists_createDirectory_eq (h : t.Misses p before name after)
    (hafter : ∀ piece ∈ after, piece = []) :
    ∃ loc, t.node? loc = some .directory ∧ t.node? (loc ++ [name]) = none ∧
      t.target p = .ok (.child loc name (decide (after ≠ []))) ∧
      t.createDirectory p = .ok (t.put (loc ++ [name]) .directory) := by
  obtain ⟨loc, hfollow, hloc, hmissing⟩ := h.missing
  have htarget : t.target p = .ok (.child loc name (decide (after ≠ []))) :=
    target_eq_child_iff.mpr ⟨before, after, h.splitOn_eq, h.text_ne, hafter, by simp,
      h.isFileName, hfollow, hloc⟩
  exact ⟨loc, hloc, hmissing, htarget,
    createDirectory_eq_ok_iff.mpr ⟨loc, name, _, htarget, hmissing, rfl⟩⟩

/-- A path with a missing name on the way lies in a directory. -/
theorem Misses.exists_parent? (h : t.Misses p before name after) :
    ∃ above, p.parent? = some above :=
  Path.exists_parent?_of_mem h.isFileName (by simp [h.splitOn_eq])

/-- Where a directory has been made, its name was missing, and nothing but empty
stretches stood behind it.  This is the converse of
`Misses.exists_createDirectory_eq`. -/
theorem exists_misses_of_createDirectory (h : t.createDirectory p = .ok t') :
    ∃ before name after, t.Misses p before name after ∧ ∀ piece ∈ after, piece = [] := by
  obtain ⟨parent, name, hasSlash, htarget, hmissing, -⟩ := createDirectory_eq_ok_iff.mp h
  obtain ⟨before, after, hleads⟩ := target_eq_child_iff.mp htarget
  exact ⟨before, name, after, ⟨hleads.splitOn, hleads.isFileName, parent, hleads.follow,
    hleads.directory, hmissing⟩, hleads.idle⟩

/-! ## One step up -/

section LiesIn

variable {start between : List Text} {last : Text} {after' : List Text}

/-- A missing name of the directory above is a missing name of the path, and the path
goes on behind it. -/
theorem Misses.of_above (h : p.LiesIn above start between last after)
    (hmisses : t.Misses above before name after') :
    ∃ more, t.Misses p before name more ∧ ∃ piece ∈ more,
      (Path.component? piece).isSome := by
  have hstart : start ≠ [] := fun hnil => hmisses.text_ne (h.text_above hnil).2
  -- Above is not the root, in which no name could be missing.
  have hroot : start ≠ [[]] := by
    intro hroot
    have hsplit : [([] : Text), []] = before ++ name :: after' := by
      rw [← hmisses.splitOn_eq, h.text_root hroot]
      rfl
    have hmem : name ∈ [([] : Text), []] := by simp [hsplit]
    simp [hmisses.isFileName.ne_nil] at hmem
  have hsplit := h.splitOn_above hstart hroot
  refine ⟨after' ++ (between ++ last :: after), ⟨?_, hmisses.isFileName, ?_⟩, last,
    by simp, h.isSome_last hstart⟩
  · rw [h.splitOn_eq, ← hsplit, hmisses.splitOn_eq]
    simp
  · rw [← origin_of_liesIn h hsplit hroot]
    exact hmisses.missing

/-- A missing name of a path that goes on behind it is a missing name of the directory
above, which is the shorter path; and if the directory goes on behind the name, then not
only with dots. -/
theorem Misses.upward (h : p.LiesIn above start between last after)
    (hmisses : t.Misses p before name after')
    (hafter : ∃ piece ∈ after', (Path.component? piece).isSome) :
    above.text.length < p.text.length ∧ splitOn '/' above.text = start ∧
      ∃ rest, t.Misses above before name rest ∧
        (rest = [] ∨ ∃ piece ∈ rest, (Path.component? piece).isSome) := by
  rcases h.name_cases hmisses.isFileName hmisses.splitOn_eq
    with ⟨rest, hstart, -⟩ | ⟨-, -, rfl⟩
  · have hmem : name ∈ start := by simp [hstart]
    have hsplit := h.splitOn_of_mem hmisses.isFileName hmem
    have horigin : t.origin above = t.origin p :=
      origin_of_liesIn h hsplit (hmisses.isFileName.ne_root hmem)
    refine ⟨length_lt_of_splitOn (hsplit ▸ h.splitOn_eq) (by simp), hsplit, rest,
      ⟨hsplit.trans hstart, hmisses.isFileName, ?_⟩, ?_⟩
    · rw [horigin]
      exact hmisses.missing
    · rcases List.eq_nil_or_concat rest with rfl | ⟨rest, piece, rfl⟩
      · exact .inl rfl
      · exact .inr ⟨piece, by simp,
          h.isSome_getLast (before ++ name :: rest) piece (by simp [hstart]) (by simp)⟩
  · obtain ⟨piece, hpiece, hsome⟩ := hafter
    rw [h.idle_after piece hpiece] at hsome
    cases hsome

end LiesIn

/-! ## Whether a directory is made -/

/-- A name is missing on the way that is made when the path is asked for: the last one,
or one behind which the path goes on with more than dots. -/
def MakesFirst (t : FileTree) (p : Path) : Prop :=
  ∃ before name after, t.Misses p before name after ∧
    ((∀ piece ∈ after, piece = []) ∨ ∃ piece ∈ after, (Path.component? piece).isSome)

/-- A directory that is made for the sake of the path above is made for the sake of the
path, since the path above is tried on the way. -/
theorem MakesFirst.of_above {start between : List Text} {last : Text}
    (h : p.LiesIn above start between last after) (hmakes : t.MakesFirst above) :
    t.MakesFirst p := by
  obtain ⟨before, name, rest, hmisses, -⟩ := hmakes
  obtain ⟨more, hmisses, hmore⟩ := hmisses.of_above h
  exact ⟨before, name, more, hmisses, .inr hmore⟩

/-- Where no missing name would be made, the tree stays as it is.  The bound plays no
part: with less of it, fewer paths are tried. -/
theorem createFirst_eq_self (h : ¬t.MakesFirst p) (bound : Nat) :
    (createFirst (ancestors bound p) t).2 = t := by
  induction bound generalizing p with
  | zero => rfl
  | succ bound ih =>
    have hfail : ∀ made, t.createDirectory p ≠ .ok made := by
      intro made hmade
      obtain ⟨before, name, after, hmisses, hafter⟩ :=
        exists_misses_of_createDirectory hmade
      exact h ⟨before, name, after, hmisses, .inl hafter⟩
    rw [ancestors]
    split
    next => rfl
    next above hparent =>
      obtain ⟨start, between, last, after, hlies⟩ := Path.exists_liesIn_of_parent? hparent
      have habove := ih (p := above) fun hmakes => h (hmakes.of_above hlies)
      rcases createFirst_cases p (ancestors bound above) t
        with hmade | ⟨-, hmade | hsame⟩ | ⟨-, hsame⟩
      · exact absurd hmade (hfail _)
      · exact absurd (habove ▸ hmade) (hfail _)
      · exact hsame.trans habove
      · exact hsame

/-- The bound on the directories above a path is large enough for the first one that is
missing. -/
theorem exists_createFirst_node? {bound : Nat} (h : t.MakesFirst p)
    (hbound : p.text.length < bound) :
    ∃ loc, t.node? loc = none ∧
      (createFirst (ancestors bound p) t).2.node? loc = some .directory := by
  induction bound generalizing p with
  | zero => exact absurd hbound (Nat.not_lt_zero _)
  | succ bound ih =>
    obtain ⟨before, name, after, hmisses, hafter⟩ := h
    obtain ⟨above, hparent⟩ := hmisses.exists_parent?
    obtain ⟨start, between, last, rest, hlies⟩ := Path.exists_liesIn_of_parent? hparent
    rw [ancestors, hparent]
    dsimp only
    rcases hafter with hend | hmore
    · obtain ⟨loc, -, hmissing, -, hmade⟩ := hmisses.exists_createDirectory_eq hend
      rw [createFirst, hmade]
      refine ⟨loc ++ [name], hmissing, ?_⟩
      rw [node?_put (by simp), if_pos rfl]
    · obtain ⟨hlength, -, rest, hrest, hmakes⟩ := hmisses.upward hlies hmore
      have hmakes : t.MakesFirst above :=
        ⟨before, name, rest, hrest, hmakes.imp_left (by simp +contextual)⟩
      obtain ⟨loc, hmissing, hnode⟩ := ih hmakes (by omega)
      have hfail := hmisses.createDirectory_eq hmore
      refine ⟨loc, hmissing, ?_⟩
      -- The directory made above is still there, whatever becomes of the last one.
      rcases createFirst_cases p (ancestors bound above) t
        with hmade | ⟨-, hmade | hsame⟩ | ⟨hother, -⟩
      · rw [hfail] at hmade
        cases hmade
      · exact (AddsDirectories.of_createDirectory hmade).keeps.directory loc hnode
      · rwa [hsame]
      · exact absurd hfail hother

/-- **Asking for a directory changes nothing** exactly if no name is missing on the way,
or only dots come behind it. -/
theorem createDirectories_eq_self_iff :
    (t.createDirectories p).2 = t ↔ ¬t.MakesFirst p := by
  refine ⟨fun heq hmakes => ?_, fun h => createFirst_eq_self h _⟩
  obtain ⟨loc, hmissing, hnode⟩ := exists_createFirst_node? hmakes (Nat.lt_succ_self _)
  rw [createDirectories] at heq
  rw [heq, hmissing] at hnode
  cases hnode

/-! ## Paths that are made as a whole -/

/-- Everything lies in a directory. -/
def IsClosed (t : FileTree) : Prop :=
  ∀ loc name, (t.node? (loc ++ [name])).isSome → t.node? loc = some .directory

/-- The nodes of a tree tell whether it is closed. -/
theorem isClosed_of_nodes
    (h : ∀ entry ∈ t.nodes, t.node? entry.1.dropLast = some .directory) : t.IsClosed := by
  intro loc name hsome
  obtain ⟨node, hnode⟩ := Option.isSome_iff_exists.mp hsome
  rw [node?, if_neg (by simp), List.lookup_eq_some_iff] at hnode
  obtain ⟨front, back, hnodes, -⟩ := hnode
  have hdirectory := h (loc ++ [name], node) (by simp [hnodes])
  rwa [List.dropLast_concat] at hdirectory

/-- Below a location without a node there are no nodes either.  So once a directory has
been made, everything below it is missing. -/
theorem IsClosed.node?_eq_none (h : t.IsClosed) (hloc : t.node? loc = none)
    (name : Text) : t.node? (loc ++ [name]) = none := by
  by_contra hsome
  rw [h loc name (Option.isSome_iff_ne_none.mpr hsome)] at hloc
  cases hloc

end FileTree

/-- A path that goes by names alone, from where it starts: no stretch leads up, and none
but the first is a dot. -/
def Path.IsStraight (p : Path) : Prop :=
  ['.', '.'] ∉ Text.splitOn '/' p.text ∧ ['.'] ∉ (Text.splitOn '/' p.text).tail

instance (p : Path) : Decidable p.IsStraight :=
  inferInstanceAs (Decidable (_ ∧ _))

namespace FileTree

open Text

variable {t t' : FileTree} {p above : Path} {loc : Location}
  {before after : List Text} {name : Text}

/-- The same tree with new directories that end at this location, to which the path
leads. -/
structure MakesUpTo (t : FileTree) (p : Path) (t' : FileTree) (loc : Location) :
    Prop where
  resolve : t'.resolve p = .ok loc
  directory : t'.node? loc = some .directory
  missing : t.node? loc = none
  isPrefix : ∀ l, t.node? l = none → (t'.node? l).isSome → l <+: loc

/-- Making one directory is the base case: the new tree has one more directory, and the
path leads to it. -/
theorem makesUpTo_of_createDirectory {parent : Location} {hasSlash : Bool}
    (htarget : t.target p = .ok (.child parent name hasSlash))
    (hmade : t.createDirectory p = .ok t') : t.MakesUpTo p t' (parent ++ [name]) := by
  obtain ⟨parent', name', hasSlash', htarget', hmissing, rfl⟩ :=
    createDirectory_eq_ok_iff.mp hmade
  rw [htarget] at htarget'
  obtain ⟨rfl, rfl, rfl⟩ : parent = parent' ∧ name = name' ∧ hasSlash = hasSlash' := by
    simpa using htarget'
  have hnode : (t.put (parent ++ [name]) .directory).node? (parent ++ [name]) =
      some .directory := by
    rw [node?_put (by simp), if_pos rfl]
  -- The path leads to the new node, since nothing on the way to it has changed.
  have hkeeps := (AddsDirectories.of_createDirectory hmade).keeps
  refine ⟨resolve_of_target (hkeeps.target htarget) (.inr hnode), hnode, hmissing,
    fun l hl hsome => ?_⟩
  rw [node?_put (by simp)] at hsome
  split at hsome
  next heq => exact heq ▸ List.prefix_rfl
  next =>
    rw [hl] at hsome
    cases hsome

/-- One name more can be made, since nothing lies in a directory that is new: all that
is new is on the way to it. -/
theorem MakesUpTo.exists_createDirectory_eq (h : t.MakesUpTo above t' loc)
    (hclosed : t.IsClosed) {hasSlash : Bool}
    (htarget : t'.target p = .ok (.child loc name hasSlash)) :
    ∃ t'', t'.createDirectory p = .ok t'' ∧ t.MakesUpTo p t'' (loc ++ [name]) := by
  have hmissing := hclosed.node?_eq_none h.missing name
  have hempty : t'.node? (loc ++ [name]) = none := by
    by_contra hsome
    have hlength :=
      (h.isPrefix _ hmissing (Option.isSome_iff_ne_none.mpr hsome)).length_le
    simp at hlength
  have hmade : t'.createDirectory p = .ok (t'.put (loc ++ [name]) .directory) :=
    createDirectory_eq_ok_iff.mpr ⟨loc, name, hasSlash, htarget, hempty, rfl⟩
  have hnext := makesUpTo_of_createDirectory htarget hmade
  refine ⟨_, hmade, hnext.resolve, hnext.directory, hmissing, fun l hl hsome => ?_⟩
  by_cases hnew : t'.node? l = none
  · exact hnext.isPrefix l hnew hsome
  · exact (h.isPrefix l hl (Option.isSome_iff_ne_none.mpr hnew)).trans
      (List.prefix_append loc [name])

/-- What is behind the first stretch of a straight path is a name, or nothing. -/
theorem eq_nil_or_isFileName_of_straight (hp : p.IsStraight) {front back : List Text}
    {piece : Text} (hsplit : splitOn '/' p.text = front ++ back) (hfront : front ≠ [])
    (hpiece : piece ∈ back) : piece = [] ∨ IsFileName piece := by
  have hmem : piece ∈ splitOn '/' p.text := by simp [hsplit, hpiece]
  have htail : piece ∈ (splitOn '/' p.text).tail := by
    rw [hsplit, List.tail_append_of_ne_nil hfront]
    exact List.mem_append_right _ hpiece
  by_cases hnil : piece = []
  · exact .inl hnil
  · exact .inr ⟨hnil, fun hdot => hp.2 (hdot ▸ htail), fun hdots => hp.1 (hdots ▸ hmem),
      not_mem_of_mem_splitOn hmem⟩

/-- A straight path leads one name on from the directory above it. -/
theorem exists_target_of_liesIn (hp : p.IsStraight)
    {start between after : List Text} {last : Text}
    (h : p.LiesIn above start between last after)
    (hstart : splitOn '/' above.text = start) (hne : start ≠ [[]])
    (hresolve : t.resolve above = .ok loc) (hloc : t.node? loc = some .directory) :
    ∃ hasSlash, t.target p = .ok (.child loc last hasSlash) := by
  have hstart_ne : start ≠ [] := hstart ▸ splitOn_ne_nil '/' above.text
  have hlast : IsFileName last := by
    refine (eq_nil_or_isFileName_of_straight hp h.splitOn_eq hstart_ne
      (by simp)).resolve_left ?_
    rintro rfl
    cases h.isSome_last hstart_ne
  have hafter : ∀ piece ∈ after, piece = [] := fun piece hpiece => by
    refine (eq_nil_or_isFileName_of_straight hp h.splitOn_eq hstart_ne
      (by simp [hpiece])).resolve_right fun hname => ?_
    have hidle := h.idle_after piece hpiece
    rw [Path.component?_of_isFileName hname] at hidle
    cases hidle
  -- Between the directory above and the name there are only pieces that do not count.
  have hfollow : t.follow (t.origin p) (start ++ between) = .ok loc := by
    rw [resolve] at hresolve
    split at hresolve
    · cases hresolve
    next =>
      rw [hstart, origin_of_liesIn h hstart hne] at hresolve
      rw [follow_append, hresolve]
      exact follow_of_idle hloc h.idle_between
  have hsplit : splitOn '/' p.text = (start ++ between) ++ last :: after := by
    rw [h.splitOn_eq, List.append_assoc]
  have htext : p.text ≠ [] := by
    intro hnil
    have hlength := length_lt_of_splitOn (hstart ▸ h.splitOn_eq) (by simp)
    simp [hnil] at hlength
  exact ⟨_, target_eq_child_iff.mpr
    ⟨start ++ between, after, hsplit, htext, hafter, decide_eq_true_iff, hlast,
      hfollow, hloc⟩⟩

/-- The directory above a straight path is straight, as its names are among those of the
path. -/
theorem isStraight_of_liesIn (hp : p.IsStraight)
    {start between after : List Text} {last : Text}
    (h : p.LiesIn above start between last after)
    (hstart : splitOn '/' above.text = start) : above.IsStraight := by
  have hsplit := h.splitOn_eq
  rw [← hstart] at hsplit
  refine ⟨fun hmem => hp.1 (by simp [hsplit, hmem]), fun hmem => hp.2 ?_⟩
  rw [hsplit, List.tail_append_of_ne_nil (splitOn_ne_nil '/' above.text)]
  exact List.mem_append_left _ hmem

/-- **All directories of a straight path are made**, from the first one that is missing
on. -/
theorem exists_createFirst_eq (hclosed : t.IsClosed) {bound : Nat}
    (hbound : p.text.length < bound) (hp : p.IsStraight)
    (h : t.Misses p before name after) :
    ∃ t' loc, createFirst (ancestors bound p) t = (.ok (), t') ∧
      t.MakesUpTo p t' loc := by
  induction bound generalizing p after with
  | zero => exact absurd hbound (Nat.not_lt_zero _)
  | succ bound ih =>
    obtain ⟨above, hparent⟩ := h.exists_parent?
    rw [ancestors, hparent]
    dsimp only
    obtain ⟨start, between, last, rest, hlies⟩ := Path.exists_liesIn_of_parent? hparent
    rw [createFirst]
    -- If the missing name is the last one it is made now, otherwise after those above.
    by_cases hend : ∀ piece ∈ after, piece = []
    · obtain ⟨loc, -, -, htarget, hmade⟩ := h.exists_createDirectory_eq hend
      rw [hmade]
      exact ⟨_, loc ++ [name], rfl, makesUpTo_of_createDirectory htarget hmade⟩
    · have hmore : ∃ piece ∈ after, (Path.component? piece).isSome := by
        obtain ⟨piece, hpiece, hne⟩ := by simpa only [not_forall, exists_prop] using hend
        have hsplit : splitOn '/' p.text = (before ++ [name]) ++ after := by
          simpa using h.splitOn_eq
        have hname :=
          (eq_nil_or_isFileName_of_straight hp hsplit (by simp) hpiece).resolve_left hne
        exact ⟨piece, hpiece, by simp [Path.component?_of_isFileName hname]⟩
      obtain ⟨hlength, hstart, rest', habove, -⟩ := h.upward hlies hmore
      obtain ⟨made, loc, hmade, hmakes⟩ :=
        ih (by omega) (isStraight_of_liesIn hp hlies hstart) habove
      have hroot : start ≠ [[]] :=
        h.isFileName.ne_root (hstart ▸ by simp [habove.splitOn_eq])
      obtain ⟨hasSlash, htarget⟩ :=
        exists_target_of_liesIn hp hlies hstart hroot hmakes.resolve hmakes.directory
      obtain ⟨t', hlast, hmakes'⟩ := hmakes.exists_createDirectory_eq hclosed htarget
      rw [h.createDirectory_eq hmore, hmade]
      dsimp only
      rw [hlast]
      exact ⟨t', loc ++ [last], rfl, hmakes'⟩

/-- **The directories of a straight path** are all made if one is missing, and then the
path leads to a new one. -/
theorem IsClosed.createDirectories_eq (hclosed : t.IsClosed) (hp : p.IsStraight)
    (h : t.MakesFirst p) :
    ∃ t' loc, t.createDirectories p = (.ok (), t') ∧ t'.resolve p = .ok loc ∧
      t.node? loc = none := by
  obtain ⟨before, name, after, hmisses, -⟩ := h
  obtain ⟨t', loc, hmade, hmakes⟩ :=
    exists_createFirst_eq hclosed (Nat.lt_succ_self _) hp hmisses
  exact ⟨t', loc, hmade, hmakes.resolve, hmakes.missing⟩

end FileTree

end StrategyDialect
