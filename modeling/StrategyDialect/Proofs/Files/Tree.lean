import Mathlib.Data.List.Perm.Lattice
import StrategyDialect.Files.Tree
import StrategyDialect.Proofs.Files.Path

/-!
# File trees

What the operations on a file tree need and what they leave as it was.  A path is
followed through directories, so it leads to the same place in every tree that has at
least the directories and nodes of the first one (`FileTree.Keeps`).  No operation
removes anything or puts a file in the place of a directory, and so paths keep their
meaning, however many operations come in between.

Writing concerns one location, which is known before (`FileTree.target`); everywhere
else the tree is the same afterwards.  Making directories only adds directories where
there was nothing.

## Main definitions

* `FileTree.WellFormed`: every location has one node, and is made of names
* `FileTree.Same`: trees with the same nodes, whatever the order they were made in
* `FileTree.Keeps`: a tree that paths can be followed through as before
* `FileTree.Overwrites`: a tree with new contents in one file, and no other change
* `FileTree.AddsDirectories`: a tree with more directories, and no other change

## Main statements

* `FileTree.node?_put`: a new node is at its location and nowhere else
* `FileTree.Keeps.follow`, `FileTree.Keeps.target`: paths keep their meaning
* `FileTree.target_join`, `FileTree.target_beside`: where a name below a directory or
  beside a file is put
* `FileTree.readFile_of_writeFile`: what is written can be read
* `FileTree.overwrites_of_writeFile`: writing changes one file
* `FileTree.isDirectory_of_createDirectory`: a directory that is made is there
-/

namespace StrategyDialect

namespace FileTree

open Text

variable {t t' t'' : FileTree} {loc parent : Location} {node : FileNode}
  {p : Path} {name : Text} {pieces : List Text} {contents : Bytes}

/-! ## Nodes -/

/-- Looking a location up goes through the entries one by one.  The entry is tested with
a decidable equality here, where the library compares with `==`. -/
private theorem lookup_cons_eq (entry : Location × FileNode)
    (nodes : List (Location × FileNode)) (l : Location) :
    (entry :: nodes).lookup l = if l = entry.1 then some entry.2 else nodes.lookup l := by
  rw [List.lookup_cons]
  by_cases h : l = entry.1
  · simp [h]
  · rw [if_neg h, beq_eq_false_iff_ne.mpr h]

/-- Changing an entry changes what is found under its location, and under no other.
This is where `FileTree.node?_put` comes from. -/
private theorem lookup_putNode (nodes : List (Location × FileNode)) (l : Location) :
    (putNode loc node nodes).lookup l = if l = loc then some node
    else nodes.lookup l := by
  induction nodes with
  | nil => exact lookup_cons_eq _ _ _
  | cons first nodes ih =>
    rw [putNode]
    split
    next h =>
      rw [lookup_cons_eq, lookup_cons_eq, h]
      split <;> rfl
    next h =>
      rw [lookup_cons_eq, lookup_cons_eq, ih]
      by_cases hl : l = first.1
      · simp [hl, h]
      · simp [hl]

/-- With every location listed once, finding an entry and having it in the list are the
same.  Of two entries for one location, the second would never be found. -/
private theorem lookup_eq_some_iff {nodes : List (Location × FileNode)}
    (h : (nodes.map Prod.fst).Nodup) (l : Location) :
    nodes.lookup l = some node ↔ (l, node) ∈ nodes := by
  induction nodes with
  | nil => simp
  | cons first nodes ih =>
    rw [List.map_cons, List.nodup_cons] at h
    rw [lookup_cons_eq, List.mem_cons, Prod.ext_iff]
    by_cases hl : l = first.1
    · subst hl
      have hnot : (first.1, node) ∉ nodes := fun hmem =>
        h.1 (List.mem_map.mpr ⟨_, hmem, rfl⟩)
      simp [hnot, eq_comm]
    · simp [hl, ih h.2]

/-- **A new node** is at its location; elsewhere there is what was there before. -/
theorem node?_put (hloc : loc ≠ []) (l : Location) :
    (t.put loc node).node? l = if l = loc then some node else t.node? l := by
  by_cases hl : l = []
  · simp [node?, hl, Ne.symm hloc]
  · rw [node?, node?, if_neg hl, if_neg hl]
    exact lookup_putNode t.nodes l

/-- Every location has one node, and is made of names. -/
structure WellFormed (t : FileTree) : Prop where
  nodup : (t.nodes.map Prod.fst).Nodup
  ne_nil : ∀ entry ∈ t.nodes, entry.1 ≠ []
  isFileName_of_mem : ∀ entry ∈ t.nodes, ∀ name ∈ entry.1, IsFileName name

/-- The locations of a list after an entry has been put into it: those of before, and
the location of the entry. -/
private theorem fst_mem_putNode {nodes : List (Location × FileNode)} {l : Location} :
    l ∈ (putNode loc node nodes).map Prod.fst ↔ l = loc ∨ l ∈ nodes.map Prod.fst := by
  induction nodes with
  | nil => simp [putNode]
  | cons first nodes ih =>
    obtain ⟨l', n⟩ := first
    rw [putNode]
    split
    next h =>
      subst h
      simp
    next =>
      rw [List.map_cons, List.mem_cons, ih, List.map_cons, List.mem_cons]
      tauto

/-- Putting an entry keeps the locations apart, because an entry for the same location
is replaced and not shadowed. -/
private theorem nodup_putNode {nodes : List (Location × FileNode)}
    (h : (nodes.map Prod.fst).Nodup) : ((putNode loc node nodes).map Prod.fst).Nodup := by
  induction nodes with
  | nil => simp [putNode]
  | cons first nodes ih =>
    obtain ⟨l, n⟩ := first
    rw [List.map_cons, List.nodup_cons] at h
    rw [putNode]
    split
    next heq =>
      subst heq
      simpa using h
    next hne =>
      rw [List.map_cons, List.nodup_cons, fst_mem_putNode]
      exact ⟨by simp [hne, h.1], ih h.2⟩

/-- A tree stays well-formed when a node is put at a location that is made of names.
The root is excluded: it is always a directory, and has no entry of its own. -/
theorem WellFormed.put (h : t.WellFormed) (hloc : loc ≠ [])
    (hnames : ∀ name ∈ loc, IsFileName name) : (t.put loc node).WellFormed := by
  have hmem : ∀ entry ∈ (t.put loc node).nodes,
      entry.1 = loc ∨ entry.1 ∈ t.nodes.map Prod.fst := fun entry he =>
    fst_mem_putNode.mp (List.mem_map_of_mem he)
  refine ⟨nodup_putNode h.nodup, fun entry he => ?_, fun entry he => ?_⟩
  · rcases hmem entry he with heq | hold
    · rwa [heq]
    · obtain ⟨old, hold, heq⟩ := List.mem_map.mp hold
      exact heq ▸ h.ne_nil old hold
  · rcases hmem entry he with heq | hold
    · rwa [heq]
    · obtain ⟨old, hold, heq⟩ := List.mem_map.mp hold
      exact heq ▸ h.isFileName_of_mem old hold

/-- The nodes of a well-formed tree are those that are found at their locations. -/
theorem WellFormed.mem_nodes_iff (h : t.WellFormed) :
    (loc, node) ∈ t.nodes ↔ loc ≠ [] ∧ t.node? loc = some node := by
  by_cases hloc : loc = []
  · have hnot : (loc, node) ∉ t.nodes := fun hmem => h.ne_nil _ hmem hloc
    simp [hloc ▸ hnot, hloc]
  · rw [node?, if_neg hloc, lookup_eq_some_iff h.nodup]
    simp [hloc]

/-- Locations where there is something are made of names. -/
theorem WellFormed.isFileName_of_isSome (h : t.WellFormed)
    (hsome : (t.node? loc).isSome) : ∀ name ∈ loc, IsFileName name := by
  by_cases hloc : loc = []
  · simp [hloc]
  · obtain ⟨node, hnode⟩ := Option.isSome_iff_exists.mp hsome
    exact h.isFileName_of_mem _ (h.mem_nodes_iff.mpr ⟨hloc, hnode⟩)

/-- Nodes in a directory have names.  A location cannot end in a stretch such as `..`,
which a path would follow to another place. -/
theorem WellFormed.isFileName (h : t.WellFormed)
    (hnode : t.node? (loc ++ [name]) = some node) : IsFileName name := by
  refine h.isFileName_of_isSome (Option.isSome_iff_exists.mpr ⟨node, hnode⟩) name ?_
  simp

/-- The same nodes, whatever the order they were made in. -/
structure Same (t t' : FileTree) : Prop where
  workingDirectory : t.workingDirectory = t'.workingDirectory
  nodes : t.nodes.Perm t'.nodes

/-- Trees are the same if the same is at every location. -/
theorem same_of_node? (h : t.WellFormed) (h' : t'.WellFormed)
    (hwd : t.workingDirectory = t'.workingDirectory)
    (hnode : ∀ loc, t.node? loc = t'.node? loc) : t.Same t' := by
  refine ⟨hwd, (List.perm_ext_iff_of_nodup h.nodup.of_map h'.nodup.of_map).mpr
    fun entry => ?_⟩
  obtain ⟨loc, node⟩ := entry
  rw [h.mem_nodes_iff, h'.mem_nodes_iff, hnode loc]

/-- The contents of a directory, in terms of what is at the locations in it. -/
theorem WellFormed.mem_children_iff (h : t.WellFormed) :
    (name, node) ∈ t.children loc ↔ t.node? (loc ++ [name]) = some node := by
  have hmem : (loc ++ [name], node) ∈ t.nodes ↔ t.node? (loc ++ [name]) = some node := by
    rw [h.mem_nodes_iff, and_iff_right (by simp)]
  rw [← hmem, children, List.mem_filterMap]
  constructor
  · rintro ⟨⟨l, n⟩, he, hfound⟩
    dsimp only at hfound
    split at hfound
    next hl =>
      obtain ⟨last, hlast, heq⟩ := Option.map_eq_some_iff.mp hfound
      obtain ⟨rfl, rfl⟩ := Prod.mk.inj heq
      obtain ⟨u, rfl⟩ := List.getLast?_eq_some_iff.mp hlast
      rw [List.dropLast_concat] at hl
      rwa [← hl]
    next => cases hfound
  · intro he
    exact ⟨_, he, by simp⟩

/-- A directory has no two nodes of one name. -/
theorem WellFormed.nodup_children (h : t.WellFormed) (loc : Location) :
    ((t.children loc).map Prod.fst).Nodup := by
  have hlocs : t.nodes.Pairwise fun a b => a.1 ≠ b.1 := List.pairwise_map.mp h.nodup
  refine List.pairwise_map.mpr (hlocs.filterMap _ ?_)
  rintro ⟨l, n⟩ ⟨l', n'⟩ hne ⟨name, node⟩ hfound ⟨name', node'⟩ hfound' rfl
  dsimp only at hfound hfound'
  split at hfound
  next hl =>
    split at hfound'
    next hl' =>
      obtain ⟨last, hlast, heq⟩ := Option.map_eq_some_iff.mp hfound
      obtain ⟨last', hlast', heq'⟩ := Option.map_eq_some_iff.mp hfound'
      obtain ⟨rfl, -⟩ := Prod.mk.inj heq
      obtain ⟨rfl, -⟩ := Prod.mk.inj heq'
      refine hne ?_
      rw [← List.dropLast_append_getLast? _ hlast,
        ← List.dropLast_append_getLast? _ hlast', hl, hl']
    next => cases hfound'
  next => cases hfound

/-! ## Following paths -/

/-- A tree that paths can be followed through as before. -/
structure Keeps (t t' : FileTree) : Prop where
  workingDirectory : t'.workingDirectory = t.workingDirectory
  directory : ∀ loc, t.node? loc = some .directory → t'.node? loc = some .directory
  isSome : ∀ loc, (t.node? loc).isSome → (t'.node? loc).isSome

/-- A tree that has not changed keeps everything, as it does after an operation that was
refused. -/
theorem Keeps.refl (t : FileTree) : t.Keeps t :=
  ⟨rfl, fun _ => id, fun _ => id⟩

/-- What two operations keep one after the other, both together keep.  The fields are
those of the definition, each by transitivity. -/
theorem Keeps.trans (h : t.Keeps t') (h' : t'.Keeps t'') : t.Keeps t'' where
  workingDirectory := h'.workingDirectory.trans h.workingDirectory
  directory loc hloc := h'.directory loc (h.directory loc hloc)
  isSome loc hloc := h'.isSome loc (h.isSome loc hloc)

/-- A new node is in nobody's way, unless a file takes the place of a directory. -/
theorem keeps_put (hloc : loc ≠ [])
    (hnode : t.node? loc ≠ some .directory ∨ node = .directory) :
    t.Keeps (t.put loc node) where
  workingDirectory := rfl
  directory l hl := by
    rw [node?_put hloc]
    split
    next heq =>
      subst heq
      rw [hnode.resolve_left (not_not_intro hl)]
    next => exact hl
  isSome l hl := by
    rw [node?_put hloc]
    split
    · rfl
    · exact hl

/-- A path is followed stretch by stretch, so following a longer one goes on from where
the shorter one has led.  An error in the first half is the error of the whole. -/
theorem follow_append (loc : Location) (pieces pieces' : List Text) :
    t.follow loc (pieces ++ pieces') = (t.follow loc pieces).bind fun l =>
      t.follow l pieces' := by
  induction pieces generalizing loc with
  | nil => rfl
  | cons piece pieces ih =>
    rw [List.cons_append, follow, follow]
    split
    · rfl
    · rfl
    · split
      · exact ih loc
      · split
        · exact ih loc.dropLast
        · split
          · exact ih _
          · rfl

/-- A path that leads somewhere still leads there: the directories on the way are
directories still, and the nodes are still there. -/
theorem Keeps.follow (h : t.Keeps t') (hfollow : t.follow loc pieces = .ok parent) :
    t'.follow loc pieces = .ok parent := by
  induction pieces generalizing loc with
  | nil => exact hfollow
  | cons piece pieces ih =>
    rw [FileTree.follow] at hfollow ⊢
    split at hfollow
    · cases hfollow
    · cases hfollow
    next hdirectory =>
      rw [h.directory loc hdirectory]
      dsimp only
      split at hfollow
      next hidle => rw [if_pos hidle, ih hfollow]
      next hidle =>
        rw [if_neg hidle]
        split at hfollow
        next hup => rw [if_pos hup, ih hfollow]
        next hup =>
          rw [if_neg hup]
          split at hfollow
          next hsome => rw [if_pos (h.isSome _ hsome), ih hfollow]
          next => cases hfollow

/-- The place that a path starts from depends on the working directory only, and that is
kept. -/
theorem Keeps.origin (h : t.Keeps t') (p : Path) : t'.origin p = t.origin p := by
  rw [FileTree.origin, FileTree.origin, h.workingDirectory]

/-- Paths that go on from those of a directory start where these start. -/
theorem origin_of_liesIn {above : Path} {start between after : List Text} {last : Text}
    (h : p.LiesIn above start between last after)
    (hsplit : Text.splitOn '/' above.text = start) (hne : start ≠ [[]]) :
    t.origin above = t.origin p := by
  have hhead : above.text.head? = some '/' ↔ p.text.head? = some '/' := by
    obtain ⟨first, rest, hstart⟩ :=
      List.exists_cons_of_ne_nil (splitOn_ne_nil '/' above.text)
    have hp : splitOn '/' p.text = first :: (rest ++ (between ++ last :: after)) := by
      rw [h.splitOn_eq, ← hsplit, hstart, List.cons_append]
    rw [head?_eq_some_iff_splitOn hstart, head?_eq_some_iff_splitOn hp]
    refine and_congr_right fun hfirst => iff_of_true ?_ (by simp)
    rintro rfl
    rw [← hsplit, hstart, hfirst] at hne
    exact hne rfl
  rw [origin, origin, if_congr hhead rfl rfl]

/-- The location of a path stays the same, from the same start and along the same
stretches. -/
theorem Keeps.resolve (h : t.Keeps t') (hp : t.resolve p = .ok loc) :
    t'.resolve p = .ok loc := by
  rw [FileTree.resolve] at hp ⊢
  split at hp
  · cases hp
  next hne => rw [if_neg hne, h.origin, h.follow hp]

/-- Stretches that do not count lead nowhere else.  They still have to start from a
directory, which is why the node at the location is asked for. -/
theorem follow_of_idle (hnode : t.node? loc = some .directory)
    (hpieces : ∀ piece ∈ pieces, Path.component? piece = none) :
    t.follow loc pieces = .ok loc := by
  induction pieces with
  | nil => rfl
  | cons piece pieces ih =>
    rw [FileTree.follow, hnode]
    dsimp only
    rw [if_pos (Path.component?_eq_none_iff.mp (hpieces piece (by simp))),
      ih fun piece h => hpieces piece (by simp [h])]

/-! ## Where a path would put a node -/

/-- The stretches of a path that would put a node: those on the way to the directory,
the name of the node, and after it nothing but slashes. -/
structure Leads (t : FileTree) (p : Path) (parent : Location) (name : Text)
    (hasSlash : Bool) (before after : List Text) : Prop where
  splitOn : splitOn '/' p.text = before ++ name :: after
  text_ne : p.text ≠ []
  idle : ∀ piece ∈ after, piece = []
  hasSlash_iff : hasSlash = true ↔ after ≠ []
  isFileName : IsFileName name
  follow : t.follow (t.origin p) before = .ok parent
  directory : t.node? parent = some .directory

/-- The last stretch of some is empty exactly if empty ones come after a name. -/
private theorem getLast?_eq_some_nil_iff {before after : List Text} (hname : name ≠ [])
    (hidle : ∀ piece ∈ after, piece = []) :
    (before ++ name :: after).getLast? = some [] ↔ after ≠ [] := by
  rcases List.eq_nil_or_concat after with rfl | ⟨after, last, rfl⟩
  · simp [hname]
  · have hlast : last = [] := hidle last (by simp)
    rw [List.concat_eq_append, ← List.cons_append, ← List.append_assoc,
      List.getLast?_concat]
    simp [hlast]

/-- Read from the end, a list of stretches is passed over up to its last stretch that is
not empty: what `FileTree.target` takes for the name. -/
private theorem dropWhile_reverse_eq {before after : List Text} (hname : name ≠ [])
    (hidle : ∀ piece ∈ after, piece = []) :
    (before ++ name :: after).reverse.dropWhile List.isEmpty =
      name :: before.reverse := by
  have hreverse : (before ++ name :: after).reverse =
      after.reverse ++ name :: before.reverse := by simp
  have hall : ∀ piece ∈ after.reverse, piece.isEmpty = true := by
    intro piece hpiece
    rw [hidle piece (List.mem_reverse.mp hpiece)]
    rfl
  rw [hreverse, List.dropWhile_append_of_pos hall,
    List.dropWhile_cons_of_neg (by simp [hname])]

/-- The stretch at which the empty ones end is not empty itself. -/
private theorem ne_nil_of_dropWhile {pieces rest : List Text}
    (h : pieces.dropWhile List.isEmpty = name :: rest) : name ≠ [] := by
  have hhead := List.head?_dropWhile_not List.isEmpty pieces
  rw [h] at hhead
  simpa using hhead

/-- Conversely to `dropWhile_reverse_eq`, what is passed over are empty stretches behind
the one that is found. -/
private theorem exists_of_dropWhile {before : List Text}
    (h : pieces.reverse.dropWhile List.isEmpty = name :: before) :
    ∃ after, (∀ piece ∈ after, piece = []) ∧
      pieces = before.reverse ++ name :: after := by
  refine ⟨(pieces.reverse.takeWhile List.isEmpty).reverse, fun piece hpiece => ?_, ?_⟩
  · simpa using List.mem_takeWhile_imp (List.mem_reverse.mp hpiece)
  · calc pieces
        = (pieces.reverse.takeWhile List.isEmpty
          ++ pieces.reverse.dropWhile List.isEmpty).reverse := by
          rw [List.takeWhile_append_dropWhile, List.reverse_reverse]
      _ = (pieces.reverse.takeWhile List.isEmpty ++ name :: before).reverse := by rw [h]
      _ = before.reverse ++ name :: (pieces.reverse.takeWhile List.isEmpty).reverse := by
        simp

/-- A target below a directory is read off the stretches of the path: a way to the
parent, the name, and stretches behind it that do not count.  Together with
`Leads.target_eq`, this is how everybody else opens `FileTree.target`. -/
theorem exists_leads_of_target {hasSlash : Bool}
    (h : t.target p = .ok (.child parent name hasSlash)) :
    ∃ before after, t.Leads p parent name hasSlash before after := by
  rw [target] at h
  split at h
  · cases h
  next hne =>
    dsimp only at h
    split at h
    · cases h
    next last before hdrop =>
      cases hfollow : t.follow (t.origin p) before.reverse with
      | error e =>
        rw [hfollow] at h
        cases h
      | ok loc =>
        rw [hfollow] at h
        dsimp only [bind, Except.bind, pure, Except.pure] at h
        split at h
        next hdirectory =>
          split at h
          · cases h
          next hdots =>
            -- What was found is what is asked for: the parent, the last name, and the
            -- slash behind it.
            obtain ⟨rfl, rfl, hslash⟩ : loc = parent ∧ last = name ∧
                decide ((Text.splitOn '/' p.text).getLast? = some []) = hasSlash := by
              simpa using h
            obtain ⟨after, hidle, hsplit⟩ := exists_of_dropWhile hdrop
            have hlast : last ≠ [] := ne_nil_of_dropWhile hdrop
            have hmem : last ∈ Text.splitOn '/' p.text := by simp [hsplit]
            refine ⟨before.reverse, after, hsplit, hne, hidle, ?_, ?_,
              hfollow, hdirectory⟩
            · rw [← hslash, hsplit, decide_eq_true_iff,
                getLast?_eq_some_nil_iff hlast hidle]
            · exact ⟨hlast, fun heq => hdots (.inl heq), fun heq => hdots (.inr heq),
                not_mem_of_mem_splitOn hmem⟩
        · cases h
        · cases h

/-- A path that cannot be followed far enough has no place for a node. -/
theorem target_of_follow_eq_error {front back : List Text} {e : FileError}
    (hsplit : Text.splitOn '/' p.text = front ++ back) (hne : p.text ≠ [])
    (hback : ∃ piece ∈ back, piece ≠ [])
    (hfollow : t.follow (t.origin p) front = .error e) : t.target p = .error e := by
  obtain ⟨piece, hpiece, hpiece_ne⟩ := hback
  rw [target, if_neg hne]
  dsimp only
  split
  next hdrop =>
    have hempty := List.dropWhile_eq_nil_iff.mp hdrop piece (by simp [hsplit, hpiece])
    exact absurd (List.isEmpty_iff.mp hempty) hpiece_ne
  next last before hdrop =>
    obtain ⟨after, hidle, hpieces⟩ := exists_of_dropWhile hdrop
    -- The last name is not in `front`, because something that is not empty follows.
    obtain ⟨more, hmore⟩ : ∃ more, before.reverse = front ++ more := by
      rcases List.append_eq_append_iff.mp (hsplit.symm.trans hpieces)
        with ⟨more, hfront, -⟩ | ⟨more, hfront, hrest⟩
      · exact ⟨more, hfront⟩
      · cases more with
        | nil => exact ⟨[], by simpa using hfront.symm⟩
        | cons first more =>
          have hmem : piece ∈ after := by
            rw [(List.cons.inj hrest).2]
            exact List.mem_append_right _ hpiece
          exact absurd (hidle piece hmem) hpiece_ne
    rw [hmore, follow_append, hfollow]
    rfl

/-- Conversely, a path that leads to a name has it as its target.  The proof goes
through the cases that `FileTree.target` tells apart, and all but one are excluded by
the name. -/
theorem Leads.target_eq {hasSlash : Bool} {before after : List Text}
    (h : t.Leads p parent name hasSlash before after) :
    t.target p = .ok (.child parent name hasSlash) := by
  have hdots : ¬(name = ['.'] ∨ name = ['.', '.']) :=
    not_or.mpr ⟨h.isFileName.ne_dot, h.isFileName.ne_dots⟩
  have hslash : decide ((before ++ name :: after).getLast? = some []) = hasSlash := by
    rw [Bool.eq_iff_iff, decide_eq_true_iff,
      getLast?_eq_some_nil_iff h.isFileName.ne_nil h.idle, h.hasSlash_iff]
  rw [target, if_neg h.text_ne, h.splitOn]
  dsimp only
  rw [dropWhile_reverse_eq h.isFileName.ne_nil h.idle]
  dsimp only
  rw [List.reverse_reverse, h.follow]
  dsimp only [bind, Except.bind, pure, Except.pure]
  rw [h.directory]
  dsimp only
  rw [if_neg hdots, hslash]

/-- Without a slash at its end, a path ends in the name of the node. -/
theorem Leads.after_eq_nil {before after : List Text}
    (h : t.Leads p parent name false before after) : after = [] := by
  by_contra hne
  cases h.hasSlash_iff.mpr hne

/-- **A path would put a node** into the directory that all its stretches but the last
lead to. -/
theorem target_eq_child_iff {hasSlash : Bool} :
    t.target p = .ok (.child parent name hasSlash) ↔
      ∃ before after, t.Leads p parent name hasSlash before after :=
  ⟨exists_leads_of_target, fun ⟨_, _, h⟩ => h.target_eq⟩

/-- Where a path would put a node, there are names all the way. -/
theorem WellFormed.isFileName_of_target {hasSlash : Bool} (hw : t.WellFormed)
    (hp : t.target p = .ok (.child parent name hasSlash)) :
    ∀ n ∈ parent ++ [name], IsFileName n := by
  obtain ⟨before, after, h⟩ := target_eq_child_iff.mp hp
  intro n hn
  rcases List.mem_append.mp hn with hn | hn
  · exact hw.isFileName_of_isSome (Option.isSome_of_eq_some h.directory) n hn
  · rw [List.mem_singleton.mp hn]
    exact h.isFileName

/-- A target is there in every tree that paths can be followed through as before. -/
theorem Keeps.target {hasSlash : Bool} (h : t.Keeps t')
    (hp : t.target p = .ok (.child parent name hasSlash)) :
    t'.target p = .ok (.child parent name hasSlash) := by
  obtain ⟨before, after, hleads⟩ := target_eq_child_iff.mp hp
  refine target_eq_child_iff.mpr
    ⟨before, after, { hleads with follow := ?_, directory := ?_ }⟩
  · rw [h.origin]
    exact h.follow hleads.follow
  · exact h.directory _ hleads.directory

/-- What would be put at a path is found at the path. -/
theorem resolve_of_target {hasSlash : Bool}
    (hp : t.target p = .ok (.child parent name hasSlash))
    (hnode : (t.node? (parent ++ [name])).isSome ∧ hasSlash = false ∨
      t.node? (parent ++ [name]) = some .directory) : t.resolve p =
        .ok (parent ++ [name]) := by
  obtain ⟨before, after, h⟩ := target_eq_child_iff.mp hp
  have hidle : ¬(name = [] ∨ name = ['.']) :=
    not_or.mpr ⟨h.isFileName.ne_nil, h.isFileName.ne_dot⟩
  have hsome : (t.node? (parent ++ [name])).isSome := by
    rcases hnode with ⟨hsome, -⟩ | hdirectory
    · exact hsome
    · exact Option.isSome_of_eq_some hdirectory
  -- Behind a file nothing may follow, and behind a directory only empty stretches do.
  have hafter : t.follow (parent ++ [name]) after = .ok (parent ++ [name]) := by
    rcases hnode with ⟨-, rfl⟩ | hdirectory
    · rw [h.after_eq_nil]
      rfl
    · refine follow_of_idle hdirectory fun piece hpiece => ?_
      rw [h.idle piece hpiece]
      rfl
  rw [resolve, if_neg h.text_ne, h.splitOn, follow_append, h.follow]
  dsimp only [Except.bind]
  rw [follow, h.directory]
  dsimp only
  rw [if_neg hidle, if_neg h.isFileName.ne_dots, if_pos hsome, hafter]

/-! ## Names below a directory -/

/-- Joining a name does not change where a path starts.  For an empty path it would:
what is joined to it could begin with a slash. -/
theorem origin_join {directory : Path} (hne : directory.text ≠ []) (name : Text) :
    t.origin (directory.join name) = t.origin directory := by
  have hhead : (directory.join name).text.head? = directory.text.head? := by
    rw [Path.join]
    split
    · exact List.head?_append_of_ne_nil _ hne
    · exact List.head?_append_of_ne_nil _ hne
  rw [origin, origin, hhead]

/-- **A name below a directory** is put into the directory. -/
theorem target_join {directory : Path} (hname : IsFileName name)
    (hdirectory : t.resolve directory = .ok loc) (hnode : t.node? loc = some .directory) :
    t.target (directory.join name) = .ok (.child loc name false) := by
  rw [resolve] at hdirectory
  split at hdirectory
  · cases hdirectory
  next hne =>
    obtain ⟨first, rest, hsplit, hpieces⟩ := Path.splitOn_join hname hne
    -- An empty stretch at the end of the directory is one that leads nowhere else.
    have hfollow : t.follow (t.origin directory) (first :: rest) = .ok loc := by
      rcases hpieces with ⟨hpieces, -⟩ | hpieces
      · rwa [hpieces] at hdirectory
      · rw [hpieces, ← List.cons_append, follow_append] at hdirectory
        cases hcase : t.follow (t.origin directory) (first :: rest) with
        | error e =>
          rw [hcase] at hdirectory
          cases hdirectory
        | ok l =>
          rw [hcase] at hdirectory
          dsimp only [Except.bind, follow] at hdirectory
          split at hdirectory
          · cases hdirectory
          · cases hdirectory
          · simpa using hdirectory
    have htext : (directory.join name).text ≠ [] := by
      rw [Path.join]
      split <;> simp [hne]
    exact target_eq_child_iff.mpr ⟨first :: rest, [], hsplit, htext, by simp,
      by simp, hname, by rwa [origin_join hne], hnode⟩

/-- The location of a name below a directory, if there is a node.  This is the form in
which the files that a listing has found are read. -/
theorem resolve_join {directory : Path} (hname : IsFileName name)
    (hdirectory : t.resolve directory = .ok loc) (hnode : t.node? loc = some .directory)
    (hsome : (t.node? (loc ++ [name])).isSome) :
    t.resolve (directory.join name) = .ok (loc ++ [name]) :=
  resolve_of_target (target_join hname hdirectory hnode) (.inl ⟨hsome, rfl⟩)

/-- Idle stretches can only be followed to where they start. -/
theorem eq_of_follow_idle (hfollow : t.follow loc pieces = .ok parent)
    (hpieces : ∀ piece ∈ pieces, Path.component? piece = none) : loc = parent := by
  cases pieces with
  | nil => exact Except.ok.inj hfollow
  | cons piece pieces =>
    have hdirectory : t.node? loc = some .directory := by
      rw [follow] at hfollow
      split at hfollow
      · cases hfollow
      · cases hfollow
      next hdirectory => exact hdirectory
    rw [follow_of_idle hdirectory hpieces] at hfollow
    exact Except.ok.inj hfollow

/-- A path that begins with a name starts at the working directory. -/
theorem origin_of_isFileName (h : IsFileName name)
    (hsplit : Text.splitOn '/' p.text = name :: pieces) :
    t.origin p = t.workingDirectory := by
  rw [origin, if_neg]
  rw [head?_eq_some_iff_splitOn hsplit]
  exact fun hroot => h.ne_nil hroot.1

section LiesIn

variable {above : Path} {start between after : List Text} {last name' : Text}

/-- The directory above leads where the path leads but for its last part. -/
theorem resolve_of_liesIn (h : p.LiesIn above start between last after)
    (hstart : start ≠ []) (hfollow : t.follow (t.origin p) (start ++ between) = .ok loc) :
    t.resolve above = .ok loc := by
  -- The root is the only directory whose text is not the pieces put together.
  by_cases hroot : start = [[]]
  · subst hroot
    have horigin : t.origin p = [] := by
      rw [origin, if_pos ((head?_eq_some_iff_splitOn h.splitOn_eq).mpr ⟨rfl, by simp⟩)]
    have hidle : ∀ piece ∈ [] :: between, Path.component? piece = none :=
      List.forall_mem_cons.mpr ⟨rfl, h.idle_between⟩
    obtain rfl := eq_of_follow_idle hfollow hidle
    rw [resolve, origin, h.text_root rfl, horigin]
    rfl
  · have hsplit := h.splitOn_above hstart hroot
    have htext : above.text ≠ [] := by
      intro hnil
      rw [hnil] at hsplit
      exact hroot hsplit.symm
    rw [follow_append] at hfollow
    cases hreach : t.follow (t.origin p) start with
    | error e =>
      rw [hreach] at hfollow
      cases hfollow
    | ok reached =>
      rw [hreach] at hfollow
      obtain rfl := eq_of_follow_idle hfollow h.idle_between
      rw [resolve, if_neg htext, hsplit, origin_of_liesIn h hsplit hroot, hreach]

/-- **A name beside a file** is put into the directory of the file. -/
theorem target_beside (hp : t.target p = .ok (.child parent name false))
    (habove : p.parent? = some above) (hname' : IsFileName name') :
    t.target (above.join name') = .ok (.child parent name' false) := by
  obtain ⟨before, after, hleads⟩ := target_eq_child_iff.mp hp
  obtain rfl := hleads.after_eq_nil
  obtain ⟨start, between, last, after, hlies⟩ := Path.exists_liesIn_of_parent? habove
  obtain ⟨rest, -, hrest⟩ | ⟨rfl, -, -⟩ :=
    hlies.name_cases hleads.isFileName hleads.splitOn
  · simp at hrest
  by_cases hstart : start = []
  · -- Both are names in the working directory.
    subst hstart
    obtain ⟨rfl, htext⟩ := hlies.text_above rfl
    have hsplit : Text.splitOn '/' (above.join name').text = [] ++ [name'] := by
      rw [Path.join, if_pos (.inl htext), htext]
      exact splitOn_of_not_mem hname'.slash_not_mem
    have horigin : t.origin (above.join name') = t.origin p := by
      rw [origin_of_isFileName hname' hsplit,
        origin_of_isFileName hleads.isFileName hleads.splitOn]
    have hne : (above.join name').text ≠ [] := by
      rw [Path.join, if_pos (.inl htext), htext]
      exact hname'.ne_nil
    refine target_eq_child_iff.mpr ⟨[], [], hsplit, hne, by simp, by simp, hname', ?_,
      hleads.directory⟩
    rw [horigin]
    exact hleads.follow
  · exact target_join hname' (resolve_of_liesIn hlies hstart hleads.follow)
      hleads.directory

end LiesIn

/-! ## Reading and writing -/

/-- A path is that of a directory if it leads to a location and there is one.  Errors on
the way are no more than a no, and so the statement has no case for them. -/
theorem isDirectory_iff : t.isDirectory p = true ↔
    ∃ loc, t.resolve p = .ok loc ∧ t.node? loc = some .directory := by
  rw [isDirectory]
  cases t.resolve p <;> simp

/-- A file is read if the path leads to one, and what is read are its contents: the four
ways to fail are the cases where there is no such location. -/
theorem readFile_eq_ok_iff :
    t.readFile p = .ok contents ↔
      ∃ loc, t.resolve p = .ok loc ∧ t.node? loc = some (.file contents) := by
  rw [readFile]
  cases t.resolve p with
  | error e => simp [bind, Except.bind]
  | ok loc =>
    dsimp only [bind, Except.bind]
    split
    next h => simp [h, pure, Except.pure]
    next h => simp [h, throw, throwThe, MonadExceptOf.throw]
    next h => simp [h, throw, throwThe, MonadExceptOf.throw]

/-- A file is read as before if paths can be followed as before and it has not changed. -/
theorem Keeps.readFile (h : t.Keeps t') (hp : t.resolve p = .ok loc)
    (hnode : t'.node? loc = t.node? loc) : t'.readFile p = t.readFile p := by
  rw [FileTree.readFile, FileTree.readFile, hp, h.resolve hp]
  dsimp only [bind, Except.bind]
  rw [hnode]

/-- A directory is listed if the path leads to one, and the list is that of its
children.  In which order they come is left open. -/
theorem listDirectory_eq_ok_iff {nodes : List (Text × FileNode)} :
    t.listDirectory p = .ok nodes ↔
      ∃ loc, t.resolve p = .ok loc ∧ t.node? loc = some .directory ∧
        nodes = t.children loc := by
  rw [listDirectory]
  cases t.resolve p with
  | error e => simp [bind, Except.bind]
  | ok loc =>
    dsimp only [bind, Except.bind]
    split
    next h => simp [h, pure, Except.pure, eq_comm]
    next h => simp [h, throw, throwThe, MonadExceptOf.throw]
    next h => simp [h, throw, throwThe, MonadExceptOf.throw]

/-- Writing where the target is known.  The only thing that can still be wrong is that a
directory is in the way; a file that was there is replaced. -/
theorem writeFile_of_target (hp : t.target p = .ok (.child parent name false))
    (contents : Bytes) :
    t.writeFile p contents = if t.node? (parent ++ [name]) = some .directory
      then .error .isADirectory
      else .ok (t.put (parent ++ [name]) (.file contents)) := by
  rw [writeFile, hp]
  dsimp only [bind, Except.bind]
  split
  next h =>
    rw [if_pos h]
    rfl
  next h =>
    rw [if_neg h]
    rfl

/-- Reading where the target is known and a file is there.  It is the counterpart of
`writeFile_of_target`, for the tree that writing has made. -/
theorem readFile_of_target (hp : t.target p = .ok (.child parent name false))
    (hnode : t.node? (parent ++ [name]) = some (.file contents)) :
    t.readFile p = .ok contents := by
  have hthere := Option.isSome_of_eq_some hnode
  exact readFile_eq_ok_iff.mpr
    ⟨parent ++ [name], resolve_of_target hp (.inl ⟨hthere, rfl⟩), hnode⟩

/-- **Writing** puts a file where the path says, unless there is a directory. -/
theorem writeFile_eq_ok_iff :
    t.writeFile p contents = .ok t' ↔
      ∃ parent name, t.target p = .ok (.child parent name false) ∧
      t.node? (parent ++ [name]) ≠ some .directory ∧
      t' = t.put (parent ++ [name]) (.file contents) := by
  constructor
  · intro h
    cases hp : t.target p with
    | error e =>
      rw [writeFile, hp] at h
      cases h
    | ok target =>
      cases target with
      | directory =>
        rw [writeFile, hp] at h
        cases h
      | child parent name hasSlash =>
        cases hasSlash with
        | true =>
          rw [writeFile, hp] at h
          cases h
        | false =>
          rw [writeFile_of_target hp] at h
          split at h
          · cases h
          next hnode => exact ⟨parent, name, rfl, hnode, (Except.ok.inj h).symm⟩
  · rintro ⟨parent, name, hp, hnode, rfl⟩
    rw [writeFile_of_target hp, if_neg hnode]

/-- Writing a file keeps all paths, because the location that changes is not that of a
directory, neither before nor after. -/
theorem Keeps.of_writeFile (h : t.writeFile p contents = .ok t') : t.Keeps t' := by
  obtain ⟨parent, name, -, hnode, rfl⟩ := writeFile_eq_ok_iff.mp h
  exact keeps_put (by simp) (.inl hnode)

/-- **What is written can be read** under the same path, since writing has not moved the
place that the path leads to. -/
theorem readFile_of_writeFile (h : t.writeFile p contents = .ok t') :
    t'.readFile p = .ok contents := by
  have hkeeps := Keeps.of_writeFile h
  obtain ⟨parent, name, hp, -, rfl⟩ := writeFile_eq_ok_iff.mp h
  refine readFile_of_target (hkeeps.target hp) ?_
  rw [node?_put (by simp), if_pos rfl]

/-- The same tree with these contents in the file at a path, which may be new, and no
other change. -/
structure Overwrites (t : FileTree) (p : Path) (contents : Bytes) (t' : FileTree)
    (loc : Location) : Prop where
  workingDirectory : t'.workingDirectory = t.workingDirectory
  resolve : t'.resolve p = .ok loc
  node?_before : t.node? loc ≠ some .directory
  node? : t'.node? loc = some (.file contents)
  node?_ne : ∀ l, l ≠ loc → t'.node? l = t.node? l

/-- **Writing changes one file.** Everywhere else the new tree has the nodes of the old
one, and the location is the one that the path leads to afterwards. -/
theorem overwrites_of_writeFile (h : t.writeFile p contents = .ok t') :
    ∃ loc, t.Overwrites p contents t' loc := by
  have hkeeps := Keeps.of_writeFile h
  obtain ⟨parent, name, hp, hnode, rfl⟩ := writeFile_eq_ok_iff.mp h
  have hnew : (t.put (parent ++ [name]) (.file contents)).node? (parent ++ [name]) =
      some (.file contents) := by
    rw [node?_put (by simp), if_pos rfl]
  refine ⟨parent ++ [name], rfl, ?_, hnode, hnew, fun l hl => ?_⟩
  · exact resolve_of_target (hkeeps.target hp) (.inl ⟨Option.isSome_of_eq_some hnew, rfl⟩)
  · rw [node?_put (by simp), if_neg hl]

/-! ## Making directories -/

/-- The same tree with more directories. -/
structure AddsDirectories (t t' : FileTree) : Prop where
  workingDirectory : t'.workingDirectory = t.workingDirectory
  node? : ∀ loc, t'.node? loc = t.node? loc ∨ t.node? loc = none ∧
  t'.node? loc = some .directory
  wellFormed : t.WellFormed → t'.WellFormed

/-- No new directories are among the directories that may be added. -/
theorem AddsDirectories.refl (t : FileTree) : t.AddsDirectories t :=
  ⟨rfl, fun _ => .inl rfl, id⟩

/-- Directories may be added in two goes, which is what making the directories on the
way to a path one after the other comes to. -/
theorem AddsDirectories.trans (h : t.AddsDirectories t') (h' : t'.AddsDirectories t'') :
    t.AddsDirectories t'' where
  workingDirectory := h'.workingDirectory.trans h.workingDirectory
  node? loc := by
    rcases h.node? loc with hsame | ⟨hnone, hnew⟩
    · rw [← hsame]
      exact h'.node? loc
    · rcases h'.node? loc with hsame' | ⟨hnone', -⟩
      · exact .inr ⟨hnone, hsame'.trans hnew⟩
      · rw [hnew] at hnone'
        cases hnone'
  wellFormed hw := h'.wellFormed (h.wellFormed hw)

/-- Adding directories keeps all paths: what was there before is there still, and the
working directory has not moved. -/
theorem AddsDirectories.keeps (h : t.AddsDirectories t') : t.Keeps t' where
  workingDirectory := h.workingDirectory
  directory loc hloc := by
    rcases h.node? loc with hsame | ⟨-, hnew⟩
    · rwa [hsame]
    · exact hnew
  isSome loc hloc := by
    rcases h.node? loc with hsame | ⟨-, hnew⟩
    · rwa [hsame]
    · rw [hnew]
      rfl

/-- The files are the same, with the same contents.  A location that has become a
directory was empty before, so no file has got lost to it. -/
theorem AddsDirectories.file_iff (h : t.AddsDirectories t') :
    t'.node? loc = some (.file contents) ↔ t.node? loc = some (.file contents) := by
  rcases h.node? loc with hsame | ⟨hnone, hnew⟩
  · rw [hsame]
  · simp [hnone, hnew]

/-- So a file that could be read is read as before, under the same path. -/
theorem AddsDirectories.readFile (h : t.AddsDirectories t')
    (hp : t.readFile p = .ok contents) : t'.readFile p = .ok contents := by
  obtain ⟨loc, hloc, hnode⟩ := readFile_eq_ok_iff.mp hp
  exact readFile_eq_ok_iff.mpr ⟨loc, h.keeps.resolve hloc, h.file_iff.mpr hnode⟩

/-- A directory is made if its path has a target below a directory where there is
nothing yet.  Unlike for a file, a slash at the end of the path does not matter. -/
theorem createDirectory_eq_ok_iff :
    t.createDirectory p = .ok t' ↔
      ∃ parent name hasSlash, t.target p = .ok (.child parent name hasSlash) ∧
      t.node? (parent ++ [name]) = none ∧ t' = t.put (parent ++ [name]) .directory := by
  rw [createDirectory]
  cases hp : t.target p with
  | error e => simp [bind, Except.bind]
  | ok target =>
    cases target with
    | directory => simp [bind, Except.bind, throw, throwThe, MonadExceptOf.throw]
    | child parent name hasSlash =>
      dsimp only [bind, Except.bind]
      split
      next hsome =>
        have hne : t.node? (parent ++ [name]) ≠ none := Option.isSome_iff_ne_none.mp hsome
        simp [throw, throwThe, MonadExceptOf.throw, hne]
      next hnone =>
        have hnone' : t.node? (parent ++ [name]) = none := by simpa using hnone
        simp [pure, Except.pure, hnone', eq_comm]

/-- Making one directory adds no more than that one.  It is the base of the induction
over the directories on the way to a path. -/
theorem AddsDirectories.of_createDirectory (h : t.createDirectory p = .ok t') :
    t.AddsDirectories t' := by
  obtain ⟨parent, name, hasSlash, hp, hnone, rfl⟩ := createDirectory_eq_ok_iff.mp h
  refine ⟨rfl, fun loc => ?_, fun hw => hw.put (by simp) (hw.isFileName_of_target hp)⟩
  rw [node?_put (by simp)]
  split
  next heq => exact .inr ⟨heq ▸ hnone, rfl⟩
  next => exact .inl rfl

/-- A directory that has been made is there under the path it was made by, also if the
path ends with a slash. -/
theorem isDirectory_of_createDirectory (h : t.createDirectory p = .ok t') :
    t'.isDirectory p = true := by
  have hkeeps := (AddsDirectories.of_createDirectory h).keeps
  obtain ⟨parent, name, hasSlash, hp, hnone, rfl⟩ := createDirectory_eq_ok_iff.mp h
  have hnode : (t.put (parent ++ [name]) .directory).node? (parent ++ [name]) =
      some .directory := by
    rw [node?_put (by simp), if_pos rfl]
  exact isDirectory_iff.mpr ⟨_, resolve_of_target (hkeeps.target hp) (.inr hnode), hnode⟩

/-- What becomes of the files when directories are asked for: the first one is made, or
else those above it and then perhaps the first one, or nothing happens. -/
theorem createFirst_cases (p : Path) (above : List Path) (t : FileTree) :
    t.createDirectory p = .ok (createFirst (p :: above) t).2 ∨
      (t.createDirectory p = .error .notFound ∧
        ((createFirst above t).2.createDirectory p = .ok (createFirst (p :: above) t).2 ∨
          (createFirst (p :: above) t).2 = (createFirst above t).2)) ∨
      t.createDirectory p ≠ .error .notFound ∧ (createFirst (p :: above) t).2 = t := by
  rw [createFirst]
  split
  next made hmade => exact .inl hmade
  next hmissing =>
    refine .inr (.inl ⟨hmissing, ?_⟩)
    split
    next e made heq => exact .inr (by rw [heq])
    next made heq =>
      rw [heq]
      split
      next made' hmade => exact .inl hmade
      next => split <;> exact .inr rfl
  next e hother herror =>
    refine .inr (.inr ⟨fun hmissing => hother ?_, ?_⟩)
    · simpa [herror] using hmissing
    · split <;> rfl

/-- Whether it succeeds or not, making directories only adds some. -/
theorem addsDirectories_createFirst (paths : List Path) (t : FileTree) :
    t.AddsDirectories (createFirst paths t).2 := by
  induction paths generalizing t with
  | nil => exact .refl t
  | cons p above ih =>
    rcases createFirst_cases p above t with hmade | ⟨-, hmade | hsame⟩ | ⟨-, hsame⟩
    · exact .of_createDirectory hmade
    · exact (ih t).trans (.of_createDirectory hmade)
    · rw [hsame]
      exact ih t
    · rw [hsame]
      exact .refl t

/-- The first of the directories is there afterwards, if all went well. -/
theorem isDirectory_of_createFirst {above : List Path}
    (h : createFirst (p :: above) t = (.ok (), t')) : t'.isDirectory p = true := by
  rw [createFirst] at h
  split at h
  next made hmade =>
    obtain rfl := (Prod.mk.inj h).2
    exact isDirectory_of_createDirectory hmade
  next =>
    split at h
    · cases (Prod.mk.inj h).1
    next made heq =>
      split at h
      next made' hmade =>
        obtain rfl := (Prod.mk.inj h).2
        exact isDirectory_of_createDirectory hmade
      next =>
        split at h
        next hthere =>
          obtain rfl := (Prod.mk.inj h).2
          exact hthere.2
        next => cases (Prod.mk.inj h).1
  next =>
    split at h
    next hthere =>
      obtain rfl := (Prod.mk.inj h).2
      exact hthere.2
    next => cases (Prod.mk.inj h).1

/-- **Making directories adds directories** and changes nothing else, whether it
succeeds or fails in the middle. -/
theorem addsDirectories_createDirectories (t : FileTree) (p : Path) :
    t.AddsDirectories (t.createDirectories p).2 :=
  addsDirectories_createFirst _ t

/-- A path that lies in no directory is that of one, if it leads somewhere. -/
theorem node?_of_parent?_eq_none (h : p.parent? = none) (hp : t.resolve p = .ok loc) :
    t.node? loc = some .directory := by
  rw [resolve] at hp
  split at hp
  · cases hp
  next hne =>
    have hidle := Path.component?_eq_none_of_parent? h
    obtain ⟨first, rest, hsplit⟩ := List.exists_cons_of_ne_nil (splitOn_ne_nil '/' p.text)
    rw [hsplit] at hp hidle
    have hdirectory : t.node? (t.origin p) = some .directory := by
      rw [follow] at hp
      split at hp
      · cases hp
      · cases hp
      next hdirectory => exact hdirectory
    rw [follow_of_idle hdirectory hidle] at hp
    obtain rfl := Except.ok.inj hp
    exact hdirectory

/-- **A directory that is made is there**, if its path leads anywhere. -/
theorem node?_of_createDirectories (h : t.createDirectories p = (.ok (), t'))
    (hp : t'.resolve p = .ok loc) : t'.node? loc = some .directory := by
  rw [createDirectories, ancestors] at h
  split at h
  next hnone => exact node?_of_parent?_eq_none hnone hp
  next =>
    obtain ⟨loc', hloc', hnode⟩ := isDirectory_iff.mp (isDirectory_of_createFirst h)
    rw [hloc'] at hp
    obtain rfl := Except.ok.inj hp
    exact hnode

end FileTree

end StrategyDialect
