import Mathlib.Data.List.NodupEquivFin
import StrategyDialect.Batch.Plan
import StrategyDialect.Proofs.Files.Path
import StrategyDialect.Proofs.Text.FinalSigma

/-!
# The outputs of a batch

Names are counted twice.  A file whose stem another file has, case apart, is given its
extension as well (`OutputPlan.IsNamed`); a name that is then still given twice, case
apart, is not used for any of its files (`OutputPlan.ofFiles_eq_ok_iff`,
`OutputPlan.ofFiles_eq_error_iff`).  What is planned never collides, then
(`OutputPlan.ofFiles_distinct`), at the price of files that go without an output.

Among files with different stems, it would seem that none has to.  But a stem is
compared as a text of its own, and a name with the letters of `.cs` behind the stem, so
that a capital sigma at the end of the stem is the end of a word in one comparison only.
This is the only way in which such files clash (`OutputPlan.ofFiles_clashes`).

## Main definitions

* `OutputPlan.SharesStem`: another file has the stem of a file, case apart
* `OutputPlan.IsNamed`: the name for a file
* `OutputPlan.Clashes`: another file has the name, case apart

## Main statements

* `OutputPlan.ofFiles_eq_ok_iff`, `OutputPlan.ofFiles_eq_error_iff`: which files have an
  output
* `OutputPlan.ofFiles_distinct`: outputs differ, case apart, and the other files clash
* `OutputPlan.ofFiles_clashes`: how files with different stems clash
-/

namespace StrategyDialect

namespace OutputPlan

open Text

variable {files : List Path} {directory file file' output : Path} {clash : NameClash}
  {name name' : Text} {i j : Nat}

/-! ## Names -/

/-- Another of the files has the stem of the one at a place, case apart. -/
def SharesStem (files : List Path) (i : Nat) : Prop :=
  ∃ j file other, j ≠ i ∧ files[i]? = some file ∧ files[j]? = some other ∧
    (stem other).lower = (stem file).lower

/-- The name for the file at a place: its stem, with its extension if the stem is
shared. -/
def IsNamed (files : List Path) (i : Nat) (name : Text) : Prop :=
  ∃ file, files[i]? = some file ∧
    (SharesStem files i ∧
      name = stem file ++ ['_'] ++ file.extension?.getD [] ++ ".cs".toList ∨
      ¬SharesStem files i ∧ name = stem file ++ ".cs".toList)

/-- The name for another file is the same, case apart. -/
def Clashes (files : List Path) (i : Nat) (name : Text) : Prop :=
  ∃ j other, j ≠ i ∧ IsNamed files j other ∧ other.lower = name.lower

/-- **A text is shared** if it stands at another place as well, case apart. -/
theorem isShared_iff {ts : List Text} {t : Text} (h : ts[i]? = some t) :
    isShared t ts = true ↔ ∃ j u, j ≠ i ∧ ts[j]? = some u ∧ u.lower = t.lower := by
  have hplace : ∀ {k : Nat} (hk : k < (ts.map lower).length),
      (ts.map lower).get ⟨k, hk⟩ = t.lower →
      ∃ u, ts[k]? = some u ∧ u.lower = t.lower := by
    intro k hk heq
    rw [List.length_map] at hk
    exact ⟨ts[k], List.getElem?_eq_getElem hk, by simpa using heq⟩
  -- A text that is counted twice has two places, and one of them is not `i`.
  have hcount : isShared t ts = true ↔ List.Duplicate t.lower (ts.map lower) := by
    rw [isShared, decide_eq_true_iff, List.duplicate_iff_sublist]
    exact List.replicate_sublist_iff.symm
  rw [hcount, List.duplicate_iff_exists_distinct_get]
  constructor
  · rintro ⟨⟨m, hm⟩, ⟨n, hn⟩, hlt, hfirst, hsecond⟩
    by_cases hmi : m = i
    · obtain ⟨u, hu, heq⟩ := hplace hn hsecond.symm
      exact ⟨n, u, fun hni => hlt.ne (Fin.ext (hmi.trans hni.symm)), hu, heq⟩
    · obtain ⟨u, hu, heq⟩ := hplace hm hfirst.symm
      exact ⟨m, u, hmi, hu, heq⟩
  · rintro ⟨j, u, hne, hu, heq⟩
    obtain ⟨hi, rfl⟩ := List.getElem?_eq_some_iff.mp h
    obtain ⟨hj, rfl⟩ := List.getElem?_eq_some_iff.mp hu
    rcases Nat.lt_or_gt_of_ne hne with hlt | hlt
    · exact ⟨⟨j, by simpa using hj⟩, ⟨i, by simpa using hi⟩, hlt, by simp [heq], by simp⟩
    · exact ⟨⟨i, by simpa using hi⟩, ⟨j, by simpa using hj⟩, hlt, by simp, by simp [heq]⟩

/-- The test for a shared stem, which counts equal stems, is met if there is another
file with the stem. -/
theorem isShared_stem_iff (h : files[i]? = some file) :
    isShared (stem file) (files.map stem) = true ↔ SharesStem files i := by
  rw [isShared_iff (i := i) (by rw [List.getElem?_map, h]; rfl)]
  constructor
  · rintro ⟨j, u, hne, hu, heq⟩
    obtain ⟨other, hother, rfl⟩ := by simpa using hu
    exact ⟨j, file, other, hne, h, hother, heq⟩
  · rintro ⟨j, file', other, hne, hfile, hother, heq⟩
    obtain rfl := Option.some.inj (hfile.symm.trans h)
    exact ⟨j, stem other, hne, by rw [List.getElem?_map, hother]; rfl, heq⟩

/-- **The names for the files**, place by place.  The description by cases and the
function that computes the names are compared here, and nowhere else. -/
theorem isNamed_iff :
    IsNamed files i name ↔ (files.map (outputName files))[i]? = some name := by
  rw [List.getElem?_map, Option.map_eq_some_iff]
  refine exists_congr fun file => and_congr_right fun hfile => ?_
  have hshared := isShared_stem_iff hfile
  rw [outputName]
  split
  next h =>
    simp only [hshared.mp h, true_and, not_true_eq_false, false_and, or_false, eq_comm]
  next h =>
    simp only [mt hshared.mpr h, true_and, not_false_eq_true, false_and,
      false_or, eq_comm]

/-- A text without a slash makes a file name with `.cs` behind it: it is neither empty
nor a dot. -/
private theorem isFileName_append {t : Text} (h : '/' ∉ t) :
    IsFileName (t ++ ".cs".toList) := by
  have hend : ".cs".toList = ".c".toList ++ ['s'] := by decide
  have hdotc : '/' ∉ ".c".toList := by decide
  rw [hend, ← List.append_assoc]
  refine isFileName_concat ?_ (by decide) (by decide)
  simp only [List.mem_append, h, hdotc, or_self, not_false_eq_true]

/-- **The name of an output is that of a file**, whatever the paths look like. -/
theorem isFileName_outputName (files : List Path) (file : Path) :
    IsFileName (outputName files file) := by
  have hstem : '/' ∉ stem file := by
    rw [stem]
    cases h : file.stem? with
    | none => decide
    | some stem => exact Path.slash_not_mem_stem? h
  have hextension : '/' ∉ file.extension?.getD [] := by
    cases h : file.extension? with
    | none => exact List.not_mem_nil
    | some extension => exact Path.slash_not_mem_extension? h
  rw [outputName]
  split
  · exact isFileName_append (by simp [hstem, hextension])
  · exact isFileName_append hstem

/-- The name for a file is a file name, so its output lies directly in the output
directory. -/
theorem IsNamed.isFileName (h : IsNamed files i name) : IsFileName name := by
  obtain ⟨file, -, rfl⟩ := List.mem_map.mp (List.mem_of_getElem? (isNamed_iff.mp h))
  exact isFileName_outputName files file

/-- A file has one name. -/
theorem IsNamed.unique (h : IsNamed files i name) (h' : IsNamed files i name') :
    name = name' :=
  Option.some.inj ((isNamed_iff.mp h).symm.trans (isNamed_iff.mp h'))

/-! ## The plan -/

/-- The test for a shared name is met if the file clashes with another one. -/
theorem isShared_outputName_iff (h : IsNamed files i name) :
    isShared name (files.map (outputName files)) = true ↔ Clashes files i name := by
  rw [isShared_iff (isNamed_iff.mp h), Clashes]
  simp only [isNamed_iff]

/-- **The plan for a file** is an output under its name, or a clash if another file has
this name. -/
theorem getElem?_ofFiles_eq_some_iff {plan : Except NameClash Path} :
    (ofFiles files directory)[i]? = some plan ↔
    ∃ name, IsNamed files i name ∧
      (Clashes files i name ∧ plan = .error ⟨name⟩ ∨ ¬Clashes files i name ∧
        plan = .ok (directory.join name)) := by
  rw [ofFiles, List.getElem?_map, Option.map_eq_some_iff]
  simp only [← isNamed_iff]
  refine exists_congr fun name => and_congr_right fun hname => ?_
  have hshared := isShared_outputName_iff hname
  split
  next h =>
    simp only [hshared.mp h, true_and, not_true_eq_false, false_and, or_false, eq_comm]
  next h =>
    simp only [mt hshared.mpr h, true_and, not_false_eq_true, false_and,
      false_or, eq_comm]

/-- **A file has an output** if no other file has its name. -/
theorem ofFiles_eq_ok_iff : (ofFiles files directory)[i]? = some (.ok output) ↔
    ∃ name, IsNamed files i name ∧ ¬Clashes files i name ∧
      output = directory.join name := by
  simp only [getElem?_ofFiles_eq_some_iff, reduceCtorEq, and_false, false_or,
    Except.ok.injEq]

/-- **A file has no output** if another file has its name. -/
theorem ofFiles_eq_error_iff : (ofFiles files directory)[i]? = some (.error clash) ↔
    IsNamed files i clash.name ∧ Clashes files i clash.name := by
  rw [getElem?_ofFiles_eq_some_iff]
  constructor
  · rintro ⟨name, hname, ⟨hclash, hplan⟩ | ⟨-, hplan⟩⟩
    · obtain rfl := Except.error.inj hplan
      exact ⟨hname, hclash⟩
    · cases hplan
  · rintro ⟨hname, hclash⟩
    exact ⟨clash.name, hname, .inl ⟨hclash, rfl⟩⟩

/-- **Planned outputs differ, case apart, and the other files clash.** Each file has a
plan, under the name for it; two outputs have different names; and if a file clashes
with others, none of them has an output.  So no output is written over another, also
where file names that differ in case are the same. -/
theorem ofFiles_distinct (files : List Path) (directory : Path) :
    (ofFiles files directory).length = files.length ∧
      (∀ (i : Nat) (output : Path), (ofFiles files directory)[i]? = some (.ok output) →
        ∃ name, IsNamed files i name ∧ output = directory.join name ∧
          output.fileName? = some name) ∧
      (∀ (i j : Nat) (output output' : Path), i ≠ j →
        (ofFiles files directory)[i]? = some (.ok output) →
        (ofFiles files directory)[j]? = some (.ok output') →
          output.fileName?.map lower ≠ output'.fileName?.map lower) ∧
      ∀ (i : Nat) (clash : NameClash),
        (ofFiles files directory)[i]? = some (.error clash) →
        IsNamed files i clash.name ∧ Clashes files i clash.name ∧
          ∀ j name, IsNamed files j name → name.lower = clash.name.lower →
            (ofFiles files directory)[j]? = some (.error ⟨name⟩) := by
  -- An output has the name for its file, and no other file has it, case apart.
  have hok : ∀ {i : Nat} {output : Path},
      (ofFiles files directory)[i]? = some (.ok output) →
      ∃ name, IsNamed files i name ∧ ¬Clashes files i name ∧
      output = directory.join name ∧
        output.fileName? = some name := by
    intro i output h
    obtain ⟨name, hname, hclash, rfl⟩ := ofFiles_eq_ok_iff.mp h
    exact ⟨name, hname, hclash, rfl, Path.fileName?_join hname.isFileName⟩
  refine ⟨by simp [ofFiles], fun i output h => ?_,
    fun i j output output' hne h h' hsame => ?_, fun i clash h => ?_⟩
  · obtain ⟨name, hname, -, houtput, hfile⟩ := hok h
    exact ⟨name, hname, houtput, hfile⟩
  · obtain ⟨name, hname, hclash, -, hfile⟩ := hok h
    obtain ⟨name', hname', -, -, hfile'⟩ := hok h'
    rw [hfile, hfile', Option.map_some, Option.map_some, Option.some_inj] at hsame
    exact hclash ⟨j, name', hne.symm, hname', hsame.symm⟩
  · obtain ⟨hname, hclash⟩ := ofFiles_eq_error_iff.mp h
    refine ⟨hname, hclash, fun j name hother hsame =>
      ofFiles_eq_error_iff.mpr ⟨hother, ?_⟩⟩
    by_cases hji : j = i
    · subst hji
      rwa [hother.unique hname]
    · exact ⟨i, clash.name, Ne.symm hji, hname, hsame.symm⟩

/-- Two of four files share a stem, and the extension of one makes its name that of
another file. -/
theorem ofFiles_distinct_sharedStem :
    let files : List Path :=
      [⟨"in/a.cs".toList⟩, ⟨"in/trend.cs".toList⟩, ⟨"in/Trend.txt".toList⟩,
        ⟨"in/trend_cs.pls".toList⟩]
    ofFiles files ⟨"out".toList⟩ = [.ok ⟨"out/a.cs".toList⟩,
      .error ⟨"trend_cs.cs".toList⟩, .ok ⟨"out/Trend_txt.cs".toList⟩,
        .error ⟨"trend_cs.cs".toList⟩] ∧
      IsNamed files 2 "Trend_txt.cs".toList ∧ Clashes files 1 "trend_cs.cs".toList := by
  intro files
  have hplan : ofFiles files ⟨"out".toList⟩ =
      [.ok ⟨"out/a.cs".toList⟩, .error ⟨"trend_cs.cs".toList⟩,
        .ok ⟨"out/Trend_txt.cs".toList⟩, .error ⟨"trend_cs.cs".toList⟩] := by
    decide +kernel
  obtain ⟨-, hok, -, herror⟩ := ofFiles_distinct files ⟨"out".toList⟩
  rw [hplan] at hok herror
  obtain ⟨name, hname, hjoin, -⟩ := hok 2 _ rfl
  have hsame : Path.join ⟨"out".toList⟩ "Trend_txt.cs".toList =
      Path.join ⟨"out".toList⟩ name :=
    Eq.trans (by decide) hjoin
  obtain rfl := Path.join_injective hsame
  exact ⟨hplan, hname, (herror 1 _ rfl).2.1⟩

/-! ## Files with different stems -/

/-- Stems that differ in lower case are not shared, and then no name has an extension of
the input in it. -/
theorem not_sharesStem_of_nodup (hnodup : (files.map fun file => (stem file).lower).Nodup)
    (i : Nat) : ¬SharesStem files i := by
  rintro ⟨j, file, other, hne, hfile, hother, hsame⟩
  obtain ⟨hj, -⟩ := List.getElem?_eq_some_iff.mp hother
  refine hne (List.getElem?_inj (by simpa using hj) hnodup |>.mp ?_)
  rw [List.getElem?_map, List.getElem?_map, hfile, hother, Option.map_some,
    Option.map_some, hsame]

/-- A name without its extension, if the stem is not shared. -/
theorem isNamed_iff_of_not_sharesStem (hshares : ¬SharesStem files i) :
    IsNamed files i name ↔
      ∃ file, files[i]? = some file ∧ name = stem file ++ ".cs".toList := by
  simp only [IsNamed, hshares, false_and, not_false_eq_true, true_and, false_or]

/-- **Stems with `.cs` behind them** agree, where the stems differ, if a sigma at the
end is all that tells the stems apart. -/
theorem sigmaTwins_stem_iff (hne : (stem file).lower ≠ (stem file').lower) :
    SigmaTwins (stem file) (stem file') ↔
    (stem file ++ ".cs".toList).lower = (stem file' ++ ".cs".toList).lower := by
  rw [sigmaTwins_iff (u := ".cs".toList) (by decide) (by decide)]
  exact and_iff_right hne

/-- **Files with different stems clash** if a sigma at the end is all that tells their
stems apart. -/
theorem clashes_iff_of_nodup (hnodup : (files.map fun file => (stem file).lower).Nodup)
    (hfile : files[i]? = some file) :
    Clashes files i (stem file ++ ".cs".toList) ↔
      ∃ other ∈ files, SigmaTwins (stem file) (stem other) := by
  have hshares := not_sharesStem_of_nodup hnodup
  constructor
  · rintro ⟨j, name, hji, hname, hsame⟩
    obtain ⟨other, hother, rfl⟩ := (isNamed_iff_of_not_sharesStem (hshares j)).mp hname
    have hne : (stem file).lower ≠ (stem other).lower :=
      fun heq => hshares i ⟨j, file, other, hji, hfile, hother, heq.symm⟩
    exact ⟨other, List.mem_of_getElem? hother, (sigmaTwins_stem_iff hne).mpr hsame.symm⟩
  · rintro ⟨other, hmem, htwins⟩
    obtain ⟨j, hother⟩ := List.mem_iff_getElem?.mp hmem
    have hne := ((sigmaTwins_iff (u := ".cs".toList) (by decide) (by decide)).mp htwins).1
    refine ⟨j, _, ?_, (isNamed_iff_of_not_sharesStem (hshares j)).mpr
      ⟨other, hother, rfl⟩, ((sigmaTwins_stem_iff hne).mp htwins).symm⟩
    rintro rfl
    exact hne (by rw [Option.some.inj (hfile.symm.trans hother)])

/-- **Clashes come from shared stems or from a sigma.**  Names agree, case apart, only
if one of the two files has a shared stem, or a sigma at the end is all that tells their
stems apart.  If no stem is shared, the files that no other file differs from in this
way are those that have an output, and the others have none. -/
theorem ofFiles_clashes (files : List Path) (directory : Path) :
    (∀ (i j : Nat) (name name' : Text), i ≠ j → IsNamed files i name →
      IsNamed files j name' →
        name.lower = name'.lower → SharesStem files i ∨ SharesStem files j ∨
          ∃ file file', files[i]? = some file ∧ files[j]? = some file' ∧
            SigmaTwins (stem file) (stem file')) ∧
      ((files.map fun file => (stem file).lower).Nodup →
        ∀ (i : Nat) (file : Path), files[i]? = some file →
        ((ofFiles files directory)[i]? =
          some (.ok (directory.join (stem file ++ ".cs".toList))) ↔
            ∀ other ∈ files, ¬SigmaTwins (stem file) (stem other)) ∧
          ((ofFiles files directory)[i]? = some (.error ⟨stem file ++ ".cs".toList⟩) ↔
            ∃ other ∈ files, SigmaTwins (stem file) (stem other))) := by
  refine ⟨fun i j name name' hij hname hname' hsame => ?_, fun hnodup i file hfile => ?_⟩
  · by_cases hi : SharesStem files i
    · exact .inl hi
    by_cases hj : SharesStem files j
    · exact .inr (.inl hj)
    -- Without shared stems both names end in `.cs`, so only the stems can differ.
    obtain ⟨file, hfile, rfl⟩ := (isNamed_iff_of_not_sharesStem hi).mp hname
    obtain ⟨file', hfile', rfl⟩ := (isNamed_iff_of_not_sharesStem hj).mp hname'
    have hne : (stem file).lower ≠ (stem file').lower :=
      fun heq => hi ⟨j, file, file', hij.symm, hfile, hfile', heq.symm⟩
    exact .inr (.inr ⟨file, file', hfile, hfile', (sigmaTwins_stem_iff hne).mpr hsame⟩)
  · have hname := (isNamed_iff_of_not_sharesStem (not_sharesStem_of_nodup hnodup i)).mpr
      ⟨file, hfile, rfl⟩
    have hclashes := clashes_iff_of_nodup hnodup hfile
    constructor
    · rw [ofFiles_eq_ok_iff]
      constructor
      · rintro ⟨name, hname', hclash, -⟩ other hmem htwins
        rw [← hname.unique hname'] at hclash
        exact hclash (hclashes.mpr ⟨other, hmem, htwins⟩)
      · intro hnone
        refine ⟨_, hname, fun hclash => ?_, rfl⟩
        obtain ⟨other, hmem, htwins⟩ := hclashes.mp hclash
        exact hnone other hmem htwins
    · rw [ofFiles_eq_error_iff, hclashes]
      exact and_iff_right hname

/-- A file between two whose stems only a sigma tells apart has its output. -/
theorem ofFiles_clashes_trend :
    let files : List Path :=
      [⟨"in/aΣ.cs".toList⟩, ⟨"in/trend.cs".toList⟩, ⟨"in/aσ.txt".toList⟩]
    (files.map fun file => (stem file).lower).Nodup ∧
      (ofFiles files ⟨"out".toList⟩)[0]? = some (.error ⟨"aΣ.cs".toList⟩) ∧
      (ofFiles files ⟨"out".toList⟩)[1]? = some (.ok ⟨"out/trend.cs".toList⟩) := by
  intro files
  have hnodup : (files.map fun file => (stem file).lower).Nodup := by decide +kernel
  have hplan := (ofFiles_clashes files ⟨"out".toList⟩).2 hnodup
  refine ⟨hnodup, (hplan 0 _ rfl).2.mpr ⟨⟨"in/aσ.txt".toList⟩, by simp [files], ?_⟩,
    (hplan 1 _ rfl).1.mpr ?_⟩
  · exact .inl ⟨['a'], [], by decide, ⟨by decide, by decide⟩, by decide⟩
  · intro other hmem
    rw [sigmaTwins_iff (u := ".cs".toList) (by decide) (by decide)]
    revert other
    decide +kernel

/-- Two stems that differ, in lower case as well, and two files without an output. -/
theorem ofFiles_sigma :
    let files : List Path := [⟨"in/aΣ.cs".toList⟩, ⟨"in/aσ.txt".toList⟩]
    (files.map fun file => (stem file).lower).Nodup ∧
      ofFiles files ⟨"out".toList⟩ = [.error ⟨"aΣ.cs".toList⟩, .error ⟨"aσ.cs".toList⟩] ∧
      ofFiles files ⟨"out".toList⟩ ≠
        files.map fun file =>
          .ok (Path.join ⟨"out".toList⟩ (stem file ++ ".cs".toList)) := by
  decide +kernel

end OutputPlan

end StrategyDialect
