import StrategyDialect.Proofs.Batch.Plan
import StrategyDialect.Proofs.Engine
import StrategyDialect.Proofs.Files.Directories

/-!
# Batches that are refused

A batch is refused if there is no input directory, if the output directory cannot be
made, or if the two turn out to be the same.  The output directory has to be there
before the two can be compared, so it is made first; and what was made stays if the
batch is refused after all.

Nothing but new directories can be left behind, and whether there are any is a matter of
the path alone: it has to lead along a missing name (`FileTree.MakesFirst`), and yet not
to a new directory, for that would be no reason to refuse anything.  So a path of
nothing but names is safe, and so is one that leads somewhere before the batch.  One
that leaves a missing name again by `..` is not, be it that it comes back to the input
directory or that it runs into a file.

## Main definitions

* `Batch.Refusal`: the ways in which a batch is refused

## Main statements

* `Batch.refusal_of_prepare`: every refusal is one of these
* `Batch.convertDirectory_refused`: when a refused batch leaves a trace
-/

namespace StrategyDialect

namespace Batch

variable {tree made final : FileTree} {input out : Path} {e : BatchError}
  {engine : Engine} {policy : ConvertPolicy} {now : Timestamp}

/-- The ways in which a batch is refused, with the tree that it leaves behind. -/
inductive Refusal (tree : FileTree) (input out : Path) : BatchError → FileTree → Prop
  /-- There is no input directory. -/
  | noInput (hinput : tree.isDirectory input = false) :
      Refusal tree input out (.noInput input) tree
  /-- The output directory cannot be made. -/
  | noOutput {made : FileTree} {e : FileError} (hinput : tree.isDirectory input = true)
      (hmade : tree.createDirectories out = (.error e, made)) :
      Refusal tree input out (.noOutput out e) made
  /-- The output directory cannot be found. -/
  | unresolved {made : FileTree} {e : FileError} (hinput : tree.isDirectory input = true)
      (hmade : tree.createDirectories out = (.ok (), made))
      (hout : made.resolve out = .error e) :
      Refusal tree input out (.unresolved input out e) made
  /-- The output directory is the input directory. -/
  | sameDirectory {made : FileTree} {loc : Location}
      (hinput : tree.isDirectory input = true)
      (hmade : tree.createDirectories out = (.ok (), made))
      (hresolve : tree.resolve input = .ok loc)
      (hout : made.resolve out = .ok loc) :
      Refusal tree input out (.sameDirectory out) made

/-- **Every refusal** is one of these.  The checks are made one after the other, and the
directories are made between the first and the second of them. -/
theorem refusal_of_prepare (h : prepare tree input out = (.error e, made)) :
    Refusal tree input out e made := by
  by_cases hinput : tree.isDirectory input = true
  · obtain ⟨inputLoc, hresolve, hdirectory⟩ := FileTree.isDirectory_iff.mp hinput
    -- From here on the directories have been made, whatever the next checks find.
    rcases hcreated : tree.createDirectories out with ⟨e' | _, made'⟩
    · rw [prepare, if_pos hinput, hcreated] at h
      obtain ⟨herror, rfl⟩ := Prod.mk.inj h
      obtain rfl := Except.error.inj herror
      exact .noOutput hinput hcreated
    · rw [prepare_eq hresolve hdirectory hcreated] at h
      obtain ⟨herror, rfl⟩ := Prod.mk.inj h
      split at herror
      next hout =>
        obtain rfl := Except.error.inj herror
        exact .unresolved hinput hcreated hout
      next outLoc hout =>
        split at herror
        next heq =>
          obtain rfl := Except.error.inj herror
          exact .sameDirectory hinput hcreated hresolve (heq ▸ hout)
        next => cases herror
  · rw [prepare, if_neg hinput] at h
    obtain ⟨herror, rfl⟩ := Prod.mk.inj h
    obtain rfl := Except.error.inj herror
    exact .noInput (by simpa using hinput)

namespace Refusal

/-- All that happens to the files before a batch is refused is that the output directory
is asked for. -/
theorem tree_eq (h : Refusal tree input out e made) :
    tree.isDirectory input = false ∧ made = tree ∨
      tree.isDirectory input = true ∧ made = (tree.createDirectories out).2 := by
  cases h with
  | noInput hinput => exact .inl ⟨hinput, rfl⟩
  | noOutput hinput hmade => exact .inr ⟨hinput, by rw [hmade]⟩
  | unresolved hinput hmade hout => exact .inr ⟨hinput, by rw [hmade]⟩
  | sameDirectory hinput hmade hresolve hout => exact .inr ⟨hinput, by rw [hmade]⟩

/-- A refusal changes nothing but that directories may have been added. -/
theorem addsDirectories (h : Refusal tree input out e made) :
    tree.AddsDirectories made := by
  rcases h.tree_eq with ⟨-, rfl⟩ | ⟨-, rfl⟩
  · exact .refl made
  · exact tree.addsDirectories_createDirectories out

/-- It changes nothing at all if the input is missing, or if there is nothing to be made
on the way to the output. -/
theorem tree_eq_iff (h : Refusal tree input out e made) :
    made = tree ↔ tree.isDirectory input = false ∨ ¬tree.MakesFirst out := by
  rcases h.tree_eq with ⟨hinput, rfl⟩ | ⟨hinput, rfl⟩
  · simp [hinput]
  · simp [hinput, FileTree.createDirectories_eq_self_iff]

/-- No batch is refused that has made all directories of its output: the last one is
new, and so not the input. -/
theorem not_makesFirst (h : Refusal tree input out e made) (hclosed : tree.IsClosed)
    (hout : out.IsStraight) : tree.isDirectory input = false ∨ ¬tree.MakesFirst out := by
  by_contra hnot
  rw [not_or, not_not] at hnot
  obtain ⟨made', loc, hmade', hresolve', hmissing⟩ :=
    hclosed.createDirectories_eq hout hnot.2
  cases h with
  | noInput hinput => exact hnot.1 hinput
  | noOutput hinput hmade =>
    rw [hmade] at hmade'
    cases (Prod.mk.inj hmade').1
  | unresolved hinput hmade herror =>
    obtain rfl := (Prod.mk.inj (hmade.symm.trans hmade')).2
    rw [herror] at hresolve'
    cases hresolve'
  | sameDirectory hinput hmade hresolve hsame =>
    obtain rfl := (Prod.mk.inj (hmade.symm.trans hmade')).2
    obtain ⟨inputLoc, hinput, hdirectory⟩ := FileTree.isDirectory_iff.mp hinput
    obtain rfl := Except.ok.inj (hsame.symm.trans hresolve')
    obtain rfl := Except.ok.inj (hresolve.symm.trans hinput)
    rw [hmissing] at hdirectory
    cases hdirectory

end Refusal

/-- **What a refused batch leaves behind** are new directories, or nothing: nothing
exactly if there is no input directory or if no missing name on the way to the output is
made.  So it is if the way leads somewhere, or to a file, and also if it goes by names
alone.  A batch that is refused because both directories are the same leaves nothing
behind exactly if the output led to the input before. -/
theorem convertDirectory_refused
    (hconvert : convertDirectory engine input out policy now tree = (.error e, final)) :
    tree.AddsDirectories final ∧
      (final = tree ↔ tree.isDirectory input = false ∨ ¬tree.MakesFirst out) ∧
      (tree.resolve out ≠ .error .notFound → final = tree) ∧
      (tree.IsClosed → out.IsStraight → final = tree) ∧
      (e = .sameDirectory out →
        (final = tree ↔ tree.resolve out = tree.resolve input)) := by
  have h : Refusal tree input out e final := by
    rw [convertDirectory] at hconvert
    split at hconvert
    next hprepare =>
      obtain ⟨herror, rfl⟩ := Prod.mk.inj hconvert
      obtain rfl := Except.error.inj herror
      exact refusal_of_prepare hprepare
    next => cases (Prod.mk.inj hconvert).1
  -- A missing name would make the way to the output a way to nothing.
  have hfound : tree.resolve out ≠ .error .notFound → final = tree := by
    intro hresolve
    refine h.tree_eq_iff.mpr (.inr ?_)
    rintro ⟨before, name, after, hmisses, -⟩
    exact hresolve hmisses.resolve_eq
  refine ⟨h.addsDirectories, h.tree_eq_iff, hfound,
    fun hclosed hout => h.tree_eq_iff.mpr (h.not_makesFirst hclosed hout), ?_⟩
  rintro rfl
  cases h with
  | sameDirectory hinput hmade hresolve hout =>
    refine ⟨?_, fun heq => hfound ?_⟩
    · rintro rfl
      rw [hout, hresolve]
    · rw [heq, hresolve]
      exact nofun

/-- A directory for strategies, with one strategy in it. -/
def oneInput : FileTree :=
  ⟨[(["in".toList], .directory),
    (["in".toList, "a.cs".toList], .file (Text.toUtf8 "int x;".toList))], []⟩

/-- An output directory that leads to the input directory, in another spelling, and one
by names alone that cannot be made, because there is a file on the way. -/
theorem convertDirectory_refused_oneInput :
    (convertDirectory .powerLanguage ⟨"in".toList⟩ ⟨"in/../in/.".toList⟩ .always
      ⟨0, 0⟩ oneInput =
        (.error (.sameDirectory ⟨"in/../in/.".toList⟩), oneInput) ∧
      oneInput.resolve ⟨"in/../in/.".toList⟩ = oneInput.resolve ⟨"in".toList⟩ ∧
      ¬oneInput.MakesFirst ⟨"in/../in/.".toList⟩) ∧
    oneInput.IsClosed ∧ Path.IsStraight ⟨"in/a.cs/out".toList⟩ ∧
      ∃ final, convertDirectory .powerLanguage ⟨"in".toList⟩ ⟨"in/a.cs/out".toList⟩
        .always ⟨0, 0⟩ oneInput =
        (.error (.noOutput ⟨"in/a.cs/out".toList⟩ .notADirectory), final) ∧
        final = oneInput := by
  constructor
  · have hrefused : convertDirectory .powerLanguage ⟨"in".toList⟩ ⟨"in/../in/.".toList⟩
        .always ⟨0, 0⟩ oneInput =
        (.error (.sameDirectory ⟨"in/../in/.".toList⟩), oneInput) := rfl
    obtain ⟨-, hiff, -, -, hsame⟩ := convertDirectory_refused hrefused
    exact ⟨hrefused, (hsame rfl).mp rfl, (hiff.mp rfl).resolve_left (by decide)⟩
  · have hclosed : oneInput.IsClosed := FileTree.isClosed_of_nodes (by decide)
    have hstraight : Path.IsStraight ⟨"in/a.cs/out".toList⟩ := by decide
    obtain ⟨final, hrefused⟩ : ∃ final,
        convertDirectory .powerLanguage ⟨"in".toList⟩ ⟨"in/a.cs/out".toList⟩ .always ⟨0,
          0⟩ oneInput = (.error (.noOutput ⟨"in/a.cs/out".toList⟩ .notADirectory),
          final) := ⟨_, rfl⟩
    exact ⟨hclosed, hstraight, final, hrefused,
      (convertDirectory_refused hrefused).2.2.2.1 hclosed hstraight⟩

/-- An output directory that leads to the input directory by way of one that is not
there: the batch is refused, and the new directory is left behind. -/
theorem convertDirectory_refused_detour :
    oneInput.IsClosed ∧
      convertDirectory .powerLanguage ⟨"in".toList⟩ ⟨"new/../in".toList⟩ .always
        ⟨0, 0⟩ oneInput =
        (.error (.sameDirectory ⟨"new/../in".toList⟩),
          oneInput.put ["new".toList] .directory) ∧
      oneInput.node? ["new".toList] = none ∧
      (oneInput.put ["new".toList] .directory).node? ["new".toList] = some .directory :=
  ⟨FileTree.isClosed_of_nodes (by decide), rfl, rfl, rfl⟩

end Batch

end StrategyDialect
