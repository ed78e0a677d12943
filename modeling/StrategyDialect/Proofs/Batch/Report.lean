import StrategyDialect.Proofs.Files.Tree
import StrategyDialect.Proofs.Report.Csv
import StrategyDialect.Proofs.Report.Documents
import StrategyDialect.Proofs.Text.Utf8

/-!
# Report and summary

A report and its summary do not get in each other's way.  The name of the summary is the
stem of the report with an underscore behind it, where the name of the report has a dot,
or nothing (`BatchReport.exists_target_summaryPath`); and the directory is the same,
however the path of the report is written.  So the second of the two files leaves the
first one alone, and both can be read when all is done.

## Main statements

* `BatchReport.exists_target_summaryPath`: where the summary goes
* `BatchReport.ofPage?_of_write`: the report is read back from its file
* `BatchReport.write_pair`: both files are written, and what the summary tells of the
  entries is read back from it
-/

namespace StrategyDialect

namespace BatchReport

open Text

variable {r : BatchReport} {path summaryFile : Path} {tree final : FileTree}
  {directory : Location} {name : Text}

/-! ## Where the summary goes -/

/-- The end of the name of a summary tells it from every name with the same stem. -/
theorem append_summary_ne (name : Text) :
    (Path.cutName name).1 ++ "_summary.csv".toList ≠ name := by
  obtain ⟨rest, hname, hrest⟩ := Path.eq_stem_append name
  intro heq
  obtain rfl : "_summary.csv".toList = rest := List.append_cancel_left (heq.trans hname)
  revert hrest
  decide

/-- **The summary goes next to the report**, whatever the path looks like, and has
another name. -/
theorem exists_target_summaryPath
    (h : tree.target path = .ok (.child directory name false)) :
    ∃ name', name' ≠ name ∧
      tree.target (summaryPath path) = .ok (.child directory name' false) := by
  obtain ⟨before, after, hleads⟩ := FileTree.target_eq_child_iff.mp h
  obtain rfl := hleads.after_eq_nil
  have hstem : path.stem? = some (Path.cutName name).1 := by
    rw [Path.stem?, Path.fileName?_of_splitOn hleads.isFileName hleads.splitOn]
    rfl
  obtain ⟨above, habove⟩ := Path.exists_parent?_of_mem (p := path) hleads.isFileName <| by
    rw [hleads.splitOn]
    simp
  -- The stem of a file name has no slash, and the suffix keeps it from being `.` or `..`.
  have hname : IsFileName ((Path.cutName name).1 ++ "_summary.csv".toList) := by
    have hslash : '/' ∉ (Path.cutName name).1 ++ "_summary.cs".toList :=
      List.not_mem_append (Path.slash_not_mem_stem? hstem) (by decide)
    simpa using isFileName_concat (x := 'v') hslash (by decide) (by decide)
  refine ⟨_, append_summary_ne name, ?_⟩
  rw [summaryPath, habove, hstem]
  exact FileTree.target_beside h habove hname

/-! ## What the summary tells -/

/-- The two words for yes and no differ, so the column of verdicts can be read. -/
theorem boolText_eq_true_iff (b : Bool) : boolText b = boolText true ↔ b = true := by
  cases b <;> decide

/-- The column of errors has the error of the entry, or else the errors of its
verdict. -/
theorem errorText_eq (e : BatchEntry) :
    errorText e = e.error.getD (e.validation.elim [] fun v =>
      "; ".toList.intercalate v.errors) := by
  rw [errorText]
  cases e.error <;> cases e.validation <;> rfl

/-- **The summary is read back**: a header and a record for each entry, with whatever is
in its fields. -/
theorem read_summary (r : BatchReport) :
    Csv.read r.summary = some (summaryHeader :: r.entries.map summaryRecord) := by
  refine Csv.read_write (List.forall_mem_cons.mpr ⟨by decide, fun record hrecord => ?_⟩)
  obtain ⟨e, -, rfl⟩ := List.mem_map.mp hrecord
  exact List.cons_ne_nil _ _

/-- The converted files are counted in the last column. -/
theorem countP_summaryRecord (r : BatchReport) :
    (r.entries.map summaryRecord).countP (fun row =>
      row.getLast? = some (boolText true)) = r.convertedCount := by
  rw [List.countP_map, convertedCount]
  refine List.countP_congr fun e _ => ?_
  simp [summaryRecord, boolText_eq_true_iff]

/-! ## Both files -/

/-- What is written: two files with different names in one directory. -/
theorem exists_of_write (h : r.write path tree = (.ok summaryFile, final)) :
    ∃ directory name name', name ≠ name' ∧
      tree.target path = .ok (.child directory name false) ∧
      tree.target summaryFile = .ok (.child directory name' false) ∧ tree.Keeps final ∧
      final.node? (directory ++ [name]) = some (.file r.toJson.pretty.toUtf8) ∧
      final.node? (directory ++ [name']) = some (.file r.summary.toUtf8) ∧
      ∀ loc, loc ≠ directory ++ [name] → loc ≠ directory ++ [name'] →
        final.node? loc = tree.node? loc := by
  rw [write] at h
  split at h
  · cases (Prod.mk.inj h).1
  next written hwritten =>
    split at h
    · cases (Prod.mk.inj h).1
    next final' hfinal =>
      obtain ⟨hsummary, rfl⟩ := Prod.mk.inj h
      obtain rfl := Except.ok.inj hsummary
      have hkeeps := FileTree.Keeps.of_writeFile hwritten
      have hkeeps' := FileTree.Keeps.of_writeFile hfinal
      obtain ⟨directory, name, htarget, -, rfl⟩ :=
        FileTree.writeFile_eq_ok_iff.mp hwritten
      obtain ⟨name', hne, hbeside⟩ := exists_target_summaryPath htarget
      obtain ⟨directory', name'', hwrittenTarget, -, rfl⟩ :=
        FileTree.writeFile_eq_ok_iff.mp hfinal
      -- The place of the summary is the same before and after the report is written.
      obtain ⟨rfl, rfl⟩ : directory = directory' ∧ name' = name'' := by
        simpa using (hkeeps.target hbeside).symm.trans hwrittenTarget
      refine ⟨directory, name, name', hne.symm, htarget, hbeside, hkeeps.trans hkeeps',
        ?_, ?_, fun loc hloc hloc' => ?_⟩
      · rw [FileTree.node?_put (by simp), if_neg (by simpa using hne.symm),
          FileTree.node?_put (by simp), if_pos rfl]
      · rw [FileTree.node?_put (by simp), if_pos rfl]
      · rw [FileTree.node?_put (by simp), if_neg hloc',
          FileTree.node?_put (by simp), if_neg hloc]

/-- **The report is read back from its file** when both files are written: its time, its
dialect and all its entries. -/
theorem ofPage?_of_write (h : r.write path tree = (.ok summaryFile, final)) :
    ∃ bytes page, final.readFile path = .ok bytes ∧ ofUtf8? bytes = .ok page ∧
      ofPage? page = some r.contents := by
  obtain ⟨directory, name, name', -, htarget, -, hkeeps, hreport, -, -⟩ :=
    exists_of_write h
  have hread : ofPage? (r.toJson.pretty ++ []) = some r.contents := r.ofPage?_pretty rfl
  rw [List.append_nil] at hread
  exact ⟨_, r.toJson.pretty, FileTree.readFile_of_target (hkeeps.target htarget) hreport,
    ofUtf8?_toUtf8 r.toJson.pretty, hread⟩

/-- **A report and its summary** are two files in one directory, and nothing else has
changed when they are written: the report is as it was written, and the summary is read
back with one record for each entry.  Whatever commas, quotes and line ends there are in
the paths and messages, the records with `true` at their end are as many as the
converted files. -/
theorem write_pair (h : r.write path tree = (.ok summaryFile, final)) :
    summaryFile ≠ path ∧
    (∃ directory name name', name ≠ name' ∧
      final.resolve path = .ok (directory ++ [name]) ∧
      final.resolve summaryFile = .ok (directory ++ [name']) ∧
      final.workingDirectory = tree.workingDirectory ∧
      ∀ loc, loc ≠ directory ++ [name] → loc ≠ directory ++ [name'] →
        final.node? loc = tree.node? loc) ∧
    final.readFile path = .ok r.toJson.pretty.toUtf8 ∧
    ∃ bytes text rows, final.readFile summaryFile = .ok bytes ∧ ofUtf8? bytes = .ok text ∧
      Csv.read text =
        some (["file".toList, "valid".toList, "errors".toList, "parameters".toList,
          "converted".toList] :: rows) ∧
      rows = r.entries.map (fun e =>
        [e.file.text, boolText e.isValid,
          e.error.getD (e.validation.elim [] fun v => "; ".toList.intercalate v.errors),
          ofNat e.parameters.length, boolText e.isConverted]) ∧
      rows.countP (fun row => row.getLast? = some "true".toList) = r.convertedCount := by
  obtain ⟨directory, name, name', hne, htarget, htarget', hkeeps, hreport, hsummary,
    hsame⟩ := exists_of_write h
  have hdistinct : summaryFile ≠ path := by
    rintro rfl
    refine hne ?_
    simpa using htarget.symm.trans htarget'
  have hrows : r.entries.map summaryRecord = r.entries.map fun e =>
      [e.file.text, boolText e.isValid,
        e.error.getD (e.validation.elim [] fun v => "; ".toList.intercalate v.errors),
        ofNat e.parameters.length, boolText e.isConverted] :=
    List.map_congr_left fun e _ => by rw [summaryRecord, errorText_eq]
  refine ⟨hdistinct,
    ⟨directory, name, name', hne, ?_, ?_, hkeeps.workingDirectory, hsame⟩, ?_,
    r.summary.toUtf8, r.summary, _, ?_, ofUtf8?_toUtf8 r.summary, read_summary r, hrows,
    countP_summaryRecord r⟩
  · exact FileTree.resolve_of_target (hkeeps.target htarget)
      (.inl ⟨Option.isSome_of_eq_some hreport, rfl⟩)
  · exact FileTree.resolve_of_target (hkeeps.target htarget')
      (.inl ⟨Option.isSome_of_eq_some hsummary, rfl⟩)
  · exact FileTree.readFile_of_target (hkeeps.target htarget) hreport
  · exact FileTree.readFile_of_target (hkeeps.target htarget') hsummary

/-- A report on three files, with all that a summary has to quote. -/
def threeFiles : BatchReport where
  generatedAt := ⟨0, 0⟩
  dialect := .powerLanguage
  entries :=
    [⟨⟨"in/a,b.cs".toList⟩, some ⟨["no \"Trend\"".toList, "no base, no body".toList]⟩, [],
      none, none⟩, ⟨⟨"in/c.cs".toList⟩, some ⟨[]⟩,
      [⟨"Length".toList, "int".toList, some "14".toList⟩], some ⟨"out/c.cs".toList⟩,
      none⟩, ⟨⟨"in/d.cs".toList⟩, none, [], none, some "cut\r\nshort".toList⟩]

/-- The report on three files, written by a path with a dot in it. -/
theorem write_pair_threeFiles :
    ∃ final, threeFiles.write ⟨"out/./report.json".toList⟩
      ⟨[(["out".toList], .directory)], []⟩ =
        (.ok ⟨"out/report_summary.csv".toList⟩, final) ∧
      final.readFile ⟨"out/./report.json".toList⟩ = .ok threeFiles.toJson.pretty.toUtf8 ∧
      ∃ bytes text, final.readFile ⟨"out/report_summary.csv".toList⟩ = .ok bytes ∧
        ofUtf8? bytes = .ok text ∧
        Csv.read text = some
          [["file".toList, "valid".toList, "errors".toList, "parameters".toList,
            "converted".toList],
              ["in/a,b.cs".toList, "false".toList,
                "no \"Trend\"; no base, no body".toList, "0".toList, "false".toList],
                  ["in/c.cs".toList, "true".toList, [], "1".toList, "true".toList],
                    ["in/d.cs".toList, "false".toList, "cut\r\nshort".toList, "0".toList,
                      "false".toList]] := by
  obtain ⟨final, hwritten⟩ : ∃ final, threeFiles.write ⟨"out/./report.json".toList⟩
      ⟨[(["out".toList], .directory)], []⟩ =
        (.ok ⟨"out/report_summary.csv".toList⟩, final) := ⟨_, rfl⟩
  obtain ⟨-, -, hreport, bytes, text, rows, hbytes, htext, hread, rfl, -⟩ :=
    write_pair hwritten
  exact ⟨final, hwritten, hreport, bytes, text, hbytes, htext, hread⟩

end BatchReport

end StrategyDialect
