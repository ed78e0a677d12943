import StrategyDialect.Report.Csv

/-!
# Comma-separated values, read back

What is written is read back as it was, whatever is in the fields.  A reader that has
read a field stands outside quotes (`Csv.exists_readFrom_writeField`): behind a plain
field, behind the quote that closes one, or where it started, if the field is empty.  In
all three places a comma ends the field and a newline ends the record, and this is all
that the records need to know about their fields.

## Main statements

* `Csv.exists_readFrom_writeField`: a field is read back
* `Csv.readFrom_writeRecord`: so is a record
* `Csv.read_write`: and so are all records
-/

namespace StrategyDialect

namespace Csv

variable {fields : List Text} {field : Text} {position : Position}

/-! ## Fields -/

/-- A comma ends a field, unless it stands between quotes. -/
theorem readFrom_comma (hposition : position ≠ .quoted) (t : Text) :
    readFrom fields field position (',' :: t) =
      readFrom (field.reverse :: fields) [] .start t := by
  cases position with
  | quoted => exact absurd rfl hposition
  | start | plain | afterQuote => rfl

/-- A newline ends a record, unless it stands between quotes. -/
theorem readFrom_newline (hposition : position ≠ .quoted) (t : Text) :
    readFrom fields field position ('\n' :: t) =
      (read t).map ((field.reverse :: fields).reverse :: ·) := by
  cases position with
  | quoted => exact absurd rfl hposition
  | start | plain | afterQuote => rfl

/-- Characters that need no quotes are read as they are. -/
theorem exists_readFrom_plain (field : Text) {u : Text}
    (hposition : position = .start ∨ position = .plain) (hu : needsQuotes u = false) :
    ∃ next, next ≠ .quoted ∧ ∀ t, readFrom fields field position (u ++ t) =
      readFrom fields (u.reverse ++ field) next t := by
  induction u generalizing field position with
  | nil =>
    refine ⟨position, ?_, fun t => rfl⟩
    rcases hposition with rfl | rfl <;> decide
  | cons c u ih =>
    rw [needsQuotes, List.any_cons, Bool.or_eq_false_iff] at hu
    have hstep : step c position = .add .plain := by
      have hc : ¬c = ',' ∧ ¬c = '"' ∧ ¬c = '\r' ∧ ¬c = '\n' := by
        simpa [and_assoc] using hu.1
      rcases hposition with rfl | rfl <;> simp [step, stepOutside, hc]
    obtain ⟨next, hnext, hread⟩ := ih (c :: field) (.inr rfl) hu.2
    refine ⟨next, hnext, fun t => ?_⟩
    rw [List.cons_append, readFrom, hstep]
    simpa using hread t

/-- Between quotes, everything is read back from its doubled quotes. -/
theorem readFrom_doubleQuotes (u t : Text) :
    readFrom fields field .quoted (doubleQuotes u ++ t) =
      readFrom fields (u.reverse ++ field) .quoted t := by
  induction u generalizing field with
  | nil => rfl
  | cons c u ih =>
    have htail : doubleQuotes (c :: u) =
        (if c = '"' then ['"', '"'] else [c]) ++ doubleQuotes u := rfl
    rw [htail]
    split
    next hc =>
      subst hc
      simpa [readFrom, step, stepOutside] using ih
    next hc => simpa [readFrom, step, hc] using ih

/-- **A field is read back**, and the reader is outside quotes behind it. -/
theorem exists_readFrom_writeField (fields : List Text) (field : Text) :
    ∃ position, position ≠ .quoted ∧
      ∀ t, readFrom fields [] .start (writeField field ++ t) =
        readFrom fields field.reverse position t := by
  rw [writeField]
  split
  next =>
    refine ⟨.afterQuote, by decide, fun t => ?_⟩
    calc readFrom fields [] .start (['"'] ++ doubleQuotes field ++ ['"'] ++ t)
        = readFrom fields [] .quoted (doubleQuotes field ++ '"' :: t) := by
          simp [readFrom, step, stepOutside]
      _ = readFrom fields field.reverse .quoted ('"' :: t) := by
        rw [readFrom_doubleQuotes, List.append_nil]
      _ = readFrom fields field.reverse .afterQuote t := rfl
  next hplain => simpa using exists_readFrom_plain [] (.inl rfl) (by simpa using hplain)

/-! ## Records -/

/-- **A record is read back**: each field ends at its comma and the last one at the
newline, which ends the record as well.  The fields before it are carried along in
reverse. -/
theorem readFrom_writeRecord (fields : List Text) (field : Text)
    (more : List Text) (t : Text) :
    readFrom fields [] .start (writeRecord (field :: more) ++ t) =
      (read t).map ((fields.reverse ++ field :: more) :: ·) := by
  obtain ⟨position, hposition, hfield⟩ := exists_readFrom_writeField fields field
  induction more generalizing fields field position with
  | nil =>
    have hrecord : writeRecord [field] ++ t = writeField field ++ '\n' :: t := by
      simp [writeRecord]
    rw [hrecord, hfield, readFrom_newline hposition]
    simp
  | cons next more ih =>
    have hrecord : writeRecord (field :: next :: more) ++ t =
        writeField field ++ ',' :: (writeRecord (next :: more) ++ t) := by
      simp [writeRecord, List.intercalate_cons_cons]
    obtain ⟨position', hposition', hnext⟩ :=
      exists_readFrom_writeField (field :: fields) next
    rw [hrecord, hfield, readFrom_comma hposition, List.reverse_reverse,
      ih _ _ _ hposition' hnext]
    simp

/-- **What is written is read back**, if every record has a field. -/
theorem read_write {records : List (List Text)} (h : ∀ record ∈ records, record ≠ []) :
    read (write records) = some records := by
  induction records with
  | nil => rfl
  | cons record records ih =>
    rw [List.forall_mem_cons] at h
    obtain ⟨field, more, rfl⟩ := List.exists_cons_of_ne_nil h.1
    have hwrite : write ((field :: more) :: records) =
        writeRecord (field :: more) ++ write records := rfl
    rw [hwrite, read, readFrom_writeRecord, ih h.2]
    rfl

end Csv

end StrategyDialect
