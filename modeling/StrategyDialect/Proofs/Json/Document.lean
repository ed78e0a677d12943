import StrategyDialect.Json.Reader
import StrategyDialect.Json.Value
import StrategyDialect.Proofs.Json.Quoted

/-!
# JSON values read back

What the writer puts on the page is read back by the reader that is asked for it, with
the text behind it left over.  Between two values the page has nothing but blanks, a
comma or a colon, and a reader skips blanks before it looks; so all that is needed of a
value is that it begins with something else (`JsonValue.exists_write_eq_cons`).

A list is read in rounds, each of which is allowed only if a bound on them is left.  The
bound is the length of the text, and every item has at least its comma there
(`JsonValue.length_le_writeItems`).

## Main statements

* `JsonReader.readText_write`: a string is read back
* `JsonReader.readItems_write`: the items of a list are read back, one round for each
* `JsonReader.readList_write`: a list is read back if its items are
-/

namespace StrategyDialect

open JsonReader

/-! ## Blanks -/

namespace JsonReader

/-- A character that no reader skips. -/
def IsSolid (c : Char) : Prop :=
  (c = ' ' || c = '\n' || c = '\r' || c = '\t') = false

instance (c : Char) : Decidable (IsSolid c) :=
  inferInstanceAs (Decidable (_ = _))

/-- Skipping blanks stops at the first character of a value.  Every reader of a value
begins in this way, so the lemma is the first step of each of the read-back lemmas
below. -/
theorem IsSolid.skipBlanks_eq {c : Char} (h : IsSolid c) (t : Text) :
    skipBlanks (c :: t) = c :: t := by
  rw [skipBlanks, List.dropWhile_cons_of_neg]
  rw [h]
  exact Bool.false_ne_true

/-- The blank behind a colon is skipped. -/
@[simp] theorem skipBlanks_space (t : Text) : skipBlanks (' ' :: t) = skipBlanks t :=
  rfl

/-- The line break before an item is skipped, however far the item is indented. -/
@[simp] theorem skipBlanks_lineStart (level : Nat) (t : Text) :
    skipBlanks (JsonValue.lineStart level ++ t) = skipBlanks t := by
  have hblank : ∀ n, skipBlanks (List.replicate n ' ' ++ t) = skipBlanks t := by
    intro n
    induction n with
    | zero => rfl
    | succ n ih => rw [List.replicate_succ, List.cons_append, skipBlanks_space, ih]
  rw [JsonValue.lineStart, List.cons_append]
  exact hblank _

end JsonReader

namespace JsonValue

/-- **A value on the page** begins with something that no reader skips or takes for the
end of a list. -/
theorem exists_write_eq_cons (level : Nat) (j : JsonValue) :
    ∃ c t, write level j = c :: t ∧ IsSolid c ∧ c ≠ ']' := by
  match j with
  | null => exact ⟨'n', _, rfl, by decide, by decide⟩
  | bool true => exact ⟨'t', _, rfl, by decide, by decide⟩
  | bool false => exact ⟨'f', _, rfl, by decide, by decide⟩
  | text t => exact ⟨'"', _, rfl, by decide, by decide⟩
  | list [] => exact ⟨'[', _, rfl, by decide, by decide⟩
  | list (item :: items) => exact ⟨'[', _, rfl, by decide, by decide⟩
  | object [] => exact ⟨'{', _, rfl, by decide, by decide⟩
  | object (field :: fields) => exact ⟨'{', _, rfl, by decide, by decide⟩

/-- A list on the page has at least one character for each item.  The reader is given as
many rounds as the page has characters, which is therefore enough. -/
theorem length_le_writeItems (level : Nat) (items : List JsonValue) :
    items.length ≤ (writeItems level items).length := by
  induction items with
  | nil => simp
  | cons item items ih =>
    simp only [writeItems, List.length_cons, List.length_append, List.length_nil]
    omega

end JsonValue

/-! ## Strings and lists -/

namespace JsonReader

open JsonValue

variable {α : Type} {item : JsonReader α} {toJson : α → JsonValue}
  {as : List α} {level : Nat}

/-- **A string is read back**, with the text behind it left over. -/
theorem readText_write (s rest : Text) :
    readText (JsonString.write s ++ rest) = .ok (s, rest) := by
  rw [JsonString.write_append, readText, IsSolid.skipBlanks_eq (by decide)]
  exact JsonString.read_escaped s rest

/-- A reader of strings skips blanks, as it has to behind a colon. -/
theorem readText_space (t : Text) : readText (' ' :: t) = readText t :=
  rfl

/-- A reader that would take `null` as well reads a string as a string that is there. -/
theorem readText?_write (s rest : Text) :
    readText? (JsonString.write s ++ rest) = .ok (some s, rest) := by
  have hread := readText_write s rest
  rw [JsonString.write_append] at hread ⊢
  rw [readText?, IsSolid.skipBlanks_eq (by decide)]
  show (readText _).map _ = _
  rw [hread]
  rfl

/-- This reader skips blanks as well. -/
theorem readText?_space (t : Text) : readText? (' ' :: t) = readText? t :=
  rfl

/-- Before a closing bracket no item is found, whether or not one has been read before
it. -/
theorem nextItem?_end (isFirst : Bool) (level : Nat) (rest : Text) :
    nextItem? isFirst (lineStart level ++ ']' :: rest) = .ok none := by
  rw [nextItem?, skipBlanks_lineStart, IsSolid.skipBlanks_eq (by decide)]
  rfl

/-- The first item stands right behind the opening bracket and the line break.  It is
found because it begins with something solid. -/
theorem nextItem?_first (j : JsonValue) (rest : Text) :
    nextItem? true (lineStart level ++ (write level j ++ rest)) =
      .ok (some (write level j ++ rest)) := by
  obtain ⟨c, t, hwrite, hsolid, hbracket⟩ := exists_write_eq_cons level j
  rw [nextItem?, skipBlanks_lineStart, hwrite, List.cons_append, hsolid.skipBlanks_eq]
  split
  next h => cases h
  next h => exact absurd (List.cons.inj h).1 hbracket
  next h =>
    obtain ⟨rfl, rfl⟩ := List.cons.inj h
    rfl

/-- A further item has a comma before it, and a reader that has read an item insists on
it. -/
theorem nextItem?_comma (j : JsonValue) (rest : Text) :
    nextItem? false (',' :: (lineStart level ++ (write level j ++ rest))) =
      .ok (some (write level j ++ rest)) := by
  obtain ⟨c, t, hwrite, hsolid, hbracket⟩ := exists_write_eq_cons level j
  rw [nextItem?, IsSolid.skipBlanks_eq (by decide)]
  split
  next h => cases h
  next h => exact absurd (List.cons.inj h).1 (by decide)
  next h =>
    obtain ⟨rfl, rfl⟩ := List.cons.inj h
    rw [if_neg Bool.false_ne_true, if_pos rfl, skipBlanks_lineStart, hwrite,
      List.cons_append, hsolid.skipBlanks_eq]
    split
    next h => cases h
    next h => exact absurd (List.cons.inj h).1 hbracket
    next => rfl

/-- One round of reading a list: an item is found and read, and the others are left to
the rounds that remain. -/
private theorem readItems_item {isFirst : Bool} {bound : Nat}
    {t t' rest rest' : Text} {a : α} (hnext : nextItem? isFirst t = .ok (some t'))
    (hitem : item t' = .ok (a, rest))
    (hrest : readItems item false bound rest = .ok (as, rest')) :
    readItems item isFirst (bound + 1) t = .ok (a :: as, rest') := by
  rw [readItems, hnext]
  dsimp only [bind, Except.bind]
  rw [hitem]
  dsimp only
  rw [hrest]
  rfl

/-- The last round finds the closing bracket. -/
private theorem readItems_end {isFirst : Bool} {bound : Nat} (level : Nat) (rest : Text) :
    readItems item isFirst (bound + 1) (lineStart level ++ ']' :: rest) =
      .ok ([], rest) := by
  rw [readItems, nextItem?_end]
  dsimp only [bind, Except.bind]
  rw [readListEnd, skipBlanks_lineStart, IsSolid.skipBlanks_eq (by decide)]
  rfl

/-- **The items of a list** after the first are read back, one round for each. -/
theorem readItems_write {bound : Nat}
    (h : ∀ a ∈ as, ∀ rest, item (write level (toJson a) ++ rest) = .ok (a, rest))
    (hbound : as.length < bound) (outer : Nat) (rest : Text) :
    readItems item false bound
      (writeItems level (as.map toJson) ++ (lineStart outer ++ ']' :: rest)) =
      .ok (as, rest) := by
  obtain ⟨bound, rfl⟩ : ∃ b, bound = b + 1 := ⟨bound - 1, by omega⟩
  induction as generalizing bound with
  | nil => exact readItems_end outer rest
  | cons a as ih =>
    rw [List.length_cons] at hbound
    obtain ⟨bound, rfl⟩ : ∃ b, bound = b + 1 := ⟨bound - 1, by omega⟩
    rw [List.map_cons, writeItems]
    simp only [List.append_assoc, List.singleton_append]
    exact readItems_item (nextItem?_comma (toJson a) _) (h a (by simp) _)
      (ih (fun b hb => h b (by simp [hb])) bound (by omega))

/-- **A list is read back** if its items are. -/
theorem readList_write
    (h : ∀ a ∈ as, ∀ rest, item (write (level + 1) (toJson a) ++ rest) = .ok (a, rest))
    (rest : Text) :
    readList item (write level (.list (as.map toJson)) ++ rest) = .ok (as, rest) := by
  cases as with
  | nil =>
    show readItems item true _ (']' :: rest) = _
    rw [readItems, nextItem?, IsSolid.skipBlanks_eq (by decide)]
    dsimp only [bind, Except.bind]
    rw [readListEnd, IsSolid.skipBlanks_eq (by decide)]
    rfl
  | cons a as =>
    have hlength := length_le_writeItems (level + 1) (as.map toJson)
    rw [List.length_map] at hlength
    rw [List.map_cons, write]
    simp only [List.append_assoc, List.cons_append, List.nil_append]
    rw [readList, IsSolid.skipBlanks_eq (by decide)]
    refine readItems_item (nextItem?_first (toJson a) _) (h a (by simp) _) ?_
    refine readItems_write (fun b hb => h b (by simp [hb])) ?_ level rest
    simp only [List.length_append, List.length_cons]
    omega

/-! ## Objects -/

/-- A key is read back from behind its opening quote, like the string that it is. -/
theorem readKey_escaped (key rest : Text) :
    readKey (key.flatMap JsonString.escapeChar ++ '"' :: rest) =
      .ok (some key, rest) := by
  rw [readKey, JsonString.read_escaped]
  rfl

/-- Before a key there is a line break, and then the quote that opens it. -/
theorem skipBlanks_key (key rest : Text) :
    skipBlanks (lineStart level ++ (JsonString.write key ++ rest)) =
      '"' :: (key.flatMap JsonString.escapeChar ++ '"' :: rest) := by
  rw [skipBlanks_lineStart, JsonString.write_append, IsSolid.skipBlanks_eq (by decide)]

/-- The first key of an object is read back. -/
theorem nextKey?_first (key rest : Text) :
    nextKey? true (lineStart level ++ (JsonString.write key ++ rest)) =
      .ok (some key, rest) := by
  rw [nextKey?.eq_def, skipBlanks_key]
  exact readKey_escaped key rest

/-- A further key is read back from behind its comma. -/
theorem nextKey?_comma (key rest : Text) :
    nextKey? false (',' :: (lineStart level ++ (JsonString.write key ++ rest))) =
      .ok (some key, rest) := by
  rw [nextKey?.eq_def, IsSolid.skipBlanks_eq (by decide)]
  simp only [skipBlanks_key, readKey_escaped]

/-- Before a closing brace no key is found. -/
theorem nextKey?_end (isFirst : Bool) (rest : Text) :
    nextKey? isFirst (lineStart level ++ '}' :: rest) = .ok (none, rest) := by
  rw [nextKey?.eq_def, skipBlanks_lineStart, IsSolid.skipBlanks_eq (by decide)]
  rfl

/-- Between key and value there is a colon, and the blank behind it is left to the
reader of the value. -/
theorem readColon_colon (t : Text) : readColon (": ".toList ++ t) = .ok (' ' :: t) := by
  show readColon (':' :: ' ' :: t) = _
  rw [readColon, IsSolid.skipBlanks_eq (by decide)]
  rfl

end JsonReader

end StrategyDialect
