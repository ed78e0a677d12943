import Mathlib
import StrategyDialect.Proofs.Toml.Quoted
import StrategyDialect.Toml.Reader
import StrategyDialect.Toml.Writer

/-!
# Documents read back

A document of lines `key = value` is read as the table of its keys, if no key is given
twice (`TomlTable.ofText_flatMap_text`).

A line carries what makes it readable: its key needs no quotes, and what is written as
its value spells an item.  `TomlReader.Spells` says the latter with any text behind the
value on which the reader of a string stops, so that it can be used in the middle of a
line, of a list and of a document alike.

## Main definitions

* `TomlReader.Spells`: what is written and the item that is read from it
* `TomlLine`: a line of a document with the entry that it makes

## Main statements

* `TomlReader.spells_write`, `TomlReader.spells_writeList`: strings and lists of strings
* `TomlTable.ofText_flatMap_text`: a document of lines
-/

namespace StrategyDialect

namespace TomlReader

open TomlString (NoQuote)

variable {key s t u r rest written : Text} {item : TomlItem} {depth bound : Nat}

/-! ## Strings as values -/

/-- Every form of a string starts with a quote. -/
theorem exists_write_eq (s : Text) :
    ∃ q u, TomlString.write s = q :: u ∧ (q = '"' ∨ q = '\'') := by
  unfold TomlString.write
  cases TomlString.formOf s with
  | basic => exact ⟨'"', _, rfl, .inl rfl⟩
  | literal => exact ⟨'\'', _, rfl, .inr rfl⟩
  | basicLines => exact ⟨'"', _, rfl, .inl rfl⟩
  | literalLines => exact ⟨'\'', _, rfl, .inr rfl⟩

/-- A string is read back where a value is expected: none of the other kinds of values
begins with a quote. -/
theorem readValue_write (depth : Nat) (s : Text) (hr : NoQuote r) :
    readValue depth (TomlString.write s ++ r) = .ok (.text s, r) := by
  have hread := TomlString.read_write s hr
  obtain ⟨q, u, hwrite, hquote⟩ := exists_write_eq s
  rw [hwrite, List.cons_append] at hread ⊢
  -- Whatever the depth, a value that starts with a quote is read as a string.
  rcases hquote with rfl | rfl <;> cases depth
  all_goals
    show (TomlString.read _).map _ = _
    rw [hread]
    rfl

/-! ## Lists of strings -/

/-- Each of the texts that are put together has a character at least. -/
theorem length_le_length_flatMap {α : Type} {l : List α} {f : α → Text}
    (hf : ∀ x, ∃ c t, f x = c :: t) : l.length ≤ (l.flatMap f).length := by
  induction l with
  | nil => exact Nat.le_refl _
  | cons x l ih =>
    obtain ⟨c, t, hx⟩ := hf x
    rw [List.flatMap_cons, hx, List.cons_append, List.length_cons, List.length_cons,
      List.length_append]
    omega

/-- An item on a line of its own is not empty, since it has its indentation. -/
theorem exists_itemLine_eq (s : Text) : ∃ c t, TomlWriter.itemLine s = c :: t :=
  ⟨' ', _, rfl⟩

/-- A string is no layout, so nothing of it is skipped before it is read. -/
theorem skipLayout_write (s r : Text) :
    skipLayout false (TomlString.write s ++ r) = TomlString.write s ++ r := by
  obtain ⟨q, u, hwrite, rfl | rfl⟩ := exists_write_eq s
  · rw [hwrite]
    rfl
  · rw [hwrite]
    rfl

/-- A list ends at its closing bracket, behind any layout. -/
private theorem readItems_close {value : TomlString.Reader TomlItem}
    (h : skipLayout false t = ']' :: r) :
    readItems value (bound + 1) t = .ok ([], r) := by
  rw [readItems, h]
  rfl

/-- A string at the start of the items; what comes behind it decides whether there are
more. -/
private theorem readItems_write (h : skipLayout false t = TomlString.write s ++ rest)
    (hrest : NoQuote rest) : readItems (readValue depth) (bound + 1) t =
      match skipLayout false rest with
      | ',' :: rest =>
        (readItems (readValue depth) bound rest).map fun (items, rest) =>
          (.text s :: items, rest)
      | ']' :: rest => .ok ([.text s], rest)
      | _ => .error .illFormed := by
  have hvalue := readValue_write depth s hrest
  obtain ⟨q, u, hwrite, hquote⟩ := exists_write_eq s
  -- A string starts with a quote, so the reader does not take it for the end of the list.
  have hclose : q ≠ ']' := by
    rintro rfl
    exact absurd hquote (by decide)
  rw [readItems, h]
  rw [hwrite, List.cons_append] at hvalue ⊢
  split
  next heq => exact absurd (List.cons.inj heq).1 hclose
  next =>
    rw [hvalue]
    show (match skipLayout false rest with
      | ',' :: rest => _
      | ']' :: rest => _
      | _ => _) = _
    split <;> rfl

/-- The reader stops before a character that is no quote. -/
theorem noQuote_cons {c : Char} (h : c ≠ '"' ∧ c ≠ '\'') : NoQuote (c :: r) := by
  intro x hx
  obtain rfl : c = x := by simpa using hx
  exact h

/-- Items on lines of their own are read back. -/
theorem readItems_flatMap_itemLine {items : List Text} (hbound : items.length < bound) :
    readItems (readValue depth) bound
      ('\n' :: (items.flatMap TomlWriter.itemLine ++ ']' :: r)) =
      .ok (items.map .text, r) := by
  induction items generalizing bound with
  | nil =>
    obtain ⟨bound, rfl⟩ := Nat.exists_eq_add_of_lt hbound
    exact readItems_close rfl
  | cons s items ih =>
    obtain ⟨bound, rfl⟩ : ∃ n, bound = n + 1 := ⟨bound - 1, by omega⟩
    have hlayout : skipLayout false
        ('\n' :: ((s :: items).flatMap TomlWriter.itemLine ++ ']' :: r)) =
        TomlString.write s
          ++ (',' :: '\n' :: (items.flatMap TomlWriter.itemLine ++ ']' :: r)) := by
      rw [← skipLayout_write]
      simp [TomlWriter.itemLine, skipLayout]
    rw [readItems_write hlayout (noQuote_cons (by decide))]
    show (readItems (readValue depth) bound
      ('\n' :: (items.flatMap TomlWriter.itemLine ++ ']' :: r))).map _ = _
    rw [ih (by simpa using hbound)]
    rfl

/-- A list of strings is read back, whether it takes one line or several. -/
theorem readValue_writeList (depth : Nat) (items : List Text) (r : Text) :
    readValue (depth + 1) (TomlWriter.writeList items ++ r) =
      .ok (.array (items.map .text), r) := by
  have harray : ∀ {t items}, readItems (readValue depth) t.length t = .ok (items, r) →
      readValue (depth + 1) ('[' :: t) = .ok (.array items, r) := by
    intro t items h
    show (readItems (readValue depth) t.length t).map _ = _
    rw [h]
    rfl
  -- The writer has three forms: no item, one item on the line, and an item for each line.
  match items with
  | [] => exact harray (readItems_close rfl)
  | [s] =>
    have hitems : readItems (readValue depth) (TomlString.write s ++ ']' :: r).length
        (TomlString.write s ++ ']' :: r) = .ok ([.text s], r) := by
      have hlength : (TomlString.write s ++ ']' :: r).length =
          (TomlString.write s ++ r).length + 1 := by
        simp only [List.length_append, List.length_cons]
        omega
      rw [hlength, readItems_write (skipLayout_write s _) (noQuote_cons (by decide))]
      rfl
    simpa [TomlWriter.writeList] using harray hitems
  | s :: s' :: items =>
    have hlines := length_le_length_flatMap (l := s :: s' :: items) exists_itemLine_eq
    have hbound : (s :: s' :: items).length <
        ('\n'
          :: ((s :: s' :: items).flatMap TomlWriter.itemLine ++ ']' :: r)).length := by
      simp only [List.length_append, List.length_cons] at hlines ⊢
      omega
    simpa [TomlWriter.writeList] using harray (readItems_flatMap_itemLine hbound)

/-! ## What is written for an item -/

/-- What is read from the start of `written` is the item, and nothing of the text behind
it. -/
structure Spells (written : Text) (item : TomlItem) : Prop where
  /-- The value does not start with a blank, which would be skipped. -/
  skipSpaces_append : ∀ r, skipSpaces (written ++ r) = written ++ r
  /-- The value can be read behind an equals sign, with the end of the line behind it. -/
  readValue_append : ∀ {r}, NoQuote r →
      readValue depthLimit (written ++ r) = .ok (item, r)

/-- **A string is written as what spells it**, in a document as well as in a list. -/
theorem spells_write (s : Text) : Spells (TomlString.write s) (.text s) where
  skipSpaces_append := by
    intro r
    obtain ⟨q, u, hwrite, rfl | rfl⟩ := exists_write_eq s
    · rw [hwrite]
      rfl
    · rw [hwrite]
      rfl
  readValue_append := readValue_write depthLimit s

/-- **A list of strings is written as what spells it.** -/
theorem spells_writeList (items : List Text) :
    Spells (TomlWriter.writeList items) (.array (items.map .text)) where
  skipSpaces_append := by
    intro r
    match items with
    | [] => rfl
    | [s] => rfl
    | s :: s' :: items => rfl
  readValue_append := by
    intro r _
    exact readValue_writeList 78 items r

/-! ## Keys -/

/-- A key that is written without quotes. -/
def IsBareKey (key : Text) : Prop :=
  key ≠ [] ∧ ∀ c ∈ key, isBareKeyChar c = true

instance (key : Text) : Decidable (IsBareKey key) :=
  inferInstanceAs (Decidable (_ ∧ _))

/-- A key without quotes has a first character, which tells its line from the other
kinds of lines. -/
theorem IsBareKey.exists_eq_cons (h : IsBareKey key) :
    ∃ c k, key = c :: k ∧ isBareKeyChar c = true := by
  obtain ⟨c, k, rfl⟩ := List.exists_cons_of_ne_nil h.1
  exact ⟨c, k, rfl, h.2 c (by simp)⟩

/-- A character of a key is none that has a meaning of its own. -/
theorem ne_of_isBareKeyChar {c d : Char} (hc : isBareKeyChar c = true)
    (hd : isBareKeyChar d = false) : c ≠ d := by
  rintro rfl
  rw [hd] at hc
  cases hc

/-- A key without quotes is read up to the first character that cannot belong to it. -/
theorem readKeyPart_append (h : IsBareKey key)
    (hr : ∀ x ∈ r.head?, isBareKeyChar x = false) :
    readKeyPart (key ++ r) = .ok (key, r) := by
  have hspan : (key ++ r).span isBareKeyChar = (key, r) := by
    rw [List.span_eq_takeWhile_dropWhile, List.takeWhile_append_of_pos h.2,
      List.dropWhile_append_of_pos h.2]
    cases r with
    | nil => simp
    | cons x r => simp [hr x rfl]
  obtain ⟨c, k, rfl, hc⟩ := h.exists_eq_cons
  rw [List.cons_append] at hspan ⊢
  rw [readKeyPart, hspan]
  · exact fun _ heq => ne_of_isBareKeyChar hc (by decide) (List.cons.inj heq).1
  · exact fun _ heq => ne_of_isBareKeyChar hc (by decide) (List.cons.inj heq).1

/-- A key of one part, up to the equals sign. -/
theorem readKey_append (limit : Nat) (h : IsBareKey key) (r : Text) :
    readKey (limit + 1) (key ++ " = ".toList ++ r) =
      .ok (([], key), '=' :: ' ' :: r) := by
  have hspaces : skipSpaces (key ++ " = ".toList ++ r) =
      key ++ (' ' :: '=' :: ' ' :: r) := by
    obtain ⟨c, k, rfl, hc⟩ := h.exists_eq_cons
    have hspace : c ≠ ' ' := ne_of_isBareKeyChar hc (by decide)
    have htab : c ≠ '\t' := ne_of_isBareKeyChar hc (by decide)
    simp [skipSpaces, hspace, htab]
  have hpart : readKeyPart (key ++ (' ' :: '=' :: ' ' :: r)) =
      .ok (key, ' ' :: '=' :: ' ' :: r) := by
    refine readKeyPart_append h fun x hx => ?_
    obtain rfl : ' ' = x := by simpa using hx
    rfl
  rw [readKey, hspaces, hpart]
  rfl

/-! ## Lines -/

/-- A line `key = value` is read as the key and the item, up to the line end. -/
theorem readPair_line (h : IsBareKey key) (hspells : Spells written item) (r : Text) :
    readPair (readValue depthLimit) (TomlWriter.line key written ++ r) =
      .ok ((([], key), item), '\n' :: r) := by
  have hline : TomlWriter.line key written ++ r =
      key ++ " = ".toList ++ (written ++ '\n' :: r) := by
    simp [TomlWriter.line]
  -- The value ends at the line end, which the next statement skips.
  have hvalue : readValue depthLimit (skipSpaces (' ' :: (written ++ '\n' :: r))) =
      .ok (item, '\n' :: r) := by
    have hspaces : skipSpaces (' ' :: (written ++ '\n' :: r)) =
        skipSpaces (written ++ '\n' :: r) := rfl
    rw [hspaces, hspells.skipSpaces_append,
      hspells.readValue_append (noQuote_cons (by decide))]
  have hkey : readKey depthLimit (key ++ " = ".toList ++ (written ++ '\n' :: r)) =
      .ok (([], key), '=' :: ' ' :: (written ++ '\n' :: r)) := readKey_append 78 h _
  unfold readPair
  rw [hline, hkey]
  show (readValue depthLimit (skipSpaces (' ' :: (written ++ '\n' :: r))) >>= _) = _
  rw [hvalue]
  rfl

/-- A line adds the entry for its key to the document, if there is none yet. -/
theorem readStatement_line {document : TomlTable} (h : IsBareKey key)
    (hspells : Spells written item) (hnew : document.item? key = none) (r : Text) :
    readStatement ⟨document, []⟩ (TomlWriter.line key written ++ r) =
      .ok (⟨document ++ [(key, item)], []⟩, '\n' :: r) := by
  have hassign : document.assignBelow [] [] key item =
      .ok (document ++ [(key, item)]) := by
    simp [TomlTable.assignBelow, TomlTable.assign, TomlTable.changeAt, hnew]
  have hpair := readPair_line h hspells r
  obtain ⟨c, k, rfl, hc⟩ := h.exists_eq_cons
  have hbracket : c ≠ '[' := ne_of_isBareKeyChar hc (by decide)
  have hcons : TomlWriter.line (c :: k) written ++ r =
      c :: (k ++ " = ".toList ++ written ++ ['\n'] ++ r) := rfl
  rw [hcons] at hpair ⊢
  rw [readStatement, hpair]
  · show (document.assignBelow [] [] (c :: k) item >>= _) = _
    rw [hassign]
    rfl
  · exact fun _ heq => hbracket (List.cons.inj heq).1
  · exact fun _ heq => hbracket (List.cons.inj heq).1

end TomlReader

/-! ## Documents -/

/-- A line of a document that can be read, with the item that it gives its key. -/
structure TomlLine where
  key : Text
  written : Text
  item : TomlItem
  isBareKey : TomlReader.IsBareKey key
  spells : TomlReader.Spells written item

namespace TomlLine

/-- The line as it stands in a document. -/
def text (l : TomlLine) : Text :=
  TomlWriter.line l.key l.written

/-- The entry that the line makes. -/
def entry (l : TomlLine) : Text × TomlItem :=
  (l.key, l.item)

/-- A line starts with a character of its key. -/
theorem exists_text_eq (l : TomlLine) :
    ∃ c t, l.text = c :: t ∧ TomlReader.isBareKeyChar c = true := by
  obtain ⟨c, k, hkey, hc⟩ := l.isBareKey.exists_eq_cons
  refine ⟨c, k ++ " = ".toList ++ l.written ++ ['\n'], ?_, hc⟩
  rw [text, hkey]
  rfl

end TomlLine

namespace TomlReader

/-- Layout ends where a key begins. -/
theorem skipLayout_cons {c : Char} (hc : isBareKeyChar c = true) (t : Text) :
    skipLayout false (c :: t) = c :: t := by
  have hne : ∀ {d}, isBareKeyChar d = false → c ≠ d := fun hd => ne_of_isBareKeyChar hc hd
  rw [skipLayout, if_neg (hne (by decide)), if_neg (by decide), if_neg,
    if_neg (hne (by decide))]
  · exact fun h => h.elim (hne (by decide)) (hne (by decide))
  · exact fun _ heq _ => hne (by decide) heq

/-- One round of the reader takes in one line. -/
theorem readStatements_text {document : TomlTable} (l : TomlLine)
    (hnew : document.item? l.key = none) (bound : Nat) (r : Text) :
    readStatements ⟨document, []⟩ (bound + 1) (l.text ++ r) =
      readStatements ⟨document ++ [l.entry], []⟩ bound r := by
  have hstatement := readStatement_line l.isBareKey l.spells hnew r
  change readStatement ⟨document, []⟩ (l.text ++ r) = _ at hstatement
  obtain ⟨c, t, htext, hc⟩ := l.exists_text_eq
  rw [htext, List.cons_append] at hstatement ⊢
  rw [readStatements.eq_def, skipLayout_cons hc]
  dsimp only
  rw [hstatement]
  rfl

/-- A key that does not occur in a table has no item there. -/
theorem item?_eq_none {document : TomlTable} {key : Text}
    (h : key ∉ document.map Prod.fst) : document.item? key = none := by
  rw [TomlTable.item?, List.lookup_eq_none_iff]
  intro entry hentry
  simpa using fun heq : key = entry.1 => h (heq ▸ List.mem_map_of_mem hentry)

/-- Lines with new keys are taken in one after the other. -/
theorem readStatements_flatMap_text {document : TomlTable}
    {ls : List TomlLine} {bound : Nat}
    (hkeys : ((document ++ ls.map TomlLine.entry).map Prod.fst).Nodup)
    (hbound : ls.length ≤ bound) :
    readStatements ⟨document, []⟩ bound (ls.flatMap TomlLine.text) =
      .ok (document ++ ls.map TomlLine.entry) := by
  induction ls generalizing document bound with
  | nil =>
    unfold readStatements
    simp [skipLayout]
  | cons l ls ih =>
    obtain ⟨bound, rfl⟩ : ∃ n, bound = n + 1 := ⟨bound - 1, by simp at hbound; omega⟩
    -- The key has not been seen before, as the keys differ.
    have hnew : document.item? l.key = none := by
      refine item?_eq_none fun hmem => ?_
      rw [List.map_append, List.nodup_append] at hkeys
      exact hkeys.2.2 l.key hmem l.key (by simp [TomlLine.entry]) rfl
    have hassoc : document ++ (l :: ls).map TomlLine.entry =
        (document ++ [l.entry]) ++ ls.map TomlLine.entry := by
      simp
    rw [hassoc] at hkeys ⊢
    rw [List.flatMap_cons, readStatements_text l hnew, ih hkeys (by simpa using hbound)]

end TomlReader

/-- **A document of lines is read as the table of its keys**, if no key is given twice. -/
theorem TomlTable.ofText_flatMap_text {ls : List TomlLine}
    (hkeys : (ls.map TomlLine.key).Nodup) :
    TomlTable.ofText (ls.flatMap TomlLine.text) = .ok (ls.map TomlLine.entry) := by
  have hstart : TomlReader.afterByteOrderMark (ls.flatMap TomlLine.text) =
      ls.flatMap TomlLine.text := by
    cases ls with
    | nil => rfl
    | cons l ls =>
      obtain ⟨c, t, htext, hc⟩ := l.exists_text_eq
      rw [List.flatMap_cons, htext, List.cons_append, TomlReader.afterByteOrderMark]
      exact fun _ heq => TomlReader.ne_of_isBareKeyChar hc (by decide)
        (List.cons.inj heq).1
  -- Every line has a character at least, so the length of the text bounds the statements.
  have hbound : ls.length ≤ (ls.flatMap TomlLine.text).length := by
    refine TomlReader.length_le_length_flatMap fun l => ?_
    obtain ⟨c, t, htext, -⟩ := l.exists_text_eq
    exact ⟨c, t, htext⟩
  have hentries : (ls.map TomlLine.entry).map Prod.fst = ls.map TomlLine.key := by
    rw [List.map_map]
    rfl
  rw [TomlTable.ofText, hstart]
  exact TomlReader.readStatements_flatMap_text (by rwa [List.nil_append, hentries]) hbound

end StrategyDialect
