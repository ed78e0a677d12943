import StrategyDialect.Proofs.Json.Document

/-!
# Any JSON value read back

The readers of the library are each made for one kind of value.  What a page says, on
the other hand, is a matter of the page alone: this module reads a JSON value of any
kind from it, and every value is read back from its own page
(`JsonValue.ofPage?_pretty`).  A page therefore never says two things, whatever texts it
has to carry in its strings.

## The depth of a value

Lists and objects are nested, and reading goes down one level at a time under a bound,
as skipping a value does.  The length of the page is bound enough, since a value is
longer on the page than any of its parts.  So the induction is on the bound, and the
value is not followed at all: each round takes one constructor off, and the readers of
lists and objects ask of their parts no more than the round below gives.

## What an object says

An object is asked for all of its fields at once (`JsonValue.values?`): it has to have
the keys that are expected, in this order, and no others.  A reader that is built from
this admits no field that nobody asked for and none that is missing, so that reading a
document back pins down the document.

## Main definitions

* `JsonReader.readFields`: the fields of an object
* `JsonReader.readValue`: a value of any kind
* `JsonValue.ofPage?`, `JsonValue.document?`: the value that a page shows, and what it
  says
* `JsonValue.values?`: the values of an object with the keys that are expected

## Main statements

* `JsonReader.readFields_write`: the fields of an object are read back if their values
  are
* `JsonReader.readValue_write`: a value is read back, with the text behind it left over
* `JsonValue.ofPage?_pretty`: a page shows the value that it was written for
-/

namespace StrategyDialect

open JsonReader JsonValue

/-! ## Reading -/

namespace JsonReader

/-- The fields of an object and its closing brace.  Each round reads at least one of the
`bound` characters. -/
def readFields {α : Type} (value : JsonReader α) (isFirst : Bool) :
    (bound : Nat) → JsonReader (List (Text × α))
  | 0, _ => .error .illFormed
  | bound + 1, t => do
    match ← nextKey? isFirst t with
    | (none, rest) => return ([], rest)
    | (some key, rest) =>
      let (a, rest) ← value (← readColon rest)
      let (fields, rest) ← readFields value false bound rest
      return ((key, a) :: fields, rest)

/-- A value in which lists and objects are nested less than `bound` deep.  The values of
the library have no numbers, so a number is refused. -/
def readNested : (bound : Nat) → JsonReader JsonValue
  | 0, _ => .error .illFormed
  | bound + 1, t =>
    match skipBlanks t with
    | [] => .error .cutShort
    | 'n' :: t => (readWord "ull".toList t).map fun rest => (.null, rest)
    | 't' :: t => (readWord "rue".toList t).map fun rest => (.bool true, rest)
    | 'f' :: t => (readWord "alse".toList t).map fun rest => (.bool false, rest)
    | '"' :: t => (JsonString.read t).map fun (s, rest) => (.text s, rest)
    | '[' :: t =>
      (readItems (readNested bound) true (t.length + 1) t).map fun (items, rest) =>
        (.list items, rest)
    | '{' :: t =>
      (readFields (readNested bound) true (t.length + 1) t).map fun (fields, rest) =>
        (.object fields, rest)
    | t => .error (wrongType t)

/-- A value of any kind. -/
def readValue : JsonReader JsonValue := fun t =>
  readNested (t.length + 1) t

end JsonReader

namespace JsonValue

/-- The value that a page shows, if it is JSON from one end to the other. -/
def ofPage? (page : Text) : Option JsonValue :=
  (readWhole readValue page).toOption

/-- What a page says to a reader of one kind of values. -/
def document? {α : Type} (value : JsonValue → Option α) (page : Text) : Option α :=
  (ofPage? page).bind value

/-! ### What a value says -/

/-- The text that a value is. -/
def text? : JsonValue → Option Text
  | text t => some t
  | _ => none

/-- The truth value that a value is. -/
def bool? : JsonValue → Option Bool
  | bool b => some b
  | _ => none

/-- What a value says of something that may be absent: `null` says that it is. -/
def orNull? {α : Type} (value : JsonValue → Option α) : JsonValue → Option (Option α)
  | null => some none
  | j => (value j).map some

/-- What the items of a list say, if all of them say something. -/
def items? {α : Type} (item : JsonValue → Option α) : JsonValue → Option (List α)
  | list items => items.mapM item
  | _ => none

/-- The values of an object that has the given keys, in this order, and no others. -/
def values? (keys : List Text) : JsonValue → Option (List JsonValue)
  | object fields => if fields.map (·.1) = keys then some (fields.map (·.2)) else none
  | _ => none

end JsonValue

/-! ## Reading back -/

namespace JsonValue

/-- An item takes up no more of the page than the list that it is in. -/
theorem length_write_le_writeItems {level : Nat} {item : JsonValue}
    {items : List JsonValue} (h : item ∈ items) :
    (write level item).length ≤ (writeItems level items).length := by
  induction items with
  | nil => cases h
  | cons other items ih =>
    simp only [writeItems, List.length_append]
    rcases List.mem_cons.mp h with rfl | h
    · omega
    · have := ih h
      omega

/-- **An item is shorter on the page than its list**, which has brackets as well.  This
is what makes the length of a page a bound on the depth of what it shows. -/
theorem length_write_lt_of_mem_list {level : Nat} {item : JsonValue}
    {items : List JsonValue} (h : item ∈ items) :
    (write (level + 1) item).length < (write level (.list items)).length := by
  cases items with
  | nil => cases h
  | cons first items =>
    simp only [write, List.length_append, List.length_cons, List.length_nil]
    rcases List.mem_cons.mp h with rfl | h
    · omega
    · have hle : (write (level + 1) item).length ≤
          (writeItems (level + 1) items).length :=
        length_write_le_writeItems h
      omega

/-- The value of a field takes up no more of the page than the object, its key and the
other fields included. -/
theorem length_write_le_writeFields {level : Nat} {field : Text × JsonValue}
    {fields : List (Text × JsonValue)} (h : field ∈ fields) :
    (write level field.2).length ≤ (writeFields level fields).length := by
  induction fields with
  | nil => cases h
  | cons other fields ih =>
    simp only [writeFields, List.length_append]
    rcases List.mem_cons.mp h with rfl | h
    · omega
    · have := ih h
      omega

/-- **The value of a field is shorter on the page than its object**, as for lists. -/
theorem length_write_lt_of_mem_object {level : Nat} {field : Text × JsonValue}
    {fields : List (Text × JsonValue)} (h : field ∈ fields) :
    (write (level + 1) field.2).length < (write level (.object fields)).length := by
  cases fields with
  | nil => cases h
  | cons first fields =>
    simp only [write, List.length_append, List.length_cons, List.length_nil]
    rcases List.mem_cons.mp h with rfl | h
    · omega
    · have hle : (write (level + 1) field.2).length ≤
          (writeFields (level + 1) fields).length :=
        length_write_le_writeFields h
      omega

/-- There are at least as many characters as fields, so that the length of the page is
enough of a bound for the rounds in which they are read. -/
theorem length_le_writeFields (level : Nat) (fields : List (Text × JsonValue)) :
    fields.length ≤ (writeFields level fields).length := by
  induction fields with
  | nil => simp
  | cons field fields ih =>
    simp only [writeFields, List.length_cons, List.length_append, List.length_nil]
    omega

end JsonValue

namespace JsonReader

variable {α : Type} {value : JsonReader α} {toJson : α → JsonValue}
  {fields : List (Text × α)} {level bound : Nat} {isFirst : Bool}
  {t t' rest rest' key : Text}

/-- One round of reading the fields of an object, once its key has been found. -/
private theorem readFields_field {a : α}
    (hkey : nextKey? isFirst t = .ok (some key, ": ".toList ++ t'))
    (hvalue : value (' ' :: t') = .ok (a, rest))
    (hrest : readFields value false bound rest = .ok (fields, rest')) :
    readFields value isFirst (bound + 1) t = .ok ((key, a) :: fields, rest') := by
  rw [readFields, hkey]
  dsimp only [bind, Except.bind]
  rw [readColon_colon]
  dsimp only
  rw [hvalue]
  dsimp only
  rw [hrest]
  rfl

/-- The last round, which finds the end of the object. -/
private theorem readFields_end (isFirst : Bool) (level : Nat) (rest : Text) :
    readFields value isFirst (bound + 1) (lineStart level ++ '}' :: rest) =
      .ok ([], rest) := by
  rw [readFields, nextKey?_end]
  rfl

/-- The fields after the first are read back, one round for each.  The values are read
from behind the blank that follows the colon. -/
private theorem readFields_writeFields
    (h : ∀ field ∈ fields, ∀ rest,
      value (' ' :: (write level (toJson field.2) ++ rest)) = .ok (field.2, rest))
    (hbound : fields.length < bound) (outer : Nat) (rest : Text) :
    readFields value false bound
        (writeFields level (fields.map fun field => (field.1, toJson field.2)) ++
          (lineStart outer ++ '}' :: rest)) = .ok (fields, rest) := by
  obtain ⟨bound, rfl⟩ : ∃ b, bound = b + 1 := ⟨bound - 1, by omega⟩
  induction fields generalizing bound with
  | nil => exact readFields_end false outer rest
  | cons field fields ih =>
    rw [List.length_cons] at hbound
    obtain ⟨bound, rfl⟩ : ∃ b, bound = b + 1 := ⟨bound - 1, by omega⟩
    rw [List.map_cons, writeFields]
    simp only [List.append_assoc, List.singleton_append]
    exact readFields_field (nextKey?_comma field.1 _) (h field (by simp) _)
      (ih (fun other hother => h other (by simp [hother])) bound (by omega))

/-- **The fields of an object are read back** if their values are, from behind the
opening brace to behind the closing one. -/
theorem readFields_write
    (h : ∀ field ∈ fields, ∀ rest,
      value (' ' :: (write (level + 1) (toJson field.2) ++ rest)) = .ok (field.2, rest))
    (rest : Text) :
    ∃ t, write level (.object (fields.map fun field => (field.1, toJson field.2)))
      ++ rest = '{' :: t ∧
      readFields value true (t.length + 1) t = .ok (fields, rest) := by
  cases fields with
  | nil => exact ⟨'}' :: rest, rfl, rfl⟩
  | cons field fields =>
    rw [List.map_cons, write]
    simp only [List.append_assoc, List.cons_append, List.nil_append]
    refine ⟨_, rfl, readFields_field (nextKey?_first field.1 _) (h field (by simp) _) ?_⟩
    refine readFields_writeFields
      (fun other hother => h other (by simp [hother])) ?_ level rest
    have hlength := length_le_writeFields (level + 1)
      (fields.map fun field => (field.1, toJson field.2))
    rw [List.length_map] at hlength
    simp only [List.length_append, List.length_cons]
    omega

/-- The items of a list from behind the opening bracket, as for objects. -/
private theorem exists_readItems_write {item : JsonReader JsonValue}
    {items : List JsonValue}
    (h : ∀ j ∈ items, ∀ rest, item (write (level + 1) j ++ rest) = .ok (j, rest))
    (rest : Text) : ∃ t, write level (.list items) ++ rest = '[' :: t ∧
      readItems item true (t.length + 1) t = .ok (items, rest) := by
  obtain ⟨t, ht⟩ : ∃ t, write level (.list items) ++ rest = '[' :: t := by
    cases items <;> exact ⟨_, rfl⟩
  have hread : readList item (write level (.list (items.map id)) ++ rest) =
      .ok (items, rest) :=
    readList_write h rest
  rw [List.map_id, ht, readList, IsSolid.skipBlanks_eq (by decide)] at hread
  exact ⟨t, ht, hread⟩

/-- A reader of values skips the blank that follows a colon. -/
theorem readNested_space (bound : Nat) (t : Text) :
    readNested bound (' ' :: t) = readNested bound t := by
  cases bound <;> rfl

/-- **A value is read back** under any bound that its page does not exceed, with the
text behind it left over. -/
theorem readNested_write {j : JsonValue} (h : (write level j).length ≤ bound)
    (rest : Text) : readNested bound (write level j ++ rest) = .ok (j, rest) := by
  -- The parts of a list or an object are shorter, so the induction is on the bound.
  induction bound generalizing level j rest with
  | zero =>
    obtain ⟨c, t, hwrite, -, -⟩ := exists_write_eq_cons level j
    rw [hwrite] at h
    cases h
  | succ bound ih =>
    match j with
    | .null => rfl
    | .bool true => rfl
    | .bool false => rfl
    | .text t =>
      rw [write, JsonString.write_append, readNested, IsSolid.skipBlanks_eq (by decide)]
      show (JsonString.read _).map _ = _
      rw [JsonString.read_escaped]
      rfl
    | .list items =>
      have hitems : ∀ item ∈ items, ∀ rest,
          readNested bound (write (level + 1) item ++ rest) = .ok (item, rest) := by
        intro item hitem rest
        have hlt : (write (level + 1) item).length < (write level (.list items)).length :=
          length_write_lt_of_mem_list hitem
        exact ih (by omega) rest
      obtain ⟨t, ht, hread⟩ := exists_readItems_write hitems rest
      rw [ht, readNested, IsSolid.skipBlanks_eq (by decide)]
      show (readItems _ _ _ _).map _ = _
      rw [hread]
      rfl
    | .object fields =>
      have hfields : ∀ field ∈ fields, ∀ rest,
          readNested bound (' ' :: (write (level + 1) (id field.2) ++ rest)) =
            .ok (field.2, rest) := by
        intro field hfield rest
        have hlt : (write (level + 1) field.2).length <
            (write level (.object fields)).length :=
          length_write_lt_of_mem_object hfield
        rw [readNested_space]
        exact ih (by simp only [id]; omega) rest
      obtain ⟨t, ht, hread⟩ := readFields_write hfields rest
      simp only [id, List.map_id'] at ht
      rw [ht, readNested, IsSolid.skipBlanks_eq (by decide)]
      show (readFields _ _ _ _).map _ = _
      rw [hread]
      rfl

/-- **A value is read back**, with the text behind it left over. -/
theorem readValue_write (level : Nat) (j : JsonValue) (rest : Text) :
    readValue (write level j ++ rest) = .ok (j, rest) := by
  refine readNested_write ?_ rest
  rw [List.length_append]
  omega

end JsonReader

namespace JsonValue

/-- **A page shows the value that it was written for**, also if blanks follow it. -/
theorem ofPage?_pretty (j : JsonValue) {rest : Text} (hrest : skipBlanks rest = []) :
    ofPage? (j.pretty ++ rest) = some j := by
  rw [ofPage?, readWhole, pretty, readValue_write]
  dsimp only [bind, Except.bind]
  rw [if_pos hrest]
  rfl

variable {α : Type} {item : JsonValue → Option α} {toJson : α → JsonValue}

/-- **A document is read back** from its page if it is read back from its value. -/
theorem document?_pretty {j : JsonValue} {a : α} (h : item j = some a) {rest : Text}
    (hrest : skipBlanks rest = []) : document? item (j.pretty ++ rest) = some a := by
  rw [document?, ofPage?_pretty j hrest, Option.bind_some, h]

/-! ## What documents are built from -/

/-- The items of a list are read back if each of them is. -/
theorem items?_list {as : List α} (h : ∀ a, item (toJson a) = some a) :
    items? item (.list (as.map toJson)) = some as := by
  induction as with
  | nil => rfl
  | cons a as ih =>
    rw [items?] at ih ⊢
    rw [List.map_cons, List.mapM_cons, h, ih]
    rfl

/-- A list of texts says these texts. -/
@[simp] theorem items?_texts (ts : List Text) : items? text? (texts ts) = some ts := by
  have hread : items? text? (.list (ts.map text)) = some ts := items?_list fun _ => rfl
  exact hread

/-- A value that may be absent is read back if it is not `null` itself. -/
theorem orNull?_elim (hnull : ∀ a, toJson a ≠ null) (h : ∀ a, item (toJson a) = some a)
    (a? : Option α) : orNull? item (a?.elim null toJson) = some a? := by
  cases a? with
  | none => rfl
  | some a =>
    rw [Option.elim_some, orNull?, h]
    · rfl
    · exact hnull a

/-- A text that may be missing is said by `null` or by itself, and the two are told
apart. -/
@[simp] theorem orNull?_ofText? (t : Option Text) :
    orNull? text? (ofText? t) = some t := by
  cases t <;> rfl

/-- An object with the keys that are asked for says the values of its fields. -/
theorem values?_object {keys : List Text} {fields : List (Text × JsonValue)}
    (h : fields.map (·.1) = keys) :
    values? keys (.object fields) = some (fields.map (·.2)) := by
  rw [values?, if_pos h]

end JsonValue

end StrategyDialect
