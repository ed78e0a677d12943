import StrategyDialect.Proofs.Json.Document
import StrategyDialect.Strategy.Parameter

/-!
# Parameters read back

A parameter is written as an object, of two fields or three: a default that is not there
is left out.  Whoever reads the object keeps the fields that have been read, each of
them at most once, and looks at the end whether the required ones are there
(`Parameter.Fields`).  So a field is read back if it has not been read before, and an
absent default stays absent because no field is read for it; an empty default is a field
like any other.

## Main statements

* `Parameter.read_write`: a parameter is read back, with the text behind it left over
* `Parameter.listOfJson_pretty`: a list of parameters is read back from its page
-/

namespace StrategyDialect

namespace Parameter

open JsonReader JsonValue

variable {fs fs' : Fields} {key value t t' rest : Text} {isFirst : Bool}
  {level bound : Nat} {p : Parameter}

namespace Fields

/-! ## One field -/

/-- The name is read back, if none has been read before.  A second one would be
refused. -/
theorem readValue_name (h : fs.name = none) (value rest : Text) :
    fs.readValue "name".toList (": ".toList ++ (JsonString.write value ++ rest)) =
      .ok ({ fs with name := some value }, rest) := by
  rw [readValue, if_pos rfl, h, readColon_colon]
  dsimp only [Option.isSome, bind, Except.bind, pure, Except.pure]
  rw [if_neg Bool.false_ne_true, readText_space, readText_write]

/-- The declared type is read back, if none has been read before. -/
theorem readValue_declaredType (h : fs.declaredType = none) (value rest : Text) :
    fs.readValue "declaredType".toList (": ".toList ++ (JsonString.write value ++ rest)) =
      .ok ({ fs with declaredType := some value }, rest) := by
  rw [readValue, if_neg (by decide), if_pos rfl, h, readColon_colon]
  dsimp only [Option.isSome, bind, Except.bind, pure, Except.pure]
  rw [if_neg Bool.false_ne_true, readText_space, readText_write]

/-- A default is read back, if none has been read before.  On the page it is a string
and never `null`: what is absent has no field. -/
theorem readValue_defaultValue (h : fs.defaultValue = none) (value rest : Text) :
    fs.readValue "defaultValue".toList (": ".toList ++ (JsonString.write value ++ rest)) =
      .ok ({ fs with defaultValue := some (some value) }, rest) := by
  rw [readValue, if_neg (by decide), if_neg (by decide), if_pos rfl, h, readColon_colon]
  dsimp only [Option.isSome, bind, Except.bind, pure, Except.pure]
  rw [if_neg Bool.false_ne_true, readText?_space, readText?_write]

/-! ## All fields -/

/-- One round of reading an object: a field is read, and the record of what has been
read goes on to the next round with it. -/
theorem readAll_field (hkey : nextKey? isFirst t = .ok (some key, t'))
    (hvalue : fs.readValue key t' = .ok (fs', rest)) :
    fs.readAll isFirst (bound + 1) t = fs'.readAll false bound rest := by
  rw [readAll, hkey]
  dsimp only [bind, Except.bind]
  rw [hvalue]

/-- The last round finds the closing brace, and what has been read has to be enough for
a parameter. -/
theorem readAll_end (hkey : nextKey? isFirst t = .ok (none, rest))
    (hfinish : fs.finish = .ok p) : fs.readAll isFirst (bound + 1) t = .ok (p, rest) := by
  rw [readAll, hkey]
  dsimp only [bind, Except.bind]
  rw [hfinish]
  rfl

/-- The fields of a parameter, and nothing that is left to be read but the end of the
object. -/
theorem readAll_defaultValue (name declaredType : Text) (defaultValue : Option Text)
    (rest : Text) :
    (Fields.mk (some name) (some declaredType) none).readAll false (bound + 2)
        (writeFields (level + 1)
          (defaultValue.toList.map fun value => ("defaultValue".toList, .text value))
          ++ (lineStart level ++ '}' :: rest)) =
      .ok (⟨name, declaredType, defaultValue⟩, rest) := by
  cases defaultValue with
  | none => exact readAll_end (nextKey?_end false rest) rfl
  | some value =>
    simp only [Option.toList, List.map_cons, List.map_nil, writeFields, write,
      List.append_assoc, List.cons_append, List.nil_append]
    rw [readAll_field (nextKey?_comma _ _) (readValue_defaultValue rfl value _)]
    exact readAll_end (nextKey?_end false rest) rfl

end Fields

/-- **A parameter is read back**, with the text behind it left over. -/
theorem read_write (level : Nat) (p : Parameter) (rest : Text) :
    read (write level p.toJson ++ rest) = .ok (p, rest) := by
  obtain ⟨name, declaredType, defaultValue⟩ := p
  simp only [toJson, List.cons_append, List.nil_append, write, writeFields,
    List.append_assoc]
  rw [read, IsSolid.skipBlanks_eq (by decide)]
  show Fields.unread.readAll true _ _ = _
  generalize hbound : List.length _ + 1 = bound
  -- The keys alone have enough characters for a round each.
  obtain ⟨bound, rfl⟩ : ∃ n, bound = n + 4 := by
    have hkey : (JsonString.write "declaredType".toList).length = 14 := rfl
    simp only [List.length_append, List.length_cons, hkey] at hbound
    exact ⟨bound - 4, by omega⟩
  rw [Fields.readAll_field (nextKey?_first _ _) (Fields.readValue_name rfl name _),
    Fields.readAll_field (nextKey?_comma _ _)
      (Fields.readValue_declaredType rfl declaredType _)]
  exact Fields.readAll_defaultValue name declaredType defaultValue rest

/-- **A list of parameters is read back**, also if blanks follow it. -/
theorem listOfJson_pretty (ps : List Parameter) {rest : Text}
    (hrest : skipBlanks rest = []) :
    listOfJson ((listToJson ps).pretty ++ rest) = .ok ps := by
  rw [listOfJson, readWhole, listToJson, pretty,
    readList_write fun p _ rest => read_write _ p rest]
  dsimp only [bind, Except.bind]
  rw [if_pos hrest]
  rfl

end Parameter

end StrategyDialect
