import StrategyDialect.Json.Reader
import StrategyDialect.Json.Value

/-!
# Parameters

A parameter is a tunable input of a strategy.  Its JSON form leaves out a default that
is not there; it is read back from that form, or from a list of its parts.

## Main definitions

* `Parameter`: a name, a type and the value at the start
* `Parameter.toJson`: the JSON form
* `Parameter.ofJson`, `Parameter.listOfJson`: the parameter, or the parameters, that a
  text spells
-/

namespace StrategyDialect

/-- A tunable input of a strategy, as it is declared. -/
structure Parameter where
  name : Text
  declaredType : Text
  /-- The initial value as it is written, if one was found. -/
  defaultValue : Option Text
deriving DecidableEq

namespace Parameter

/-- The parameter as JSON. -/
def toJson (p : Parameter) : JsonValue :=
  .object <|
    [("name".toList, .text p.name), ("declaredType".toList, .text p.declaredType)]
      ++ p.defaultValue.toList.map fun value => ("defaultValue".toList, .text value)

/-- A list of parameters as JSON. -/
def listToJson (ps : List Parameter) : JsonValue :=
  .list (ps.map toJson)

/-! ### Reading -/

/-- The fields of a parameter that have been read. -/
structure Fields where
  name : Option Text
  declaredType : Option Text
  defaultValue : Option (Option Text)

namespace Fields

open JsonReader

/-- No field has been read. -/
def unread : Fields :=
  ⟨none, none, none⟩

/-- The parameter, if no required field is missing. -/
def finish (fs : Fields) : Except JsonFault Parameter :=
  match fs.name, fs.declaredType with
  | some name, some declaredType => .ok ⟨name, declaredType, fs.defaultValue.getD none⟩
  | _, _ => .error .wrongData

/-- The value of a field whose key has just been read.  A field that was read before is
refused; a field with another key is skipped. -/
def readValue (fs : Fields) (key : Text) : JsonReader Fields := fun t => do
  if key = "name".toList then
    if fs.name.isSome then throw .wrongData
    let (value, rest) ← readText (← readColon t)
    return ({ fs with name := some value }, rest)
  else if key = "declaredType".toList then
    if fs.declaredType.isSome then throw .wrongData
    let (value, rest) ← readText (← readColon t)
    return ({ fs with declaredType := some value }, rest)
  else if key = "defaultValue".toList then
    if fs.defaultValue.isSome then throw .wrongData
    let (value, rest) ← readText? (← readColon t)
    return ({ fs with defaultValue := some value }, rest)
  else
    return (fs, ← skipValue (← readColon t))

/-- The parameter whose fields are `fs` and those that follow.  Each round reads at
least one of the `bound` characters. -/
def readAll (fs : Fields) (isFirst : Bool) : (bound : Nat) → JsonReader Parameter
  | 0, _ => .error .illFormed
  | bound + 1, t => do
    match ← nextKey? isFirst t with
    | (none, rest) => return (← fs.finish, rest)
    | (some key, rest) =>
      let (fs, rest) ← fs.readValue key rest
      readAll fs false bound rest

end Fields

open JsonReader

/-- An item of a list that has to be there. -/
def readPart {α : Type} (item : JsonReader α) (isFirst : Bool) :
    JsonReader α := fun t => do
  match ← nextItem? isFirst t with
  | none => throw .wrongData
  | some t => item t

/-- A parameter from behind the opening bracket of a list of its parts. -/
def readParts : JsonReader Parameter := fun t => do
  let (name, rest) ← readPart readText true t
  let (declaredType, rest) ← readPart readText false rest
  match ← nextItem? false rest with
  | none => return (⟨name, declaredType, none⟩, ← readListEnd rest)
  | some rest =>
    let (value, rest) ← readText? rest
    return (⟨name, declaredType, value⟩, ← readListEnd rest)

/-- A parameter. -/
def read : JsonReader Parameter := fun t =>
  match skipBlanks t with
  | [] => .error .cutShort
  | '{' :: t => Fields.unread.readAll true (t.length + 1) t
  | '[' :: t => readParts t
  | t => .error (wrongType t)

/-- The parameter that a text spells. -/
def ofJson (t : Text) : Except JsonFault Parameter :=
  readWhole read t

/-- The list of parameters that a text spells. -/
def listOfJson (t : Text) : Except JsonFault (List Parameter) :=
  readWhole (readList read) t

end Parameter

end StrategyDialect
