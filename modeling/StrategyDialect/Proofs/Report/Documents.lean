import StrategyDialect.Batch.Report
import StrategyDialect.Proofs.Json.Value

/-!
# The documents of the library

Verdicts, conversions and batch reports are handed out as JSON documents.  Here each
kind of document is read back: from the page one gets what the document was made of,
with nothing added and nothing left out.  So a document holds all that there is to say,
and it says it under the keys that a reader expects.

## Layers

Reading a document has two layers.  The page shows one JSON value
(`JsonValue.ofPage?_pretty`), and the value is taken apart by its keys, in the order in
which they are written.  Only the second layer knows the documents; each kind has one
reader (`ofValue?`) and one lemma, which is a simplification rule, so that a document
inside another one is read back by the lemma for its own kind.

## What is not in a document

A verdict holds its errors, and whether it is valid besides.  The second follows from
the first, and a page on which the two disagree is refused.  A report holds its time as
a text, and this text is what is read back (`BatchReport.Contents`): of the calendar
nothing is said here.

## Main definitions

* `Validation.ofPage?`, `Conversion.ofPage?`: the verdict and the conversion that a page
  shows
* `BatchReport.Contents`, `BatchReport.ofPage?`: what the page of a report says

## Main statements

* `Validation.ofPage?_pretty`: a verdict is read back from its page
* `Conversion.ofPage?_pretty`: so is a conversion
* `BatchReport.ofPage?_pretty`: so is a report, with its dialect and all its entries
-/

namespace StrategyDialect

open JsonValue

/-! ## The parts of documents -/

/-- The parameter of which a value is the JSON form.  The key of a default is there only
if the default is. -/
def Parameter.ofValue? (j : JsonValue) : Option Parameter :=
  match j.values? ["name".toList, "declaredType".toList],
    j.values? ["name".toList, "declaredType".toList, "defaultValue".toList] with
  | some [name, declaredType], _ => do
    return ⟨← name.text?, ← declaredType.text?, none⟩
  | none, some [name, declaredType, defaultValue] => do
    return ⟨← name.text?, ← declaredType.text?, some (← defaultValue.text?)⟩
  | _, _ => none

/-- **A parameter is read back** from its value.  A default that is absent has no field,
so there are two lists of keys to tell apart. -/
@[simp] theorem Parameter.ofValue?_toJson (p : Parameter) :
    ofValue? p.toJson = some p := by
  obtain ⟨name, declaredType, defaultValue⟩ := p
  cases defaultValue <;> rfl

/-- A list of parameters in a document is read back parameter by parameter. -/
@[simp] theorem Parameter.items?_listToJson (ps : List Parameter) :
    items? ofValue? (listToJson ps) = some ps :=
  items?_list ofValue?_toJson

/-- The shape that a value names. -/
def SourceShape.ofValue? (j : JsonValue) : Option SourceShape :=
  j.text?.bind fun name =>
    if name = "complete_unit".toList then some completeUnit
    else if name = "class_declaration".toList then some classDeclaration
    else if name = "members".toList then some members
    else none

/-- The three shapes have different names, each of which is tried in turn. -/
@[simp] theorem SourceShape.ofValue?_toJson (s : SourceShape) :
    ofValue? s.toJson = some s := by
  cases s <;> rfl

/-- The verdict of which a value is the JSON form.  Whether the strategy is valid is
said twice, and has to be said in the same way. -/
def Validation.ofValue? (j : JsonValue) : Option Validation :=
  match j.values? ["isValid".toList, "errors".toList] with
  | some [isValid, errors] => do
    let v : Validation := ⟨← errors.items? text?⟩
    if isValid.bool? = some v.isValid then return v else none
  | _ => none

/-- **A verdict is read back** from its value: its errors, and whether it is valid,
which has to agree with them. -/
@[simp] theorem Validation.ofValue?_toJson (v : Validation) :
    ofValue? v.toJson = some v := by
  rw [ofValue?, toJson, values?_object]
  · simp [bool?]
  · rfl

/-- A verdict is an object, so that it is not taken for one that is absent. -/
theorem Validation.toJson_ne_null (v : Validation) : v.toJson ≠ .null := by
  simp [toJson]

/-- The conversion of which a value is the JSON form. -/
def Conversion.ofValue? (j : JsonValue) : Option Conversion :=
  match j.values? ["generatedCode".toList, "className".toList, "shape".toList,
    "parameters".toList] with
  | some [generatedCode, className, shape, parameters] => do
    return ⟨← generatedCode.text?, ← className.text?, ← SourceShape.ofValue? shape,
      ← parameters.items? Parameter.ofValue?⟩
  | _ => none

/-- **A conversion is read back** from its value: the code, the name of the class, the
shape and the parameters. -/
@[simp] theorem Conversion.ofValue?_toJson (c : Conversion) :
    ofValue? c.toJson = some c := by
  rw [ofValue?, toJson, values?_object]
  · simp [text?]
  · rfl

/-- The dialect of which a value is the JSON form. -/
def Dialect.ofValue? (j : JsonValue) : Option Dialect :=
  match j.values? ["namespace".toList, "base_type".toList, "entry_method".toList,
    "input_attribute".toList, "class_name".toList, "usings".toList] with
  | some [namespaceName, baseType, entryMethod, inputAttribute, className, usings] => do
    return ⟨← namespaceName.text?, ← baseType.text?, ← entryMethod.text?,
      ← inputAttribute.text?, ← className.text?, ← usings.items? text?⟩
  | _ => none

/-- **A dialect is read back** from its value, with all its six fields. -/
@[simp] theorem Dialect.ofValue?_toJson (d : Dialect) : ofValue? d.toJson = some d := by
  rw [ofValue?, toJson, values?_object]
  · simp [text?]
  · rfl

/-- The entry of which a value is the JSON form. -/
def BatchEntry.ofValue? (j : JsonValue) : Option BatchEntry :=
  match j.values? ["file".toList, "validation".toList, "parameters".toList,
    "output".toList, "error".toList] with
  | some [file, validation, parameters, output, error] => do
    return ⟨⟨← file.text?⟩, ← validation.orNull? Validation.ofValue?,
      ← parameters.items? Parameter.ofValue?, (← output.orNull? text?).map Path.mk,
      ← error.orNull? text?⟩
  | _ => none

/-- **An entry is read back** from its value.  What an entry may lack, the verdict, the
output and the error, is said by `null`. -/
@[simp] theorem BatchEntry.ofValue?_toJson (e : BatchEntry) :
    ofValue? e.toJson = some e := by
  have hvalidation : ∀ v,
      orNull? Validation.ofValue? (Option.elim v .null Validation.toJson) = some v :=
    orNull?_elim Validation.toJson_ne_null Validation.ofValue?_toJson
  have houtput : (Path.mk ∘ fun p : Path => p.text) = id := rfl
  rw [ofValue?, toJson, values?_object]
  · simp [text?, hvalidation, houtput]
  · rfl

/-! ## Reports -/

/-- What the page of a report says. -/
structure BatchReport.Contents where
  /-- The time at which the batch was run, as it is written. -/
  generatedAt : Text
  dialect : Dialect
  entries : List BatchEntry

/-- What there is to say of a report. -/
def BatchReport.contents (r : BatchReport) : Contents :=
  ⟨r.generatedAt.text, r.dialect, r.entries⟩

/-- The contents of the report of which a value is the JSON form. -/
def BatchReport.ofValue? (j : JsonValue) : Option Contents :=
  match j.values? ["generated_at".toList, "dialect".toList, "entries".toList] with
  | some [generatedAt, dialect, entries] => do
    return ⟨← generatedAt.text?, ← Dialect.ofValue? dialect,
      ← entries.items? BatchEntry.ofValue?⟩
  | _ => none

/-- **A report is read back** from its value.  The lemmas for the dialect and for the
entries do the work; the time comes back as its text. -/
@[simp] theorem BatchReport.ofValue?_toJson (r : BatchReport) :
    ofValue? r.toJson = some r.contents := by
  have hentries : items? BatchEntry.ofValue? (.list (r.entries.map BatchEntry.toJson)) =
      some r.entries :=
    items?_list BatchEntry.ofValue?_toJson
  rw [ofValue?, toJson, values?_object]
  · simp [text?, hentries, contents]
  · rfl

/-! ## Pages -/

/-- The verdict that a page shows. -/
def Validation.ofPage? : Text → Option Validation :=
  document? ofValue?

/-- The conversion that a page shows. -/
def Conversion.ofPage? : Text → Option Conversion :=
  document? ofValue?

/-- What the page of a report says. -/
def BatchReport.ofPage? : Text → Option Contents :=
  document? ofValue?

variable {rest : Text}

/-- **A verdict is read back** from its page, with its errors in their order. -/
theorem Validation.ofPage?_pretty (v : Validation)
    (hrest : JsonReader.skipBlanks rest = []) :
    ofPage? (v.toJson.pretty ++ rest) = some v :=
  document?_pretty v.ofValue?_toJson hrest

/-- **A conversion is read back** from its page: the code as it was generated, whatever
characters it is made of, the name of the class, the shape, and the parameters. -/
theorem Conversion.ofPage?_pretty (c : Conversion)
    (hrest : JsonReader.skipBlanks rest = []) :
    ofPage? (c.toJson.pretty ++ rest) = some c :=
  document?_pretty c.ofValue?_toJson hrest

/-- A page with a parameter that has no default, and with a newline in the code. -/
example :
    (Conversion.mk "int N;\n".toList "S".toList .members
      [⟨"N".toList, "int".toList, none⟩]).toJson.pretty =
      "\x7b\n  \"generatedCode\": \"int N;\\n\",\n  \"className\": \"S\",\n".toList ++
        "  \"shape\": \"members\",\n  \"parameters\": [\n    \x7b\n".toList ++
        "      \"name\": \"N\",\n      \"declaredType\": \"int\"\n".toList ++
        "    \x7d\n  ]\n\x7d".toList := by
  decide +kernel

/-- **A report is read back** from its page: the text of its time, its dialect, and for
each file the path, the verdict, the parameters, the output and what went wrong. -/
theorem BatchReport.ofPage?_pretty (r : BatchReport)
    (hrest : JsonReader.skipBlanks rest = []) :
    ofPage? (r.toJson.pretty ++ rest) = some r.contents :=
  document?_pretty r.ofValue?_toJson hrest

end StrategyDialect
