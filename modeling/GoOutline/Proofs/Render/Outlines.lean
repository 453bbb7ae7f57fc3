import GoOutline.Proofs.Render.JsonText
import GoOutline.Render.Outline
import GoOutline.Scan
import Mathlib.Data.List.Basic

/-!
# What an outline shows: `to_json`

An outline leaves out what is empty or missing, and nothing else of what it shows: from its text the shown part of the file
(`File.shown`) is read back (`Shown.File.read?`), with what is left out taken for empty. So files with the same outline agree
in all that it shows (`shown_of_outline`).
-/
namespace GoOutline

/-! ## Shown records -/

namespace Shown

/-- A field, parameter or result. -/
structure Arg where
  name : String
  typeText : String
  comment : String
  tag : Option String
  isError : Bool
deriving DecidableEq

/-- A constant or variable. -/
structure Value where
  name : String
  kind : ValueKind
  typeText : String
  comment : String
  valueText : String
  isError : Bool
deriving DecidableEq

/-- A method of an interface. -/
structure Method where
  name : String
  comment : String
  inputs : List Arg
  outputs : List Arg
deriving DecidableEq

/-- An interface. -/
structure Interface where
  name : String
  comment : String
  methods : List Method
deriving DecidableEq

/-- A struct. -/
structure Struct where
  name : String
  comment : String
  fields : List Arg
deriving DecidableEq

/-- A file, with the import path it was reached through. -/
structure File where
  importPath : Option String
  package : String
  comment : String
  imports : Imports
  values : List Value
  interfaces : List Interface
  structs : List Struct
deriving DecidableEq

end Shown

def Arg.shown (source : String) (a : Arg) : Shown.Arg :=
  { name := a.name, typeText := a.typeText source, comment := a.comment, tag := a.tag, isError := a.type.isError }

def Value.shown (source : String) (v : Value) : Shown.Value :=
  { name := v.name, kind := v.kind, typeText := v.typeText source, comment := v.comment,
    valueText := v.valueText source, isError := v.isError }

def Method.shown (source : String) (m : Method) : Shown.Method :=
  { name := m.name, comment := m.comment, inputs := m.inputs.map (·.shown source),
    outputs := m.outputs.map (·.shown source) }

def Interface.shown (source : String) (i : Interface) : Shown.Interface :=
  { name := i.name, comment := i.comment, methods := i.methods.map (·.shown source) }

def Struct.shown (source : String) (s : Struct) : Shown.Struct :=
  { name := s.name, comment := s.comment, fields := s.fields.map (·.shown source) }

/-- What the outline of a file shows. -/
def File.shown (importPath : Option String) (f : File) : Shown.File :=
  { importPath, package := f.package, comment := f.comment, imports := f.imports,
    values := f.values.map (·.shown f.source), interfaces := f.interfaces.map (·.shown f.source),
    structs := f.structs.map (·.shown f.source) }

/-! ## Fields of JSON records -/

namespace Json

/-- What stands in a field of a record; nothing if the field is left out. -/
def field? (json : Json) (key : String) : Option Json :=
  match json with
  | record fields => fields.lookup key
  | _ => none

/-- The text that a field holds; the empty text if it is left out. -/
def asText : Option Json → String
  | some (text value) => value
  | _ => ""

/-- The text that a field holds, if it is there. -/
def asOption : Option Json → Option String
  | some (text value) => some value
  | _ => none

/-- The truth value that a field holds. -/
def asFlag : Option Json → Bool
  | some (flag value) => value
  | _ => false

/-- The items of the list that a field holds; none if it is left out. -/
def asList : Option Json → List Json
  | some (list items) => items
  | _ => []

/-- The texts in a record with their keys. -/
def asTable : Option Json → List (String × String)
  | some (record fields) => fields.map fun (key, value) => (key, asText (some value))
  | _ => []

variable {key other value : String}

theorem lookup_cons (value : Json) (fields : List (String × Json)) :
    ((other, value) :: fields).lookup key = if key = other then some value else fields.lookup key := by
  by_cases h : key = other
  · rw [h, List.lookup_cons_self, if_pos rfl]
  · rw [List.lookup_cons, beq_eq_false_iff_ne.2 h, if_neg h]

theorem lookup_textField : (textField other value).lookup key =
    if key = other then if value = "" then none else some (text value) else none := by
  unfold textField
  split <;> simp_all [lookup_cons]

theorem lookup_optionField {value : Option String} : (optionField other value).lookup key =
    if key = other then value.map text else none := by
  cases value <;> simp [optionField, lookup_cons]

theorem lookup_listField {items : List Json} : (listField other items).lookup key =
    if key = other then if items = [] then none else some (list items) else none := by
  unfold listField
  split <;> simp_all [lookup_cons]

/-! A text or list that is left out if it is empty is taken for empty if it is left out. -/

@[simp] theorem asText_unless_empty : asText (if value = "" then none else some (text value)) = value := by
  split <;> simp_all [asText]

@[simp] theorem asOption_map (value : Option String) : asOption (value.map text) = value := by
  cases value <;> rfl

@[simp] theorem asList_unless_empty {α : Type} {records : List α} {toJson : α → Json} :
    asList (if records = [] then none else some (list (records.map toJson))) = records.map toJson := by
  split <;> simp_all [asList]

@[simp] theorem asText_text : asText (some (text value)) = value := rfl

@[simp] theorem asFlag_flag (value : Bool) : asFlag (some (flag value)) = value := rfl

@[simp] theorem asList_list (items : List Json) : asList (some (list items)) = items := rfl

theorem asTable_toJson (imports : Imports) : asTable (some imports.toJson) = imports := by
  simp [asTable, Imports.toJson, Function.comp_def]

end Json

/-! ## Reading outlines -/

namespace Shown

open Json

/-- The kind of values that is declared by a keyword. -/
def kindOf (keyword : String) : ValueKind := if keyword = "var" then .var else .const

def Arg.ofJson (json : Json) : Arg :=
  { name := asText (json.field? "Name"), typeText := asText (json.field? "GolangType"),
    comment := asText (json.field? "Comment"), tag := asOption (json.field? "Tag"),
    isError := asFlag (json.field? "IsError") }

def Value.ofJson (json : Json) : Value :=
  { name := asText (json.field? "Name"), kind := kindOf (asText (json.field? "Kind")),
    typeText := asText (json.field? "GolangType"), comment := asText (json.field? "Comment"),
    valueText := asText (json.field? "GolangValue"), isError := asFlag (json.field? "IsError") }

def Method.ofJson (json : Json) : Method :=
  { name := asText (json.field? "Name"), comment := asText (json.field? "Comment"),
    inputs := (asList (json.field? "In")).map Arg.ofJson, outputs := (asList (json.field? "Out")).map Arg.ofJson }

def Interface.ofJson (json : Json) : Interface :=
  { name := asText (json.field? "Name"), comment := asText (json.field? "Comment"),
    methods := (asList (json.field? "Methods")).map Method.ofJson }

def Struct.ofJson (json : Json) : Struct :=
  { name := asText (json.field? "Name"), comment := asText (json.field? "Comment"),
    fields := (asList (json.field? "Fields")).map Arg.ofJson }

def File.ofJson (json : Json) : File :=
  { importPath := asOption (json.field? "Import"), package := asText (json.field? "Package"),
    comment := asText (json.field? "Comment"), imports := asTable (json.field? "Imports"),
    values := (asList (json.field? "Values")).map Value.ofJson,
    interfaces := (asList (json.field? "Interfaces")).map Interface.ofJson,
    structs := (asList (json.field? "Structs")).map Struct.ofJson }

/-- What an outline shows, read from its text. -/
def File.read? (outline : String) : Option File := (Json.read? outline).map File.ofJson

end Shown

section

open Json

variable (source : String)

theorem Arg.ofJson_toJson (a : Arg) : Shown.Arg.ofJson (a.toJson source) = a.shown source := by
  simp [Shown.Arg.ofJson, Arg.toJson, Arg.shown, field?, List.lookup_append, lookup_cons, lookup_textField,
    lookup_optionField]

theorem ValueKind.kindOf_keyword (kind : ValueKind) : Shown.kindOf kind.keyword = kind := by
  cases kind <;> rfl

theorem Value.ofJson_toJson (v : Value) : Shown.Value.ofJson (v.toJson source) = v.shown source := by
  simp [Shown.Value.ofJson, Value.toJson, Value.shown, field?, List.lookup_append, lookup_cons, lookup_textField,
    ValueKind.kindOf_keyword]

theorem Method.ofJson_toJson (m : Method) : Shown.Method.ofJson (m.toJson source) = m.shown source := by
  simp [Shown.Method.ofJson, Method.toJson, Method.shown, field?, List.lookup_append, lookup_cons, lookup_textField,
    lookup_listField, Arg.ofJson_toJson]

theorem Interface.ofJson_toJson (i : Interface) : Shown.Interface.ofJson (i.toJson source) = i.shown source := by
  simp [Shown.Interface.ofJson, Interface.toJson, Interface.shown, field?, List.lookup_append, lookup_cons,
    lookup_textField, lookup_listField, Method.ofJson_toJson]

theorem Struct.ofJson_toJson (s : Struct) : Shown.Struct.ofJson (s.toJson source) = s.shown source := by
  simp [Shown.Struct.ofJson, Struct.toJson, Struct.shown, Json.field?, List.lookup_append, lookup_cons, lookup_textField,
    Arg.ofJson_toJson]

end

theorem File.ofJson_toJson (importPath : Option String) (f : File) :
    Shown.File.ofJson (f.toJson importPath) = f.shown importPath := by
  simp [Shown.File.ofJson, File.toJson, File.shown, Json.field?, List.lookup_append, Json.lookup_cons,
    Json.lookup_optionField, Json.lookup_listField, Json.asTable_toJson, Value.ofJson_toJson, Interface.ofJson_toJson,
    Struct.ofJson_toJson]

/-- What an outline shows is read back from its text, so files with the same outline agree in it. -/
theorem shown_of_outline :
    (∀ (importPath : Option String) (f : File),
      Shown.File.read? (f.outline importPath) = some (f.shown importPath)) ∧
    ∀ (importPath importPath' : Option String) (f g : File),
      f.outline importPath = g.outline importPath' → f.shown importPath = g.shown importPath' := by
  have hread (importPath : Option String) (f : File) :
      Shown.File.read? (f.outline importPath) = some (f.shown importPath) := by
    rw [Shown.File.read?, File.outline, Json.read?_pretty, Option.map_some, File.ofJson_toJson]
  refine ⟨hread, fun importPath importPath' f g h => ?_⟩
  have hsame : some (f.shown importPath) = some (g.shown importPath') := by rw [← hread, h, hread]
  exact Option.some.inj hsame

/-- A file with one field, after one space. -/
def tightField : File where
  location := .ofString "/p/a.go"
  package := "p"
  comment := ""
  imports := []
  values := []
  interfaces := []
  structs := [⟨"S", "a", [⟨"F", .error ⟨34, 39⟩, "", some "`k:\"v\"`"⟩], ⟨23, 49⟩⟩]
  source := "package p\n\n// a\ntype S struct\x7b\n\tF error `k:\"v\"`\n\x7d\n"

/-- The same with two spaces, in another place. -/
def looseField : File where
  location := .ofString "/q/a.go"
  package := "p"
  comment := ""
  imports := []
  values := []
  interfaces := []
  structs := [⟨"S", "a", [⟨"F", .error ⟨35, 40⟩, "", some "`k:\"v\"`"⟩], ⟨23, 50⟩⟩]
  source := "package p\n\n// a\ntype S struct\x7b\n\tF  error `k:\"v\"`\n\x7d\n"

/-- Neither their places nor their spaces show. -/
theorem shown_of_outline_looseField :
    File.ofSource tightField.location tightField.source = .ok tightField ∧
      File.ofSource looseField.location looseField.source = .ok looseField ∧ tightField ≠ looseField ∧
      tightField.outline (some "x/p") = looseField.outline (some "x/p") ∧
      tightField.shown (some "x/p") = looseField.shown (some "x/p") := by
  have houtline : tightField.outline (some "x/p") = looseField.outline (some "x/p") := by decide +kernel
  exact ⟨by decide +kernel, by decide +kernel, by decide, houtline, shown_of_outline.2 _ _ _ _ houtline⟩

end GoOutline
