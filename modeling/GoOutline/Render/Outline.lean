import GoOutline.Model.File
import GoOutline.Render.Json

/-!
# Outlines as JSON: `to_json`

The JSON outline of a file: its package, imports, values, interfaces and structs in the order of the
source. Types and values stand in it as written.
-/
namespace GoOutline

/-- The keyword of a value's declaration. -/
def ValueKind.keyword : ValueKind → String
  | const => "const"
  | var => "var"

def Arg.toJson (source : String) (a : Arg) : Json :=
  .record <|
    [("Name", .text a.name), ("GolangType", .text (a.typeText source))] ++
      Json.textField "Comment" a.comment ++ Json.optionField "Tag" a.tag ++
      [("IsError", .flag a.type.isError)]

def Value.toJson (source : String) (v : Value) : Json :=
  .record <|
    [("Name", .text v.name), ("Kind", .text v.kind.keyword),
      ("GolangType", .text (v.typeText source))] ++
      Json.textField "Comment" v.comment ++
      [("GolangValue", .text (v.valueText source)), ("IsError", .flag v.isError)]

def Method.toJson (source : String) (m : Method) : Json :=
  .record <|
    [("Name", .text m.name)] ++ Json.textField "Comment" m.comment ++
      Json.listField "In" (m.inputs.map (·.toJson source)) ++
      Json.listField "Out" (m.outputs.map (·.toJson source))

def Interface.toJson (source : String) (i : Interface) : Json :=
  .record <|
    [("Name", .text i.name)] ++ Json.listField "Methods" (i.methods.map (·.toJson source)) ++
      Json.textField "Comment" i.comment

def Struct.toJson (source : String) (s : Struct) : Json :=
  .record <|
    [("Name", .text s.name)] ++ Json.textField "Comment" s.comment ++
      [("Fields", .list (s.fields.map (·.toJson source)))]

def Imports.toJson (imports : Imports) : Json :=
  .record (imports.map fun (path, name) => (path, .text name))

/-- The outline of a file that was reached through an import path, or through none. -/
def File.toJson (importPath : Option String) (f : File) : Json :=
  .record <|
    Json.optionField "Import" importPath ++
      [("Package", .text f.package), ("Comment", .text f.comment), ("Imports", f.imports.toJson),
        ("Values", .list (f.values.map (·.toJson f.source)))] ++
      Json.listField "Interfaces" (f.interfaces.map (·.toJson f.source)) ++
      Json.listField "Structs" (f.structs.map (·.toJson f.source))

/-- The JSON text of a file's outline (`to_json`). -/
def File.outline (importPath : Option String) (f : File) : String :=
  (f.toJson importPath).pretty

end GoOutline
