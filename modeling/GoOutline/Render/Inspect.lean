import GoOutline.Render.Quoted
import GoOutline.Resolver.Session

/-!
# Inspection texts: the `Debug` forms

One-line texts that show what a record holds, for people who look into a run.
-/
namespace GoOutline

namespace Inspect

/-- A record with named parts. -/
def record (name : String) (parts : List (String × String)) : String :=
  name ++ " \x7b " ++ ", ".intercalate (parts.map fun part => part.1 ++ ": " ++ part.2) ++ " \x7d"

def list (items : List String) : String :=
  "[" ++ ", ".intercalate items ++ "]"

def option (value : Option String) : String :=
  match value with
  | some value => "Some(" ++ value ++ ")"
  | none => "None"

def flag (value : Bool) : String :=
  if value then "true" else "false"

/-- A part that is written at most once. -/
def once (value : Option String) : String :=
  match value with
  | some value => "OnceCell(" ++ value ++ ")"
  | none => "OnceCell(Uninit)"

def imports (table : Imports) : String :=
  "\x7b" ++ ", ".intercalate (table.map fun entry =>
    Quoted.text entry.1 ++ ": " ++ Quoted.text entry.2) ++ "\x7d"

end Inspect

def Arg.inspect (source : String) (a : Arg) : String :=
  Inspect.record "Arg"
    [("name", Quoted.text a.name), ("type", Quoted.text (a.typeText source)),
      ("comment", Quoted.text a.comment), ("tag", Inspect.option (a.tag.map Quoted.text))]

def ValueKind.inspect : ValueKind → String
  | const => "Const"
  | var => "Var"

def Value.inspect (source : String) (v : Value) : String :=
  Inspect.record "Value"
    [("name", Quoted.text v.name), ("kind", v.kind.inspect),
      ("type", Quoted.text (v.typeText source)), ("value", Quoted.text (v.valueText source)),
      ("comment", Quoted.text v.comment)]

def Method.inspect (source : String) (m : Method) : String :=
  Inspect.record "Method"
    [("name", Quoted.text m.name), ("comment", Quoted.text m.comment),
      ("inputs", Inspect.list (m.inputs.map (·.inspect source))),
      ("outputs", Inspect.list (m.outputs.map (·.inspect source)))]

def Interface.inspect (source : String) (i : Interface) : String :=
  Inspect.record "Interface"
    [("name", Quoted.text i.name), ("comment", Quoted.text i.comment),
      ("methods", Inspect.list (i.methods.map (·.inspect source)))]

def Origin.inspect (o : Origin) : String :=
  Inspect.record "Origin"
    [("location", Quoted.path o.location), ("package", Quoted.text o.package),
      ("import_path", Inspect.once (o.importPath.map Quoted.text))]

def Struct.inspect (source : String) (origin : Origin) (s : Struct) : String :=
  Inspect.record "Struct"
    [("name", Quoted.text s.name), ("comment", Quoted.text s.comment),
      ("fields", Inspect.list (s.fields.map (·.inspect source))), ("origin", origin.inspect)]

def File.inspect (importPath : Option String) (f : File) : String :=
  Inspect.record "File"
    [("location", Quoted.path f.location), ("package", Quoted.text f.package),
      ("import_path", Inspect.option (importPath.map Quoted.text)),
      ("imports", Inspect.imports f.imports), ("structs", toString f.structs.length),
      ("interfaces", toString f.interfaces.length), ("values", toString f.values.length)]

def SearchPaths.inspect (s : SearchPaths) : String :=
  Inspect.record "SearchPaths"
    [("vendor", Inspect.flag s.vendor), ("module_root", Inspect.option (s.moduleRoot.map Quoted.path)),
      ("std_root", Inspect.option (s.stdRoot.map Quoted.path))]

/-- Names under search in their directories. -/
def Inspect.keys (active : List (Path × String)) : String :=
  "\x7b" ++ ", ".intercalate (active.map fun key =>
    "(" ++ Quoted.path key.1 ++ ", " ++ Quoted.text key.2 ++ ")") ++ "\x7d"

def Session.inspect (s : Session) : String :=
  Inspect.record "Resolver"
    [("search", s.search.inspect), ("files", toString s.scannedCount),
      ("in_progress", Inspect.keys s.active), ("indexer", Inspect.flag s.indexer.isSome)]

end GoOutline
