import GoOutline.Model.TypeExpr

/-!
# Declarations: `Arg`, `Value`, `Method`, `Interface` and `Struct`

What a file declares: constants and variables, interfaces with their methods, and structs with their
fields. Texts of types and values are looked up in the source by span.
-/
namespace GoOutline

/-- A field, parameter or result: a name with a type. -/
structure Arg where
  name : String
  type : TypeExpr
  comment : String
  /-- The tag of a field with its quotes. -/
  tag : Option String
deriving DecidableEq, Repr

namespace Arg

/-- The type as written. -/
def typeText (source : String) (a : Arg) : String :=
  a.type.text source

/-- The type as written, cut at its first dot into package and name. Without a dot the package is
empty (`go_pkg_type`). -/
def packageAndType (source : String) (a : Arg) : String × String :=
  let cs := (a.typeText source).toList
  let package := cs.takeWhile (· != '.')
  match cs.drop package.length with
  | _ :: name => (String.ofList package, String.ofList name)
  | [] => ("", String.ofList cs)

/-- Element of a slice or array as an argument without a name (`array_item`). -/
def item? (a : Arg) : Option Arg :=
  a.type.element?.map fun element => ⟨"", element, "", none⟩

/-- Two arguments agree in name, type text, comment and tag. -/
def agrees (source other : String) (a b : Arg) : Bool :=
  a.name == b.name && a.typeText source == b.typeText other && a.comment == b.comment &&
    a.tag == b.tag

end Arg

/-- What a declared value is. -/
inductive ValueKind where
  | const
  | var
deriving DecidableEq, Repr

/-- A constant or variable of a package. -/
structure Value where
  name : String
  kind : ValueKind
  type : Option TypeExpr
  initializer : Option Span
  comment : String
deriving DecidableEq, Repr

namespace Value

/-- The declared type as written; empty if there is none. -/
def typeText (source : String) (v : Value) : String :=
  (v.type.map (·.text source)).getD ""

/-- The initial value as written; empty if there is none. -/
def valueText (source : String) (v : Value) : String :=
  (v.initializer.map (·.text source)).getD ""

def isError (v : Value) : Bool :=
  v.type.any (·.isError)

end Value

/-- A method of an interface. -/
structure Method where
  name : String
  comment : String
  inputs : List Arg
  outputs : List Arg
deriving DecidableEq, Repr

namespace Method

def errorOutputs (m : Method) : List Arg :=
  m.outputs.filter (·.type.isError)

def otherOutputs (m : Method) : List Arg :=
  m.outputs.filter fun a => !a.type.isError

end Method

/-- A named interface. Embedded interfaces are not unfolded. -/
structure Interface where
  name : String
  comment : String
  methods : List Method
  definition : Span
deriving DecidableEq, Repr

namespace Interface

def method? (i : Interface) (name : String) : Option Method :=
  i.methods.find? (·.name == name)

end Interface

/-- A named struct. -/
structure Struct where
  name : String
  comment : String
  fields : List Arg
  /-- The span of the struct type. -/
  definition : Span
deriving DecidableEq, Repr

namespace Struct

def field? (s : Struct) (name : String) : Option Arg :=
  s.fields.find? (·.name == name)

/-- The declaration of the struct on its own (`golang`). -/
def declaration (source : String) (s : Struct) : String :=
  "type " ++ s.name ++ " " ++ s.definition.text source

end Struct

end GoOutline
