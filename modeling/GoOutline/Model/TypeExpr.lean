import GoOutline.Span

/-!
# Type expressions: `PrimitiveKind`, `TypeKind` and `TypeExpr`

A type expression keeps the span it was written in and what its outermost layer is. Predeclared names
are recognised by their exact spelling.
-/
namespace GoOutline

/-- Families of predeclared types. -/
inductive Primitive where
  | integer
  | float
  | string
  | boolean
deriving DecidableEq, Repr

namespace Primitive

def integerNames : List String :=
  ["byte", "rune", "int", "int8", "int16", "int32", "int64", "uint", "uint8", "uint16", "uint32",
    "uint64", "uintptr"]

def floatNames : List String := ["float32", "float64"]

/-- The family of a predeclared name (`PrimitiveKind::from_ident`). -/
def ofName? (name : String) : Option Primitive :=
  if integerNames.contains name then some .integer
  else if floatNames.contains name then some .float
  else if name == "string" then some .string
  else if name == "bool" then some .boolean
  else none

end Primitive

/-- Name of the predeclared error interface. -/
def errorName : String := "error"

/-- A type expression by its outermost layer (`TypeKind`). -/
inductive TypeExpr where
  | pointer (span : Span) (target : TypeExpr)
  | slice (span : Span) (element : TypeExpr)
  | array (span : Span) (element : TypeExpr)
  | map (span : Span) (key value : TypeExpr)
  /-- A parameter for any number of arguments. -/
  | variadic (span : Span) (element : TypeExpr)
  | primitive (span : Span) (family : Primitive)
  /-- The bare predeclared error type. -/
  | error (span : Span)
  | named (span : Span) (package : Option String) (name : String)
  /-- Structs, interfaces, functions, channels, generic and parenthesized types. -/
  | other (span : Span)
deriving DecidableEq, Repr

namespace TypeExpr

def span : TypeExpr → Span
  | pointer s _ | slice s _ | array s _ | map s _ _ | variadic s _ | primitive s _ | error s
  | named s _ _ | other s => s

/-- The text of a type expression as written. -/
def text (source : String) (t : TypeExpr) : String :=
  t.span.text source

def isPointer : TypeExpr → Bool
  | pointer _ _ => true
  | _ => false

/-- A slice or an array. -/
def isArray : TypeExpr → Bool
  | slice _ _ | array _ _ => true
  | _ => false

def isSlice : TypeExpr → Bool
  | slice _ _ => true
  | _ => false

def isMap : TypeExpr → Bool
  | map _ _ _ => true
  | _ => false

def isError : TypeExpr → Bool
  | error _ => true
  | _ => false

/-- The family of a predeclared type. -/
def primitive? : TypeExpr → Option Primitive
  | primitive _ family => some family
  | _ => none

def isSimple (t : TypeExpr) : Bool := t.primitive?.isSome

def isInteger (t : TypeExpr) : Bool := t.primitive? == some .integer

def isFloat (t : TypeExpr) : Bool := t.primitive? == some .float

def isString (t : TypeExpr) : Bool := t.primitive? == some .string

def isBoolean (t : TypeExpr) : Bool := t.primitive? == some .boolean

/-- Element of a slice or an array. -/
def element? : TypeExpr → Option TypeExpr
  | slice _ e | array _ e => some e
  | _ => none

/-- Target of a pointer. -/
def target? : TypeExpr → Option TypeExpr
  | pointer _ t => some t
  | _ => none

/-- The type of an identifier. -/
def ofName (span : Span) (name : String) : TypeExpr :=
  if name == errorName then error span
  else
    match Primitive.ofName? name with
    | some family => primitive span family
    | none => named span none name

end TypeExpr

end GoOutline
