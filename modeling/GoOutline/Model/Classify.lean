import GoOutline.Grammar.Node
import GoOutline.Model.TypeExpr

/-!
# Classification of type nodes: `classify_type` and `type_kind`

The outermost layer of a type is read off the kind of its node and the classified parts below it.
-/
namespace GoOutline.Node

/-- The first part in a role. -/
def partIn (f : Field) (parts : List (Node × TypeExpr)) : Option TypeExpr :=
  (parts.find? fun part => part.1.field == some f).map (·.2)

/-- A type from the kind and span of its node and its classified children. A pointer points to the
first of its children that is not a bare token. -/
def typeOfParts (source : String) (kind : Kind) (span : Span) (parts : List (Node × TypeExpr)) :
    TypeExpr :=
  match kind with
  | .typeIdentifier => .ofName span (span.text source)
  | .qualifiedType =>
    let textIn (f : Field) :=
      (parts.find? fun part => part.1.field == some f).map (·.1.text source)
    match textIn .package, textIn .name with
    | some package, some name => .named span (some package) name
    | _, _ => .other span
  | .pointerType =>
    match parts.find? fun part => part.1.isNamed with
    | some target => .pointer span target.2
    | none => .other span
  | .sliceType =>
    match partIn .element parts with
    | some element => .slice span element
    | none => .other span
  | .arrayType | .implicitLengthArrayType =>
    match partIn .element parts with
    | some element => .array span element
    | none => .other span
  | .mapType =>
    match partIn .key parts, partIn .value parts with
    | some key, some value => .map span key value
    | _, _ => .other span
  | _ => .other span

mutual

/-- The type expression of a node (`classify_type`). -/
def classify (source : String) : Node → TypeExpr
  | .mk kind _ start stop _ children =>
    typeOfParts source kind ⟨start.byte, stop.byte⟩ (classifyAll source children)

/-- Nodes with their type expressions. -/
def classifyAll (source : String) : List Node → List (Node × TypeExpr)
  | [] => []
  | n :: ns => (n, classify source n) :: classifyAll source ns

end

end GoOutline.Node
