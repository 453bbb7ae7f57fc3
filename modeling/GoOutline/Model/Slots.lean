import GoOutline.Comment
import GoOutline.Model.Classify
import GoOutline.Model.Declaration

/-!
# Fields, parameters and results: `field_args`, `parameter_args` and `result_args`

Lists of declarations become lists of arguments. A declaration gives one argument for each of its
names, or a single argument with a made-up name: a stem and the number of declarations before it.
-/
namespace GoOutline.Node

/-- Stem of the made-up names of fields and parameters. -/
def argStem : String := "arg"

/-- Stem of the made-up names of results. -/
def resultStem : String := "ret"

/-- The made-up name of the declaration with a number. -/
def slotName (stem : String) (index : Nat) : String :=
  stem ++ toString index

/-- The text of a node of an identifier kind in a role. -/
def namesIn (source : String) (kind : Kind) (n : Node) : List String :=
  ((n.childrenIn .name).filter fun name => name.kind == kind).map (·.text source)

/-- One argument for each name, or one with a made-up name if there are none. -/
def slots (names : List String) (unnamed : String) (type : TypeExpr) (comment : String)
    (tag : Option String) : List Arg :=
  match names with
  | [] => [⟨unnamed, type, comment, tag⟩]
  | _ => names.map fun name => ⟨name, type, comment, tag⟩

/-! ## Fields -/

/-- The type of an embedded field: a pointer from its star on if it has one. -/
def embeddedType (source : String) (field type : Node) : TypeExpr :=
  match field.children.head? with
  | some star =>
    if star.kind == .token "*" then .pointer (.covering star.span type.span) (type.classify source)
    else type.classify source
  | none => type.classify source

/-- The arguments of one field declaration; none if it has no type. -/
def fieldSlots (source : String) (field : Node) (index : Nat) : List Arg :=
  match field.childIn .type with
  | none => []
  | some type =>
    let names := field.namesIn source .fieldIdentifier
    let exprs := if names.isEmpty then embeddedType source field type else type.classify source
    slots names (slotName argStem index) exprs (field.commentText source)
      ((field.childIn .tag).map (·.text source))

/-- The arguments of a field list (`field_args`). -/
def fieldArgs (source : String) (list : Node) : List Arg :=
  ((list.namedChildren.filter fun n => n.kind == .fieldDeclaration).zipIdx).flatMap
    fun (field, index) => fieldSlots source field index

/-! ## Parameters and results -/

/-- The type of a parameter; that of a variadic one begins with its ellipsis (`parameter_type`). -/
def parameterType (source : String) (parameter : Node) : Option TypeExpr :=
  (parameter.childIn .type).bind fun type =>
    if parameter.kind == .variadicParameterDeclaration then
      (parameter.children.find? fun child => child.kind == .token "...").map fun ellipsis =>
        .variadic (.covering ellipsis.span type.span) (type.classify source)
    else some (type.classify source)

/-- The arguments of one parameter declaration; none if it has no type. -/
def parameterSlots (source stem : String) (parameter : Node) (index : Nat) : List Arg :=
  match parameterType source parameter with
  | none => []
  | some type =>
    slots (parameter.namesIn source .identifier) (slotName stem index) type
      (parameter.commentText source) none

/-- The node declares parameters. -/
def isParameter (n : Node) : Bool :=
  n.kind == .parameterDeclaration || n.kind == .variadicParameterDeclaration

/-- The arguments of a parameter list (`parameter_args`). -/
def parameterArgs (source stem : String) (list : Node) : List Arg :=
  ((list.namedChildren.filter isParameter).zipIdx).flatMap
    fun (parameter, index) => parameterSlots source stem parameter index

/-- The arguments of a result: a parameter list, or a single type (`result_args`). -/
def resultArgs (source : String) (result : Node) : List Arg :=
  if result.kind == .parameterList then parameterArgs source resultStem result
  else [⟨slotName resultStem 0, result.classify source, "", none⟩]

end GoOutline.Node
