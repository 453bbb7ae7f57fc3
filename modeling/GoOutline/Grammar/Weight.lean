import GoOutline.Grammar.Node

/-!
# Weights of readings

Some words can be read in two ways, such as a list of parameters that may be names or types. Each
reading has a weight, and the heavier one is meant: a type name on its own speaks against a reading,
type arguments speak for it.
-/
namespace GoOutline

/-- What a node of a kind adds to the weight of a reading. -/
def Kind.weight : Kind → Int
  | .genericType => 1
  | .typeArguments => 2
  | .typeConversionExpression => -1
  | .typeInstantiationExpression => -1
  | _ => 0

namespace Node

/-- The node is the name of a type that stands in its parent for the whole type. -/
def isBareType (parent : Kind) (n : Node) : Bool :=
  match n.kind with
  | .typeIdentifier => !(parent == .qualifiedType || parent == .genericType || parent == .compositeLiteral)
  | .identifier => parent == .typeInstantiationExpression && n.field == some .type
  | _ => false

mutual

/-- The weight of a tree. -/
def weight : Node → Int
  | .mk kind _ _ _ _ children => kind.weight + weightAll kind children

/-- The weight of the children of a node. -/
def weightAll (parent : Kind) : List Node → Int
  | [] => 0
  | n :: ns => (if n.isBareType parent then -1 else 0) + n.weight + weightAll parent ns

end

end Node

end GoOutline
