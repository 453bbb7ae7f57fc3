import GoOutline.Span
import GoOutline.Grammar.Kind

/-!
# Syntax trees

A node has a kind, the role it plays in its parent, the places where it starts and stops, the
comments that belong to it, and its children in source order: phrases, bare tokens and the
comments that stand between them. A tree fresh from the parser has its comments only as children.
-/
namespace GoOutline

/-- A place in a source: the bytes and the line feeds before it. -/
structure Mark where
  byte : Nat
  row : Nat
deriving DecidableEq, Repr

/-- A node of a syntax tree. -/
inductive Node where
  | mk (kind : Kind) (field : Option Field) (start stop : Mark) (comments : List Span)
      (children : List Node)

namespace Node

def kind : Node → Kind
  | mk kind _ _ _ _ _ => kind

/-- The role of the node in its parent. -/
def field : Node → Option Field
  | mk _ field _ _ _ _ => field

def start : Node → Mark
  | mk _ _ start _ _ _ => start

def stop : Node → Mark
  | mk _ _ _ stop _ _ => stop

/-- Spans of the comments that belong to the node, in source order. -/
def comments : Node → List Span
  | mk _ _ _ _ comments _ => comments

def children : Node → List Node
  | mk _ _ _ _ _ children => children

/-- The node in another role. -/
def withField (f : Option Field) : Node → Node
  | mk kind _ start stop comments children => mk kind f start stop comments children

/-- The node with other comments. -/
def withComments (spans : List Span) : Node → Node
  | mk kind field start stop _ children => mk kind field start stop spans children

/-- The bytes of the node. -/
def span (n : Node) : Span :=
  ⟨n.start.byte, n.stop.byte⟩

/-- The source text of the node. -/
def text (source : String) (n : Node) : String :=
  n.span.text source

def isComment (n : Node) : Bool :=
  n.kind == .comment

def isNamed (n : Node) : Bool :=
  n.kind.isNamed

/-- The children that are not bare tokens. -/
def namedChildren (n : Node) : List Node :=
  n.children.filter isNamed

/-- The first child in a role. -/
def childIn (f : Field) (n : Node) : Option Node :=
  n.children.find? fun child => child.field == some f

/-- All children in a role. -/
def childrenIn (f : Field) (n : Node) : List Node :=
  n.children.filter fun child => child.field == some f

/-! ## Sizes -/

mutual

/-- Number of nodes of a tree. -/
def size : Node → Nat
  | .mk _ _ _ _ _ children => 1 + sizeAll children

/-- Number of nodes of several trees. -/
def sizeAll : List Node → Nat
  | [] => 0
  | n :: ns => n.size + sizeAll ns

end

theorem size_pos (n : Node) : 0 < n.size := by
  cases n; simp only [size]; omega

theorem size_eq (n : Node) : n.size = 1 + sizeAll n.children := by
  cases n; rfl

theorem sizeAll_append (ns ms : List Node) : sizeAll (ns ++ ms) = sizeAll ns + sizeAll ms := by
  induction ns with
  | nil => simp [sizeAll]
  | cons n ns ih => simp only [List.cons_append, sizeAll, ih]; omega

theorem sizeAll_filter_le (p : Node → Bool) (ns : List Node) :
    sizeAll (ns.filter p) ≤ sizeAll ns := by
  induction ns with
  | nil => simp [sizeAll]
  | cons n ns ih =>
    rw [List.filter_cons]
    split <;> simp only [sizeAll] <;> omega

theorem size_le_sizeAll {n : Node} {ns : List Node} (h : n ∈ ns) : n.size ≤ sizeAll ns := by
  induction ns with
  | nil => cases h
  | cons m ms ih =>
    simp only [sizeAll]
    cases h with
    | head => omega
    | tail _ h => have := ih h; omega

end Node

end GoOutline
