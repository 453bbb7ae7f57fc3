import GoOutline.Grammar.Node

/-!
# Whose comments: `associate_comments` and `comment_spans`

The comments of a tree are shared out in one walk over it. The walk keeps a list of nodes it still has
to enter and a map from nodes to comments. Among the children of a node, a comment that starts on the
row where the child before it stops trails that child; any other comment waits for the next child, and
stays with nobody if none follows. Bare tokens do not count.
-/
namespace GoOutline

/-- Where a node stands in a tree: its own place among its siblings and before it the places of the
nodes around it, from the root on. -/
abbrev Address := List Nat

/-- Spans of comments by the address of the node they belong to. -/
abbrev CommentMap := List (Address × List Span)

namespace CommentMap

/-- The comments of the node at an address. -/
def spansAt (map : CommentMap) (address : Address) : List Span :=
  (map.lookup address).getD []

/-- The map with more comments for a node. -/
def add (address : Address) (spans : List Span) : CommentMap → CommentMap
  | [] => [(address, spans)]
  | (known, found) :: rest =>
    if address == known then (known, found ++ spans) :: rest
    else (known, found) :: add address spans rest

end CommentMap

namespace Node

/-- Comments may belong to the node: it is no bare token and no comment itself. -/
def takesComments (n : Node) : Bool :=
  n.isNamed && !n.isComment

/-- The children that are not bare tokens, with their places. -/
def places (n : Node) : List (Node × Nat) :=
  n.children.zipIdx.filter fun child => child.1.isNamed

/-- The children that comments may belong to, with their addresses. -/
def inner (address : Address) (n : Node) : List (Address × Node) :=
  (n.places.filter fun child => !child.1.isComment).map fun child =>
    (address ++ [child.2], child.1)

end Node

/-! ## Among the children of a node -/

/-- What is known on the way through the children of a node. -/
structure Sharing where
  map : CommentMap
  /-- The last child that is no comment, with its place. -/
  previous : Option (Node × Nat)
  /-- The comments that wait for the next child. -/
  pending : List Span

namespace Sharing

/-- The comment waits for the next child. -/
def hold (comment : Node) (s : Sharing) : Sharing :=
  { s with pending := s.pending ++ [comment.span] }

/-- The next child of the node at an address. -/
def step (address : Address) (s : Sharing) (child : Node × Nat) : Sharing :=
  if child.1.isComment then
    match s.previous with
    | some (last, place) =>
      if s.pending.isEmpty && last.stop.row == child.1.start.row then
        { s with map := s.map.add (address ++ [place]) [child.1.span] }
      else s.hold child.1
    | none => s.hold child.1
  else
    { map := if s.pending.isEmpty then s.map else s.map.add (address ++ [child.2]) s.pending
      previous := some child
      pending := [] }

end Sharing

/-- The map with the comments among the children of the node at an address. -/
def CommentMap.share (map : CommentMap) (address : Address) (n : Node) : CommentMap :=
  (n.places.foldl (Sharing.step address) ⟨map, none, []⟩).map

/-! ## Over a tree -/

namespace Node

theorem map_snd_inner (address : Address) (n : Node) :
    (n.inner address).map (·.2) = n.namedChildren.filter fun child => !child.isComment := by
  have hplaces : n.places.map Prod.fst = n.namedChildren := by
    have h := List.filter_map (p := isNamed) (f := Prod.fst) (l := n.children.zipIdx)
    rw [List.zipIdx_map_fst] at h
    exact h.symm
  rw [inner, List.map_map, ← hplaces, List.filter_map]
  rfl

theorem sizeAll_reverse (ns : List Node) : sizeAll ns.reverse = sizeAll ns := by
  induction ns with
  | nil => rfl
  | cons n ns ih => rw [List.reverse_cons, sizeAll_append, ih]; simp only [sizeAll]; omega

/-- A node exchanged for its children makes the list lighter. -/
theorem sizeAll_inner_lt (address : Address) (n : Node) (rest : List (Address × Node)) :
    sizeAll (((n.inner address).reverse ++ rest).map (·.2)) <
      sizeAll (((address, n) :: rest).map (·.2)) := by
  have h₁ := sizeAll_filter_le (fun child => !child.isComment) n.namedChildren
  have h₂ := sizeAll_filter_le isNamed n.children
  have h₃ := size_eq n
  rw [List.map_append, List.map_reverse, map_snd_inner, sizeAll_append, sizeAll_reverse]
  simp only [namedChildren] at h₁ ⊢
  simp only [List.map_cons, sizeAll]
  omega

end Node

/-- The map with the comments in all trees of a list, last things first. -/
def CommentMap.collect (map : CommentMap) : List (Address × Node) → CommentMap
  | [] => map
  | (address, n) :: rest => collect (map.share address n) ((n.inner address).reverse ++ rest)
termination_by work => Node.sizeAll (work.map (·.2))
decreasing_by exact Node.sizeAll_inner_lt address n rest

namespace Node

/-- The comments of all nodes of a tree (`associate_comments`). -/
def commentMap (root : Node) : CommentMap :=
  CommentMap.collect [] [([], root)]

mutual

/-- The tree with the comments that a map has for the nodes in it; it stands at the address itself. -/
def dress (map : CommentMap) (address : Address) : Node → Node
  | mk kind field start stop comments children =>
    mk kind field start stop comments (dressAll map address 0 children)

/-- The trees with their comments, from a place among the children of the node at an address on. -/
def dressAll (map : CommentMap) (address : Address) (place : Nat) : List Node → List Node
  | [] => []
  | n :: ns =>
    (if n.takesComments then
      (n.dress map (address ++ [place])).withComments (map.spansAt (address ++ [place]))
    else n) :: dressAll map address (place + 1) ns

end

/-- The tree in which every comment belongs to the sibling it documents. -/
def shareComments (root : Node) : Node :=
  root.dress root.commentMap []

end Node

end GoOutline
