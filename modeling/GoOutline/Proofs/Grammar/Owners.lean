import GoOutline.Proofs.Grammar.Belonging
import GoOutline.Proofs.Grammar.Placed

/-!
# The owners of comments: `associate_comments`

In a tree whose nodes stand in order (`Node.InSequence`), as those of a parsed tree do (`inSequence_of_parseChars`),
every comment goes to one node at most. That is the last sibling before it, or the next one behind it, or nobody
(`CommentMap.Settles`), and the comments of a node stand in source order around it (`Node.commentMap_partitions`).
-/
namespace GoOutline

/-! ## Trees in order -/

namespace Node

/-- The node at an address in a tree. -/
def at? : Node → Address → Option Node
  | n, [] => some n
  | n, place :: rest => n.children[place]?.bind fun child => child.at? rest

/-- The children stand inside the node, one behind the other. -/
structure Orderly (n : Node) : Prop where
  inside : ∀ child ∈ n.children, child.span.Within n.span
  sequence : n.children.Pairwise fun m m' => m.span.stop ≤ m'.span.start
  /-- Comments and bare tokens have no children. -/
  leaf : n.takesComments = false → n.children = []
  solid : n.isComment = true → n.span.start < n.span.stop

/-- All nodes of the tree are orderly. -/
def InSequence (root : Node) : Prop :=
  ∀ a n, root.at? a = some n → n.Orderly

variable {root parent n : Node} {a address rest : Address} {i k place : Nat}

theorem at?_cons : root.at? (place :: rest) = some n ↔
    ∃ child, root.children[place]? = some child ∧ child.at? rest = some n :=
  Option.bind_eq_some_iff

theorem at?_append (address rest : Address) (root : Node) :
    root.at? (address ++ rest) = (root.at? address).bind fun parent => parent.at? rest := by
  induction address generalizing root with
  | nil => rfl
  | cons place address ih =>
    rw [List.cons_append, at?, at?, Option.bind_assoc]
    congr 1
    funext child
    exact ih child

theorem at?_child (h : root.at? address = some parent) (k : Nat) : root.at? (address ++ [k]) = parent.children[k]? := by
  rw [at?_append, h, Option.bind_some, at?]
  cases parent.children[k]? <;> rfl

namespace InSequence

theorem at? (h : root.InSequence) (hat : root.at? address = some parent) : parent.InSequence := by
  intro a n hn
  refine h (address ++ a) n ?_
  rw [at?_append, hat, Option.bind_some, hn]

theorem orderly (h : root.InSequence) : root.Orderly := h [] root rfl

theorem child (h : root.InSequence) (hn : n ∈ root.children) : n.InSequence := by
  obtain ⟨k, hk⟩ := List.mem_iff_getElem?.1 hn
  exact h.at? (at?_cons.2 ⟨n, hk, rfl⟩ : root.at? [k] = some n)

/-- A node stands inside those around it. -/
theorem within (h : root.InSequence) (hat : root.at? a = some n) : n.span.Within root.span := by
  induction a generalizing root with
  | nil =>
    obtain rfl := Option.some.inj hat
    exact ⟨Nat.le_refl _, Nat.le_refl _⟩
  | cons place rest ih =>
    obtain ⟨child, hchild, hrest⟩ := at?_cons.1 hat
    have hmem := List.mem_of_getElem? hchild
    have houter := h.orderly.inside child hmem
    have hinner := ih (h.child hmem) hrest
    exact ⟨Nat.le_trans houter.1 hinner.1, Nat.le_trans hinner.2 houter.2⟩

/-- A node stands before all that is inside a later sibling. -/
theorem apart {c c' : Node} {rest' : Address} (h : root.InSequence) (hlt : i < k) (hc : root.at? (i :: rest) = some c)
    (hc' : root.at? (k :: rest') = some c') : c.span.stop ≤ c'.span.start := by
  obtain ⟨child, hchild, hrest⟩ := at?_cons.1 hc
  obtain ⟨child', hchild', hrest'⟩ := at?_cons.1 hc'
  have hbetween : child.span.stop ≤ child'.span.start := by
    obtain ⟨hi, rfl⟩ := List.getElem?_eq_some_iff.1 hchild
    obtain ⟨hk, rfl⟩ := List.getElem?_eq_some_iff.1 hchild'
    exact List.pairwise_iff_getElem.1 h.orderly.sequence i k hi hk hlt
  have hinside := (h.child (List.mem_of_getElem? hchild)).within hrest
  have hinside' := (h.child (List.mem_of_getElem? hchild')).within hrest'
  exact Nat.le_trans hinside.2 (Nat.le_trans hbetween hinside'.1)

/-- No two comments of a tree have the same span. -/
theorem address_unique {c c' : Node} {a' : Address} (h : root.InSequence) (ha : root.at? a = some c)
    (ha' : root.at? a' = some c') (hc : c.isComment = true) (hc' : c'.isComment = true) (hspan : c.span = c'.span) :
    a = a' := by
  have hleaf {root c n : Node} {place : Nat} {rest : Address} (h : root.InSequence) (hroot : root.at? [] = some c)
      (hc : c.isComment = true) (hrest : root.at? (place :: rest) = some n) : False := by
    obtain rfl := Option.some.inj hroot
    obtain ⟨child, hchild, -⟩ := at?_cons.1 hrest
    rw [h.orderly.leaf (by simp [takesComments, hc])] at hchild
    cases hchild
  have hsolid := (h a c ha).solid hc
  rw [hspan] at hsolid
  induction a generalizing root a' with
  | nil =>
    cases a' with
    | nil => rfl
    | cons place' rest' => exact (hleaf h ha hc ha').elim
  | cons place rest ih =>
    cases a' with
    | nil => exact (hleaf h ha' hc' ha).elim
    | cons place' rest' =>
      rcases Nat.lt_trichotomy place place' with hlt | rfl | hlt
      · have hapart := h.apart hlt ha ha'
        rw [hspan] at hapart
        exact absurd hapart (Nat.not_le_of_lt hsolid)
      · obtain ⟨child, hchild, hrest⟩ := at?_cons.1 ha
        obtain ⟨_, hchild', hrest'⟩ := at?_cons.1 ha'
        obtain rfl := Option.some.inj (hchild.symm.trans hchild')
        rw [ih (h.child (List.mem_of_getElem? hchild)) hrest hrest']
      · have hapart := h.apart hlt ha' ha
        rw [hspan] at hapart
        exact absurd hapart (Nat.not_le_of_lt hsolid)

end InSequence

end Node

/-! ## Parsed trees are in order -/

section

variable {b : Nat} {word : List Char} {n : Node}

theorem Node.Written.orderly (h : n.Written b word) : n.Orderly where
  inside child hchild := by
    rcases h.stands_children with hnone | hstands
    · rw [hnone] at hchild
      cases hchild
    · have hbounds := hstands.bounds hchild
      rwa [← h.stop, ← h.start] at hbounds
  sequence := by
    rcases h.stands_children with hnone | hstands
    · rw [hnone]
      exact .nil
    · exact hstands.pairwise
  leaf htakes := by
    obtain ⟨_, -, hfills⟩ := h.filled
    cases hfills with
    | leaf childless => exact childless
    | node _ _ _ _ _ noted shaped =>
      obtain ⟨text, hkind⟩ : ∃ text, n.kind = .token text := by
        cases hkind : n.kind <;> simp_all [Node.takesComments, Node.isNamed, Kind.isNamed]
      rw [hkind] at shaped
      exact shaped.elim
  solid hcomment := by
    obtain ⟨tail, rfl⟩ := h.eq_of_comment hcomment
    have hpos : 0 < Text.byteLength ('/' :: tail) := Text.byteLength_pos (by simp)
    rw [Node.span, h.start, h.stop]
    exact Nat.lt_add_of_pos_right hpos

/-- All nodes inside a written node are written, and so they are orderly. -/
theorem Node.Written.inSequence (h : n.Written b word) : n.InSequence := by
  intro a m hm
  induction a generalizing n b word with
  | nil =>
    obtain rfl := Option.some.inj hm
    exact h.orderly
  | cons place rest ih =>
    obtain ⟨child, hchild, hrest⟩ := Node.at?_cons.1 hm
    have hmem := List.mem_of_getElem? hchild
    rcases h.stands_children with hnone | hstands
    · rw [hnone] at hmem
      cases hmem
    · obtain ⟨_, _, _, -, hwritten⟩ := hstands.exists_written hmem
      exact ih hwritten hrest

end

theorem inSequence_of_parseChars {source : List Char} {root : Node} (h : parseChars source = .ok root) :
    root.InSequence := by
  obtain ⟨lead, cs, trail, hsource, hstands, ⟨hkind, hspan⟩, -⟩ := stands_of_parseChars h
  intro a n hn
  cases a with
  | nil =>
    obtain rfl := Option.some.inj hn
    refine ⟨fun child hchild => ?_, hstands.pairwise, ?_, ?_⟩
    · have hbounds := hstands.bounds hchild
      rw [hspan, hsource, Text.byteLength_append, Text.byteLength_append]
      exact ⟨Nat.zero_le _, Nat.le_trans hbounds.2 (Nat.le_add_right _ _)⟩
    · intro htakes
      simp [Node.takesComments, Node.isNamed, Node.isComment, hkind, Kind.isNamed] at htakes
    · intro hcomment
      simp [Node.isComment, hkind] at hcomment
  | cons place rest =>
    obtain ⟨child, hchild, hrest⟩ := Node.at?_cons.1 hn
    obtain ⟨_, _, _, -, hwritten⟩ := hstands.exists_written (List.mem_of_getElem? hchild)
    exact hwritten.inSequence rest n hrest

/-! ## Comments by address -/

namespace Node

variable {root parent n comment : Node} {a address : Address} {i k : Nat} {span : Span}

theorem commentsBelow_eq (ns : List Node) (place : Nat) (rest : Address) :
    commentsBelow ns place rest =
      (ns[place]?.elim [] fun n => if n.takesComments then n.commentsAt rest else []) := by
  induction ns generalizing place with
  | nil => rfl
  | cons n ns ih =>
    cases place with
    | zero => rfl
    | succ place => exact ih place

theorem commentsAt_cons (root : Node) (place : Nat) {rest : Address} (h : rest ≠ []) :
    root.commentsAt (place :: rest) =
      (root.children[place]?.elim [] fun n => if n.takesComments then n.commentsAt rest else []) := by
  cases rest with
  | nil => exact absurd rfl h
  | cons next rest =>
    rw [← commentsBelow_eq]
    cases root
    rfl

theorem exists_parent_of_mem (h : span ∈ root.commentsAt a) :
    ∃ address parent k, a = address ++ [k] ∧ root.at? address = some parent := by
  induction a generalizing root with
  | nil =>
    rw [commentsAt_nil] at h
    cases h
  | cons place rest ih =>
    by_cases hrest : rest = []
    · exact ⟨[], root, place, by rw [hrest]; rfl, rfl⟩
    · rw [commentsAt_cons root place hrest] at h
      cases hchild : root.children[place]? with
      | none =>
        rw [hchild] at h
        cases h
      | some child =>
        rw [hchild, Option.elim_some] at h
        split at h
        · obtain ⟨address, parent, k, rfl, hparent⟩ := ih h
          exact ⟨place :: address, parent, k, rfl, at?_cons.2 ⟨child, hchild, hparent⟩⟩
        · cases h

namespace InSequence

/-- The comments of a child are those that it is given among its siblings. -/
theorem commentsAt_child (h : root.InSequence) (hat : root.at? address = some parent) (k : Nat) :
    root.commentsAt (address ++ [k]) = given ⟨none, []⟩ parent.children k := by
  induction address generalizing root with
  | nil =>
    obtain rfl := Option.some.inj hat
    exact commentsAt_singleton root k
  | cons place rest ih =>
    obtain ⟨child, hchild, hrest⟩ := at?_cons.1 hat
    have hsequence := h.child (List.mem_of_getElem? hchild)
    rw [List.cons_append, commentsAt_cons root place (by simp), hchild, Option.elim_some]
    split
    · exact ih hsequence hrest
    · -- Nothing is inside a comment or a bare token.
      rename_i htakes
      have hnone := hsequence.orderly.leaf (by simpa using htakes)
      cases rest with
      | nil =>
        obtain rfl := Option.some.inj hrest
        rw [hnone]
        rfl
      | cons next rest =>
        obtain ⟨_, hnext, -⟩ := at?_cons.1 hrest
        rw [hnone] at hnext
        cases hnext

/-- A comment is attached to the sibling that it belongs to, and nowhere else. -/
theorem mem_spansAt_iff (h : root.InSequence) (hat : root.at? address = some parent)
    (hcomment : CommentAt parent.children i comment) :
    comment.span ∈ root.commentMap.spansAt a ↔ ∃ k, a = address ++ [k] ∧ Belongs parent.children i k := by
  rw [spansAt_commentMap]
  constructor
  · intro hmem
    obtain ⟨address', parent', k, rfl, hat'⟩ := exists_parent_of_mem hmem
    rw [h.commentsAt_child hat', mem_given] at hmem
    obtain ⟨j, other, hother, hspan, hbelongs⟩ := hmem
    have haddress : address' ++ [j] = address ++ [i] :=
      h.address_unique ((at?_child hat' j).trans hother.1) ((at?_child hat i).trans hcomment.1) hother.2 hcomment.2
        hspan
    obtain ⟨rfl, hj⟩ := List.append_inj' haddress rfl
    obtain rfl := List.head_eq_of_cons_eq hj
    obtain rfl := Option.some.inj (hat.symm.trans hat')
    exact ⟨k, rfl, hbelongs⟩
  · rintro ⟨k, rfl, hbelongs⟩
    rw [h.commentsAt_child hat, mem_given]
    exact ⟨i, comment, hcomment, rfl, hbelongs⟩

end InSequence

end Node

/-! ## The partition -/

/-- One span ends before the other starts. -/
def Span.Precedes (s t : Span) : Prop :=
  s.start < t.start ∧ s.stop ≤ t.start

/-- The map has the comment for the node at the address. -/
def CommentMap.Attaches (map : CommentMap) (comment : Node) (a : Address) : Prop :=
  comment.span ∈ map.spansAt a

/-- What becomes of the comment at the place `i` among the children of the node at an address. -/
structure CommentMap.Settles (map : CommentMap) (address : Address) (siblings : List Node) (i : Nat)
    (comment : Node) : Prop where
  sibling : ∀ a, map.Attaches comment a → ∃ k host, a = address ++ [k] ∧ HostAt siblings k host
  once : ∀ a b, map.Attaches comment a → map.Attaches comment b → a = b
  /-- It trails the last host before it if it starts on the row where the host stops and no comment between them is
  left waiting. -/
  trails : ∀ k host, LastBefore siblings i k host →
    (map.Attaches comment (address ++ [k]) ↔ comment.start.row = host.stop.row ∧
      ∀ j c, k < j → j < i → CommentAt siblings j c → map.Attaches c (address ++ [k]))
  /-- Otherwise it leads the next host. -/
  leads : ∀ k host, NextAfter siblings i k host →
    (map.Attaches comment (address ++ [k]) ↔
      ∀ l last, LastBefore siblings i l last → ¬ map.Attaches comment (address ++ [l]))
  loose : (∀ a, ¬ map.Attaches comment a) ↔
    (∀ k host, LastBefore siblings i k host → ¬ map.Attaches comment (address ++ [k])) ∧
      ∀ k host, i < k → ¬ HostAt siblings k host

namespace Node.InSequence

variable {root parent n comment : Node} {a address : Address} {i k : Nat}

theorem settles (h : root.InSequence) (hat : root.at? address = some parent)
    (hcomment : CommentAt parent.children i comment) :
    root.commentMap.Settles address parent.children i comment := by
  have hattaches {j : Nat} {c : Node} (hc : CommentAt parent.children j c) (k : Nat) :
      root.commentMap.Attaches c (address ++ [k]) ↔ Belongs parent.children j k := by
    rw [CommentMap.Attaches, h.mem_spansAt_iff hat hc]
    simp
  have htrails : (∀ l last, LastBefore parent.children i l last → ¬ root.commentMap.Attaches comment (address ++ [l])) ↔
      ∀ l last, ¬ Trails parent.children i l last := by
    constructor
    · intro hnone l last htrails
      exact hnone l last htrails.lastBefore ((hattaches hcomment l).2 ⟨last, .inl htrails⟩)
    · intro hnone l last hlast hmem
      rw [hattaches hcomment, hlast.belongs_iff] at hmem
      exact hnone l last hmem
  constructor
  case sibling =>
    intro a ha
    obtain ⟨k, rfl, hbelongs⟩ := (h.mem_spansAt_iff hat hcomment).1 ha
    obtain ⟨host, hhost⟩ := hbelongs.exists_host
    exact ⟨k, host, rfl, hhost⟩
  case once =>
    intro a b ha hb
    obtain ⟨k, rfl, hk⟩ := (h.mem_spansAt_iff hat hcomment).1 ha
    obtain ⟨l, rfl, hl⟩ := (h.mem_spansAt_iff hat hcomment).1 hb
    rw [hk.unique hl]
  case trails =>
    intro k host hlast
    rw [hattaches hcomment, hlast.belongs_iff, hlast.trails_iff hcomment]
    refine and_congr_right fun _ => ?_
    refine forall_congr' fun j => forall_congr' fun c => forall_congr' fun hk => forall_congr' fun hj => ?_
    refine forall_congr' fun hc => ?_
    rw [hattaches hc, (hlast.earlier hk (Nat.le_of_lt hj)).belongs_iff]
  case leads =>
    intro k host hnext
    rw [hattaches hcomment, hnext.belongs_iff, htrails]
  case loose =>
    rw [htrails]
    constructor
    · intro hloose
      have hnone : ∀ l last, ¬ Trails parent.children i l last := fun l last hl =>
        hloose (address ++ [l]) ((hattaches hcomment l).2 ⟨last, .inl hl⟩)
      refine ⟨hnone, fun k host hi hhost => ?_⟩
      obtain ⟨l, other, hnext⟩ := exists_nextAfter hi hhost
      exact hloose (address ++ [l]) ((hattaches hcomment l).2 ⟨other, .inr ⟨hnext, hnone⟩⟩)
    · rintro ⟨hnone, hlast⟩ a ha
      obtain ⟨k, rfl, host, htrails | ⟨hnext, -⟩⟩ := (h.mem_spansAt_iff hat hcomment).1 ha
      · exact hnone k host htrails
      · exact hlast k host hnext.behind hnext.isHost

theorem pairwise_commentSpans (h : root.InSequence) : (commentSpans root.children).Pairwise Span.Precedes := by
  rw [commentSpans, List.pairwise_map]
  refine (h.orderly.sequence.filter isComment).imp_of_mem fun {m m'} hm _ hsequence => ?_
  obtain ⟨hmem, hcomment⟩ := List.mem_filter.1 hm
  exact ⟨Nat.lt_of_lt_of_le ((h.child hmem).orderly.solid hcomment) hsequence, hsequence⟩

theorem given_ordered (h : parent.InSequence) (hn : parent.children[k]? = some n) : ∃ lead trail,
    given ⟨none, []⟩ parent.children k = lead ++ trail ∧ (lead ++ trail).Pairwise Span.Precedes ∧
      (∀ s ∈ lead, s.stop ≤ n.span.start) ∧ ∀ s ∈ trail, n.span.stop ≤ s.start := by
  obtain ⟨lead, trail, hgiven, hlead, htrail⟩ :=
    exists_given_eq (w := ⟨none, []⟩) (List.nil_sublist (commentSpans [])) parent.children k
  rw [List.nil_append] at hlead
  have hsplit : parent.children.take k ++ n :: parent.children.drop (k + 1) = parent.children := by
    obtain ⟨hk, rfl⟩ := List.getElem?_eq_some_iff.1 hn
    rw [← List.drop_eq_getElem_cons hk, List.take_append_drop]
  have hsequence := h.orderly.sequence
  rw [← hsplit, List.pairwise_append, List.pairwise_cons] at hsequence
  obtain ⟨-, ⟨hbehind, -⟩, hbefore⟩ := hsequence
  refine ⟨lead, trail, hgiven, ?_, fun s hs => ?_, fun s hs => ?_⟩
  · have hothers : (parent.children.take k ++ parent.children.drop (k + 1)).Sublist parent.children := by
      conv_rhs => rw [← hsplit]
      exact (List.Sublist.refl _).append (List.sublist_cons_self n _)
    have hall : (lead ++ trail).Sublist (commentSpans parent.children) := by
      refine (hlead.append htrail).trans ?_
      rw [← commentSpans_append]
      exact (hothers.filter isComment).map span
    exact h.pairwise_commentSpans.sublist hall
  · obtain ⟨m, hm, rfl⟩ := List.mem_map.1 (hlead.subset hs)
    exact hbefore m (List.mem_filter.1 hm).1 n List.mem_cons_self
  · obtain ⟨m, hm, rfl⟩ := List.mem_map.1 (htrail.subset hs)
    exact hbehind m (List.mem_filter.1 hm).1

/-- The comments of a node stand around it in source order. -/
theorem spansAt_ordered (h : root.InSequence) (hat : root.at? a = some n) : ∃ lead trail,
    root.commentMap.spansAt a = lead ++ trail ∧ (lead ++ trail).Pairwise Span.Precedes ∧
      (∀ s ∈ lead, s.stop ≤ n.span.start) ∧ ∀ s ∈ trail, n.span.stop ≤ s.start := by
  rw [spansAt_commentMap]
  rcases List.eq_nil_or_concat a with rfl | ⟨address, k, rfl⟩
  · exact ⟨[], [], commentsAt_nil root, .nil, by simp, by simp⟩
  · rw [List.concat_eq_append] at hat ⊢
    have hparent := hat
    rw [at?_append] at hparent
    obtain ⟨parent, hparent, -⟩ := Option.bind_eq_some_iff.1 hparent
    rw [at?_child hparent] at hat
    rw [h.commentsAt_child hparent]
    exact (h.at? hparent).given_ordered hat

end Node.InSequence

/-- Parsed trees are in order. The walk over a tree in order finds what recursion finds; it settles every comment, and
the comments of a node stand around it in source order. -/
theorem Node.commentMap_partitions :
    (∀ source root, parseChars source = .ok root → root.InSequence) ∧
      ∀ root : Node, root.InSequence →
        (∀ a spans, root.commentMap.lookup a = some spans ↔ spans ≠ [] ∧ root.commentsAt a = spans) ∧
        (∀ address parent i comment, root.at? address = some parent → CommentAt parent.children i comment →
          root.commentMap.Settles address parent.children i comment) ∧
        ∀ a n, root.at? a = some n → ∃ lead trail, root.commentMap.spansAt a = lead ++ trail ∧
          (lead ++ trail).Pairwise Span.Precedes ∧ (∀ s ∈ lead, s.stop ≤ n.span.start) ∧
          ∀ s ∈ trail, n.span.stop ≤ s.start := by
  refine ⟨fun source root hparse => inSequence_of_parseChars hparse, fun root h => ⟨root.lookup_commentMap, ?_, ?_⟩⟩
  · intro address parent i comment hat hcomment
    exact h.settles hat hcomment
  · intro a n hat
    exact h.spansAt_ordered hat

/-- A file with a comment over two lines behind a declaration, and one more comment behind that. -/
def remarkedSource : String := "package p\n\n// a\nvar x int /* b\n c */ // d\nvar y int // e\n// f\n"

/-- The comment `// d` starts on the row where another comment stops, not on that of `x`, and so it leads `y`. -/
theorem Node.commentMap_partitions_remarkedSource : ∃ root comment, parseChars remarkedSource.toList = .ok root ∧
    root.commentMap = [([3], [⟨11, 15⟩, ⟨26, 36⟩]), ([7], [⟨37, 41⟩, ⟨52, 56⟩])] ∧
    root.children[5]? = some comment ∧ comment.text remarkedSource = "// d" ∧
    ∀ a, root.commentMap.Attaches comment a ↔ a = [7] := by
  obtain ⟨root, hparse, hfacts⟩ := exists_of_any (x := parseChars remarkedSource.toList)
    (p := fun root => root.commentMap == [([3], [⟨11, 15⟩, ⟨26, 36⟩]), ([7], [⟨37, 41⟩, ⟨52, 56⟩])] &&
      root.children[5]?.any fun c => c.isComment && (c.text remarkedSource == "// d" && c.span == ⟨37, 41⟩))
    (by decide +kernel)
  simp only [Bool.and_eq_true, beq_iff_eq, Option.any_eq_true] at hfacts
  obtain ⟨hmap, comment, hat, hcomment, htext, hspan⟩ := hfacts
  have hled : root.commentMap.Attaches comment [7] := by
    rw [CommentMap.Attaches, hmap, hspan]
    decide
  obtain ⟨hparsed, hordered⟩ := commentMap_partitions
  obtain ⟨-, hsettled, -⟩ := hordered root (hparsed _ _ hparse)
  refine ⟨root, comment, hparse, hmap, hat, htext, fun a => ⟨fun ha => ?_, fun ha => ha ▸ hled⟩⟩
  exact (hsettled [] root 5 comment rfl ⟨hat, hcomment⟩).once a [7] ha hled

end GoOutline
