import GoOutline.Grammar.CommentMap

/-!
# The walk that shares out comments

The comments of the node at an address can also be told by recursion over the tree (`Node.commentsAt`). The walk with
its list of nodes to enter finds the same (`Node.lookup_commentMap`): what the map has for a node and what it is still
to get make up its comments at every step.
-/
namespace GoOutline

/-! ## By recursion -/

/-- What is known of the siblings before a place. -/
structure Waiting where
  /-- Where the last sibling stops that is no comment, if there is one. -/
  row : Option Nat
  /-- The comments that wait for the next sibling. -/
  pending : List Span

/-- What is known behind one more sibling. -/
def Waiting.next (w : Waiting) (n : Node) : Waiting :=
  if n.isComment then
    if w.pending = [] ∧ w.row = some n.start.row then w else { w with pending := w.pending ++ [n.span] }
  else if n.isNamed then ⟨some n.stop.row, []⟩
  else w

namespace Node

/-- Spans of the comments that trail a node: the run of comments right after it that start on the row where it stops.
Bare tokens between them do not count. -/
def trailing (row : Nat) (following : List Node) : List Span :=
  ((following.filter isNamed).takeWhile fun n => n.isComment && n.start.row == row).map span

/-- The comments of the sibling at a place. -/
def given (w : Waiting) : List Node → Nat → List Span
  | [], _ => []
  | n :: ns, 0 => if n.takesComments then w.pending ++ trailing n.stop.row ns else []
  | n :: ns, place + 1 => given (w.next n) ns place

mutual

/-- The comments of the node at an address in a tree. -/
def commentsAt : Node → Address → List Span
  | _, [] => []
  | mk _ _ _ _ _ children, [place] => given ⟨none, []⟩ children place
  | mk _ _ _ _ _ children, place :: rest => commentsBelow children place rest

/-- The comments of the node at an address in the tree at a place of a list. -/
def commentsBelow : List Node → Nat → Address → List Span
  | [], _, _ => []
  | n :: _, 0, rest => if n.takesComments then n.commentsAt rest else []
  | _ :: ns, place + 1, rest => commentsBelow ns place rest

end

theorem commentsAt_nil (n : Node) : n.commentsAt [] = [] := by
  cases n
  rfl

theorem commentsAt_singleton (n : Node) (place : Nat) : n.commentsAt [place] = given ⟨none, []⟩ n.children place := by
  cases n
  rfl

theorem commentsBelow_nil (ns : List Node) (place : Nat) : commentsBelow ns place [] = [] := by
  induction ns generalizing place with
  | nil => rfl
  | cons n ns ih =>
    cases place with
    | zero => simp [commentsBelow, commentsAt_nil]
    | succ place => exact ih place

theorem isNamed_of_isComment {n : Node} (h : n.isComment = true) : n.isNamed = true := by
  have hkind : n.kind = .comment := by simpa [isComment] using h
  rw [isNamed, hkind]
  rfl

theorem isComment_of_bare {n : Node} (h : n.isNamed = false) : n.isComment = false := by
  cases hn : n.isComment with
  | false => rfl
  | true => rw [isNamed_of_isComment hn] at h; cases h

section

variable {n : Node} (ns : List Node)

theorem trailing_bare (row : Nat) (h : n.isNamed = false) : trailing row (n :: ns) = trailing row ns := by
  simp [trailing, h]

theorem trailing_host (row : Nat) (h : n.takesComments = true) : trailing row (n :: ns) = [] := by
  simp only [takesComments, Bool.and_eq_true, Bool.not_eq_true'] at h
  simp [trailing, h]

theorem trailing_comment (row : Nat) (h : n.isComment = true) :
    trailing row (n :: ns) = if n.start.row = row then n.span :: trailing row ns else [] := by
  rw [trailing, List.filter_cons_of_pos (isNamed_of_isComment h), List.takeWhile_cons]
  by_cases hrow : n.start.row = row
  · simp [h, hrow, trailing]
  · simp [h, hrow]

end

end Node

/-! ## The map -/

namespace CommentMap

theorem spansAt_cons (known : Address) (found : List Span) (map : CommentMap) (a : Address) :
    spansAt ((known, found) :: map) a = if a = known then found else map.spansAt a := by
  by_cases h : a = known
  · subst h
    simp [spansAt]
  · simp [spansAt, List.lookup_cons, beq_eq_false_iff_ne.2 h, h]

theorem spansAt_add (map : CommentMap) (address : Address) (spans : List Span) (a : Address) :
    (map.add address spans).spansAt a = map.spansAt a ++ if a = address then spans else [] := by
  induction map with
  | nil => rw [add, spansAt_cons]; simp [spansAt]
  | cons entry rest ih =>
    obtain ⟨known, found⟩ := entry
    by_cases hadd : address = known
    · subst hadd
      rw [add, if_pos (by simp), spansAt_cons, spansAt_cons]
      split <;> simp
    · rw [add, if_neg (by simpa using hadd), spansAt_cons, spansAt_cons, ih]
      by_cases h : a = known
      · have hne : known ≠ address := fun heq => hadd heq.symm
        simp [h, hne]
      · simp [h]

end CommentMap

/-! ## Among the children of a node -/

namespace Sharing

def waiting (s : Sharing) : Waiting := ⟨s.previous.map fun last => last.1.stop.row, s.pending⟩

/-- What the child at a place gets from the children still to come, if it stands before them. -/
def trailed (s : Sharing) (k : Nat) (ns : List Node) : List Span :=
  match s.previous with
  | some (last, place) => if s.pending = [] ∧ place = k then Node.trailing last.stop.row ns else []
  | none => []

/-- The comments that the child at a place has and those that it is still to get, the children from `start` on being
still to come. -/
def dues (address : Address) (s : Sharing) (k start : Nat) (ns : List Node) : List Span :=
  s.map.spansAt (address ++ [k]) ++ s.trailed k ns ++ if start ≤ k then Node.given s.waiting ns (k - start) else []

variable {address : Address} {s : Sharing} {n : Node} {k start : Nat} {ns : List Node}

theorem given_cons : (if start ≤ k then Node.given s.waiting (n :: ns) (k - start) else []) =
    (if k = start ∧ n.takesComments then s.pending ++ Node.trailing n.stop.row ns else []) ++
      if start + 1 ≤ k then Node.given (s.waiting.next n) ns (k - (start + 1)) else [] := by
  rcases Nat.lt_trichotomy k start with hk | rfl | hk
  · rw [if_neg (by omega), if_neg (by omega), if_neg (by omega), List.append_nil]
  · have hlt : ¬ k + 1 ≤ k := by omega
    simp [Node.given, waiting, hlt]
  · obtain ⟨j, rfl⟩ : ∃ j, k = start + 1 + j := ⟨k - (start + 1), by omega⟩
    have hj : start + 1 + j - start = j + 1 := by omega
    rw [if_pos (by omega), if_neg (by omega), if_pos (by omega), hj, Nat.add_sub_cancel_left]
    simp [Node.given]

/-- A bare token changes nothing. -/
theorem dues_bare (h : n.isNamed = false) :
    s.dues address k start (n :: ns) = s.dues address k (start + 1) ns := by
  have htrailed : s.trailed k (n :: ns) = s.trailed k ns := by
    simp only [trailed, Node.trailing_bare ns _ h]
  have hnext : s.waiting.next n = s.waiting := by simp [Waiting.next, Node.isComment_of_bare h, h]
  rw [dues, dues, htrailed, given_cons, hnext]
  simp [Node.takesComments, h]

/-- A comment goes to the last child if it stands on its row and none waits; otherwise it waits. -/
theorem step_comment (address : Address) (s : Sharing) (start : Nat) (h : n.isComment = true) :
    (∃ last place, s.previous = some (last, place) ∧ s.pending = [] ∧ n.start.row = last.stop.row ∧
      s.step address (n, start) = { s with map := s.map.add (address ++ [place]) [n.span] }) ∨
    ((∀ last place, s.previous = some (last, place) → s.pending = [] → n.start.row ≠ last.stop.row) ∧
      s.step address (n, start) = s.hold n) := by
  rw [step, if_pos h]
  cases hprevious : s.previous with
  | none => exact .inr ⟨by simp, rfl⟩
  | some previous =>
    obtain ⟨last, place⟩ := previous
    dsimp only
    split
    · rename_i htrails
      simp only [Bool.and_eq_true, List.isEmpty_iff, beq_iff_eq] at htrails
      exact .inl ⟨last, place, rfl, htrails.1, htrails.2.symm, rfl⟩
    · rename_i hwaits
      simp only [Bool.and_eq_true, List.isEmpty_iff, beq_iff_eq, not_and] at hwaits
      refine .inr ⟨?_, rfl⟩
      rintro _ _ ⟨⟩ hpending hrow
      exact hwaits hpending hrow.symm

/-- Any other child gets the comments that wait. -/
theorem step_host (h : n.isComment = false) :
    s.step address (n, start) =
      ⟨if s.pending.isEmpty then s.map else s.map.add (address ++ [start]) s.pending, some (n, start), []⟩ := by
  rw [step, if_neg (by simp [h])]

/-- In the map, a child adds comments to one node at most. -/
theorem map_step_cases (address : Address) (s : Sharing) (child : Node × Nat) :
    (s.step address child).map = s.map ∨
      ∃ place spans, spans ≠ [] ∧ (s.step address child).map = s.map.add (address ++ [place]) spans := by
  obtain ⟨n, start⟩ := child
  cases hn : n.isComment with
  | true =>
    rcases step_comment address s start hn with ⟨last, place, -, -, -, hstep⟩ | ⟨-, hstep⟩
    · exact .inr ⟨place, [n.span], by simp, by rw [hstep]⟩
    · exact .inl (by rw [hstep]; rfl)
  | false =>
    rw [step_host hn]
    by_cases hpending : s.pending = []
    · exact .inl (by simp [hpending])
    · exact .inr ⟨start, s.pending, hpending, by simp [hpending]⟩

theorem waiting_step (h : n.isNamed = true) : (s.step address (n, start)).waiting = s.waiting.next n := by
  by_cases hn : n.isComment = true
  · rcases step_comment address s start hn with ⟨last, place, hprevious, hpending, hrow, hstep⟩ | ⟨hwaits, hstep⟩
    · simp [hstep, waiting, Waiting.next, hn, hprevious, hpending, hrow]
    · have hwaits' : ¬ (s.waiting.pending = [] ∧ s.waiting.row = some n.start.row) := by
        rintro ⟨hpending, hrow⟩
        obtain ⟨⟨last, place⟩, hprevious, hlast⟩ := Option.map_eq_some_iff.1 hrow
        exact hwaits last place hprevious hpending hlast.symm
      rw [hstep, Waiting.next, if_pos hn, if_neg hwaits']
      rfl
  · simp [step_host (by simpa using hn), waiting, Waiting.next, hn, h]

theorem trailed_step_comment (h : n.isComment = true) :
    (s.step address (n, start)).map.spansAt (address ++ [k]) ++ (s.step address (n, start)).trailed k ns =
      s.map.spansAt (address ++ [k]) ++ s.trailed k (n :: ns) := by
  rcases step_comment address s start h with ⟨last, place, hprevious, hpending, hrow, hstep⟩ | ⟨hwaits, hstep⟩
  · rw [hstep, CommentMap.spansAt_add]
    by_cases hk : k = place
    · simp [trailed, hprevious, hpending, hk, Node.trailing_comment ns _ h, hrow]
    · have hk' : place ≠ k := fun heq => hk heq.symm
      simp [trailed, hprevious, hk, hk']
  · have hnow : s.trailed k (n :: ns) = [] := by
      unfold trailed
      split
      · rename_i last place hprevious
        rw [Node.trailing_comment ns _ h]
        split
        · rename_i hpending
          rw [if_neg (hwaits last place hprevious hpending.1)]
        · rfl
      · rfl
    have hlater : (s.hold n).trailed k ns = [] := by
      unfold trailed hold
      split <;> simp
    rw [hstep, hnow, hlater]
    rfl

theorem trailed_step_host (h : n.takesComments = true) :
    (s.step address (n, start)).map.spansAt (address ++ [k]) ++ (s.step address (n, start)).trailed k ns =
      s.map.spansAt (address ++ [k]) ++ if k = start then s.pending ++ Node.trailing n.stop.row ns else [] := by
  simp only [Node.takesComments, Bool.and_eq_true, Bool.not_eq_true'] at h
  rw [step_host h.2]
  by_cases hk : k = start
  · subst hk
    by_cases hpending : s.pending = []
    · simp [trailed, hpending]
    · simp [trailed, hpending, CommentMap.spansAt_add]
  · have hk' : start ≠ k := fun heq => hk heq.symm
    by_cases hpending : s.pending = []
    · simp [trailed, hpending, hk, hk']
    · simp [trailed, hpending, CommentMap.spansAt_add, hk, hk']

/-- What a child has and what it is still to get make up the same comments at every step. -/
theorem dues_step (h : n.isNamed = true) :
    (s.step address (n, start)).dues address k (start + 1) ns = s.dues address k start (n :: ns) := by
  rw [dues, dues, waiting_step h, given_cons]
  by_cases hn : n.isComment = true
  · rw [trailed_step_comment hn]
    simp [Node.takesComments, hn]
  · have hhost : n.takesComments = true := by simp [Node.takesComments, h, hn]
    have hnone : s.trailed k (n :: ns) = [] := by
      unfold trailed
      split <;> simp [Node.trailing_host ns _ hhost]
    rw [trailed_step_host hhost, hnone]
    simp [hhost]

/-- Over all children, what a child gets is what recursion gives to it. -/
theorem spansAt_foldl (s : Sharing) (start : Nat) (ns : List Node) :
    (((ns.zipIdx start).filter fun child => child.1.isNamed).foldl (step address) s).map.spansAt (address ++ [k]) =
      s.dues address k start ns := by
  induction ns generalizing s start with
  | nil =>
    have htrailed : s.trailed k [] = [] := by
      unfold trailed
      split <;> simp [Node.trailing]
    simp [dues, htrailed, Node.given]
  | cons n ns ih =>
    rw [List.zipIdx_cons]
    by_cases hn : n.isNamed = true
    · rw [List.filter_cons_of_pos (by simpa using hn), List.foldl_cons, ih, dues_step hn]
    · rw [List.filter_cons_of_neg (by simpa using hn), ih, dues_bare (by simpa using hn)]

/-- Nodes that are no children get nothing. -/
theorem spansAt_foldl_of_ne {a : Address} (h : ∀ k, a ≠ address ++ [k]) (s : Sharing) (children : List (Node × Nat)) :
    (children.foldl (step address) s).map.spansAt a = s.map.spansAt a := by
  induction children generalizing s with
  | nil => rfl
  | cons child children ih =>
    rw [List.foldl_cons, ih]
    rcases map_step_cases address s child with hmap | ⟨place, spans, -, hmap⟩
    · rw [hmap]
    · rw [hmap, CommentMap.spansAt_add, if_neg (h place), List.append_nil]

end Sharing

theorem CommentMap.spansAt_share_child (map : CommentMap) (address : Address) (n : Node) (k : Nat) :
    (map.share address n).spansAt (address ++ [k]) =
      map.spansAt (address ++ [k]) ++ Node.given ⟨none, []⟩ n.children k := by
  rw [share, Node.places, Sharing.spansAt_foldl]
  simp [Sharing.dues, Sharing.trailed, Sharing.waiting]

theorem CommentMap.spansAt_share_of_ne (map : CommentMap) (n : Node) {address a : Address}
    (h : ∀ k, a ≠ address ++ [k]) : (map.share address n).spansAt a = map.spansAt a := by
  rw [share, Sharing.spansAt_foldl_of_ne h]

/-! ## Over a tree -/

/-- The comments that the tree at one address holds for the node at another. -/
def commentsFrom (a : Address) (tree : Address × Node) : List Span :=
  if tree.1 <+: a then tree.2.commentsAt (a.drop tree.1.length) else []

section

variable {a address : Address} {n : Node}

theorem commentsFrom_append (address rest : Address) (n : Node) :
    commentsFrom (address ++ rest) (address, n) = n.commentsAt rest := by
  simp [commentsFrom]

theorem commentsFrom_of_not (h : ¬ address <+: a) (n : Node) : commentsFrom a (address, n) = [] :=
  if_neg h

theorem Node.inner_eq (address : Address) (n : Node) : n.inner address =
    (n.children.zipIdx.filter fun child => child.1.takesComments).map fun child => (address ++ [child.2], child.1) := by
  rw [inner, places, List.filter_filter]
  congr 2
  funext child
  exact Bool.and_comm _ _

theorem commentsFrom_child (address rest : Address) (k place : Nat) (n : Node) :
    commentsFrom (address ++ k :: rest) (address ++ [place], n) = if k = place then n.commentsAt rest else [] := by
  split
  · rename_i hk
    rw [hk, List.append_cons, commentsFrom_append]
  · rename_i hk
    refine commentsFrom_of_not (fun h => hk ?_) n
    rw [List.prefix_append_right_inj, List.cons_prefix_cons] at h
    exact h.1.symm

/-- Of the children of a node only one holds comments for the node at an address. -/
theorem flatMap_commentsFrom (address rest : Address) (k start : Nat) (ns : List Node) :
    (((ns.zipIdx start).filter fun child => child.1.takesComments).map
        fun child => (address ++ [child.2], child.1)).reverse.flatMap (commentsFrom (address ++ k :: rest)) =
      if start ≤ k then Node.commentsBelow ns (k - start) rest else [] := by
  induction ns generalizing start with
  | nil => simp [Node.commentsBelow]
  | cons n ns ih =>
    have hbelow : (if start ≤ k then Node.commentsBelow (n :: ns) (k - start) rest else []) =
        (if start + 1 ≤ k then Node.commentsBelow ns (k - (start + 1)) rest else []) ++
          if k = start ∧ n.takesComments then n.commentsAt rest else [] := by
      rcases Nat.lt_trichotomy k start with hk | rfl | hk
      · rw [if_neg (by omega), if_neg (by omega), if_neg (by omega), List.append_nil]
      · have hlt : ¬ k + 1 ≤ k := by omega
        simp [Node.commentsBelow, hlt]
      · obtain ⟨j, rfl⟩ : ∃ j, k = start + 1 + j := ⟨k - (start + 1), by omega⟩
        have hj : start + 1 + j - start = j + 1 := by omega
        rw [if_pos (by omega), if_pos (by omega), if_neg (by omega), hj, Nat.add_sub_cancel_left, List.append_nil]
        rfl
    rw [List.zipIdx_cons, hbelow, ← ih (start + 1)]
    by_cases hn : n.takesComments = true
    · rw [List.filter_cons_of_pos (by simpa using hn), List.map_cons, List.reverse_cons, List.flatMap_append,
        List.flatMap_singleton, commentsFrom_child]
      simp [hn]
    · rw [List.filter_cons_of_neg (by simpa using hn)]
      simp [hn]

/-- A node is exchanged for its children when what is among them has been shared out. -/
theorem CommentMap.spansAt_enter (map : CommentMap) (address : Address) (n : Node) (a : Address) :
    (map.share address n).spansAt a ++ (n.inner address).reverse.flatMap (commentsFrom a) =
      map.spansAt a ++ commentsFrom a (address, n) := by
  by_cases h : ∃ k rest, a = address ++ k :: rest
  · obtain ⟨k, rest, rfl⟩ := h
    rw [commentsFrom_append, Node.inner_eq, flatMap_commentsFrom, if_pos (Nat.zero_le k), Nat.sub_zero]
    cases rest with
    | nil => rw [spansAt_share_child, Node.commentsBelow_nil, List.append_nil, Node.commentsAt_singleton]
    | cons place rest =>
      rw [spansAt_share_of_ne map n (by simp)]
      cases n
      rfl
  · have hself : commentsFrom a (address, n) = [] := by
      by_cases hprefix : address <+: a
      · obtain ⟨rest, rfl⟩ := hprefix
        cases rest with
        | nil => rw [commentsFrom_append, Node.commentsAt_nil]
        | cons k rest => exact absurd ⟨k, rest, rfl⟩ h
      · exact commentsFrom_of_not hprefix n
    have hinner : (n.inner address).reverse.flatMap (commentsFrom a) = [] := by
      rw [List.flatMap_eq_nil_iff]
      intro entry hentry
      obtain ⟨child, -, rfl⟩ := List.mem_map.1 (List.mem_reverse.1 hentry)
      refine commentsFrom_of_not (fun hprefix => ?_) _
      obtain ⟨rest, rfl⟩ := hprefix
      exact h ⟨child.2, rest, by simp⟩
    rw [spansAt_share_of_ne map n (fun k hk => h ⟨k, [], hk⟩), hself, hinner]

theorem CommentMap.spansAt_collect (map : CommentMap) (work : List (Address × Node)) (a : Address) :
    (map.collect work).spansAt a = map.spansAt a ++ work.flatMap (commentsFrom a) := by
  fun_induction CommentMap.collect map work with
  | case1 => simp
  | case2 map address n rest ih =>
    rw [ih, List.flatMap_append, ← List.append_assoc, spansAt_enter, List.flatMap_cons, List.append_assoc]

theorem Node.spansAt_commentMap (root : Node) (a : Address) : root.commentMap.spansAt a = root.commentsAt a := by
  rw [commentMap, CommentMap.spansAt_collect]
  simp [CommentMap.spansAt, commentsFrom]

end

/-! ## No entries without comments -/

namespace CommentMap

/-- Every node in the map has comments. -/
def Filled (map : CommentMap) : Prop := ∀ entry ∈ map, entry.2 ≠ []

variable {map : CommentMap}

theorem Filled.add (h : map.Filled) (address : Address) {spans : List Span} (hspans : spans ≠ []) :
    (map.add address spans).Filled := by
  induction map with
  | nil => simpa [Filled, CommentMap.add] using hspans
  | cons entry rest ih =>
    obtain ⟨known, found⟩ := entry
    obtain ⟨hfound, hrest⟩ := List.forall_mem_cons.1 h
    rw [CommentMap.add]
    split
    · exact List.forall_mem_cons.2 ⟨by simp [hspans], hrest⟩
    · exact List.forall_mem_cons.2 ⟨hfound, ih hrest⟩

theorem Filled.foldl {s : Sharing} (h : s.map.Filled) (address : Address) (children : List (Node × Nat)) :
    (children.foldl (Sharing.step address) s).map.Filled := by
  induction children generalizing s with
  | nil => exact h
  | cons child children ih =>
    refine ih ?_
    rcases Sharing.map_step_cases address s child with hmap | ⟨place, spans, hspans, hmap⟩
    · rw [hmap]
      exact h
    · rw [hmap]
      exact h.add _ hspans

theorem Filled.collect (h : map.Filled) (work : List (Address × Node)) : (map.collect work).Filled := by
  fun_induction CommentMap.collect map work with
  | case1 => exact h
  | case2 map address n rest ih => exact ih (Filled.foldl (s := ⟨map, none, []⟩) h address n.places)

theorem Filled.lookup_eq_some_iff (h : map.Filled) (a : Address) (spans : List Span) :
    map.lookup a = some spans ↔ spans ≠ [] ∧ map.spansAt a = spans := by
  constructor
  · intro hlookup
    obtain ⟨before, after, hmap, -⟩ := List.lookup_eq_some_iff.1 hlookup
    exact ⟨h (a, spans) (by simp [hmap]), by rw [spansAt, hlookup, Option.getD_some]⟩
  · rintro ⟨hspans, rfl⟩
    cases hlookup : map.lookup a with
    | none => simp [spansAt, hlookup] at hspans
    | some found => rw [spansAt, hlookup, Option.getD_some]

end CommentMap

/-- The map of the walk is the one that recursion gives, with entries for the nodes that have comments. -/
theorem Node.lookup_commentMap (root : Node) (a : Address) (spans : List Span) :
    root.commentMap.lookup a = some spans ↔ spans ≠ [] ∧ root.commentsAt a = spans := by
  have hfilled : root.commentMap.Filled := CommentMap.Filled.collect (by simp [CommentMap.Filled]) _
  rw [hfilled.lookup_eq_some_iff, spansAt_commentMap]

end GoOutline
