import GoOutline.Proofs.Grammar.Parsed

/-!
# Trees with their spans in place

The spans of a tree are in place if each of them is a part of the source from one boundary between characters to another,
and the children of a node stand inside it, one behind the other (`Node.Placed`). A span in place has its text
(`Span.Valid.exists_text`). Parsed trees are in place, and the parts of maps and variadic parameters are in the order of the
grammar (`placed_of_parse`). In a tree in place the specs of a declaration stand one behind the other too
(`Node.Placed.pairwise_groupSpecs`).
-/
namespace GoOutline

/-! ## Spans in a source -/

namespace Text

/-- The byte is one that a character begins at, or the end of the text. -/
def IsBoundary (cs : List Char) (b : Nat) : Prop :=
  ∃ before after, cs = before ++ after ∧ b = byteLength before

theorem byteLength_pos {cs : List Char} (h : cs ≠ []) : 0 < byteLength cs := by
  cases cs with
  | nil => exact absurd rfl h
  | cons c cs =>
    have := c.utf8Size_pos
    rw [byteLength_cons]
    omega

/-- Between two boundaries in order stands a part of the text. -/
theorem exists_between {cs : List Char} {b e : Nat} (hb : IsBoundary cs b) (he : IsBoundary cs e) (hle : b ≤ e) :
    ∃ before inside after, cs = before ++ inside ++ after ∧ b = byteLength before ∧
      e = byteLength before + byteLength inside := by
  obtain ⟨before, after, hcs, rfl⟩ := hb
  obtain ⟨upto, rest, hcs', rfl⟩ := he
  rcases List.append_eq_append_iff.1 (hcs.symm.trans hcs') with ⟨inside, rfl, rfl⟩ | ⟨inside, rfl, rfl⟩
  · exact ⟨before, inside, rest, by simp [hcs], rfl, by simp⟩
  · -- the second boundary is not before the first, so nothing stands between them
    have hnone : inside = [] := by
      by_contra hsome
      have := byteLength_pos hsome
      rw [byteLength_append] at hle
      omega
    subst hnone
    exact ⟨upto, [], after, by simpa using hcs, by simp, by simp⟩

end Text

namespace Span

/-- The span is a part of the source and cuts no character. -/
structure Valid (source : String) (s : Span) : Prop where
  ordered : s.start ≤ s.stop
  start : Text.IsBoundary source.toList s.start
  stop : Text.IsBoundary source.toList s.stop

/-- The first span is a part of the second. -/
def Within (inner outer : Span) : Prop :=
  outer.start ≤ inner.start ∧ inner.stop ≤ outer.stop

variable {source : String} {s t : Span}

/-- The text of a valid span is what stands there in the source. -/
theorem Valid.exists_text (h : s.Valid source) :
    ∃ before inside after, source.toList = before ++ inside ++ after ∧ s.start = Text.byteLength before ∧
      s.stop = Text.byteLength before + Text.byteLength inside ∧ s.text source = String.ofList inside := by
  obtain ⟨before, inside, after, hsource, hstart, hstop⟩ := Text.exists_between h.start h.stop h.ordered
  refine ⟨before, inside, after, hsource, hstart, hstop, ?_⟩
  rw [Span.text, hstart, hstop, hsource, Text.sliceBytes_append]

theorem Valid.covering (hs : s.Valid source) (ht : t.Valid source) (h : s.start ≤ t.stop) :
    (Span.covering s t).Valid source :=
  ⟨h, hs.start, ht.stop⟩

end Span

/-! ## Trees -/

namespace Node

variable {source : String} {n m : Node}

/-- The spans of the tree are valid, and the children of every node stand inside it, one behind the other. -/
inductive Placed (source : String) : Node → Prop
  | mk {n : Node} (valid : n.span.Valid source) (inside : ∀ child ∈ n.children, child.span.Within n.span)
      (ordered : n.children.Pairwise fun a b => a.span.stop ≤ b.span.start)
      (children : ∀ child ∈ n.children, child.Placed source) : Placed source n

/-- In maps the key stands before the value, and in variadic parameters the ellipsis before the type. -/
inductive Arranged : Node → Prop
  | mk {n : Node}
      (map : n.kind = .mapType → ∀ key value, n.childIn .key = some key → n.childIn .value = some value →
        [key, value].Sublist n.children)
      (variadic : n.kind = .variadicParameterDeclaration → ∀ ellipsis type,
        n.children.find? (fun child => child.kind == .token "...") = some ellipsis → n.childIn .type = some type →
        [ellipsis, type].Sublist n.children)
      (children : ∀ child ∈ n.children, child.Arranged) : Arranged n

end Node

/-! ## Parsed trees -/

section

variable {source : String} {b : Nat} {cs : List Char} {n : Node} {ns : List Node}

theorem Stands.bounds (h : Stands Grammar.MayHold b cs ns) (hn : n ∈ ns) :
    b ≤ n.start.byte ∧ n.stop.byte ≤ b + Text.byteLength cs := by
  obtain ⟨before, word, after, rfl, hwritten⟩ := h.exists_written hn
  rw [hwritten.start, hwritten.stop]
  simp only [Text.byteLength_append]
  omega

/-- Nodes that stand in a source stand one behind the other. -/
theorem Stands.pairwise (h : Stands Grammar.MayHold b cs ns) :
    ns.Pairwise fun a b => a.span.stop ≤ b.span.start := by
  induction h with
  | nil => exact .nil
  | space _ _ ih => exact ih
  | @cons b inner word cs n ns start stop inside fills rest _ ih =>
    refine List.pairwise_cons.2 ⟨fun other hother => ?_, ih⟩
    have hbounds := rest.bounds hother
    simp only [Node.span, stop]
    exact hbounds.1

namespace Node

theorem IsWritten.valid (h : n.IsWritten source) : n.span.Valid source := by
  obtain ⟨word, before, after, hsource, hwritten⟩ := h
  refine ⟨?_, ⟨before, word ++ after, by simp [hsource], hwritten.start⟩, ⟨before ++ word, after, hsource, ?_⟩⟩
  · rw [span, hwritten.start, hwritten.stop]
    exact Nat.le_add_right _ _
  · rw [span, hwritten.stop, Text.byteLength_append]

/-- Nodes that stand in a part of the source, inside a valid span, are in place under it. -/
theorem placed_of_stands (valid : n.span.Valid source) (h : Stands Grammar.MayHold b cs n.children)
    (hstart : n.start.byte ≤ b) (hstop : b + Text.byteLength cs ≤ n.stop.byte)
    (hchildren : ∀ child ∈ n.children, child.Placed source) : n.Placed source := by
  refine .mk valid ?_ h.pairwise hchildren
  intro child hchild
  obtain ⟨hfirst, hlast⟩ := h.bounds hchild
  exact ⟨Nat.le_trans hstart hfirst, Nat.le_trans hlast hstop⟩

theorem IsWritten.placed (h : n.IsWritten source) : n.Placed source := by
  induction n using childInduction with
  | node n ih =>
    have hchildren : ∀ child ∈ n.children, child.Placed source := fun child hchild => ih child hchild (h.child hchild)
    have hvalid := h.valid
    obtain ⟨word, before, after, -, hwritten⟩ := h
    rcases hwritten.stands_children with hnone | hstands
    · exact .mk hvalid (by simp [hnone]) (by simp [hnone]) hchildren
    · exact placed_of_stands hvalid hstands (Nat.le_of_eq hwritten.start) (Nat.le_of_eq hwritten.stop.symm) hchildren

/-- The specs of a declaration stand one behind the other. -/
theorem Placed.pairwise_groupSpecs (h : n.Placed source) :
    n.groupSpecs.Pairwise fun a b => a.span.stop ≤ b.span.start := by
  obtain ⟨-, -, hordered, hchildren⟩ := h
  -- what stands for a child stands inside it
  have hwithin : ∀ child ∈ n.namedChildren, ∀ spec,
      spec ∈ (if child.kind.isSpecList then child.namedChildren.filter fun m => !m.isComment
        else if child.isComment then [] else [child]) → spec.span.Within child.span := by
    intro child hchild spec hspec
    obtain ⟨-, hinside, -, -⟩ := hchildren child (List.mem_filter.1 hchild).1
    split at hspec
    · exact hinside spec (List.mem_filter.1 (List.mem_filter.1 hspec).1).1
    · split at hspec
      · cases hspec
      · rw [List.mem_singleton.1 hspec]
        exact ⟨Nat.le_refl _, Nat.le_refl _⟩
  refine List.pairwise_flatMap.2 ⟨fun child hchild => ?_, ?_⟩
  · obtain ⟨-, -, hlist, -⟩ := hchildren child (List.mem_filter.1 hchild).1
    split
    · exact (hlist.filter _).filter _
    · split <;> simp
  · have hnamed : n.namedChildren.Pairwise fun a b => a.span.stop ≤ b.span.start := hordered.filter _
    refine hnamed.imp_of_mem fun {a b} ha hb hlt x hx y hy => ?_
    exact Nat.le_trans (hwithin a ha x hx).2 (Nat.le_trans hlt (hwithin b hb y hy).1)

theorem parts_sublist (n : Node) : n.parts.Sublist n.children :=
  List.filter_sublist

theorem IsWritten.map_sublist {key value : Node} (h : n.IsWritten source) (hkind : n.kind = .mapType)
    (hkey : n.childIn .key = some key) (hvalue : n.childIn .value = some value) :
    [key, value].Sublist n.children := by
  obtain ⟨_, _, _, -, hwritten⟩ := h
  obtain ⟨_, _, _, _, -, -, -, -, -, hshape⟩ :=
    hwritten.opened (List.ne_nil_of_mem (List.mem_of_find?_eq_some hkey))
  rw [hwritten.childIn_eq] at hkey hvalue
  rw [hkind] at hshape
  obtain ⟨keyKind, valueKind, -, -, hlabels⟩ := hshape
  obtain ⟨word, parts, hparts, hword, htail⟩ := List.map_eq_cons_iff.1 hlabels
  obtain ⟨bracket, parts, rfl, hbracket, htail⟩ := List.map_eq_cons_iff.1 htail
  obtain ⟨key', parts, rfl, hkey', htail⟩ := List.map_eq_cons_iff.1 htail
  obtain ⟨close, parts, rfl, hclose, htail⟩ := List.map_eq_cons_iff.1 htail
  obtain ⟨value', parts, rfl, hvalue', htail⟩ := List.map_eq_cons_iff.1 htail
  rw [hparts] at hkey hvalue
  obtain rfl : key' = key := by
    simpa [(label_eq hword).2, (label_eq hbracket).2, (label_eq hkey').2] using hkey
  obtain rfl : value' = value := by
    simpa [(label_eq hword).2, (label_eq hbracket).2, (label_eq hkey').2, (label_eq hclose).2,
      (label_eq hvalue').2] using hvalue
  refine List.Sublist.trans ?_ n.parts_sublist
  rw [hparts]
  exact .cons _ (.cons _ (.cons_cons _ (.cons _ (.cons_cons _ (List.nil_sublist _)))))

theorem IsWritten.variadic_sublist {ellipsis type : Node} (h : n.IsWritten source)
    (hkind : n.kind = .variadicParameterDeclaration)
    (hellipsis : n.children.find? (fun child => child.kind == .token "...") = some ellipsis)
    (htype : n.childIn .type = some type) : [ellipsis, type].Sublist n.children := by
  obtain ⟨_, _, _, -, hwritten⟩ := h
  obtain ⟨_, _, _, _, -, -, -, -, -, hshape⟩ :=
    hwritten.opened (List.ne_nil_of_mem (List.mem_of_find?_eq_some htype))
  rw [hwritten.childIn_eq] at htype
  rw [find?_children (by simp +contextual [isComment])] at hellipsis
  rw [hkind] at hshape
  refine List.Sublist.trans ?_ n.parts_sublist
  obtain ⟨kind, -, hlabels | hlabels⟩ := hshape
  · obtain ⟨first, parts, hparts, hfirst, htail⟩ := List.map_eq_cons_iff.1 hlabels
    obtain ⟨second, parts, rfl, hsecond, htail⟩ := List.map_eq_cons_iff.1 htail
    obtain rfl := List.map_eq_nil_iff.1 htail
    rw [hparts] at hellipsis htype
    obtain rfl : first = ellipsis := by simpa [(label_eq hfirst).1] using hellipsis
    obtain rfl : second = type := by simpa [(label_eq hfirst).2, (label_eq hsecond).2] using htype
    rw [hparts]
  · obtain ⟨first, parts, hparts, hfirst, htail⟩ := List.map_eq_cons_iff.1 hlabels
    obtain ⟨second, parts, rfl, hsecond, htail⟩ := List.map_eq_cons_iff.1 htail
    obtain ⟨third, parts, rfl, hthird, htail⟩ := List.map_eq_cons_iff.1 htail
    obtain rfl := List.map_eq_nil_iff.1 htail
    rw [hparts] at hellipsis htype
    obtain rfl : second = ellipsis := by simpa [(label_eq hfirst).1, (label_eq hsecond).1] using hellipsis
    obtain rfl : third = type := by
      simpa [(label_eq hfirst).2, (label_eq hsecond).2, (label_eq hthird).2] using htype
    rw [hparts]
    exact List.sublist_cons_self _ _

theorem IsWritten.arranged (h : n.IsWritten source) : n.Arranged := by
  induction n using childInduction with
  | node n ih =>
    refine .mk ?_ ?_ fun child hchild => ih child hchild (h.child hchild)
    · intro hkind key value hkey hvalue
      exact h.map_sublist hkind hkey hvalue
    · intro hkind ellipsis type hellipsis htype
      exact h.variadic_sublist hkind hellipsis htype

end Node

/-- The spans of a parsed tree are in place, and its parts are in the order of the grammar. -/
theorem placed_of_parse {root : Node} (h : parse source = .ok root) : root.Placed source ∧ root.Arranged := by
  obtain ⟨lead, cs, trail, hsource, hstands, ⟨hkind, hspan⟩, -⟩ := stands_of_parse h
  have hwritten : ∀ child ∈ root.children, child.IsWritten source :=
    fun child hchild => (written_of_parse h child hchild).1
  have hvalid : root.span.Valid source := by
    rw [hspan]
    exact ⟨Nat.zero_le _, ⟨[], source.toList, rfl, rfl⟩, ⟨source.toList, [], by simp, rfl⟩⟩
  have hstart : root.start.byte = 0 := congrArg Span.start hspan
  have hstop : root.stop.byte = Text.byteLength source.toList := congrArg Span.stop hspan
  refine ⟨?_, ?_⟩
  · refine Node.placed_of_stands hvalid hstands (by omega) ?_ fun child hchild => (hwritten child hchild).placed
    rw [hstop, hsource]
    simp only [Text.byteLength_append]
    omega
  · refine .mk (by simp [hkind]) (by simp [hkind]) fun child hchild => (hwritten child hchild).arranged

end

end GoOutline
