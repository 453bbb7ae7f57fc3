import GoOutline.Proofs.Grammar.Written

/-!
# Parsed trees

The nodes of a parsed tree are written in its source (`written_of_parse`), and its top level is as the grammar has it
(`isTopLevel_of_parse`). Sharing out comments changes neither.
-/
namespace GoOutline

/-! ## Shared comments -/

namespace Node

/-- What sharing comments leaves of a node as it is, its children apart. -/
def outline (n : Node) : Kind × Option Field × Mark × Mark := (n.kind, n.field, n.start, n.stop)

theorem outline_withComments (n : Node) (spans : List Span) : (n.withComments spans).outline = n.outline := by
  cases n
  rfl

theorem alike_withComments (n : Node) (spans : List Span) : Stands.Alike n (n.withComments spans) := by
  cases n
  exact ⟨rfl, rfl, rfl, rfl, fun _ => rfl⟩

theorem outline_dress (map : CommentMap) (address : Address) (n : Node) : (n.dress map address).outline = n.outline := by
  cases n
  rfl

theorem children_dress (map : CommentMap) (address : Address) (n : Node) :
    (n.dress map address).children = dressAll map address 0 n.children := by
  cases n
  rfl

/-- What does not depend on whose comments there are is left as it is. -/
theorem map_dressAll {α : Type} {f : Node → α} {map : CommentMap}
    (hcomments : ∀ (n : Node) (spans : List Span), f (n.withComments spans) = f n)
    (hdress : ∀ (address : Address) (n : Node), f (n.dress map address) = f n) (address : Address) (place : Nat)
    (ns : List Node) : (dressAll map address place ns).map f = ns.map f := by
  induction ns generalizing place with
  | nil => rfl
  | cons n ns ih =>
    rw [dressAll, List.map_cons, List.map_cons, ih]
    split
    · rw [hcomments, hdress]
    · rfl

theorem map_outline_children_dress (map : CommentMap) (address : Address) (n : Node) :
    (n.dress map address).children.map outline = n.children.map outline := by
  rw [children_dress, map_dressAll outline_withComments (outline_dress map)]

end Node

section

variable {shape : Kind → List Label → Prop} {b : Nat} {n : Node} {ns : List Node} {inside word cs : List Char}
variable {source : String}

theorem Node.label_parts_dress (map : CommentMap) (address : Address) (n : Node) :
    (n.dress map address).parts.map label = n.parts.map label := by
  have hparts (n : Node) : n.parts.map label =
      ((n.children.map outline).filter fun o => !(o.1 == .comment)).map fun o => (o.1, o.2.1) := by
    rw [List.filter_map, List.map_map]
    rfl
  rw [hparts, hparts, map_outline_children_dress]

theorem Fills.dress (h : Fills shape b n inside word) (map : CommentMap) (address : Address) :
    Fills shape b (n.dress map address) inside word := by
  have hchildren := n.map_outline_children_dress map address
  obtain ⟨hkind, hfield, -, -⟩ : (n.dress map address).kind = n.kind ∧ (n.dress map address).field = n.field ∧
      (n.dress map address).start = n.start ∧ (n.dress map address).stop = n.stop := by
    simpa [Node.outline] using n.outline_dress map address
  have hcomment : (n.dress map address).isComment = n.isComment := by rw [Node.isComment, hkind, Node.isComment]
  cases h with
  | leaf childless spelt free =>
    refine .leaf ?_ (by rwa [hkind]) (by rwa [hcomment, hfield])
    simpa [childless] using hchildren
  | @node child whole first tight solid final noted shaped =>
    have hfirst : ((n.dress map address).children.head?).map Node.outline = some child.outline := by
      rw [← List.head?_map, hchildren, List.head?_map, first]
      rfl
    obtain ⟨child', hchild', houtline⟩ := Option.map_eq_some_iff.1 hfirst
    simp only [Node.outline, Prod.mk.injEq] at houtline
    refine .node whole hchild' (by rw [houtline.2.2.1, tight]) ?_ ?_ (by rw [hcomment, noted]) ?_
    · rw [Node.isComment, houtline.1]
      exact solid
    · intro last hlast
      have hmap : (n.children.getLast?).map Node.outline = some last.outline := by
        rw [← List.getLast?_map, ← hchildren, List.getLast?_map, hlast]
        rfl
      obtain ⟨last', hlast', houtline⟩ := Option.map_eq_some_iff.1 hmap
      have hsolid := final last' hlast'
      simp only [Node.outline, Prod.mk.injEq] at houtline
      rwa [Node.isComment, houtline.1] at hsolid
    · rwa [Node.label_parts_dress, hkind]

/-- Trees stand where they do whoever their comments belong to. -/
theorem Stands.dressAll (h : Stands shape b cs ns) (map : CommentMap) (address : Address) (place : Nat) :
    Stands shape b cs (Node.dressAll map address place ns) := by
  induction h generalizing address place with
  | nil => exact .nil
  | space space rest ih =>
    have hrest := ih address place
    rw [Node.dressAll] at hrest ⊢
    exact .space space hrest
  | @cons b inner word cs n ns start stop inside fills rest ihinside ihrest =>
    have hrest := ihrest address (place + 1)
    rw [Node.dressAll]
    split
    · have hself := n.outline_dress map (address ++ [place])
      simp only [Node.outline, Prod.mk.injEq] at hself
      have hdressed : Stands shape b (word ++ cs)
          (n.dress map (address ++ [place]) :: Node.dressAll map address (place + 1) ns) := by
        refine .cons (by rw [hself.2.2.1, start]) (by rw [hself.2.2.2, stop]) ?_ (fills.dress map _) hrest
        rw [Node.children_dress]
        exact ihinside _ _
      refine hdressed.of_alike (.cons (Node.alike_withComments _ _) ?_)
      exact List.forall₂_same.2 fun m _ => ⟨rfl, rfl, rfl, rfl, fun _ => rfl⟩
    · exact .cons start stop inside fills hrest

/-! ## Whole sources -/

/-- The cursor at the start of a source stands behind a byte order mark, if there is one. -/
theorem Cursor.exists_behind_ofSource (source : List Char) :
    ∃ lead p, (Cursor.ofSource source).Behind p ∧ Place.Reaches ⟨⟨0, 0⟩, source⟩ lead p := by
  unfold Cursor.ofSource
  split
  · rename_i c rest
    split
    · exact ⟨_, _, Cursor.behind_ofPlace _, Place.reaches_skip _ 1⟩
    · exact ⟨_, _, Cursor.behind_ofPlace _, .refl _⟩
  · exact ⟨_, _, Cursor.behind_ofPlace _, .refl _⟩

/-- The root covers the whole source. -/
def Node.IsRoot (source : List Char) (root : Node) : Prop :=
  root.kind = .sourceFile ∧ root.span = ⟨0, Text.byteLength source⟩

/-- The children of a parsed root stand in the source that it covers, and there is no spec among them. -/
theorem stands_of_parseChars {source : List Char} {root : Node} (h : parseChars source = .ok root) :
    ∃ lead cs trail, source = lead ++ cs ++ trail ∧ Stands Grammar.MayHold (Text.byteLength lead) cs root.children ∧
      root.IsRoot source ∧ ∀ n ∈ root.children, n.kind.isSpec = false := by
  obtain ⟨lead, p, hp, hlead⟩ := Cursor.exists_behind_ofSource source
  -- What is read stands behind the start, if only as nothing at all.
  obtain ⟨items, stop, q, hread, hq, hlaid, hlabels⟩ : ∃ items stop q,
      (Phrase.read Grammar.phrase (readingFuel source) (.rule .sourceFile) (Cursor.ofSource source)).getD
        ([], Cursor.ofSource source) = (items, stop) ∧ stop.Behind q ∧ Item.Laid Grammar.MayHold p items q ∧
      ∀ label ∈ Item.labels items, label.1.isSpec = false := by
    cases hread : Phrase.read Grammar.phrase (readingFuel source) (.rule .sourceFile) (Cursor.ofSource source) with
    | none => exact ⟨[], _, p, rfl, hp, .nil p, by simp [Item.labels]⟩
    | some result =>
      obtain ⟨items, stop⟩ := result
      cases Grammar.laid hread with
      | rule means =>
        obtain ⟨q, hq, hlaid⟩ := means.1 p hp
        exact ⟨items, stop, q, rfl, hq, hlaid, means.2⟩
  simp only [parseChars, hread] at h
  split at h
  · rename_i hend
    cases h
    obtain ⟨cs, hreach, hstands⟩ := hlaid.stands
    obtain ⟨⟨solid, blanks, hreach', hstands', -⟩, hcomments⟩ := hq.far_gaps
    have hnone : stop.far.place.ahead = [] := by simpa [Cursor.atEnd] using hend
    have hall := (hlead.trans hreach).trans hreach'
    have hsource : source = lead ++ (cs ++ solid) ++ blanks := by
      have := hall.ahead
      rw [hnone] at this
      simpa using this
    refine ⟨lead, cs ++ solid, blanks, hsource, ?_, ?_, ?_⟩
    · rw [hlead.byte, Nat.zero_add] at hstands
      rw [(hlead.trans hreach).byte, Nat.zero_add, Text.byteLength_append] at hstands'
      exact hstands.append hstands'
    · refine ⟨rfl, ?_⟩
      have hstop : stop.far.place.mark.byte = Text.byteLength source := by
        rw [hall.byte, hsource]
        simp
      simp only [Node.span, Node.start, Node.stop, hstop]
    · intro n hn
      rcases List.mem_append.1 hn with hn | hn
      · obtain ⟨item, hitem, hn⟩ := List.mem_flatMap.1 hn
        rcases List.mem_append.1 hn with hn | hn
        · have hcomment := hlaid.lead item hitem n hn
          simp only [Node.isComment, beq_iff_eq] at hcomment
          rw [hcomment]
          rfl
        · obtain rfl := List.mem_singleton.1 hn
          exact hlabels _ (List.mem_map_of_mem hitem)
      · have hcomment := hcomments n hn
        simp only [Node.isComment, beq_iff_eq] at hcomment
        rw [hcomment]
        rfl
  · cases h

theorem exists_parseChars_of_parse {root : Node} (h : parse source = .ok root) :
    ∃ tree, parseChars source.toList = .ok tree ∧ tree.shareComments = root := by
  unfold parse at h
  cases hchars : parseChars source.toList with
  | error position => rw [hchars] at h; cases h
  | ok tree =>
    rw [hchars] at h
    cases h
    exact ⟨tree, rfl, rfl⟩

/-- The same of the root with its comments shared out. -/
theorem stands_of_parse {root : Node} (h : parse source = .ok root) :
    ∃ lead cs trail, source.toList = lead ++ cs ++ trail ∧
      Stands Grammar.MayHold (Text.byteLength lead) cs root.children ∧ root.IsRoot source.toList ∧
      ∀ n ∈ root.children, n.kind.isSpec = false := by
  obtain ⟨tree, htree, rfl⟩ := exists_parseChars_of_parse h
  obtain ⟨lead, cs, trail, hsource, hstands, ⟨hkind, hspan⟩, hspec⟩ := stands_of_parseChars htree
  have hself : tree.shareComments.outline = tree.outline := tree.outline_dress _ _
  simp only [Node.outline, Prod.mk.injEq] at hself
  refine ⟨lead, cs, trail, hsource, ?_, ⟨?_, ?_⟩, ?_⟩
  · rw [Node.shareComments, Node.children_dress]
    exact hstands.dressAll _ _ _
  · rw [hself.1, hkind]
  · rw [Node.span, hself.2.2.1, hself.2.2.2]
    exact hspan
  · intro n hn
    have hmem : n.outline ∈ tree.children.map Node.outline := by
      rw [← Node.map_outline_children_dress tree.commentMap []]
      exact List.mem_map_of_mem hn
    obtain ⟨m, hm, houtline⟩ := List.mem_map.1 hmem
    simp only [Node.outline, Prod.mk.injEq] at houtline
    rw [← houtline.1]
    exact hspec m hm

/-- The children of a parsed root are written in the source, and there is no spec among them. -/
theorem written_of_parse {root : Node} (h : parse source = .ok root) :
    ∀ n ∈ root.children, n.IsWritten source ∧ n.kind.isSpec = false := by
  obtain ⟨lead, cs, trail, hsource, hstands, -, hspec⟩ := stands_of_parse h
  intro n hn
  refine ⟨?_, hspec n hn⟩
  obtain ⟨before, word, after, rfl, hwritten⟩ := hstands.exists_written hn
  refine ⟨word, lead ++ before, after ++ trail, by simp [hsource], ?_⟩
  rwa [Text.byteLength_append]

/-! ## The top level -/

namespace Node

theorem IsWritten.kind_mem {kinds : List Kind} (h : n.IsWritten source)
    (hkinds : ∀ labels, Grammar.MayHold n.kind labels → ∀ label ∈ labels, Grammar.OfKinds kinds label) {child : Node}
    (hchild : child ∈ n.namedChildren) (hsolid : child.isComment = false) : child.kind ∈ kinds := by
  obtain ⟨_, _, _, -, hwritten⟩ := h
  obtain ⟨hmem, hnamed⟩ := List.mem_filter.1 hchild
  obtain ⟨_, _, _, _, -, -, -, -, -, hshape⟩ := hwritten.opened (List.ne_nil_of_mem hmem)
  have hpart : child ∈ n.parts := List.mem_filter.2 ⟨hmem, by simp [hsolid]⟩
  exact hkinds _ hshape child.label (List.mem_map_of_mem hpart) hnamed

/-- The specs of a declaration are its named children other than comments, and in place of a spec list the named children
of the list. -/
theorem mem_groupSpecs {spec : Node} : spec ∈ n.groupSpecs ↔
    (spec ∈ n.namedChildren ∧ spec.isComment = false ∧ spec.kind.isSpecList = false) ∨
      ∃ list ∈ n.namedChildren, list.kind.isSpecList = true ∧ list.isComment = false ∧ spec ∈ list.namedChildren ∧
        spec.isComment = false := by
  rw [groupSpecs, List.mem_flatMap]
  constructor
  · rintro ⟨child, hchild, hspec⟩
    split at hspec
    · rename_i hlist
      obtain ⟨hmem, hsolid⟩ := List.mem_filter.1 hspec
      refine .inr ⟨child, hchild, hlist, ?_, hmem, by simpa using hsolid⟩
      cases hkind : child.kind <;> simp_all [Kind.isSpecList, isComment]
    · rename_i hlist
      split at hspec
      · cases hspec
      · rename_i hsolid
        obtain rfl := List.mem_singleton.1 hspec
        exact .inl ⟨hchild, by simpa using hsolid, by simpa using hlist⟩
  · rintro (⟨hmem, hsolid, hlist⟩ | ⟨list, hlist, hkind, -, hmem, hsolid⟩)
    · exact ⟨spec, hmem, by simp [hlist, hsolid]⟩
    · exact ⟨list, hlist, by simp [hkind, hmem, hsolid]⟩

/-- What is written at the top level can stand there. -/
theorem IsWritten.isTopLevel (h : n.IsWritten source) (hspec : n.kind.isSpec = false) : n.isTopLevel = true := by
  simp only [Node.isTopLevel, hspec, Bool.not_false, Bool.true_and, Bool.or_eq_true, List.isEmpty_iff, List.all_eq_true,
    List.contains_iff_mem]
  -- Specs stand in the declaration or in the list that it holds.
  have hspecs (kinds lists : List Kind)
      (hkinds : ∀ labels, Grammar.MayHold n.kind labels → ∀ label ∈ labels, Grammar.OfKinds (kinds ++ lists) label)
      (hlists : ∀ kind ∈ kinds ++ lists, kind.isSpecList = true → ∀ labels, Grammar.MayHold kind labels →
        ∀ label ∈ labels, Grammar.OfKinds kinds label)
      (hplain : ∀ kind ∈ lists, kind.isSpecList = true) : ∀ spec ∈ n.groupSpecs, spec.kind ∈ kinds := by
    intro spec hspec
    rcases mem_groupSpecs.1 hspec with ⟨hmem, hsolid, hlist⟩ | ⟨list, hmem, hlist, hsolidList, hmem', hsolid⟩
    · rcases List.mem_append.1 (h.kind_mem hkinds hmem hsolid) with hkind | hkind
      · exact hkind
      · rw [hplain _ hkind] at hlist
        cases hlist
    · have hlistIn := h.child (List.mem_filter.1 hmem).1
      exact hlistIn.kind_mem (hlists _ (h.kind_mem hkinds hmem hsolidList) hlist) hmem' hsolid
  cases hkind : n.kind with
  | typeDeclaration =>
    refine .inr (hspecs [.typeSpec, .typeAlias] [] ?_ (by simp [Kind.isSpecList]) (by simp))
    rw [hkind]
    exact fun _ hlabels => hlabels
  | constDeclaration =>
    refine .inr (hspecs [.constSpec] [] ?_ (by simp [Kind.isSpecList]) (by simp))
    rw [hkind]
    exact fun _ hlabels => hlabels
  | varDeclaration =>
    refine .inr (hspecs [.varSpec] [.varSpecList] ?_ (by simp [Kind.isSpecList, Grammar.MayHold])
      (by simp [Kind.isSpecList]))
    rw [hkind]
    exact fun _ hlabels => hlabels
  | importDeclaration =>
    refine .inr (hspecs [.importSpec] [.importSpecList] ?_ (by simp [Kind.isSpecList, Grammar.MayHold])
      (by simp [Kind.isSpecList]))
    rw [hkind]
    exact fun _ hlabels => hlabels
  | _ => exact .inl rfl

end Node

/-- The top level of a parsed tree is as the grammar has it. -/
theorem isTopLevel_of_parse {root : Node} (h : parse source = .ok root) :
    ∀ n ∈ root.namedChildren, n.isTopLevel = true := by
  intro n hn
  obtain ⟨hwritten, hspec⟩ := written_of_parse h n (List.mem_filter.1 hn).1
  exact hwritten.isTopLevel hspec

end

end GoOutline
