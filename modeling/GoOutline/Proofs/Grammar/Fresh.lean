import GoOutline.Proofs.Grammar.Owners

/-!
# Trees before and after comments are shared out

A tree fresh from the parser has its comments only as children (`fresh_of_parseChars`). Once they are shared out, each
node has those that it is given among its siblings (`shared_of_parse`), so that its comments depend on its siblings only:
on their kinds and spans and on how many rows they are apart (`Node.forall₂_given`). They are written as comments are
(`isRemark_of_mem_comments`).
-/
namespace GoOutline

/-! ## Fresh trees -/

/-- No comments belong to the node, nor to any inside it. -/
inductive Node.Fresh : Node → Prop
  | mk {kind : Kind} {field : Option Field} {start stop : Mark} {children : List Node}
      (inside : ∀ child ∈ children, child.Fresh) : Fresh (.mk kind field start stop [] children)

/-- All nodes of the item are fresh. -/
structure Item.Fresh (item : Item) : Prop where
  lead : ∀ n ∈ item.lead, n.Fresh
  node : item.node.Fresh

/-- All comments of the gaps ahead are fresh. -/
structure Cursor.Fresh (c : Cursor) : Prop where
  near : ∀ n ∈ c.near.comments, n.Fresh
  far : ∀ n ∈ c.far.comments, n.Fresh

section

variable {n m : Node} {items more : List Item} {c c' : Cursor} {kind : Kind}

theorem Node.Fresh.comments_eq (h : n.Fresh) : n.comments = [] := by
  cases h with
  | mk => rfl

theorem Node.Fresh.child (h : n.Fresh) (hm : m ∈ n.children) : m.Fresh := by
  cases h with
  | mk inside => exact inside m hm

theorem Node.Fresh.withField (h : n.Fresh) (f : Option Field) : (n.withField f).Fresh := by
  cases h with
  | mk inside => exact .mk inside

theorem Place.fresh_leaf (kind : Kind) (p : Place) (k : Nat) : (p.leaf kind k).Fresh :=
  .mk (by simp)

theorem Place.fresh_gapWithin (rows : Bool) (fuel : Nat) (p : Place) :
    ∀ n ∈ (p.gapWithin rows fuel).comments, n.Fresh := by
  induction fuel generalizing p with
  | zero => simp [Place.gapWithin]
  | succ fuel ih =>
    unfold Place.gapWithin
    split
    · simp
    · split
      · exact ih _
      · split
        · rename_i k _
          intro n hn
          rcases List.mem_cons.1 hn with rfl | hn
          · exact p.fresh_leaf .comment k
          · exact ih _ n hn
        · simp

theorem Cursor.fresh_ofPlace (p : Place) : (Cursor.ofPlace p).Fresh := by
  have hnear : ∀ n ∈ (p.gap false).comments, n.Fresh := p.fresh_gapWithin false _
  refine ⟨hnear, fun n hn => ?_⟩
  rcases List.mem_append.1 hn with hn | hn
  · exact hnear n hn
  · exact Place.fresh_gapWithin true _ _ n hn

theorem Cursor.fresh_ofSource (source : List Char) : (Cursor.ofSource source).Fresh := by
  unfold Cursor.ofSource
  split <;> exact Cursor.fresh_ofPlace _

/-! ## Items -/

namespace Item

theorem fresh_append (h : ∀ item ∈ items, item.Fresh) (h' : ∀ item ∈ more, item.Fresh) :
    ∀ item ∈ items ++ more, item.Fresh :=
  List.forall_mem_append.2 ⟨h, h'⟩

theorem fresh_childrenOf (h : ∀ item ∈ items, item.Fresh) : ∀ n ∈ childrenOf items, n.Fresh := by
  cases items with
  | nil => simp [childrenOf]
  | cons first rest =>
    rw [List.forall_mem_cons] at h
    intro n hn
    rcases List.mem_cons.1 hn with rfl | hn
    · exact h.1.node
    · obtain ⟨item, hitem, hn⟩ := List.mem_flatMap.1 hn
      rcases List.mem_append.1 hn with hn | hn
      · exact (h.2 item hitem).lead n hn
      · rw [List.mem_singleton.1 hn]
        exact (h.2 item hitem).node

theorem fresh_group (h : ∀ item ∈ items, item.Fresh) (kind : Kind) : ∀ item ∈ group kind items, item.Fresh := by
  cases items with
  | nil => simp [group]
  | cons first rest =>
    intro item hitem
    rw [group, List.mem_singleton] at hitem
    subst hitem
    exact ⟨(h first (by simp)).lead, .mk (fresh_childrenOf h)⟩

theorem fresh_inRole (h : ∀ item ∈ items, item.Fresh) (f : Field) : ∀ item ∈ inRole f items, item.Fresh := by
  intro item hitem
  obtain ⟨item, hmem, rfl⟩ := List.mem_map.1 hitem
  exact ⟨(h item hmem).lead, (h item hmem).node.withField _⟩

theorem fresh_wrapLeft (h : ∀ item ∈ items, item.Fresh) (inner : Option Kind) (role : Option Field) :
    ∀ item ∈ wrapLeft inner role items, item.Fresh := by
  have hrole {items : List Item} (h : ∀ item ∈ items, item.Fresh) : ∀ item ∈ wrapLeft none role items, item.Fresh := by
    cases role with
    | none => exact h
    | some f =>
      cases items with
      | nil => exact h
      | cons first rest =>
        rw [List.forall_mem_cons] at h
        exact List.forall_mem_cons.2 ⟨⟨h.1.lead, h.1.node.withField _⟩, h.2⟩
  cases inner with
  | none => exact hrole h
  | some kind => exact hrole (fresh_group h kind)

end Item

/-! ## Reading -/

theorem Token.fresh_take (kind : Kind) {gap : Gap} (h : ∀ n ∈ gap.comments, n.Fresh) (k : Nat) :
    (∀ item ∈ (take kind gap k).1, item.Fresh) ∧ (take kind gap k).2.Fresh := by
  refine ⟨fun item hitem => ?_, Cursor.fresh_ofPlace _⟩
  rw [take, List.mem_singleton] at hitem
  subst hitem
  exact ⟨h, gap.place.fresh_leaf kind k⟩

theorem Token.fresh_of_read {t : Token} (h : t.read c = some (items, c')) (hc : c.Fresh) :
    (∀ item ∈ items, item.Fresh) ∧ c'.Fresh := by
  have htake {kind : Kind} {gap : Gap} {k : Nat} (hgap : ∀ n ∈ gap.comments, n.Fresh)
      (heq : some (take kind gap k) = some (items, c')) : (∀ item ∈ items, item.Fresh) ∧ c'.Fresh := by
    have hfresh := fresh_take kind hgap k
    rw [Option.some.inj heq] at hfresh
    exact hfresh
  cases t with
  | sign text longer =>
    simp only [Token.read] at h
    split at h
    · exact htake hc.far h
    · cases h
  | keyword text =>
    simp only [Token.read] at h
    split at h
    · exact htake hc.far h
    · cases h
  | name kind except =>
    simp only [Token.read] at h
    split at h
    · cases h
    · exact htake hc.far h
  | literal forms =>
    simp only [Token.read, Option.map_eq_some_iff] at h
    obtain ⟨_, -, heq⟩ := h
    exact htake hc.far (congrArg some heq)
  | terminator =>
    simp only [Token.read, Token.readTerminator] at h
    split at h
    · split at h
      · exact htake hc.near h
      · cases h
    · split at h
      · cases h
        exact ⟨by simp, hc⟩
      · cases h

/-- A rule reads fresh items at a fresh cursor, and the cursor behind them is fresh. -/
def Phrase.FreshMeaning {ρ : Type} : Phrase.Meaning ρ :=
  fun _ c items c' => c.Fresh → (∀ item ∈ items, item.Fresh) ∧ c'.Fresh

theorem Phrase.fresh_of_reads {ρ : Type} {phrase : Phrase ρ} (h : Reads FreshMeaning phrase c items c')
    (hc : c.Fresh) : (∀ item ∈ items, item.Fresh) ∧ c'.Fresh := by
  induction h with
  | token read => exact Token.fresh_of_read read hc
  | rule means => exact means hc
  | nil => exact ⟨by simp, hc⟩
  | cons _ _ ihfirst ihrest =>
    obtain ⟨hfirst, hc'⟩ := ihfirst hc
    obtain ⟨hrest, hc''⟩ := ihrest hc'
    exact ⟨Item.fresh_append hfirst hrest, hc''⟩
  | choice _ _ ih => exact ih hc
  | heavierLeft _ ih => exact ih hc
  | heavierRight _ ih => exact ih hc
  | stop => exact ⟨by simp, hc⟩
  | again _ _ ihfirst ihrest =>
    obtain ⟨hfirst, hc'⟩ := ihfirst hc
    obtain ⟨hrest, hc''⟩ := ihrest hc'
    exact ⟨Item.fresh_append hfirst hrest, hc''⟩
  | ahead => exact ⟨by simp, hc⟩
  | «unless» => exact ⟨by simp, hc⟩
  | node _ ih => exact ⟨Item.fresh_group (ih hc).1 _, (ih hc).2⟩
  | field _ ih => exact ⟨Item.fresh_inRole (ih hc).1 _, (ih hc).2⟩
  | closing _ ih => exact ⟨(ih hc).1, (ih hc).2.near, (ih hc).2.far⟩
  | grow _ _ ih => exact ih hc
  | extend _ _ _ _ _ ihbefore ihopens ihends =>
    obtain ⟨hitems, hc₁⟩ := ihbefore hc
    obtain ⟨hmore, hc₂⟩ := ihopens hc₁
    obtain ⟨hrest, hc₃⟩ := ihends hc₂
    exact ⟨Item.fresh_group (Item.fresh_append (Item.fresh_wrapLeft (Item.fresh_append hitems hmore) _ _) hrest) _, hc₃⟩

theorem fresh_of_parseChars {source : List Char} {root : Node} (h : parseChars source = .ok root) : root.Fresh := by
  obtain ⟨items, stop, hread, hitems, hstop⟩ : ∃ items stop,
      (Phrase.read Grammar.phrase (readingFuel source) (.rule .sourceFile) (Cursor.ofSource source)).getD
        ([], Cursor.ofSource source) = (items, stop) ∧ (∀ item ∈ items, item.Fresh) ∧ stop.Fresh := by
    have hstart := Cursor.fresh_ofSource source
    cases hread : Phrase.read Grammar.phrase (readingFuel source) (.rule .sourceFile) (Cursor.ofSource source) with
    | none => exact ⟨[], _, rfl, by simp, hstart⟩
    | some result =>
      obtain ⟨items, stop⟩ := result
      have hreads := Phrase.reads_of_read (fun h hc => Phrase.fresh_of_reads h hc) hread
      exact ⟨items, stop, rfl, Phrase.fresh_of_reads hreads hstart⟩
  simp only [parseChars, hread] at h
  split at h
  · cases h
    refine .mk fun n hn => ?_
    rcases List.mem_append.1 hn with hn | hn
    · obtain ⟨item, hitem, hn⟩ := List.mem_flatMap.1 hn
      rcases List.mem_append.1 hn with hn | hn
      · exact (hitems item hitem).lead n hn
      · rw [List.mem_singleton.1 hn]
        exact (hitems item hitem).node
    · exact hstop.far n hn
  · cases h

end

/-! ## What is given among siblings -/

namespace Node

/-- The nodes are of one kind, their spans are related, and the second starts and stops a number of rows behind the
first. -/
structure Parallel (related : Span → Span → Prop) (rows : Int) (n n' : Node) : Prop where
  kind : n'.kind = n.kind
  span : related n.span n'.span
  start : (n'.start.row : Int) = n.start.row + rows
  stop : (n'.stop.row : Int) = n.stop.row + rows

section

variable {related : Span → Span → Prop} {rows : Int} {n n' : Node} {ns ns' : List Node}

theorem Parallel.isComment (h : Parallel related rows n n') : n'.isComment = n.isComment := by
  rw [Node.isComment, Node.isComment, h.kind]

theorem Parallel.isNamed (h : Parallel related rows n n') : n'.isNamed = n.isNamed := by
  rw [Node.isNamed, Node.isNamed, h.kind]

theorem Parallel.takesComments (h : Parallel related rows n n') : n'.takesComments = n.takesComments := by
  rw [Node.takesComments, Node.takesComments, h.isNamed, h.isComment]

theorem forall₂_trailing (h : List.Forall₂ (Parallel related rows) ns ns') {row row' : Nat}
    (hrow : (row' : Int) = row + rows) : List.Forall₂ related (trailing row ns) (trailing row' ns') := by
  induction h with
  | nil => exact .nil
  | @cons n n' ns ns' hn _ ih =>
    cases hnamed : n.isNamed with
    | false => rwa [trailing_bare ns row hnamed, trailing_bare ns' row' (hn.isNamed.trans hnamed)]
    | true =>
      cases hcomment : n.isComment with
      | true =>
        rw [trailing_comment ns row hcomment, trailing_comment ns' row' (hn.isComment.trans hcomment)]
        have hstart := hn.start
        by_cases heq : n.start.row = row
        · rw [if_pos heq, if_pos (by omega)]
          exact .cons hn.span ih
        · rw [if_neg heq, if_neg (by omega)]
          exact .nil
      | false =>
        have htakes : n.takesComments = true := by simp [Node.takesComments, hnamed, hcomment]
        rw [trailing_host ns row htakes, trailing_host ns' row' (hn.takesComments.trans htakes)]
        exact .nil

end

end Node

/-- What is known of two lists of siblings that are parallel. -/
structure Waiting.Parallel (related : Span → Span → Prop) (rows : Int) (w w' : Waiting) : Prop where
  row : Option.Rel (fun r r' : Nat => (r' : Int) = r + rows) w.row w'.row
  pending : List.Forall₂ related w.pending w'.pending

section

variable {related : Span → Span → Prop} {rows : Int} {w w' : Waiting} {n n' : Node} {ns ns' : List Node}

theorem Waiting.Parallel.next (h : w.Parallel related rows w') (hn : n.Parallel related rows n') :
    (w.next n).Parallel related rows (w'.next n') := by
  unfold Waiting.next
  rw [hn.isComment, hn.isNamed]
  split
  · have htest : (w'.pending = [] ∧ w'.row = some n'.start.row) ↔ (w.pending = [] ∧ w.row = some n.start.row) := by
      have hpending : w'.pending = [] ↔ w.pending = [] := by
        rw [← List.length_eq_zero_iff, ← List.length_eq_zero_iff, h.pending.length_eq]
      have hrow : w'.row = some n'.start.row ↔ w.row = some n.start.row := by
        have hstart := hn.start
        obtain ⟨row, pending⟩ := w
        obtain ⟨row', pending'⟩ := w'
        cases h.row with
        | none => simp
        | some hr =>
          simp only [Option.some.injEq]
          omega
      rw [hpending, hrow]
    simp only [htest]
    split
    · exact h
    · exact ⟨h.row, List.rel_append h.pending (.cons hn.span .nil)⟩
  · split
    · exact ⟨.some hn.stop, .nil⟩
    · exact h

/-- Parallel siblings are given related comments. -/
theorem Node.forall₂_given (h : List.Forall₂ (Parallel related rows) ns ns') (hw : w.Parallel related rows w')
    (k : Nat) : List.Forall₂ related (given w ns k) (given w' ns' k) := by
  induction h generalizing w w' k with
  | nil => exact .nil
  | @cons n n' ns ns' hn hns ih =>
    cases k with
    | zero =>
      rw [given, given, hn.takesComments]
      split
      · exact List.rel_append hw.pending (forall₂_trailing hns hn.stop)
      · exact .nil
    | succ k => exact ih (hw.next hn) k

end

/-- What is given among siblings does not depend on whose comments there are. -/
theorem Node.given_of_outline {ns ns' : List Node} (h : ns'.map outline = ns.map outline) (k : Nat) :
    given ⟨none, []⟩ ns' k = given ⟨none, []⟩ ns k := by
  have hparallel : List.Forall₂ (Parallel Eq 0) ns ns' := by
    induction ns generalizing ns' with
    | nil =>
      obtain rfl := List.map_eq_nil_iff.1 h
      exact .nil
    | cons n ns ih =>
      obtain ⟨n', ns', rfl, hn, hns⟩ := List.map_eq_cons_iff.1 h
      obtain ⟨hkind, -, hstart, hstop⟩ : n'.kind = n.kind ∧ n'.field = n.field ∧ n'.start = n.start ∧
          n'.stop = n.stop := by simpa [outline] using hn
      refine .cons ⟨hkind, ?_, by simp [hstart], by simp [hstop]⟩ (ih hns)
      rw [Node.span, Node.span, hstart, hstop]
  have hwaiting : Waiting.Parallel Eq 0 ⟨none, []⟩ ⟨none, []⟩ := ⟨.none, .nil⟩
  have hgiven := forall₂_given hparallel hwaiting k
  rw [List.forall₂_eq_eq_eq] at hgiven
  exact hgiven.symm

/-! ## Shared comments -/

namespace Node

/-- The children of every node of the tree have the comments that they are given among their siblings. -/
inductive Shared : Node → Prop
  | mk {n : Node} (comments : ∀ k child, n.children[k]? = some child → child.comments = given ⟨none, []⟩ n.children k)
      (inside : ∀ child ∈ n.children, child.Shared) : Shared n

variable {n m : Node} {a : Address}

theorem Shared.comments (h : n.Shared) {k : Nat} (hm : n.children[k]? = some m) :
    m.comments = given ⟨none, []⟩ n.children k := by
  cases h with
  | mk comments => exact comments k m hm

theorem Shared.child (h : n.Shared) (hm : m ∈ n.children) : m.Shared := by
  cases h with
  | mk _ inside => exact inside m hm

theorem Shared.at? (h : n.Shared) (hat : n.at? a = some m) : m.Shared := by
  induction a generalizing n with
  | nil =>
    obtain rfl := Option.some.inj hat
    exact h
  | cons place rest ih =>
    obtain ⟨child, hchild, hrest⟩ := at?_cons.1 hat
    exact ih (h.child (List.mem_of_getElem? hchild)) hrest

theorem Shared.withComments (h : n.Shared) (spans : List Span) : (n.withComments spans).Shared := by
  cases n
  exact .mk (fun k child hchild => h.comments hchild) fun child hchild => h.child hchild

theorem getElem?_dressAll (map : CommentMap) (address : Address) (place : Nat) (ns : List Node) (k : Nat) :
    (dressAll map address place ns)[k]? = ns[k]?.map fun n =>
      if n.takesComments then
        (n.dress map (address ++ [place + k])).withComments (map.spansAt (address ++ [place + k]))
      else n := by
  induction ns generalizing place k with
  | nil => rfl
  | cons n ns ih =>
    rw [dressAll]
    cases k with
    | zero => rfl
    | succ k =>
      have hplace : place + 1 + k = place + (k + 1) := by omega
      rw [List.getElem?_cons_succ, List.getElem?_cons_succ, ih, hplace]

theorem given_of_not_takesComments {ns : List Node} {k : Nat} (w : Waiting) (hn : ns[k]? = some n)
    (htakes : n.takesComments = false) : given w ns k = [] := by
  induction ns generalizing w k with
  | nil => rfl
  | cons m ns ih =>
    cases k with
    | zero =>
      obtain rfl : m = n := by simpa using hn
      simp [given, htakes]
    | succ k => exact ih _ (by simpa using hn)

/-- A fresh tree dressed by a map that has for its nodes what recursion gives them. -/
theorem Fresh.shared_dress {map : CommentMap} {address : Address} (h : n.Fresh) (hsequence : n.InSequence)
    (hmap : ∀ rest, rest ≠ [] → map.spansAt (address ++ rest) = n.commentsAt rest) : (n.dress map address).Shared := by
  induction n using childInduction generalizing address with
  | node n ih =>
    have hgiven (k : Nat) : given ⟨none, []⟩ (n.dress map address).children k = given ⟨none, []⟩ n.children k :=
      given_of_outline (n.map_outline_children_dress map address) k
    have hchild {k : Nat} {child : Node} (hk : (n.dress map address).children[k]? = some child) :
        child.comments = given ⟨none, []⟩ n.children k ∧ child.Shared := by
      rw [children_dress, getElem?_dressAll, Nat.zero_add] at hk
      obtain ⟨fresh, hfresh, rfl⟩ := Option.map_eq_some_iff.1 hk
      have hmem := List.mem_of_getElem? hfresh
      split
      · rename_i htakes
        constructor
        · have hspans := hmap [k] (by simp)
          rw [commentsAt_singleton] at hspans
          rw [← hspans]
          cases fresh
          rfl
        · refine (ih fresh hmem (h.child hmem) (hsequence.child hmem) fun rest hrest => ?_).withComments _
          rw [List.append_assoc, hmap _ (by simp), List.singleton_append, commentsAt_cons n k hrest, hfresh,
            Option.elim_some, if_pos htakes]
      · -- Nothing belongs to a comment or a bare token, and nothing is inside it.
        rename_i htakes
        have htakes : fresh.takesComments = false := by simpa using htakes
        have hleaf := (hsequence.child hmem).orderly.leaf htakes
        refine ⟨?_, .mk (by simp [hleaf]) (by simp [hleaf])⟩
        rw [(h.child hmem).comments_eq, given_of_not_takesComments _ hfresh htakes]
    refine .mk (fun k child hk => ?_) fun child hmem => ?_
    · rw [hgiven]
      exact (hchild hk).1
    · obtain ⟨k, hk⟩ := List.mem_iff_getElem?.1 hmem
      exact (hchild hk).2

theorem IsWritten.at? {source : String} (h : n.IsWritten source) (hat : n.at? a = some m) : m.IsWritten source := by
  induction a generalizing n with
  | nil =>
    obtain rfl := Option.some.inj hat
    exact h
  | cons place rest ih =>
    obtain ⟨child, hchild, hrest⟩ := at?_cons.1 hat
    exact ih (h.child (List.mem_of_getElem? hchild)) hrest

end Node

section

variable {source : String} {root n : Node} {a : Address}

theorem Node.Fresh.shared_shareComments (h : root.Fresh) (hsequence : root.InSequence) : root.shareComments.Shared :=
  h.shared_dress hsequence fun rest _ => root.spansAt_commentMap rest

/-- In a parsed tree comments are shared out, and none belong to the root. -/
theorem shared_of_parse (h : parse source = .ok root) : root.Shared ∧ root.comments = [] := by
  obtain ⟨tree, htree, rfl⟩ := exists_parseChars_of_parse h
  have hfresh := fresh_of_parseChars htree
  constructor
  · exact hfresh.shared_shareComments (inSequence_of_parseChars htree)
  · cases hfresh with
    | mk => rfl

theorem written_at_of_parse (h : parse source = .ok root) (hat : root.at? a = some n) (ha : a ≠ []) :
    n.IsWritten source := by
  cases a with
  | nil => exact absurd rfl ha
  | cons place rest =>
    obtain ⟨child, hchild, hrest⟩ := Node.at?_cons.1 hat
    exact (written_of_parse h child (List.mem_of_getElem? hchild)).1.at? hrest

/-- What belongs to a node as a comment is written as a comment. -/
theorem isRemark_of_mem_comments {span : Span} (hparse : parse source = .ok root) (hat : root.at? a = some n)
    (hspan : span ∈ n.comments) : IsRemark (span.text source).toList := by
  obtain ⟨hshared, hnone⟩ := shared_of_parse hparse
  rcases List.eq_nil_or_concat a with rfl | ⟨address, k, rfl⟩
  · obtain rfl := Option.some.inj hat
    rw [hnone] at hspan
    cases hspan
  · rw [List.concat_eq_append, Node.at?_append] at hat
    obtain ⟨parent, hparent, hk⟩ := Option.bind_eq_some_iff.1 hat
    obtain ⟨_, hn, ⟨⟩⟩ := Node.at?_cons.1 hk
    rw [(hshared.at? hparent).comments hn, mem_given] at hspan
    obtain ⟨i, comment, hcomment, rfl, -⟩ := hspan
    obtain ⟨word, hwritten⟩ := written_at_of_parse hparse ((Node.at?_child hparent i).trans hcomment.1) (by simp)
    have htext : comment.span.text source = String.ofList word := hwritten.text_eq
    obtain ⟨_, _, -, hwritten⟩ := hwritten
    rw [htext, String.toList_ofList]
    exact hwritten.isRemark hcomment.2

end

end GoOutline
