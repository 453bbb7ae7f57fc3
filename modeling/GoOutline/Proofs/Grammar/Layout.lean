import GoOutline.Proofs.Grammar.Labels
import Mathlib.Data.List.Forall2
import Mathlib.Data.List.TakeWhile

/-!
# Trees on their sources

The nodes of a tree stand in the source one after the other, with nothing but white space between them, and the
children of a node fill it from end to end (`Stands`). A leaf is written in the characters that its kind asks for.
Every grammar whose phrases are in order (`Phrase.Checked`) reads such nodes only (`laid_of_reads`), and each of
them has parts of the labels that its kind is allowed to have.
-/
namespace GoOutline

/-! ## Leaves -/

/-- The characters are those of an identifier. -/
inductive IsWord : List Char → Prop
  | mk {c : Char} {rest : List Char} (start : Text.isIdentifierStart c = true)
      (part : ∀ x ∈ rest, Text.isIdentifierPart x = true) : IsWord (c :: rest)

/-- The characters are those of a comment: up to the end of a row, or with the mark of a block in front. -/
inductive IsRemark : List Char → Prop
  | row {rest : List Char} (line : '\n' ∉ rest) : IsRemark ('/' :: '/' :: rest)
  | block (rest : List Char) : IsRemark ('/' :: '*' :: rest)

theorem IsRemark.exists_cons {word : List Char} (h : IsRemark word) : ∃ rest, word = '/' :: rest := by
  cases h with
  | row line => exact ⟨_, rfl⟩
  | block rest => exact ⟨_, rfl⟩

namespace Kind

/-- The kind is that of identifiers. -/
def isName : Kind → Bool
  | .identifier | .typeIdentifier | .fieldIdentifier | .packageIdentifier | .labelName => true
  | _ => false

/-- The kind is that of literals, which ask for no characters of their own. -/
def isLiteral : Kind → Bool
  | .rawStringLiteral | .interpretedStringLiteral | .intLiteral | .floatLiteral | .imaginaryLiteral | .runeLiteral =>
    true
  | _ => false

/-- The characters that a leaf of the kind is written in. Nodes of most kinds are no leaves. -/
def Spells : Kind → List Char → Prop
  | .token text, word => word = text.toList
  | .comment, word => IsRemark word
  | kind, word => kind.isName = true ∧ IsWord word ∨ kind.isLiteral = true

theorem spells_of_isWord {kind : Kind} {word : List Char} (hkind : kind.isName = true) (hword : IsWord word) :
    kind.Spells word := by
  cases kind with
  | token text => cases hkind
  | comment => cases hkind
  | _ => exact .inl ⟨hkind, hword⟩

theorem spells_of_isLiteral {kind : Kind} (hkind : kind.isLiteral = true) (word : List Char) : kind.Spells word := by
  cases kind with
  | token text => cases hkind
  | comment => cases hkind
  | _ => exact .inr hkind

end Kind

/-! ## Nodes in a source -/

/-- The children that are no comments. -/
def Node.parts (n : Node) : List Node := n.children.filter fun child => !child.isComment

/-- How a node that begins at a byte comes by its characters: a leaf is written in those of its kind, any other node
in those of its children, the first of which begins where the node does. Neither the first child nor the last is a
comment. -/
inductive Fills (shape : Kind → List Label → Prop) (b : Nat) (n : Node) (inside word : List Char) : Prop
  | leaf (childless : n.children = []) (spelt : n.kind.Spells word) (free : n.isComment = true → n.field = none)
  | node {child : Node} (whole : inside = word) (first : n.children.head? = some child) (tight : child.start.byte = b)
      (solid : child.isComment = false) (final : ∀ last, n.children.getLast? = some last → last.isComment = false)
      (noted : n.isComment = false) (shaped : shape n.kind (n.parts.map Node.label))

/-- The nodes stand one after the other on the characters that begin at a byte, with white space between them and
none behind the last. What the parts of a node may be is left open. -/
inductive Stands (shape : Kind → List Label → Prop) : Nat → List Char → List Node → Prop
  | nil {b : Nat} : Stands shape b [] []
  | space {b : Nat} {c : Char} {cs : List Char} {n : Node} {ns : List Node} (space : isSpace c = true)
      (rest : Stands shape (b + c.utf8Size) cs (n :: ns)) : Stands shape b (c :: cs) (n :: ns)
  | cons {b : Nat} {inner word cs : List Char} {n : Node} {ns : List Node} (start : n.start.byte = b)
      (stop : n.stop.byte = b + Text.byteLength word) (inside : Stands shape b inner n.children)
      (fills : Fills shape b n inner word) (rest : Stands shape (b + Text.byteLength word) cs ns) :
      Stands shape b (word ++ cs) (n :: ns)

namespace Text

@[simp] theorem byteLength_nil : byteLength [] = 0 := rfl

@[simp] theorem byteLength_cons (c : Char) (cs : List Char) : byteLength (c :: cs) = c.utf8Size + byteLength cs := rfl

@[simp] theorem byteLength_append (cs ds : List Char) : byteLength (cs ++ ds) = byteLength cs + byteLength ds := by
  induction cs with
  | nil => simp
  | cons c cs ih => simp [ih, Nat.add_assoc]

end Text

namespace Stands

variable {shape : Kind → List Label → Prop} {b : Nat} {cs ds : List Char} {n : Node} {ns ms : List Node}

theorem append (h : Stands shape b cs ns) (h' : Stands shape (b + Text.byteLength cs) ds ms) :
    Stands shape b (cs ++ ds) (ns ++ ms) := by
  induction h with
  | nil => simpa using h'
  | space space rest ih =>
    refine .space space (ih ?_)
    simpa [Nat.add_assoc] using h'
  | cons start stop inside fills rest _ ih =>
    rw [List.append_assoc]
    refine .cons start stop inside fills (ih ?_)
    simpa [Nat.add_assoc] using h'

/-- White space before the first node. -/
theorem blanks {blanks : List Char} (hblanks : ∀ c ∈ blanks, isSpace c = true)
    (h : Stands shape (b + Text.byteLength blanks) cs (n :: ns)) : Stands shape b (blanks ++ cs) (n :: ns) := by
  induction blanks generalizing b with
  | nil => simpa using h
  | cons c blanks ih =>
    refine .space (hblanks c (by simp)) (ih (fun x hx => hblanks x (by simp [hx])) ?_)
    simpa [Nat.add_assoc] using h

/-- The last node stops where the characters do. -/
theorem stop_last (h : Stands shape b cs ns) (hlast : ns.getLast? = some n) :
    n.stop.byte = b + Text.byteLength cs := by
  induction h with
  | nil => cases hlast
  | space space rest ih =>
    rw [ih hlast, Text.byteLength_cons, Nat.add_assoc]
  | @cons b inner word cs m ns start stop inside fills rest _ ih =>
    cases ns with
    | nil =>
      cases hlast
      cases rest
      simpa using stop
    | cons m' ns =>
      rw [List.getLast?_cons_cons] at hlast
      rw [ih hlast, Text.byteLength_append, Nat.add_assoc]

/-- Nodes on the same characters with the same parts, in other roles. -/
structure Alike (n m : Node) : Prop where
  kind : m.kind = n.kind
  start : m.start = n.start
  stop : m.stop = n.stop
  children : m.children = n.children
  free : n.isComment = true → m.field = n.field

theorem of_alike (h : Stands shape b cs ns) (halike : List.Forall₂ Alike ns ms) : Stands shape b cs ms := by
  induction h generalizing ms with
  | nil =>
    cases halike
    exact .nil
  | space space rest ih =>
    cases halike with
    | cons hn hns => exact .space space (ih (.cons hn hns))
  | @cons b inner word cs n ns start stop inside fills rest _ ih =>
    cases halike with
    | @cons _ m _ ms hn hns =>
      have hinside : Stands shape b inner m.children := by rw [hn.children]; exact inside
      refine .cons (by rw [hn.start, start]) (by rw [hn.stop, stop]) hinside ?_ (ih hns)
      have hcomment : m.isComment = n.isComment := by simp only [Node.isComment, hn.kind]
      cases fills with
      | leaf childless spelt free =>
        refine .leaf (by rw [hn.children, childless]) (by rw [hn.kind]; exact spelt) fun hm => ?_
        rw [hcomment] at hm
        rw [hn.free hm, free hm]
      | node whole first tight solid final noted shaped =>
        refine .node whole (by rw [hn.children, first]) tight solid (by rw [hn.children]; exact final)
          (by rw [hcomment, noted]) ?_
        rw [hn.kind]
        simpa [Node.parts, hn.children] using shaped

/-- Nodes gathered as the children of one stand as that one. -/
theorem gather {lead : List Node} {m : Node} (h : Stands shape b cs (lead ++ n :: ns))
    (hchildren : m.children = n :: ns)
    (hstart : m.start = n.start)
    (hstop : ∀ last, (n :: ns).getLast? = some last → m.stop = last.stop ∧ last.isComment = false)
    (hn : n.isComment = false) (hm : m.isComment = false) (hshape : shape m.kind (m.parts.map Node.label)) :
    Stands shape b cs (lead ++ [m]) := by
  generalize hall : lead ++ n :: ns = all at h
  induction h generalizing lead with
  | nil => simp at hall
  | space space rest ih =>
    have hrest := ih hall
    -- Something stands behind the white space, if only the new node.
    cases hlist : lead ++ [m] with
    | nil => simp at hlist
    | cons x xs => exact .space space (hlist ▸ hrest)
  | @cons b inner word cs x xs start stop inside fills rest _ ih =>
    cases lead with
    | nil =>
      obtain ⟨rfl, rfl⟩ : n = x ∧ ns = xs := by simpa using hall
      have hwhole : Stands shape b (word ++ cs) (n :: ns) := .cons start stop inside fills rest
      obtain ⟨last, hlast⟩ : ∃ last, (n :: ns).getLast? = some last := ⟨_, List.getLast?_eq_some_getLast (by simp)⟩
      have hend := hwhole.stop_last hlast
      rw [List.nil_append, ← List.append_nil (word ++ cs)]
      have hinside : Stands shape b (word ++ cs) m.children := by rw [hchildren]; exact hwhole
      have hfinal : ∀ last, m.children.getLast? = some last → last.isComment = false := by
        intro final hget
        rw [hchildren] at hget
        exact (hstop final hget).2
      exact .cons (by rw [hstart, start]) (by rw [(hstop last hlast).1, hend]) hinside
        (.node rfl (by rw [hchildren]; rfl) start hn hfinal hm hshape) .nil
    | cons y lead =>
      obtain ⟨rfl, hxs⟩ : y = x ∧ lead ++ n :: ns = xs := by simpa using hall
      exact .cons start stop inside fills (ih hxs)

end Stands

/-! ## Places -/

namespace Place

/-- The characters from one place up to another. -/
structure Reaches (p : Place) (cs : List Char) (q : Place) : Prop where
  ahead : p.ahead = cs ++ q.ahead
  byte : q.mark.byte = p.mark.byte + Text.byteLength cs

theorem Reaches.refl (p : Place) : p.Reaches [] p := ⟨rfl, rfl⟩

theorem Reaches.trans {p q r : Place} {cs ds : List Char} (h : p.Reaches cs q) (h' : q.Reaches ds r) :
    p.Reaches (cs ++ ds) r := by
  constructor
  · rw [h.ahead, h'.ahead, List.append_assoc]
  · rw [h'.byte, h.byte, Text.byteLength_append, Nat.add_assoc]

theorem byte_foldl_after (cs : List Char) (m : Mark) : (cs.foldl Mark.after m).byte = m.byte + Text.byteLength cs := by
  induction cs generalizing m with
  | nil => rfl
  | cons c cs ih => rw [List.foldl_cons, ih, Mark.after, Text.byteLength_cons, Nat.add_assoc]

theorem reaches_skip (p : Place) (n : Nat) : p.Reaches (p.ahead.take n) (p.skip n) :=
  ⟨(List.take_append_drop n p.ahead).symm, byte_foldl_after _ _⟩

variable (shape : Kind → List Label → Prop)

/-- Between the places lies a gap: the comments, and white space around them. -/
structure Gaps (p : Place) (comments : List Node) (q : Place) : Prop where
  gap : ∃ solid blanks, p.Reaches (solid ++ blanks) q ∧ Stands shape p.mark.byte solid comments ∧
    ∀ c ∈ blanks, isSpace c = true
  comments : ∀ n ∈ comments, n.isComment = true

variable {shape}

theorem Gaps.refl (p : Place) : p.Gaps shape [] p :=
  ⟨⟨[], [], .refl p, .nil, by simp⟩, by simp⟩

theorem Gaps.trans {p q r : Place} {comments more : List Node} (h : p.Gaps shape comments q)
    (h' : q.Gaps shape more r) : p.Gaps shape (comments ++ more) r := by
  obtain ⟨⟨solid, blanks, hreach, hstands, hblanks⟩, hcomments⟩ := h
  obtain ⟨⟨solid', blanks', hreach', hstands', hblanks'⟩, hcomments'⟩ := h'
  refine ⟨?_, List.forall_mem_append.2 ⟨hcomments, hcomments'⟩⟩
  cases more with
  | nil =>
    cases hstands'
    refine ⟨solid, blanks ++ blanks', ?_, by simpa using hstands, List.forall_mem_append.2 ⟨hblanks, hblanks'⟩⟩
    simpa using hreach.trans hreach'
  | cons n more =>
    -- The white space behind the first comments stands before the others now.
    refine ⟨solid ++ (blanks ++ solid'), blanks', ?_, hstands.append (.blanks hblanks ?_), hblanks'⟩
    · simpa using hreach.trans hreach'
    · rw [hreach.byte] at hstands'
      simpa [Nat.add_assoc] using hstands'

theorem gaps_space {mark : Mark} {c : Char} {cs : List Char} (h : isSpace c = true) :
    Gaps shape ⟨mark, c :: cs⟩ [] ⟨mark.after c, cs⟩ :=
  ⟨⟨[], [c], ⟨rfl, by simp [Mark.after]⟩, .nil, by simpa using h⟩, by simp⟩

theorem isRemark_of_comment {cs : List Char} {n : Nat} (h : Lexeme.comment cs = some n) : IsRemark (cs.take n) := by
  unfold Lexeme.comment at h
  split at h
  · rename_i rest
    cases h
    have htake : rest.take (rest.takeWhile (· != '\n')).length = rest.takeWhile (· != '\n') :=
      (List.prefix_iff_eq_take.1 (List.takeWhile_prefix _)).symm
    rw [Nat.add_comm, List.take_succ_cons, List.take_succ_cons, htake]
    exact .row fun hmem => by simpa using List.mem_takeWhile_imp hmem
  · obtain ⟨m, -, rfl⟩ := Option.map_eq_some_iff.1 h
    rw [List.take_succ_cons, List.take_succ_cons]
    exact .block _
  · cases h

theorem gaps_comment {p : Place} {n : Nat} (h : Lexeme.comment p.ahead = some n) :
    p.Gaps shape [p.leaf .comment n] (p.skip n) := by
  have hreach := p.reaches_skip n
  refine ⟨⟨p.ahead.take n, [], by simpa using hreach, ?_, by simp⟩, by simp [leaf, Node.isComment, Node.kind]⟩
  rw [← List.append_nil (p.ahead.take n)]
  exact .cons rfl hreach.byte .nil (.leaf rfl (isRemark_of_comment h) fun _ => rfl) .nil

theorem gaps_gapWithin (rows : Bool) (fuel : Nat) (p : Place) :
    p.Gaps shape (p.gapWithin rows fuel).comments (p.gapWithin rows fuel).place := by
  induction fuel generalizing p with
  | zero => exact .refl p
  | succ fuel ih =>
    obtain ⟨mark, ahead⟩ := p
    unfold gapWithin
    split
    · exact .refl _
    · rename_i c cs heq
      cases heq
      split
      · rename_i hspace
        rw [Bool.and_eq_true] at hspace
        simpa using (gaps_space hspace.1).trans (ih _)
      · split
        · rename_i n hcomment
          exact (gaps_comment hcomment).trans (ih _)
        · exact .refl _

end Place

/-! ## Cursors -/

namespace Cursor

variable {shape : Kind → List Label → Prop} {c : Cursor} {p : Place}

/-- The cursor stands behind a token that ends at the place. -/
def Behind (c : Cursor) (p : Place) : Prop := ∃ mayEnd, c = { Cursor.ofPlace p with mayEnd }

theorem behind_ofPlace (p : Place) : (Cursor.ofPlace p).Behind p := ⟨false, rfl⟩

theorem Behind.near_gaps (h : c.Behind p) : p.Gaps shape c.near.comments c.near.place := by
  obtain ⟨mayEnd, rfl⟩ := h
  exact Place.gaps_gapWithin false _ p

theorem Behind.far_gaps (h : c.Behind p) : p.Gaps shape c.far.comments c.far.place := by
  obtain ⟨mayEnd, rfl⟩ := h
  exact (Place.gaps_gapWithin false _ p).trans (Place.gaps_gapWithin true _ _)

theorem isWord_take_word {cs : List Char} {n : Nat} (h : Lexeme.word cs = some n) :
    IsWord (cs.take n) ∧ n ≤ cs.length := by
  unfold Lexeme.word at h
  split at h
  · rename_i c rest
    split at h
    · rename_i hstart
      cases h
      have hprefix := List.takeWhile_prefix Text.isIdentifierPart (l := rest)
      have htake : rest.take (rest.takeWhile Text.isIdentifierPart).length = rest.takeWhile Text.isIdentifierPart :=
        (List.prefix_iff_eq_take.1 hprefix).symm
      refine ⟨?_, ?_⟩
      · rw [Nat.add_comm, List.take_succ_cons, htake]
        exact .mk hstart fun x hx => List.mem_takeWhile_imp hx
      · have := hprefix.length_le
        simp only [List.length_cons]
        omega
    · cases h
  · cases h

/-- The word ahead is an identifier if there is one, and the characters ahead begin with it. -/
theorem Behind.word_ahead (h : c.Behind p) :
    (c.word ≠ [] → IsWord c.word) ∧ c.far.place.ahead.take c.word.length = c.word := by
  obtain ⟨mayEnd, rfl⟩ := h
  simp only [Cursor.ofPlace]
  cases hlexeme : Lexeme.word ((Place.gap false p).place.gap true).place.ahead with
  | none => simp
  | some n =>
    obtain ⟨hisWord, hle⟩ := isWord_take_word hlexeme
    simp only [Option.getD_some, List.length_take, Nat.min_eq_left hle]
    exact ⟨fun _ => hisWord, trivial⟩

end Cursor

/-! ## Items -/

namespace Item

variable {shape : Kind → List Label → Prop} {p q r : Place} {items more : List Item}

/-- The nodes of items with the comments before them. -/
def nodes (items : List Item) : List Node := items.flatMap fun item => item.lead ++ [item.node]

/-- The items stand between the places. -/
structure Laid (shape : Kind → List Label → Prop) (p : Place) (items : List Item) (q : Place) : Prop where
  stands : ∃ cs, p.Reaches cs q ∧ Stands shape p.mark.byte cs (nodes items)
  lead : ∀ item ∈ items, ∀ n ∈ item.lead, n.isComment = true
  node : ∀ item ∈ items, item.node.isComment = false

theorem Laid.nil (p : Place) : Laid shape p [] p :=
  ⟨⟨[], .refl p, .nil⟩, by simp, by simp⟩

theorem Laid.append (h : Laid shape p items q) (h' : Laid shape q more r) : Laid shape p (items ++ more) r := by
  obtain ⟨cs, hreach, hstands⟩ := h.stands
  obtain ⟨ds, hreach', hstands'⟩ := h'.stands
  refine ⟨⟨cs ++ ds, hreach.trans hreach', ?_⟩, List.forall_mem_append.2 ⟨h.lead, h'.lead⟩,
    List.forall_mem_append.2 ⟨h.node, h'.node⟩⟩
  rw [nodes, List.flatMap_append]
  rw [hreach.byte] at hstands'
  exact hstands.append hstands'

/-- A leaf behind a gap. -/
theorem laid_leaf {gap : Gap} {kind : Kind} {n : Nat} (hgap : p.Gaps shape gap.comments gap.place)
    (hkind : kind ≠ .comment)
    (hspells : kind.Spells (gap.place.ahead.take n)) :
    Laid shape p [⟨gap.comments, gap.place.leaf kind n⟩] (gap.place.skip n) := by
  obtain ⟨⟨solid, blanks, hreach, hstands, hblanks⟩, hcomments⟩ := hgap
  have hskip := gap.place.reaches_skip n
  have hcomment : (gap.place.leaf kind n).isComment = false := by
    simpa [Place.leaf, Node.isComment, Node.kind] using hkind
  refine ⟨⟨_, hreach.trans hskip, ?_⟩, by simpa using hcomments, by simpa using hcomment⟩
  rw [List.append_assoc]
  simp only [nodes, List.flatMap_cons, List.flatMap_nil, List.append_nil]
  refine hstands.append (.blanks hblanks ?_)
  rw [← List.append_nil (gap.place.ahead.take n)]
  have hbyte := hreach.byte
  rw [Text.byteLength_append, ← Nat.add_assoc] at hbyte
  refine .cons hbyte ?_ .nil (.leaf rfl hspells fun h => ?_) .nil
  · rw [← hbyte]
    exact hskip.byte
  · rw [hcomment] at h
    cases h

/-- The item in another role. -/
def Reroled (item item' : Item) : Prop := item'.lead = item.lead ∧ Stands.Alike item.node item'.node

theorem reroled_refl (item : Item) : item.Reroled item := ⟨rfl, rfl, rfl, rfl, rfl, fun _ => rfl⟩

theorem alike_nodes (h : List.Forall₂ Reroled items more) : List.Forall₂ Stands.Alike (nodes items) (nodes more) := by
  induction h with
  | nil => exact .nil
  | cons hitem _ ih =>
    obtain ⟨hlead, halike⟩ := hitem
    simp only [nodes, List.flatMap_cons, hlead]
    have hsame (ns : List Node) : List.Forall₂ Stands.Alike ns ns :=
      List.forall₂_same.2 fun n _ => ⟨rfl, rfl, rfl, rfl, fun _ => rfl⟩
    exact List.rel_append (List.rel_append (hsame _) (.cons halike .nil)) ih

theorem Laid.of_reroled (h : Laid shape p items q) (hroles : List.Forall₂ Reroled items more) :
    Laid shape p more q := by
  obtain ⟨⟨cs, hreach, hstands⟩, hlead, hnode⟩ := h
  refine ⟨⟨cs, hreach, hstands.of_alike (alike_nodes hroles)⟩, ?_, ?_⟩
  · clear hstands hnode
    induction hroles with
    | nil => simp
    | cons hitem _ ih =>
      rw [List.forall_mem_cons] at hlead ⊢
      exact ⟨hitem.1 ▸ hlead.1, ih hlead.2⟩
  · clear hstands hlead
    induction hroles with
    | nil => simp
    | cons hitem _ ih =>
      rw [List.forall_mem_cons] at hnode ⊢
      refine ⟨?_, ih hnode.2⟩
      rw [← hnode.1]
      simp only [Node.isComment, hitem.2.kind]

theorem reroled_withField {item : Item} (f : Option Field) (h : item.node.isComment = false) :
    item.Reroled ⟨item.lead, item.node.withField f⟩ := by
  obtain ⟨lead, ⟨kind, field, start, stop, comments, children⟩⟩ := item
  exact ⟨rfl, rfl, rfl, rfl, rfl, fun hcomment => absurd hcomment (by simp [h])⟩

theorem Laid.inRole (h : Laid shape p items q) (f : Field) : Laid shape p (inRole f items) q := by
  refine h.of_reroled ?_
  have hnode := h.node
  clear h
  induction items with
  | nil => exact .nil
  | cons item items ih =>
    rw [List.forall_mem_cons] at hnode
    exact .cons (reroled_withField _ hnode.1) (ih hnode.2)

/-! ### Gathered items -/

theorem parts_childrenOf (hlead : ∀ item ∈ items, ∀ n ∈ item.lead, n.isComment = true)
    (hnode : ∀ item ∈ items, item.node.isComment = false) :
    (childrenOf items).filter (fun n => !n.isComment) = items.map (·.node) := by
  have hnodes : ∀ rest : List Item, (∀ item ∈ rest, ∀ n ∈ item.lead, n.isComment = true) →
      (∀ item ∈ rest, item.node.isComment = false) →
      (nodes rest).filter (fun n => !n.isComment) = rest.map (·.node) := by
    intro rest
    induction rest with
    | nil => simp [nodes]
    | cons item rest ih =>
      intro hlead hnode
      rw [List.forall_mem_cons] at hlead hnode
      have hnone : item.lead.filter (fun n => !n.isComment) = [] := by
        simpa using hlead.1
      have hrest := ih hlead.2 hnode.2
      simp only [nodes] at hrest
      simp [nodes, hnone, hnode.1, hrest]
  cases items with
  | nil => rfl
  | cons first rest =>
    rw [List.forall_mem_cons] at hlead hnode
    have hrest := hnodes rest hlead.2 hnode.2
    simp only [nodes] at hrest
    simp [childrenOf, hnode.1, hrest]

theorem getLast?_childrenOf (first : Item) (rest : List Item) :
    (childrenOf (first :: rest)).getLast? = some (rest.getLast?.getD first).node := by
  induction rest generalizing first with
  | nil => rfl
  | cons item rest ih =>
    have hnext := ih item
    simp only [childrenOf, List.flatMap_cons, List.append_assoc, List.singleton_append] at hnext ⊢
    rw [← List.cons_append, List.getLast?_append, hnext]
    cases rest <;> rfl

/-- Items gathered in a node of a kind, if its parts may have their labels. -/
theorem Laid.group (h : Laid shape p items q) {kind : Kind} (hkind : kind ≠ .comment)
    (hshape : shape kind (labels items)) : Laid shape p (group kind items) q := by
  obtain ⟨⟨cs, hreach, hstands⟩, hlead, hnode⟩ := h
  cases items with
  | nil => exact ⟨⟨cs, hreach, hstands⟩, by simp [Item.group], by simp [Item.group]⟩
  | cons first rest =>
    have hparts := parts_childrenOf hlead hnode
    rw [List.forall_mem_cons] at hlead hnode
    have hcomment : (kind == .comment) = false := by simpa using hkind
    have hsolid : ∀ item ∈ Item.group kind (first :: rest), item.node.isComment = false := by
      simpa [Item.group, Node.isComment, Node.kind] using hkind
    refine ⟨⟨cs, hreach, ?_⟩, by simpa [Item.group] using hlead.1, hsolid⟩
    simp only [nodes, Item.group, List.flatMap_cons, List.flatMap_nil, List.append_nil]
    have hall : Stands shape p.mark.byte cs (first.lead ++ first.node :: nodes rest) := by simpa [nodes] using hstands
    refine hall.gather rfl rfl ?_ hnode.1 hcomment ?_
    · intro last hlast
      have : (childrenOf (first :: rest)).getLast? = some last := hlast
      rw [getLast?_childrenOf] at this
      cases this
      refine ⟨rfl, ?_⟩
      cases hrest : rest.getLast? with
      | none => exact hnode.1
      | some item => exact hnode.2 item (List.mem_of_getLast? hrest)
    · have hlabels : (Node.parts (.mk kind none first.node.start (rest.getLast?.getD first).node.stop []
          (childrenOf (first :: rest)))).map Node.label = labels (first :: rest) := by
        simp only [Node.parts, Node.children, hparts, labels, List.map_map]
        rfl
      rw [hlabels]
      exact hshape

theorem Laid.wrapLeft (h : Laid shape p items q) {inner : Option Kind} (role : Option Field)
    (hinner : ∀ kind, inner = some kind → kind ≠ .comment ∧ shape kind (labels items)) :
    Laid shape p (wrapLeft inner role items) q := by
  -- The items are gathered if the ending says so, then the first of them gets its role.
  have hrole {items : List Item} (h : Laid shape p items q) : Laid shape p (Item.wrapLeft none role items) q := by
    cases role with
    | none => exact h
    | some f =>
      cases items with
      | nil => exact h
      | cons first rest =>
        refine h.of_reroled (.cons (reroled_withField _ (h.node first (by simp))) ?_)
        exact List.forall₂_same.2 fun item _ => reroled_refl item
  cases inner with
  | none => exact hrole h
  | some kind => exact hrole (h.group (hinner kind rfl).1 (hinner kind rfl).2)

end Item

/-! ## Phrases in order -/

/-- The leaves of the token can be written in what the token reads. -/
def Token.Proper : Token → Prop
  | .name kind _ => kind.isName = true
  | .literal forms => ∀ form ∈ forms, form.1.isLiteral = true
  | _ => True

namespace Phrase

variable {ρ : Type}

section

variable (shape : Kind → List Label → Prop) (yield : ρ → List Label → Prop)

mutual

/-- The tokens of the phrase are proper, it makes no comments, and the nodes it makes have parts of the labels that
their kinds are allowed to have. -/
def Checked : Phrase ρ → Prop
  | .token t => t.Proper
  | .rule _ => True
  | .sequence ps => CheckedAll ps
  | .choice ps => CheckedAll ps
  | .heavier p q => Checked p ∧ Checked q
  | .many p => Checked p
  | .ahead _ => True
  | .unless _ => True
  | .node kind p => (kind ≠ .comment ∧ ∀ labels, Yields yield p labels → shape kind labels) ∧ Checked p
  | .field _ p => Checked p
  | .closing p => Checked p
  | .grow _ p extensions => Checked p ∧ CheckedExtensions extensions

/-- `Checked` for every phrase of a list. -/
def CheckedAll : List (Phrase ρ) → Prop
  | [] => True
  | p :: ps => Checked p ∧ CheckedAll ps

/-- `Checked` for extensions. -/
def CheckedExtensions : List (Extension ρ) → Prop
  | [] => True
  | .mk opening endings :: rest => Checked opening ∧ CheckedEndings endings ∧ CheckedExtensions rest

/-- `Checked` for endings. Before the ending a node that grows may have any parts. -/
def CheckedEndings : List (Ending ρ) → Prop
  | [] => True
  | .mk kind inner _ p :: rest =>
    ((kind ≠ .comment ∧ ∀ before labels, Yields yield p labels → shape kind (before ++ labels)) ∧
      (∀ innerKind, inner = some innerKind → innerKind ≠ .comment ∧ ∀ labels, shape innerKind labels) ∧ Checked p) ∧
    CheckedEndings rest

end

end

variable {shape : Kind → List Label → Prop} {yield : ρ → List Label → Prop}

theorem CheckedAll.of_mem {p : Phrase ρ} {ps : List (Phrase ρ)} (h : CheckedAll shape yield ps) (hp : p ∈ ps) :
    Checked shape yield p := by
  induction ps with
  | nil => cases hp
  | cons q ps ih =>
    rcases List.mem_cons.1 hp with rfl | hp
    · exact h.1
    · exact ih h.2 hp

theorem CheckedExtensions.of_mem {opening : Phrase ρ} {endings : List (Ending ρ)} {extensions : List (Extension ρ)}
    (h : CheckedExtensions shape yield extensions) (hmem : .mk opening endings ∈ extensions) :
    Checked shape yield opening ∧ CheckedEndings shape yield endings := by
  induction extensions with
  | nil => cases hmem
  | cons extension rest ih =>
    obtain ⟨opening', endings'⟩ := extension
    rcases List.mem_cons.1 hmem with heq | hmem
    · cases heq
      exact ⟨h.1, h.2.1⟩
    · exact ih h.2.2 hmem

theorem CheckedEndings.of_mem {kind : Kind} {inner : Option Kind} {role : Option Field} {p : Phrase ρ}
    {endings : List (Ending ρ)} (h : CheckedEndings shape yield endings) (hmem : .mk kind inner role p ∈ endings) :
    (kind ≠ .comment ∧ ∀ before labels, Yields yield p labels → shape kind (before ++ labels)) ∧
      (∀ innerKind, inner = some innerKind → innerKind ≠ .comment ∧ ∀ labels, shape innerKind labels) ∧
      Checked shape yield p := by
  induction endings with
  | nil => cases hmem
  | cons ending rest ih =>
    obtain ⟨kind', inner', role', p'⟩ := ending
    rcases List.mem_cons.1 hmem with heq | hmem
    · cases heq
      exact h.1
    · exact ih h.2 hmem

end Phrase

theorem Token.laid_of_read {shape : Kind → List Label → Prop} {t : Token} (ht : t.Proper) {c c' : Cursor}
    {items : List Item}
    (h : t.read c = some (items, c')) {p : Place} (hp : c.Behind p) :
    ∃ q, c'.Behind q ∧ Item.Laid shape p items q := by
  cases t with
  | sign text longer =>
    simp only [Token.read] at h
    split at h
    · rename_i hsign
      cases h
      rw [Bool.and_eq_true, List.isPrefixOf_iff_prefix] at hsign
      refine ⟨_, Cursor.behind_ofPlace _, Item.laid_leaf hp.far_gaps (by simp) ?_⟩
      have htake := List.prefix_iff_eq_take.1 hsign.1
      rw [String.length_toList] at htake
      exact htake.symm
    · cases h
  | keyword text =>
    simp only [Token.read] at h
    split at h
    · rename_i hword
      cases h
      refine ⟨_, Cursor.behind_ofPlace _, Item.laid_leaf hp.far_gaps (by simp) ?_⟩
      simpa [Kind.Spells, hp.word_ahead.2] using hword
    · cases h
  | name kind except =>
    simp only [Token.read] at h
    split at h
    · cases h
    · rename_i hword
      cases h
      simp only [Bool.or_eq_true, List.isEmpty_iff, not_or] at hword
      have hkind : kind ≠ .comment := by
        rintro rfl
        cases ht
      refine ⟨_, Cursor.behind_ofPlace _, Item.laid_leaf hp.far_gaps hkind ?_⟩
      rw [hp.word_ahead.2]
      exact Kind.spells_of_isWord ht (hp.word_ahead.1 hword.1)
  | literal forms =>
    simp only [Token.read, Option.map_eq_some_iff] at h
    obtain ⟨⟨kind, n⟩, hform, heq⟩ := h
    cases heq
    obtain ⟨shape, hmem, -⟩ := exists_of_longestForm hform
    have hliteral : kind.isLiteral = true := ht _ hmem
    have hkind : kind ≠ .comment := by
      rintro rfl
      cases hliteral
    exact ⟨_, Cursor.behind_ofPlace _, Item.laid_leaf hp.far_gaps hkind (Kind.spells_of_isLiteral hliteral _)⟩
  | terminator =>
    simp only [Token.read, Token.readTerminator] at h
    split at h
    · rename_i ch rest hahead
      split at h
      · cases h
        refine ⟨_, Cursor.behind_ofPlace _, Item.laid_leaf hp.near_gaps (by simp) ?_⟩
        simp [hahead, Kind.Spells]
      · cases h
    · split at h
      · cases h
        exact ⟨p, hp, .nil p⟩
      · cases h

namespace Phrase

variable {ρ : Type} {shape : Kind → List Label → Prop} {yield : ρ → List Label → Prop} {meaning : Meaning ρ}

/-- A rule is read as items that stand between the places of the cursors and have the labels that it yields. -/
def LaidMeaning (shape : Kind → List Label → Prop) (yield : ρ → List Label → Prop) : Meaning ρ :=
  fun r c items c' => (∀ p, c.Behind p → ∃ q, c'.Behind q ∧ Item.Laid shape p items q) ∧ yield r (Item.labels items)

/-- Phrases in order are read as items that stand between the places of the cursors. -/
theorem laid_of_reads {phrase : Phrase ρ} {c c' : Cursor} {items : List Item}
    (h : Reads (LaidMeaning shape yield) phrase c items c') (hchecked : Checked shape yield phrase) {p : Place}
    (hp : c.Behind p) : ∃ q, c'.Behind q ∧ Item.Laid shape p items q := by
  have hyields {phrase : Phrase ρ} {c c' : Cursor} {items : List Item}
      (h : Reads (LaidMeaning shape yield) phrase c items c') : Yields yield phrase (Item.labels items) :=
    yields_of_reads (fun hmeans => hmeans.2) h
  induction h generalizing p with
  | token read => exact Token.laid_of_read hchecked read hp
  | rule means => exact means.1 p hp
  | nil => exact ⟨p, hp, .nil p⟩
  | cons _ _ ihfirst ihrest =>
    obtain ⟨q, hq, hfirst⟩ := ihfirst hchecked.1 hp
    obtain ⟨r, hr, hrest⟩ := ihrest hchecked.2 hq
    exact ⟨r, hr, hfirst.append hrest⟩
  | choice mem _ ih => exact ih (CheckedAll.of_mem hchecked mem) hp
  | heavierLeft _ ih => exact ih hchecked.1 hp
  | heavierRight _ ih => exact ih hchecked.2 hp
  | stop => exact ⟨p, hp, .nil p⟩
  | again _ _ ihfirst ihrest =>
    obtain ⟨q, hq, hfirst⟩ := ihfirst hchecked hp
    obtain ⟨r, hr, hrest⟩ := ihrest hchecked hq
    exact ⟨r, hr, hfirst.append hrest⟩
  | ahead => exact ⟨p, hp, .nil p⟩
  | «unless» => exact ⟨p, hp, .nil p⟩
  | node inside ih =>
    obtain ⟨q, hq, hinside⟩ := ih hchecked.2 hp
    exact ⟨q, hq, hinside.group hchecked.1.1 (hchecked.1.2 _ (hyields inside))⟩
  | field _ ih =>
    obtain ⟨q, hq, hinside⟩ := ih hchecked hp
    exact ⟨q, hq, hinside.inRole _⟩
  | closing _ ih =>
    obtain ⟨q, ⟨mayEnd, rfl⟩, hinside⟩ := ih hchecked hp
    exact ⟨q, ⟨true, rfl⟩, hinside⟩
  | grow _ _ ih => exact ih hchecked.1 hp
  | @extend _ _ _ _ _ _ _ _ _ _ _ _ _ _ role _ _ extension _ ending ends ihbefore ihopens ihends =>
    obtain ⟨hopening, hendings⟩ := CheckedExtensions.of_mem hchecked.2 extension
    obtain ⟨hkind, hinner, hending⟩ := CheckedEndings.of_mem hendings ending
    obtain ⟨q₁, hq₁, hitems⟩ := ihbefore hchecked hp
    obtain ⟨q₂, hq₂, hmore⟩ := ihopens hopening hq₁
    obtain ⟨q₃, hq₃, hrest⟩ := ihends hending hq₂
    have hleft := (hitems.append hmore).wrapLeft role fun kind hsome => ⟨(hinner kind hsome).1, (hinner kind hsome).2 _⟩
    refine ⟨q₃, hq₃, (hleft.append hrest).group hkind.1 ?_⟩
    rw [Item.labels_append]
    exact hkind.2 _ _ (hyields ends)

end Phrase

end GoOutline
