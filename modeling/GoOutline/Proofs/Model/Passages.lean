import GoOutline.Proofs.Grammar.Fresh
import GoOutline.Proofs.Model.Spelling

/-!
# Trees carried from one text to another

If the characters of a tree also stand in another text, and the tree of that text holds it there, moved as a whole
(`Node.isMoved`), then what is read from the two is the same up to the spans (`Node.Carried`): types, names, tags and
comments, and so the fields of a struct (`Node.Carried.toStruct`). None of it depends on what stands outside the tree, or
on the number of a byte or a row.
-/
namespace GoOutline

/-! ## Moved trees -/

/-- The second mark is as far from `there` as the first is from `here`, in bytes and in rows. -/
def Mark.isMoved (here there m m' : Mark) : Bool :=
  m'.byte + here.byte == m.byte + there.byte && m'.row + here.row == m.row + there.row

namespace Node

mutual

/-- The second tree is the first one moved from `here` to `there`. The role of the tree itself and whose comments there
are does not matter. -/
def isMoved (here there : Mark) : Node → Node → Bool
  | mk kind _ start stop _ children, mk kind' _ start' stop' _ children' =>
    kind' == kind && Mark.isMoved here there start start' && Mark.isMoved here there stop stop' &&
      areMoved here there children children'

/-- The second trees are the first ones moved, in the same roles. -/
def areMoved (here there : Mark) : List Node → List Node → Bool
  | [], [] => true
  | n :: ns, n' :: ns' => n'.field == n.field && n.isMoved here there n' && areMoved here there ns ns'
  | _, _ => false

end

variable {here there : Mark} {n n' : Node} {ns ns' : List Node}

theorem forall₂_of_areMoved (h : areMoved here there ns ns' = true) :
    List.Forall₂ (fun m m' => m'.field = m.field ∧ m.isMoved here there m' = true) ns ns' := by
  induction ns generalizing ns' with
  | nil =>
    cases ns' with
    | nil => exact .nil
    | cons => simp [areMoved] at h
  | cons n ns ih =>
    cases ns' with
    | nil => simp [areMoved] at h
    | cons n' ns' =>
      simp only [areMoved, Bool.and_eq_true, beq_iff_eq] at h
      exact .cons h.1 (ih h.2)

theorem eq_of_isMoved (h : n.isMoved here there n' = true) :
    n'.kind = n.kind ∧ Mark.isMoved here there n.start n'.start = true ∧
      Mark.isMoved here there n.stop n'.stop = true ∧ areMoved here there n.children n'.children = true := by
  cases n
  cases n'
  simp only [isMoved, Bool.and_eq_true, beq_iff_eq] at h
  exact ⟨h.1.1.1, h.1.1.2, h.1.2, h.2⟩

end Node

/-! ## Passages -/

namespace Text

theorem takeBytes_append_of_le {cs : List Char} (ds : List Char) {k : Nat} (h : k ≤ byteLength cs) :
    takeBytes k (cs ++ ds) = takeBytes k cs := by
  induction cs generalizing k with
  | nil =>
    obtain rfl : k = 0 := by simpa using h
    simp [takeBytes]
  | cons c cs ih =>
    cases k with
    | zero => rfl
    | succ k =>
      rw [byteLength_cons] at h
      simp only [List.cons_append, takeBytes]
      split
      · rw [ih (by omega)]
      · rfl

theorem dropBytes_append_of_le {cs : List Char} (ds : List Char) {k : Nat} (h : k ≤ byteLength cs) :
    dropBytes k (cs ++ ds) = (dropBytes k cs).map (· ++ ds) := by
  induction cs generalizing k with
  | nil =>
    obtain rfl : k = 0 := by simpa using h
    simp [dropBytes]
  | cons c cs ih =>
    cases k with
    | zero => rfl
    | succ k =>
      rw [byteLength_cons] at h
      simp only [List.cons_append, dropBytes]
      split
      · rw [ih (by omega)]
      · rfl

theorem byteLength_of_dropBytes {cs rest : List Char} {k : Nat} (h : dropBytes k cs = some rest) :
    byteLength cs = k + byteLength rest := by
  induction cs generalizing k with
  | nil =>
    cases k with
    | zero =>
      cases h
      simp
    | succ k => cases h
  | cons c cs ih =>
    cases k with
    | zero =>
      cases h
      simp
    | succ k =>
      simp only [dropBytes] at h
      split at h
      · have := ih h
        rw [byteLength_cons]
        omega
      · cases h

/-- A slice of a part of a text is a slice of the text. -/
theorem sliceBytes_inside (before after : List Char) {cs : List Char} {i j : Nat} (hj : j ≤ byteLength cs) :
    sliceBytes (byteLength before + i) (byteLength before + j) (before ++ (cs ++ after)) = sliceBytes i j cs := by
  unfold sliceBytes
  by_cases hle : i ≤ j
  · have hsub : byteLength before + j - (byteLength before + i) = j - i := by omega
    rw [if_pos (by omega), if_pos hle, dropBytes_append_add, dropBytes_append_of_le after (by omega), hsub]
    cases hdrop : dropBytes i cs with
    | none => rfl
    | some rest =>
      have hlength := byteLength_of_dropBytes hdrop
      exact takeBytes_append_of_le after (by omega)
  · rw [if_neg (by omega), if_neg hle]

end Text

/-- The span moved by as many bytes as `there` is behind `here`. -/
def Span.moved (here there : Nat) (s : Span) : Span := ⟨s.start + there - here, s.stop + there - here⟩

/-- The type expression with all its spans moved. -/
def TypeExpr.moved (here there : Nat) : TypeExpr → TypeExpr
  | pointer s target => pointer (s.moved here there) (target.moved here there)
  | slice s element => slice (s.moved here there) (element.moved here there)
  | array s element => array (s.moved here there) (element.moved here there)
  | map s key value => map (s.moved here there) (key.moved here there) (value.moved here there)
  | variadic s element => variadic (s.moved here there) (element.moved here there)
  | primitive s family => primitive (s.moved here there) family
  | error s => error (s.moved here there)
  | named s package name => named (s.moved here there) package name
  | other s => other (s.moved here there)

/-- Characters that stand both in a source and in another text. -/
structure Passage (source text : String) where
  before : List Char
  inside : List Char
  after : List Char
  head : List Char
  foot : List Char
  source_eq : source.toList = before ++ (inside ++ after)
  text_eq : text.toList = head ++ (inside ++ foot)

namespace Passage

variable {source text : String} {s s' t t' : Span}

/-- The byte where the passage begins in the source. -/
def here (p : Passage source text) : Nat := Text.byteLength p.before

/-- The byte where the passage begins in the text. -/
def there (p : Passage source text) : Nat := Text.byteLength p.head

/-- A span inside the passage, and the same part of the passage in the text. -/
structure Carries (p : Passage source text) (s s' : Span) : Prop where
  start : s'.start + p.here = s.start + p.there
  stop : s'.stop + p.here = s.stop + p.there
  first : p.here ≤ s.start
  last : s.stop ≤ p.here + Text.byteLength p.inside

variable {p : Passage source text}

theorem Carries.text_eq (h : p.Carries s s') : s'.text text = s.text source := by
  have hstart := h.start
  have hstop := h.stop
  have hlast := h.last
  obtain ⟨i, hi⟩ := Nat.exists_eq_add_of_le h.first
  unfold Span.text
  by_cases hordered : s.start ≤ s.stop
  · obtain ⟨j, hj⟩ : ∃ j, s.stop = p.here + j := Nat.exists_eq_add_of_le (by omega)
    have hi' : s'.start = p.there + i := by omega
    have hj' : s'.stop = p.there + j := by omega
    have htext := Text.sliceBytes_inside p.head p.foot (i := i) (show j ≤ Text.byteLength p.inside by omega)
    have hsource := Text.sliceBytes_inside p.before p.after (i := i) (show j ≤ Text.byteLength p.inside by omega)
    rw [hi, hj, hi', hj', p.source_eq, p.text_eq, here, there, htext, hsource]
  · simp only [Text.sliceBytes]
    rw [if_neg (by omega), if_neg hordered]

theorem Carries.covering (hs : p.Carries s s') (ht : p.Carries t t') :
    p.Carries (.covering s t) (.covering s' t') :=
  ⟨hs.start, ht.stop, hs.first, ht.last⟩

theorem Carries.eq_moved (h : p.Carries s s') : s' = s.moved p.here p.there := by
  have hstart := h.start
  have hstop := h.stop
  cases s'
  simp only [Span.moved, Span.mk.injEq]
  dsimp only at hstart hstop
  omega

end Passage

/-! ## Carried trees -/

section

variable {source text : String} {p : Passage source text} {rows : Int} {n n' m m' : Node}

/-- The second tree is the first one moved with the passage that it stands in, and so are the comments inside it. -/
inductive Node.Carried (p : Passage source text) (rows : Int) : Node → Node → Prop
  | mk {n n' : Node} (same : n.Parallel p.Carries rows n')
      (roles : List.Forall₂ (fun m m' => m'.field = m.field ∧ List.Forall₂ p.Carries m.comments m'.comments)
        n.children n'.children)
      (children : List.Forall₂ (Carried p rows) n.children n'.children) : Carried p rows n n'

/-- The node is carried, in its role and with its comments. -/
structure Node.CarriedAs (p : Passage source text) (rows : Int) (n n' : Node) : Prop where
  field : n'.field = n.field
  comments : List.Forall₂ p.Carries n.comments n'.comments
  carried : n.Carried p rows n'

theorem forall₂_and {α β : Type} {R S : α → β → Prop} {xs : List α} {ys : List β} (h : List.Forall₂ R xs ys)
    (h' : List.Forall₂ S xs ys) : List.Forall₂ (fun x y => R x y ∧ S x y) xs ys := by
  induction h with
  | nil => exact .nil
  | cons hhead _ ih =>
    cases h' with
    | cons hhead' htail' => exact .cons ⟨hhead, hhead'⟩ (ih htail')

/-- What is looked for alike in two lists is found in both at the same place, or in neither. -/
theorem forall₂_find? {α β : Type} {R : α → β → Prop} {xs : List α} {ys : List β} (h : List.Forall₂ R xs ys)
    {q : α → Bool} {r : β → Bool} (hqr : ∀ x y, R x y → r y = q x) : Option.Rel R (xs.find? q) (ys.find? r) := by
  induction h with
  | nil => exact .none
  | @cons x y xs ys hhead _ ih =>
    rw [List.find?_cons, List.find?_cons, hqr x y hhead]
    cases q x with
    | true => exact .some hhead
    | false => exact ih

theorem forall₂_filter {α β : Type} {R : α → β → Prop} {xs : List α} {ys : List β} (h : List.Forall₂ R xs ys)
    {q : α → Bool} {r : β → Bool} (hqr : ∀ x y, R x y → r y = q x) : List.Forall₂ R (xs.filter q) (ys.filter r) :=
  List.rel_filter (fun x y hxy => by simp only [hqr x y hxy]) h

theorem forall₂_head? {α β : Type} {R : α → β → Prop} {xs : List α} {ys : List β} (h : List.Forall₂ R xs ys) :
    Option.Rel R xs.head? ys.head? := by
  cases h with
  | nil => exact .none
  | cons hhead _ => exact .some hhead

theorem cases_of_rel {α β : Type} {R : α → β → Prop} {a : Option α} {b : Option β} (h : Option.Rel R a b) :
    a = none ∧ b = none ∨ ∃ x y, a = some x ∧ b = some y ∧ R x y := by
  cases h with
  | none => exact .inl ⟨rfl, rfl⟩
  | some hxy => exact .inr ⟨_, _, rfl, rfl, hxy⟩

theorem map_eq_of_forall₂ {α β γ : Type} {R : α → β → Prop} {xs : List α} {ys : List β} (h : List.Forall₂ R xs ys)
    {f : α → γ} {g : β → γ} (hfg : ∀ x y, R x y → g y = f x) : ys.map g = xs.map f := by
  induction h with
  | nil => rfl
  | cons hhead _ ih => rw [List.map_cons, List.map_cons, hfg _ _ hhead, ih]

theorem forall₂_zipIdx {α β : Type} {R : α → β → Prop} {xs : List α} {ys : List β} (h : List.Forall₂ R xs ys)
    (k : Nat) : List.Forall₂ (fun x y => R x.1 y.1 ∧ x.2 = y.2) (xs.zipIdx k) (ys.zipIdx k) := by
  induction h generalizing k with
  | nil => exact .nil
  | cons hhead _ ih => exact .cons ⟨hhead, rfl⟩ (ih (k + 1))

namespace Node

theorem Carried.same (h : n.Carried p rows n') : n.Parallel p.Carries rows n' := by
  cases h with
  | mk same => exact same

theorem Carried.children (h : n.Carried p rows n') : List.Forall₂ (CarriedAs p rows) n.children n'.children := by
  cases h with
  | mk _ roles children =>
    exact (forall₂_and roles children).imp fun _ _ hm => ⟨hm.1.1, hm.1.2, hm.2⟩

theorem Carried.text_eq (h : n.Carried p rows n') : n'.text text = n.text source :=
  h.same.span.text_eq

/-- A tree that is moved from where a passage begins in the source to where it begins in the text. -/
theorem carried_of_isMoved {here there : Mark} (hn : n.Shared) (hn' : n'.Shared) (hplaced : n.Placed source)
    (hfirst : p.here ≤ n.start.byte) (hlast : n.stop.byte ≤ p.here + Text.byteLength p.inside)
    (hhere : p.here = here.byte) (hthere : p.there = there.byte) (hrows : rows = there.row - here.row)
    (h : n.isMoved here there n' = true) : n.Carried p rows n' := by
  -- What the marks of one node say.
  have hparallel {m m' : Node} (hfirst : p.here ≤ m.start.byte)
      (hlast : m.stop.byte ≤ p.here + Text.byteLength p.inside) (h : m.isMoved here there m' = true) :
      m.Parallel p.Carries rows m' := by
    obtain ⟨hkind, hstart, hstop, -⟩ := eq_of_isMoved h
    simp only [Mark.isMoved, Bool.and_eq_true, beq_iff_eq] at hstart hstop
    refine ⟨hkind, ⟨?_, ?_, hfirst, hlast⟩, by omega, by omega⟩
    · rw [hhere, hthere]
      exact hstart.1
    · rw [hhere, hthere]
      exact hstop.1
  induction n using childInduction generalizing n' with
  | node n ih =>
    obtain ⟨-, -, -, hchildren⟩ := eq_of_isMoved h
    have hmoved := forall₂_of_areMoved hchildren
    obtain ⟨-, hinside, -, hplacedChildren⟩ := hplaced
    -- The children stand inside the node.
    have hbounds {m : Node} (hm : m ∈ n.children) :
        p.here ≤ m.start.byte ∧ m.stop.byte ≤ p.here + Text.byteLength p.inside :=
      ⟨Nat.le_trans hfirst (hinside m hm).1, Nat.le_trans (hinside m hm).2 hlast⟩
    obtain ⟨hlength, hpair⟩ := List.forall₂_iff_get.1 hmoved
    have hsiblings : List.Forall₂ (Parallel p.Carries rows) n.children n'.children := by
      refine List.forall₂_iff_get.2 ⟨hlength, fun k hk hk' => ?_⟩
      obtain ⟨hlow, hhigh⟩ := hbounds (List.get_mem n.children ⟨k, hk⟩)
      exact hparallel hlow hhigh (hpair k hk hk').2
    refine .mk (hparallel hfirst hlast h) ?_ ?_
    · refine List.forall₂_iff_get.2 ⟨hlength, fun k hk hk' => ⟨(hpair k hk hk').1, ?_⟩⟩
      rw [List.get_eq_getElem, List.get_eq_getElem, hn.comments (List.getElem?_eq_getElem hk),
        hn'.comments (List.getElem?_eq_getElem hk')]
      exact forall₂_given hsiblings ⟨.none, .nil⟩ k
    · refine List.forall₂_iff_get.2 ⟨hlength, fun k hk hk' => ?_⟩
      have hmem := List.get_mem n.children ⟨k, hk⟩
      obtain ⟨hlow, hhigh⟩ := hbounds hmem
      exact ih _ hmem (hn.child hmem) (hn'.child (List.get_mem n'.children ⟨k, hk'⟩)) (hplacedChildren _ hmem) hlow
        hhigh (hpair k hk hk').2

theorem Carried.childIn (h : n.Carried p rows n') (f : Field) :
    Option.Rel (CarriedAs p rows) (n.childIn f) (n'.childIn f) :=
  forall₂_find? h.children fun _ _ hm => by rw [hm.field]

theorem Carried.namedChildren (h : n.Carried p rows n') :
    List.Forall₂ (CarriedAs p rows) n.namedChildren n'.namedChildren :=
  forall₂_filter h.children fun _ _ hm => hm.carried.same.isNamed

end Node

/-! ## Types -/

theorem TypeExpr.moved_ofName (here there : Nat) (s : Span) (name : String) :
    (ofName s name).moved here there = ofName (s.moved here there) name := by
  unfold ofName
  split
  · rfl
  · split <;> rfl

namespace Node

/-- What a carried node is classified as depends on the passage only. -/
theorem Carried.classify_eq (h : n.Carried p rows n') :
    n'.classify text = (n.classify source).moved p.here p.there := by
  induction n using childInduction generalizing n' with
  | node n ih =>
    have hspan : n'.span = n.span.moved p.here p.there := h.same.span.eq_moved
    have htext := h.text_eq
    have hchild {m m' : Node} (hm : m ∈ n.children) (hcarried : CarriedAs p rows m m') :
        m'.classify text = (m.classify source).moved p.here p.there := ih m hm hcarried.carried
    have hpart (f : Field) : n.childIn f = none ∧ n'.childIn f = none ∨
        ∃ m m', n.childIn f = some m ∧ n'.childIn f = some m' ∧ m'.text text = m.text source ∧
          m'.classify text = (m.classify source).moved p.here p.there := by
      rcases cases_of_rel (h.childIn f) with hnone | ⟨m, m', hm, hm', hcarried⟩
      · exact .inl hnone
      · exact .inr ⟨m, m', hm, hm', hcarried.carried.text_eq, hchild (List.mem_of_find?_eq_some hm) hcarried⟩
    rw [Node.classify_eq, Node.classify_eq source n, h.same.kind]
    cases n.kind
    case typeIdentifier => simp only [hspan, htext, TypeExpr.moved_ofName]
    case qualifiedType =>
      rcases hpart .package with ⟨hm, hm'⟩ | ⟨m, m', hm, hm', htext, -⟩
      · simp [hm, hm', hspan, TypeExpr.moved]
      · rcases hpart .name with ⟨hk, hk'⟩ | ⟨k, k', hk, hk', htext', -⟩
        · simp [hm, hm', hk, hk', hspan, TypeExpr.moved]
        · simp [hm, hm', hk, hk', htext, htext', hspan, TypeExpr.moved]
    case pointerType =>
      have hnamed := forall₂_find? h.children fun _ _ hm => hm.carried.same.isNamed
      rcases cases_of_rel hnamed with ⟨hm, hm'⟩ | ⟨m, m', hm, hm', hcarried⟩
      · simp [hm, hm', hspan, TypeExpr.moved]
      · simp [hm, hm', hspan, TypeExpr.moved, hchild (List.mem_of_find?_eq_some hm) hcarried]
    case sliceType | arrayType | implicitLengthArrayType =>
      rcases hpart .element with ⟨hm, hm'⟩ | ⟨m, m', hm, hm', -, hclassify⟩
      · simp [hm, hm', hspan, TypeExpr.moved]
      · simp [hm, hm', hspan, TypeExpr.moved, hclassify]
    case mapType =>
      rcases hpart .key with ⟨hm, hm'⟩ | ⟨m, m', hm, hm', -, hclassify⟩
      · simp [hm, hm', hspan, TypeExpr.moved]
      · rcases hpart .value with ⟨hk, hk'⟩ | ⟨k, k', hk, hk', -, hclassify'⟩
        · simp [hm, hm', hk, hk', hspan, TypeExpr.moved]
        · simp [hm, hm', hk, hk', hspan, TypeExpr.moved, hclassify, hclassify']
    all_goals simp [hspan, TypeExpr.moved]

end Node

/-- The type expression of the text is that of the source, moved with the passage, and is written as that one is. -/
structure Passage.CarriesType (p : Passage source text) (t t' : TypeExpr) : Prop where
  moved : t' = t.moved p.here p.there
  text_eq : t'.text text = t.text source

namespace Node

theorem Carried.type (h : n.Carried p rows n') : p.CarriesType (n.classify source) (n'.classify text) :=
  ⟨h.classify_eq, by rw [text_classify, text_classify, h.text_eq]⟩

theorem Carried.embeddedType (h : n.Carried p rows n') (hm : m.Carried p rows m') :
    p.CarriesType (embeddedType source n m) (Node.embeddedType text n' m') := by
  unfold Node.embeddedType
  rcases cases_of_rel (forall₂_head? h.children) with ⟨hnone, hnone'⟩ | ⟨star, star', hmem, hmem', hstar⟩
  · rw [hnone, hnone']
    exact hm.type
  · rw [hmem, hmem']
    simp only [hstar.carried.same.kind]
    split
    · have hspan := hstar.carried.same.span.covering hm.same.span
      refine ⟨?_, hspan.text_eq⟩
      rw [hspan.eq_moved, hm.classify_eq]
      rfl
    · exact hm.type

/-! ## Fields -/

theorem Carried.namesIn (h : n.Carried p rows n') (kind : Kind) : n'.namesIn text kind = n.namesIn source kind := by
  have hroles : List.Forall₂ (CarriedAs p rows) (n.childrenIn .name) (n'.childrenIn .name) :=
    forall₂_filter h.children fun _ _ hm => by rw [hm.field]
  refine map_eq_of_forall₂ (forall₂_filter hroles fun _ _ hm => ?_) fun _ _ hm => hm.carried.text_eq
  rw [hm.carried.same.kind]

theorem CarriedAs.commentText (h : n.CarriedAs p rows n') : n'.commentText text = n.commentText source := by
  have htexts : n'.comments.map (·.text text) = n.comments.map (·.text source) :=
    map_eq_of_forall₂ h.comments fun _ _ hs => hs.text_eq
  have hlines (source : String) (spans : List Span) : Comment.text source spans =
      String.ofList (Comment.joinLines (Comment.normalize
        ((spans.map (·.text source)).flatMap fun raw => Comment.lines raw.toList))) := by
    rw [List.flatMap_map]
    rfl
  rw [Node.commentText, Node.commentText, hlines, hlines, htexts]

end Node

/-- The second argument is the first one, its type moved with the passage. -/
structure Passage.CarriesArg (p : Passage source text) (a b : Arg) : Prop where
  name : b.name = a.name
  type : p.CarriesType a.type b.type
  comment : b.comment = a.comment
  tag : b.tag = a.tag

theorem Node.carries_slots (names : List String) (unnamed comment : String) (tag : Option String) {t t' : TypeExpr}
    (h : p.CarriesType t t') :
    List.Forall₂ p.CarriesArg (slots names unnamed t comment tag) (slots names unnamed t' comment tag) := by
  unfold slots
  split
  · exact .cons ⟨rfl, h, rfl, rfl⟩ .nil
  · rw [List.forall₂_map_left_iff, List.forall₂_map_right_iff]
    exact List.forall₂_same.2 fun name _ => ⟨rfl, h, rfl, rfl⟩

namespace Node

theorem CarriedAs.fieldSlots (h : n.CarriedAs p rows n') (index : Nat) :
    List.Forall₂ p.CarriesArg (fieldSlots source n index) (fieldSlots text n' index) := by
  unfold Node.fieldSlots
  rcases cases_of_rel (h.carried.childIn .type) with ⟨hnone, hnone'⟩ | ⟨type, type', htype, htype', hcarried⟩
  · rw [hnone, hnone']
    exact .nil
  · have htag : (n'.childIn .tag).map (·.text text) = (n.childIn .tag).map (·.text source) := by
      rcases cases_of_rel (h.carried.childIn .tag) with ⟨hnone, hnone'⟩ | ⟨tag, tag', hmem, hmem', htag⟩
      · rw [hnone, hnone']
        rfl
      · rw [hmem, hmem', Option.map_some, Option.map_some, htag.carried.text_eq]
    rw [htype, htype']
    dsimp only
    rw [h.carried.namesIn, h.commentText, htag]
    refine carries_slots _ _ _ _ ?_
    split
    · exact h.carried.embeddedType hcarried.carried
    · exact hcarried.carried.type

theorem Carried.fieldArgs (h : n.Carried p rows n') :
    List.Forall₂ p.CarriesArg (n.fieldArgs source) (n'.fieldArgs text) := by
  refine List.rel_flatMap (forall₂_zipIdx (forall₂_filter h.namedChildren fun _ _ hm => ?_) 0) ?_
  · rw [hm.carried.same.kind]
  · rintro ⟨m, index⟩ ⟨m', index'⟩ ⟨hm, rfl⟩
    exact hm.fieldSlots index

theorem Carried.toStruct (h : n.Carried p rows n') (name name' : Node) (comment comment' : String) :
    List.Forall₂ p.CarriesArg (name.toStruct source n comment).fields (name'.toStruct text n' comment').fields := by
  have hlist := forall₂_find? h.namedChildren fun m m' hm =>
    (by rw [hm.carried.same.kind] : (m'.kind == .fieldDeclarationList) = (m.kind == .fieldDeclarationList))
  simp only [Node.toStruct]
  rcases cases_of_rel hlist with ⟨hnone, hnone'⟩ | ⟨list, list', hmem, hmem', hcarried⟩
  · rw [hnone, hnone']
    exact .nil
  · rw [hmem, hmem']
    exact hcarried.carried.fieldArgs

end Node

end

end GoOutline
