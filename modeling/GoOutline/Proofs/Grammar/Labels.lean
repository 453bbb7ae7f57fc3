import GoOutline.Proofs.Grammar.Reads

/-!
# The labels of what is read

The label of a node is its kind with its role. Which labels a phrase can yield is read off the phrase, up to what
the rules in it yield (`Phrase.Yields`, `yields_of_reads`).
-/
namespace GoOutline

/-- The kind of a node and its role in its parent. -/
abbrev Label := Kind × Option Field

/-- The kind of the node and its role in its parent. -/
def Node.label (n : Node) : Label := (n.kind, n.field)

/-- The labels of the nodes of items. -/
def Item.labels (items : List Item) : List Label := items.map (·.node.label)

/-- The label of a node of a kind around others; none if there are no others. -/
def Kind.around (kind : Kind) (inside : List Label) : List Label :=
  match inside with
  | [] => []
  | _ :: _ => [(kind, none)]

/-- The labels that a token can yield. -/
def Token.Yields : Token → List Label → Prop
  | .sign text _, labels => labels = [(.token text, none)]
  | .keyword text, labels => labels = [(.token text, none)]
  | .name kind _, labels => labels = [(kind, none)]
  | .literal forms, labels => ∃ form ∈ forms, labels = [(form.1, none)]
  | .terminator, labels => labels = [] ∨ ∃ text, labels = [(.token text, none)]

namespace Phrase

variable {ρ : Type}

/-- The kinds of the nodes that extensions build. -/
def endingKinds : List (Extension ρ) → List Kind
  | [] => []
  | .mk _ endings :: rest => (endings.map fun (.mk kind _ _ _) => kind) ++ endingKinds rest

mutual

/-- The labels that a phrase can yield, if it is known which of them the rules yield. -/
def Yields (yield : ρ → List Label → Prop) : Phrase ρ → List Label → Prop
  | .token t, labels => t.Yields labels
  | .rule r, labels => yield r labels
  | .sequence ps, labels => YieldsInOrder yield ps labels
  | .choice ps, labels => YieldsOneOf yield ps labels
  | .heavier p q, labels => Yields yield p labels ∨ Yields yield q labels
  | .many p, labels => ∃ parts : List (List Label), labels = parts.flatten ∧ ∀ part ∈ parts, Yields yield p part
  | .ahead _, labels => labels = []
  | .unless _, labels => labels = []
  | .node kind p, labels => ∃ inside, Yields yield p inside ∧ labels = kind.around inside
  | .field f p, labels => ∃ inside, Yields yield p inside ∧ labels = inside.map fun label => (label.1, some f)
  | .closing p, labels => Yields yield p labels
  | .grow growth p extensions, labels =>
    (growth ≠ .once ∧ Yields yield p labels) ∨
      ∃ start, Yields yield p start ∧
        ∃ kind ∈ endingKinds extensions, labels = [(kind, none)] ∨ start = [] ∧ labels = []

/-- The labels that phrases can yield one after the other. -/
def YieldsInOrder (yield : ρ → List Label → Prop) : List (Phrase ρ) → List Label → Prop
  | [], labels => labels = []
  | p :: ps, labels => ∃ first rest, Yields yield p first ∧ YieldsInOrder yield ps rest ∧ labels = first ++ rest

/-- The labels that one of several phrases can yield. -/
def YieldsOneOf (yield : ρ → List Label → Prop) : List (Phrase ρ) → List Label → Prop
  | [], _ => False
  | p :: ps, labels => Yields yield p labels ∨ YieldsOneOf yield ps labels

end

end Phrase

/-! ## Labels of items -/

namespace Item

@[simp] theorem labels_append (items more : List Item) : labels (items ++ more) = labels items ++ labels more := by
  simp [labels]

theorem labels_eq_nil {items : List Item} : labels items = [] ↔ items = [] := by
  simp [labels]

theorem labels_group (kind : Kind) (items : List Item) : labels (group kind items) = kind.around (labels items) := by
  cases items <;> rfl

theorem labels_inRole (f : Field) (items : List Item) :
    labels (inRole f items) = (labels items).map fun label => (label.1, some f) := by
  simp only [labels, inRole, List.map_map]
  apply List.map_congr_left
  intro item _
  obtain ⟨lead, ⟨kind, field, start, stop, comments, children⟩⟩ := item
  rfl

theorem wrapLeft_eq_nil {inner : Option Kind} {role : Option Field} {items : List Item} :
    wrapLeft inner role items = [] ↔ items = [] := by
  cases inner <;> cases role <;> cases items <;> simp [wrapLeft, group]

end Item

theorem Token.exists_of_longestForm {cs : List Char} {kind : Kind} {n : Nat} {forms : List (Kind × Shape)}
    (h : longestForm cs forms = some (kind, n)) : ∃ shape, (kind, shape) ∈ forms ∧ shape cs = some n := by
  induction forms with
  | nil => cases h
  | cons form rest ih =>
    obtain ⟨kind', shape⟩ := form
    -- Either this form is the longest one, or one of the others is.
    have hlater : longestForm cs rest = some (kind, n) →
        ∃ shape', (kind, shape') ∈ (kind', shape) :: rest ∧ shape' cs = some n := by
      intro hrest
      obtain ⟨shape', hmem, hshape⟩ := ih hrest
      exact ⟨shape', List.mem_cons_of_mem _ hmem, hshape⟩
    unfold longestForm at h
    split at h
    · rename_i m other k hm hrest
      split at h
      · cases h
        exact hlater hrest
      · cases h
        exact ⟨shape, by simp, hm⟩
    · rename_i m hm hrest
      cases h
      exact ⟨shape, by simp, hm⟩
    · exact hlater h

theorem Token.yields_of_read {t : Token} {c c' : Cursor} {items : List Item} (h : t.read c = some (items, c')) :
    t.Yields (Item.labels items) := by
  cases t with
  | sign text longer =>
    simp only [Token.read] at h
    split at h
    · cases h
      rfl
    · cases h
  | keyword text =>
    simp only [Token.read] at h
    split at h
    · cases h
      rfl
    · cases h
  | name kind except =>
    simp only [Token.read] at h
    split at h
    · cases h
    · cases h
      rfl
  | literal forms =>
    simp only [Token.read, Option.map_eq_some_iff] at h
    obtain ⟨⟨kind, n⟩, hform, heq⟩ := h
    cases heq
    obtain ⟨shape, hmem, -⟩ := exists_of_longestForm hform
    exact ⟨_, hmem, rfl⟩
  | terminator =>
    simp only [Token.read, Token.readTerminator] at h
    split at h
    · split at h
      · cases h
        exact .inr ⟨_, rfl⟩
      · cases h
    · split at h
      · cases h
        exact .inl rfl
      · cases h

namespace Phrase

variable {ρ : Type} {yield : ρ → List Label → Prop} {meaning : Meaning ρ}

theorem YieldsOneOf.of_mem {p : Phrase ρ} {ps : List (Phrase ρ)} {labels : List Label} (hp : p ∈ ps)
    (h : Yields yield p labels) : YieldsOneOf yield ps labels := by
  induction ps with
  | nil => cases hp
  | cons q ps ih =>
    rcases List.mem_cons.1 hp with rfl | hp
    · exact .inl h
    · exact .inr (ih hp)

theorem mem_endingKinds {extensions : List (Extension ρ)} {opening q : Phrase ρ} {endings : List (Ending ρ)}
    {kind : Kind}
    {inner : Option Kind} {role : Option Field} (hext : .mk opening endings ∈ extensions)
    (hending : .mk kind inner role q ∈ endings) : kind ∈ endingKinds extensions := by
  induction extensions with
  | nil => cases hext
  | cons extension rest ih =>
    obtain ⟨opening', endings'⟩ := extension
    rcases List.mem_cons.1 hext with heq | hext
    · cases heq
      exact List.mem_append_left _ (List.mem_map.2 ⟨_, hending, rfl⟩)
    · exact List.mem_append_right _ (ih hext)

/-- If the rules yield what they are known to yield, so does every phrase. -/
theorem yields_of_reads (hrules : ∀ {r c items c'}, meaning r c items c' → yield r (Item.labels items)) {p : Phrase ρ}
    {c c' : Cursor} {items : List Item} (h : Reads meaning p c items c') : Yields yield p (Item.labels items) := by
  induction h with
  | token read => exact Token.yields_of_read read
  | rule means => exact hrules means
  | nil => rfl
  | cons _ _ ihfirst ihrest => exact ⟨_, _, ihfirst, ihrest, Item.labels_append _ _⟩
  | choice mem _ ih => exact .of_mem mem ih
  | heavierLeft _ ih => exact .inl ih
  | heavierRight _ ih => exact .inr ih
  | stop => exact ⟨[], rfl, by simp⟩
  | again _ _ ihfirst ihrest =>
    obtain ⟨parts, hparts, hall⟩ := ihrest
    refine ⟨_ :: parts, ?_, List.forall_mem_cons.2 ⟨ihfirst, hall⟩⟩
    rw [Item.labels_append, hparts, List.flatten_cons]
  | ahead => rfl
  | «unless» => rfl
  | node _ ih => exact ⟨_, ih, Item.labels_group _ _⟩
  | field _ ih => exact ⟨_, ih, Item.labels_inRole _ _⟩
  | closing _ ih => exact ih
  | grow may _ ih => exact .inl ⟨may, ih⟩
  | @extend growth p extensions c c₁ c₂ c₃ items more rest opening endings kind inner role q _ extension _ ending _
      ihbefore _ _ =>
    have hkind : kind ∈ endingKinds extensions := mem_endingKinds extension ending
    rw [Item.labels_group]
    -- The new node is missing only if there was nothing to wrap.
    cases hitems : Item.labels (Item.wrapLeft inner role (items ++ more) ++ rest) with
    | nil =>
      have hnone : Item.labels items = [] := by
        simp only [Item.labels_eq_nil, List.append_eq_nil_iff, Item.wrapLeft_eq_nil] at hitems ⊢
        exact hitems.1.1
      rw [hnone] at ihbefore
      rcases ihbefore with ⟨-, hstart⟩ | ⟨start, hstart, _, _, hlabels | ⟨rfl, -⟩⟩
      · exact .inr ⟨[], hstart, kind, hkind, .inr ⟨rfl, rfl⟩⟩
      · cases hlabels
      · exact .inr ⟨[], hstart, kind, hkind, .inr ⟨rfl, rfl⟩⟩
    | cons label labels =>
      obtain ⟨start, hstart⟩ : ∃ start, Yields yield p start := by
        rcases ihbefore with ⟨-, hstart⟩ | ⟨start, hstart, -⟩
        · exact ⟨_, hstart⟩
        · exact ⟨start, hstart⟩
      exact .inr ⟨start, hstart, kind, hkind, .inl rfl⟩

end Phrase

end GoOutline
