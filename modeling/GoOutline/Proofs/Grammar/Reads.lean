import GoOutline.Grammar.Phrase

/-!
# What a phrase can be read as

`Phrase.read` prefers some readings to others and pays fuel for every step. `Phrase.Reads` forgets both: it says
between which cursors a phrase can stand for which items, if it is known of every rule what that stands for. A
property of rules that each of them gets from its phrase is a property of all that is ever read
(`reads_of_read`), so a fact about the grammar is a fact about its phrases, one by one.
-/
namespace GoOutline.Phrase

variable {ρ : Type}

/-- What the rules stand for: items between two cursors. -/
abbrev Meaning (ρ : Type) := ρ → Cursor → List Item → Cursor → Prop

/-- The items that a phrase can stand for between two cursors. -/
inductive Reads (meaning : Meaning ρ) : Phrase ρ → Cursor → List Item → Cursor → Prop
  | token {t : Token} {c c' : Cursor} {items : List Item} (read : t.read c = some (items, c')) :
      Reads meaning (.token t) c items c'
  | rule {r : ρ} {c c' : Cursor} {items : List Item} (means : meaning r c items c') :
      Reads meaning (.rule r) c items c'
  | nil {c : Cursor} : Reads meaning (.sequence []) c [] c
  | cons {p : Phrase ρ} {ps : List (Phrase ρ)} {c c' c'' : Cursor} {items more : List Item}
      (first : Reads meaning p c items c') (rest : Reads meaning (.sequence ps) c' more c'') :
      Reads meaning (.sequence (p :: ps)) c (items ++ more) c''
  | choice {p : Phrase ρ} {ps : List (Phrase ρ)} {c c' : Cursor} {items : List Item} (mem : p ∈ ps)
      (one : Reads meaning p c items c') : Reads meaning (.choice ps) c items c'
  | heavierLeft {p q : Phrase ρ} {c c' : Cursor} {items : List Item} (one : Reads meaning p c items c') :
      Reads meaning (.heavier p q) c items c'
  | heavierRight {p q : Phrase ρ} {c c' : Cursor} {items : List Item} (one : Reads meaning q c items c') :
      Reads meaning (.heavier p q) c items c'
  | stop {p : Phrase ρ} {c : Cursor} : Reads meaning (.many p) c [] c
  | again {p : Phrase ρ} {c c' c'' : Cursor} {items more : List Item} (first : Reads meaning p c items c')
      (rest : Reads meaning (.many p) c' more c'') : Reads meaning (.many p) c (items ++ more) c''
  | ahead {p : Phrase ρ} {c : Cursor} : Reads meaning (.ahead p) c [] c
  | unless {p : Phrase ρ} {c : Cursor} : Reads meaning (.unless p) c [] c
  | node {kind : Kind} {p : Phrase ρ} {c c' : Cursor} {items : List Item} (inside : Reads meaning p c items c') :
      Reads meaning (.node kind p) c (Item.group kind items) c'
  | field {f : Field} {p : Phrase ρ} {c c' : Cursor} {items : List Item} (inside : Reads meaning p c items c') :
      Reads meaning (.field f p) c (Item.inRole f items) c'
  | closing {p : Phrase ρ} {c c' : Cursor} {items : List Item} (inside : Reads meaning p c items c') :
      Reads meaning (.closing p) c items { c' with mayEnd := true }
  | grow {growth : Growth} {p : Phrase ρ} {extensions : List (Extension ρ)} {c c' : Cursor} {items : List Item}
      (may : growth ≠ .once) (start : Reads meaning p c items c') :
      Reads meaning (.grow growth p extensions) c items c'
  /-- One more extension, whatever came before it. -/
  | extend {growth : Growth} {p : Phrase ρ} {extensions : List (Extension ρ)} {c c₁ c₂ c₃ : Cursor}
      {items more rest : List Item} {opening : Phrase ρ} {endings : List (Ending ρ)} {kind : Kind}
      {inner : Option Kind} {role : Option Field} {q : Phrase ρ}
      (before : Reads meaning (.grow .often p extensions) c items c₁)
      (extension : .mk opening endings ∈ extensions) (opens : Reads meaning opening c₁ more c₂)
      (ending : .mk kind inner role q ∈ endings) (ends : Reads meaning q c₂ rest c₃) :
      Reads meaning (.grow growth p extensions) c
        (Item.group kind (Item.wrapLeft inner role (items ++ more) ++ rest)) c₃

/-- How items grow by one extension. -/
inductive Extends (meaning : Meaning ρ) (extensions : List (Extension ρ)) (items : List Item) (c : Cursor) :
    List Item → Cursor → Prop
  | mk {opening q : Phrase ρ} {endings : List (Ending ρ)} {kind : Kind} {inner : Option Kind} {role : Option Field}
      {more rest : List Item} {c' c'' : Cursor} (extension : .mk opening endings ∈ extensions)
      (opens : Reads meaning opening c more c') (ending : .mk kind inner role q ∈ endings)
      (ends : Reads meaning q c' rest c'') :
      Extends meaning extensions items c (Item.group kind (Item.wrapLeft inner role (items ++ more) ++ rest)) c''

section

variable {meaning : Meaning ρ} {p : Phrase ρ} {extensions : List (Extension ρ)} {c c' c'' : Cursor}
  {items items' : List Item}

theorem Reads.grown {growth : Growth} (h : Reads meaning (.grow .often p extensions) c items c')
    (hext : Extends meaning extensions items c' items' c'') :
    Reads meaning (.grow growth p extensions) c items' c'' := by
  obtain ⟨extension, opens, ending, ends⟩ := hext
  exact .extend h extension opens ending ends

theorem Reads.grow_of_often {growth : Growth} (may : growth ≠ .once)
    (h : Reads meaning (.grow .often p extensions) c items c') :
    Reads meaning (.grow growth p extensions) c items c' := by
  cases h with
  | grow _ start => exact .grow may start
  | extend before extension opens ending ends => exact .extend before extension opens ending ends

end

/-! ## Reading with fuel -/

variable {rules : ρ → Phrase ρ} {meaning : Meaning ρ}

/-- What reading with some fuel finds is what the phrases can stand for. -/
structure SoundAt (rules : ρ → Phrase ρ) (meaning : Meaning ρ) (fuel : Nat) : Prop where
  read : ∀ {p c items c'}, read rules fuel p c = some (items, c') → Reads meaning p c items c'
  extend : ∀ {growth p extensions c₀ items c items' c'},
    extend rules fuel growth extensions items c = some (items', c') →
    Reads meaning (.grow .often p extensions) c₀ items c → Reads meaning (.grow growth p extensions) c₀ items' c'
  firstExtension : ∀ {extensions items c items' c'},
    firstExtension rules fuel extensions items c = some (items', c') → Extends meaning extensions items c items' c'
  firstEnding : ∀ {endings items c items' c'}, firstEnding rules fuel endings items c = some (items', c') →
    ∃ kind inner role q rest, .mk kind inner role q ∈ endings ∧ Reads meaning q c rest c' ∧
      items' = Item.group kind (Item.wrapLeft inner role items ++ rest)

theorem SoundAt.zero : SoundAt rules meaning 0 := by
  constructor <;> simp [Phrase.read, Phrase.extend, Phrase.firstExtension, Phrase.firstEnding]

theorem SoundAt.read_succ (closed : ∀ {r c items c'}, Reads meaning (rules r) c items c' → meaning r c items c')
    {fuel : Nat} (h : SoundAt rules meaning fuel) {p : Phrase ρ} {c c' : Cursor} {items : List Item}
    (hread : Phrase.read rules (fuel + 1) p c = some (items, c')) : Reads meaning p c items c' := by
  cases p with
  | token t => exact .token (by simpa [Phrase.read] using hread)
  | rule r => exact .rule (closed (h.read (by simpa [Phrase.read] using hread)))
  | sequence ps =>
    cases ps with
    | nil =>
      simp only [Phrase.read, Option.some.injEq, Prod.mk.injEq] at hread
      obtain ⟨rfl, rfl⟩ := hread
      exact .nil
    | cons p ps =>
      simp only [Phrase.read] at hread
      split at hread
      · cases hread
      · rename_i first c₁ hfirst
        split at hread
        · cases hread
        · rename_i rest c₂ hrest
          cases hread
          exact .cons (h.read hfirst) (h.read hrest)
  | choice ps =>
    cases ps with
    | nil => simp [Phrase.read] at hread
    | cons p ps =>
      simp only [Phrase.read] at hread
      split at hread
      · rename_i result hfirst
        cases hread
        exact .choice (by simp) (h.read hfirst)
      · cases h.read hread with
        | choice mem one => exact .choice (List.mem_cons_of_mem _ mem) one
  | heavier p q =>
    simp only [Phrase.read] at hread
    split at hread
    · rename_i a b ha hb
      split at hread
      · cases hread
        exact .heavierLeft (h.read ha)
      · cases hread
        exact .heavierRight (h.read hb)
    · rename_i a ha hb
      cases hread
      exact .heavierLeft (h.read ha)
    · exact .heavierRight (h.read hread)
  | many p =>
    simp only [Phrase.read] at hread
    split at hread
    · cases hread
      exact .stop
    · rename_i first c₁ hfirst
      split at hread
      · cases hread
        simpa using Reads.again (h.read hfirst) .stop
      · rename_i rest c₂ hrest
        cases hread
        exact .again (h.read hfirst) (h.read hrest)
  | ahead p =>
    simp only [Phrase.read, Option.map_eq_some_iff] at hread
    obtain ⟨_, _, heq⟩ := hread
    cases heq
    exact .ahead
  | «unless» p =>
    simp only [Phrase.read] at hread
    split at hread
    · cases hread
    · cases hread
      exact .unless
  | node kind p =>
    simp only [Phrase.read, Option.map_eq_some_iff] at hread
    obtain ⟨⟨inside, c₁⟩, hinside, heq⟩ := hread
    cases heq
    exact .node (h.read hinside)
  | field f p =>
    simp only [Phrase.read, Option.map_eq_some_iff] at hread
    obtain ⟨⟨inside, c₁⟩, hinside, heq⟩ := hread
    cases heq
    exact .field (h.read hinside)
  | closing p =>
    simp only [Phrase.read, Option.map_eq_some_iff] at hread
    obtain ⟨⟨inside, c₁⟩, hinside, heq⟩ := hread
    cases heq
    exact .closing (h.read hinside)
  | grow growth p extensions =>
    simp only [Phrase.read] at hread
    split at hread
    · cases hread
    · rename_i start c₁ hstart
      exact h.extend hread (.grow (by simp) (h.read hstart))

theorem SoundAt.succ (closed : ∀ {r c items c'}, Reads meaning (rules r) c items c' → meaning r c items c')
    {fuel : Nat} (h : SoundAt rules meaning fuel) : SoundAt rules meaning (fuel + 1) where
  read := h.read_succ closed
  extend := by
    intro growth p extensions c₀ items c items' c' hextend hbefore
    simp only [Phrase.extend] at hextend
    split at hextend
    · split at hextend
      · cases hextend
      · rename_i may
        cases hextend
        exact hbefore.grow_of_often may
    · rename_i grown c₁ hfirst
      have hgrown := h.firstExtension hfirst
      split at hextend
      · rename_i hoften
        subst hoften
        exact h.extend hextend (hbefore.grown hgrown)
      · cases hextend
        exact hbefore.grown hgrown
  firstExtension := by
    intro extensions items c items' c' hfirst
    cases extensions with
    | nil => simp [Phrase.firstExtension] at hfirst
    | cons extension rest =>
      obtain ⟨opening, endings⟩ := extension
      -- If this extension does not fit, one of the others does.
      have hlater : Phrase.firstExtension rules fuel rest items c = some (items', c') →
          Extends meaning (.mk opening endings :: rest) items c items' c' := by
        intro hrest
        obtain ⟨extension, opens, ending, ends⟩ := h.firstExtension hrest
        exact .mk (List.mem_cons_of_mem _ extension) opens ending ends
      simp only [Phrase.firstExtension] at hfirst
      split at hfirst
      · exact hlater hfirst
      · rename_i more c₁ hopening
        split at hfirst
        · rename_i result hending
          cases hfirst
          obtain ⟨kind, inner, role, q, rest, hmem, hends, rfl⟩ := h.firstEnding hending
          exact .mk (by simp) (h.read hopening) hmem hends
        · exact hlater hfirst
  firstEnding := by
    intro endings items c items' c' hfirst
    cases endings with
    | nil => simp [Phrase.firstEnding] at hfirst
    | cons ending rest =>
      obtain ⟨kind, inner, role, q⟩ := ending
      simp only [Phrase.firstEnding] at hfirst
      split at hfirst
      · rename_i more c₁ hends
        cases hfirst
        exact ⟨kind, inner, role, q, more, by simp, h.read hends, rfl⟩
      · obtain ⟨kind', inner', role', q', more, hmem, hends, heq⟩ := h.firstEnding hfirst
        exact ⟨kind', inner', role', q', more, List.mem_cons_of_mem _ hmem, hends, heq⟩

theorem soundAt (closed : ∀ {r c items c'}, Reads meaning (rules r) c items c' → meaning r c items c') (fuel : Nat) :
    SoundAt rules meaning fuel := by
  induction fuel with
  | zero => exact .zero
  | succ fuel ih => exact ih.succ closed

/-- If every rule gets its meaning from its phrase, then whatever is read is what the phrase can stand for. -/
theorem reads_of_read (closed : ∀ {r c items c'}, Reads meaning (rules r) c items c' → meaning r c items c')
    {fuel : Nat} {p : Phrase ρ} {c c' : Cursor} {items : List Item}
    (h : Phrase.read rules fuel p c = some (items, c')) : Reads meaning p c items c' :=
  (soundAt closed fuel).read h

end GoOutline.Phrase
