import GoOutline.Proofs.Grammar.Parsed

/-!
# What declarations are made of

Every type in a struct, an interface or a value is that of a node below the one that the record is made of: as it is
classified, or with the star of an embedded field or the ellipsis of a variadic parameter before it. So what holds of
these holds of all types of the record (`Node.TypesHave`). And on any tree at all, every record that the walk finds is
made of nodes of the tree (`Walk.run_madeOf`).
-/
namespace GoOutline

/-- The roles in which the nodes of a kind have types. -/
def Kind.typeRoles : Kind → List Field
  | .fieldDeclaration | .parameterDeclaration | .variadicParameterDeclaration | .constSpec | .varSpec => [.type]
  | .sliceType | .arrayType | .implicitLengthArrayType => [.element]
  | .mapType => [.key, .value]
  | _ => []

namespace Node

variable {source : String} {H : Node → Prop} {P : TypeExpr → Prop} {n m : Node}

/-! ## Nodes inside declarations -/

theorem flatMap_filter_of_nil {α β : Type} {p : α → Bool} {f : α → List β} {xs : List α}
    (h : ∀ x ∈ xs, p x = false → f x = []) : (xs.filter p).flatMap f = xs.flatMap f := by
  induction xs with
  | nil => rfl
  | cons x xs ih =>
    rw [List.forall_mem_cons] at h
    cases hx : p x with
    | false => rw [List.filter_cons_of_neg (by simp [hx]), ih h.2, List.flatMap_cons, h.1 hx, List.nil_append]
    | true => rw [List.filter_cons_of_pos hx, List.flatMap_cons, ih h.2, List.flatMap_cons]

section

variable (hchild : ∀ n m, H n → m ∈ n.children → H m)
include hchild

theorem spec_of_closed {spec : Node} (hn : H n) (hspec : spec ∈ n.groupSpecs) : H spec := by
  rcases mem_groupSpecs.1 hspec with ⟨hmem, -⟩ | ⟨list, hlist, -, -, hmem, -⟩
  · exact hchild _ _ hn (List.mem_filter.1 hmem).1
  · exact hchild _ _ (hchild _ _ hn (List.mem_filter.1 hlist).1) (List.mem_filter.1 hmem).1

theorem unwrapped_of_closed (hn : H n) (hm : n.unwrapped = some m) : H m := by
  induction n using childInduction with
  | node n ih =>
    by_cases hkind : n.kind = .parenthesizedType
    · rw [unwrapped_of_parenthesized hkind] at hm
      obtain ⟨inner, hinner, hm⟩ := Option.bind_eq_some_iff.1 hm
      have hmem := (List.mem_filter.1 (List.mem_of_head? hinner)).1
      exact ih inner hmem (hchild n inner hn hmem) hm
    · rw [unwrapped_of_ne hkind] at hm
      obtain rfl := Option.some.inj hm
      exact hn

/-- The type that a spec declares is inside it. -/
theorem declared_of_closed {name type : Node} (hn : H n) (hdeclared : n.declared? = some (name, type)) : H type := by
  unfold declared? at hdeclared
  split at hdeclared
  · rename_i name' written hname hwritten
    obtain ⟨inner, hinner, heq⟩ := Option.map_eq_some_iff.1 hdeclared
    cases heq
    exact unwrapped_of_closed hchild (hchild n written hn (List.mem_of_find?_eq_some hwritten)) hinner
  · cases hdeclared

end

/-! ## Types of records -/

/-- The second node is the type that the first one gives to what it declares, or the single result of a method. -/
inductive GivesType : Node → Node → Prop
  | declared {n m : Node} (role : .type ∈ n.kind.typeRoles) (type : n.childIn .type = some m) : GivesType n m
  | result {n m : Node} (method : n.kind = .methodElem) (type : n.childIn .result = some m)
      (single : m.kind ≠ .parameterList) : GivesType n m

theorem GivesType.mem (h : n.GivesType m) : m ∈ n.children := by
  cases h with
  | declared _ type => exact List.mem_of_find?_eq_some type
  | result _ type => exact List.mem_of_find?_eq_some type

/-- Nodes with `H` give types with `P`, also behind a star or an ellipsis, and have children with `H`. -/
structure TypesHave (source : String) (H : Node → Prop) (P : TypeExpr → Prop) : Prop where
  child : ∀ {n m : Node}, H n → m ∈ n.children → H m
  classified : ∀ {n m : Node}, H n → n.GivesType m → P (m.classify source)
  starred : ∀ {n star type : Node}, H n → n.kind = .fieldDeclaration → n.children.head? = some star →
    star.kind = .token "*" → n.childIn .type = some type →
    P (.pointer (.covering star.span type.span) (type.classify source))
  variadic : ∀ {n ellipsis type : Node}, H n → n.kind = .variadicParameterDeclaration →
    n.children.find? (fun child => child.kind == .token "...") = some ellipsis → n.childIn .type = some type →
    P (.variadic (.covering ellipsis.span type.span) (type.classify source))

theorem type_of_mem_slots {names : List String} {unnamed : String} {type : TypeExpr} {comment : String}
    {tag : Option String} {a : Arg} (h : a ∈ slots names unnamed type comment tag) : a.type = type := by
  unfold slots at h
  split at h
  · obtain rfl := List.mem_singleton.1 h
    rfl
  · obtain ⟨name, -, rfl⟩ := List.mem_map.1 h
    rfl

namespace TypesHave

variable (h : TypesHave source H P)
include h

theorem childIn {f : Field} (hn : H n) (hm : n.childIn f = some m) : H m :=
  h.child hn (List.mem_of_find?_eq_some hm)

theorem namedChild (hn : H n) (hm : m ∈ n.namedChildren) : H m :=
  h.child hn (List.mem_filter.1 hm).1

theorem embeddedType {type : Node} (hn : H n) (hkind : n.kind = .fieldDeclaration)
    (htype : n.childIn .type = some type) : P (embeddedType source n type) := by
  have hplain := h.classified hn (.declared (by simp [hkind, Kind.typeRoles]) htype)
  unfold Node.embeddedType
  split
  · rename_i star hstar
    split
    · rename_i hstarKind
      exact h.starred hn hkind hstar (by simpa using hstarKind) htype
    · exact hplain
  · exact hplain

theorem fieldArgs (hn : H n) : ∀ a ∈ n.fieldArgs source, P a.type := by
  intro a ha
  obtain ⟨⟨field, index⟩, hfield, ha⟩ := List.mem_flatMap.1 ha
  obtain ⟨hmem, hkind⟩ := List.mem_filter.1 (List.fst_mem_of_mem_zipIdx hfield)
  have hfield := h.namedChild hn hmem
  have hkind : field.kind = .fieldDeclaration := by simpa using hkind
  simp only [fieldSlots] at ha
  split at ha
  · cases ha
  · rename_i type htype
    rw [type_of_mem_slots ha]
    split
    · exact h.embeddedType hfield hkind htype
    · exact h.classified hfield (.declared (by simp [hkind, Kind.typeRoles]) htype)

theorem parameterType {t : TypeExpr} (hn : H n) (hparameter : n.isParameter = true)
    (ht : parameterType source n = some t) : P t := by
  obtain ⟨type, htype, ht⟩ := Option.bind_eq_some_iff.1 ht
  split at ht
  · rename_i hkind
    obtain ⟨ellipsis, hellipsis, rfl⟩ := Option.map_eq_some_iff.1 ht
    exact h.variadic hn (by simpa using hkind) hellipsis htype
  · rename_i hkind
    obtain rfl := Option.some.inj ht
    have hkind : n.kind = .parameterDeclaration := by simpa [isParameter, hkind] using hparameter
    exact h.classified hn (.declared (by simp [hkind, Kind.typeRoles]) htype)

theorem parameterArgs {stem : String} (hn : H n) : ∀ a ∈ n.parameterArgs source stem, P a.type := by
  intro a ha
  obtain ⟨⟨parameter, index⟩, hparameter, ha⟩ := List.mem_flatMap.1 ha
  obtain ⟨hmem, hparameter⟩ := List.mem_filter.1 (List.fst_mem_of_mem_zipIdx hparameter)
  simp only [parameterSlots] at ha
  split at ha
  · cases ha
  · rename_i type htype
    rw [type_of_mem_slots ha]
    exact h.parameterType (h.namedChild hn hmem) hparameter htype

theorem resultArgs (hn : H n) (hkind : n.kind = .methodElem) (hresult : n.childIn .result = some m) :
    ∀ a ∈ m.resultArgs source, P a.type := by
  unfold Node.resultArgs
  split
  · exact h.parameterArgs (h.childIn hn hresult)
  · rename_i hsingle
    simpa using h.classified hn (.result hkind hresult (by simpa using hsingle))

theorem toStruct {name : Node} {comment : String} (hn : H n) :
    ∀ a ∈ (name.toStruct source n comment).fields, P a.type := by
  simp only [Node.toStruct]
  split
  · rename_i list hlist
    exact h.fieldArgs (h.namedChild hn (List.mem_of_find?_eq_some hlist))
  · simp

theorem toMethod? {method : Method} (hn : H n) (hkind : n.kind = .methodElem)
    (hmethod : n.toMethod? source = some method) :
    ∀ a ∈ method.inputs ++ method.outputs, P a.type := by
  obtain ⟨name, -, rfl⟩ := Option.map_eq_some_iff.1 hmethod
  refine List.forall_mem_append.2 ⟨?_, ?_⟩
  · dsimp only
    split
    · rename_i list hlist
      exact h.parameterArgs (h.childIn hn hlist)
    · simp
  · dsimp only
    split
    · rename_i result hresult
      exact h.resultArgs hn hkind hresult
    · simp

theorem toInterface {name : Node} {comment : String} (hn : H n) :
    ∀ method ∈ (name.toInterface source n comment).methods, ∀ a ∈ method.inputs ++ method.outputs, P a.type := by
  intro method hmethod
  obtain ⟨m, hm, hmethod⟩ := List.mem_filterMap.1 hmethod
  obtain ⟨hmem, hkind⟩ := List.mem_filter.1 hm
  exact h.toMethod? (h.namedChild hn hmem) (by simpa using hkind) hmethod

theorem toValues {kind : ValueKind} {comment : String} (hn : H n) (hrole : .type ∈ n.kind.typeRoles) :
    ∀ v ∈ n.toValues source kind comment, ∀ t ∈ v.type, P t := by
  intro v hv t ht
  obtain ⟨⟨name, index⟩, -, hv⟩ := List.mem_filterMap.1 hv
  dsimp only at hv
  split at hv
  · cases hv
  · obtain rfl := Option.some.inj hv
    obtain ⟨type, htype, rfl⟩ := Option.map_eq_some_iff.1 ht
    exact h.classified hn (.declared hrole htype)

end TypesHave

end Node

/-! ## The walk on any tree -/

/-- Every record is made of nodes with `H`. -/
structure Declarations.MadeOf (source : String) (H : Node → Prop) (found : Declarations) : Prop where
  structs : ∀ s ∈ found.structs, ∃ name type : Node, ∃ comment, H type ∧ s = name.toStruct source type comment
  interfaces : ∀ i ∈ found.interfaces, ∃ name type : Node, ∃ comment,
    H type ∧ i = name.toInterface source type comment
  values : ∀ v ∈ found.values, ∃ n : Node, ∃ kind comment,
    H n ∧ .type ∈ n.kind.typeRoles ∧ v ∈ n.toValues source kind comment

/-- Records made of nodes with `H` have types with `P`. -/
theorem Declarations.MadeOf.types_have {source : String} {H : Node → Prop} {P : TypeExpr → Prop} {found : Declarations}
    (h : found.MadeOf source H) (htypes : Node.TypesHave source H P) :
    (∀ a ∈ found.structs.flatMap (·.fields) ++ found.interfaces.flatMap fun i =>
      i.methods.flatMap fun m => m.inputs ++ m.outputs, P a.type) ∧
    ∀ v ∈ found.values, ∀ t ∈ v.type, P t := by
  refine ⟨List.forall_mem_append.2 ⟨?_, ?_⟩, ?_⟩
  · intro a ha
    obtain ⟨s, hs, ha⟩ := List.mem_flatMap.1 ha
    obtain ⟨name, type, comment, htype, rfl⟩ := h.structs s hs
    exact htypes.toStruct htype a ha
  · intro a ha
    obtain ⟨i, hi, ha⟩ := List.mem_flatMap.1 ha
    obtain ⟨name, type, comment, htype, rfl⟩ := h.interfaces i hi
    obtain ⟨m, hm, ha⟩ := List.mem_flatMap.1 ha
    exact htypes.toInterface htype m hm a ha
  · intro v hv t ht
    obtain ⟨n, kind, comment, hn, hrole, hv⟩ := h.values v hv
    exact htypes.toValues hn hrole v hv t ht

/-- The node that the work is about has `H`. -/
def Work.IsAbout (H : Node → Prop) : Work → Prop
  | .node n => H n
  | .type _ _ written => H written

namespace Walk

variable {source : String} {H : Node → Prop} {w : Walk}

theorem madeOf_addValues {n : Node} (h : w.found.MadeOf source H) (hn : H n) (hrole : .type ∈ n.kind.typeRoles) :
    (w.addValues source n).found.MadeOf source H := by
  refine ⟨h.structs, h.interfaces, List.forall_mem_append.2 ⟨h.values, fun v hv => ?_⟩⟩
  exact ⟨n, _, _, hn, hrole, hv⟩

theorem madeOf_addImport {n : Node} (h : w.found.MadeOf source H) : (w.addImport source n).found.MadeOf source H := by
  unfold addImport
  split
  · exact ⟨h.structs, h.interfaces, h.values⟩
  · exact h

theorem madeOf_addStruct {spec name type : Node} (h : w.found.MadeOf source H) (htype : H type) :
    (w.addStruct source spec name type).found.MadeOf source H := by
  refine ⟨List.forall_mem_append.2 ⟨h.structs, List.forall_mem_singleton.2 ?_⟩, h.interfaces, h.values⟩
  exact ⟨name, type, _, htype, rfl⟩

theorem madeOf_addInterface {spec name type : Node} (h : w.found.MadeOf source H) (htype : H type) :
    (w.addInterface source spec name type).found.MadeOf source H := by
  refine ⟨h.structs, List.forall_mem_append.2 ⟨h.interfaces, List.forall_mem_singleton.2 ?_⟩, h.values⟩
  exact ⟨name, type, _, htype, rfl⟩

theorem isAbout_groupSpecs (hchild : ∀ n m, H n → m ∈ n.children → H m) {group : Node} (hgroup : H group) :
    ∀ x ∈ group.groupSpecs.map Work.node, x.IsAbout H := by
  intro x hx
  obtain ⟨spec, hspec, rfl⟩ := List.mem_map.1 hx
  exact Node.spec_of_closed hchild hgroup hspec

/-- What the walk finds is made of what it had found before and of the nodes of its work. -/
theorem run_madeOf (hchild : ∀ n m, H n → m ∈ n.children → H m) {work : List Work}
    (hfound : w.found.MadeOf source H) (hwork : ∀ x ∈ work, x.IsAbout H) : (w.run source work).MadeOf source H := by
  fun_induction Walk.run source w work with
  | case1 w => exact hfound
  | case2 w n rest _ ih =>
    exact ih ⟨hfound.structs, hfound.interfaces, hfound.values⟩ (List.forall_mem_cons.1 hwork).2
  | case3 w n rest _ ih | case4 w n rest _ ih | case5 w n rest _ ih | case6 w n rest _ ih =>
    obtain ⟨hn, hrest⟩ := List.forall_mem_cons.1 hwork
    exact ih hfound (List.forall_mem_append.2 ⟨isAbout_groupSpecs hchild hn, hrest⟩)
  | case7 w n rest _ name type _ htype ih | case9 w n rest _ name type _ htype ih =>
    obtain ⟨hn, hrest⟩ := List.forall_mem_cons.1 hwork
    exact ih hfound (List.forall_mem_cons.2 ⟨hchild n type hn (List.mem_of_find?_eq_some htype), hrest⟩)
  | case11 w n rest hkind ih | case12 w n rest hkind ih =>
    obtain ⟨hn, hrest⟩ := List.forall_mem_cons.1 hwork
    exact ih (madeOf_addValues hfound hn (by simp [hkind, Kind.typeRoles])) hrest
  | case13 w n rest _ ih => exact ih (madeOf_addImport hfound) (List.forall_mem_cons.1 hwork).2
  | case15 w spec name written rest _ ih =>
    obtain ⟨hwritten, hrest⟩ := List.forall_mem_cons.1 hwork
    exact ih (madeOf_addStruct hfound hwritten) hrest
  | case16 w spec name written rest _ ih =>
    obtain ⟨hwritten, hrest⟩ := List.forall_mem_cons.1 hwork
    exact ih (madeOf_addInterface hfound hwritten) hrest
  | case17 w spec name written rest _ inner hinner ih =>
    obtain ⟨hwritten, hrest⟩ := List.forall_mem_cons.1 hwork
    have hmem := (List.mem_filter.1 (List.mem_of_head? hinner)).1
    exact ih hfound (List.forall_mem_cons.2 ⟨hchild written inner hwritten hmem, hrest⟩)
  | case8 | case10 | case14 | case18 | case19 =>
    rename_i ih
    exact ih hfound (List.forall_mem_cons.1 hwork).2

end Walk

section

variable {source : String} {H : Node → Prop} {root : Node}

theorem madeOf_children (hchild : ∀ n m, H n → m ∈ n.children → H m) (hroot : ∀ n ∈ root.children, H n) :
    (extract source root).MadeOf source H := by
  refine Walk.run_madeOf hchild ⟨by simp [Walk.start, Declarations.none], by simp [Walk.start, Declarations.none],
    by simp [Walk.start, Declarations.none]⟩ ?_
  intro x hx
  obtain ⟨n, hn, rfl⟩ := List.mem_map.1 hx
  exact hroot n (List.mem_filter.1 hn).1

theorem madeOf_extract (hchild : ∀ n m, H n → m ∈ n.children → H m) (hroot : H root) :
    (extract source root).MadeOf source H :=
  madeOf_children hchild fun n => hchild root n hroot

end

end GoOutline
