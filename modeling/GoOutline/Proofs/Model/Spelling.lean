import GoOutline.Proofs.Model.Makings
import GoOutline.Scan

/-!
# How the types of a file are spelt

A type expression keeps only its span, so what its text looks like follows from the grammar: a slice or an array
begins with a bracket, a map with its word and a bracket, a variadic parameter with its ellipsis; a pointer is a star
before its target, and a name is one identifier, or two with a dot between them (`TypeExpr.Spelt`). All types of a
scanned file are spelt so, in all their layers (`File.wellSpelt_of_mem_types`).
-/
namespace GoOutline

/-! ## Layers -/

namespace TypeExpr

/-- The type expression and those inside it. -/
def layers : TypeExpr → List TypeExpr
  | pointer s target => pointer s target :: target.layers
  | slice s element => slice s element :: element.layers
  | array s element => array s element :: element.layers
  | map s key value => map s key value :: (key.layers ++ value.layers)
  | variadic s element => variadic s element :: element.layers
  | t => [t]

/-- How the outermost layer of a type expression is written. A pointer whose star is followed by a comment has that
comment for its target, which is of no sort. -/
def Spelt (source : String) (t : TypeExpr) : Prop :=
  match t with
  | pointer _ target => (∃ s, target = other s) ∨
      ∃ gap, IsGap gap ∧ t.text source = String.ofList ('*' :: (gap ++ (target.text source).toList))
  | slice _ _ | array _ _ => ∃ rest, t.text source = String.ofList ('[' :: rest)
  | map _ _ _ => ∃ gap rest, IsGap gap ∧ t.text source = String.ofList ("map".toList ++ (gap ++ '[' :: rest))
  | variadic _ _ => ∃ rest, t.text source = String.ofList ("...".toList ++ rest)
  | named _ none name => IsWord name.toList ∧ t.text source = name
  | named _ (some package) name => IsWord package.toList ∧ IsWord name.toList ∧
      ∃ gap gap', IsGap gap ∧ IsGap gap' ∧
        t.text source = String.ofList (package.toList ++ (gap ++ '.' :: (gap' ++ name.toList)))
  | _ => True

/-- All layers of the type expression are spelt as they should. -/
def WellSpelt (source : String) (t : TypeExpr) : Prop := ∀ layer ∈ t.layers, layer.Spelt source

theorem mem_layers_self (t : TypeExpr) : t ∈ t.layers := by
  cases t <;> simp [layers]

theorem layers_subset {t whole : TypeExpr} (h : t ∈ whole.layers) : t.layers ⊆ whole.layers := by
  induction whole with
  | pointer s inner ih | slice s inner ih | array s inner ih | variadic s inner ih =>
    rcases List.mem_cons.1 h with rfl | h
    · exact fun _ hx => hx
    · exact List.subset_cons_of_subset _ (ih h)
  | map s key value ihkey ihvalue =>
    rcases List.mem_cons.1 h with rfl | h
    · exact fun _ hx => hx
    · refine List.subset_cons_of_subset _ ?_
      rcases List.mem_append.1 h with h | h
      · exact List.subset_append_of_subset_left _ (ihkey h)
      · exact List.subset_append_of_subset_right _ (ihvalue h)
  | _ =>
    obtain rfl := List.mem_singleton.1 h
    exact fun _ hx => hx

theorem wellSpelt_other (source : String) (s : Span) : (other s).WellSpelt source := by
  simp [WellSpelt, layers, Spelt]

theorem wellSpelt_ofName {source : String} {s : Span} {name : String} (hname : IsWord name.toList)
    (htext : s.text source = name) : (ofName s name).WellSpelt source := by
  unfold ofName
  split
  · simp [WellSpelt, layers, Spelt]
  · split
    · simp [WellSpelt, layers, Spelt]
    · simp [WellSpelt, layers, Spelt, hname, text, span, htext]

end TypeExpr

/-! ## Classified nodes -/

namespace Node

variable {source : String} {n m : Node}

theorem classifyAll_eq (source : String) (ns : List Node) :
    classifyAll source ns = ns.map fun n => (n, n.classify source) := by
  induction ns with
  | nil => rfl
  | cons n ns ih => rw [classifyAll, ih, List.map_cons]

theorem find?_classifyAll (source : String) (p : Node → Bool) (ns : List Node) :
    (classifyAll source ns).find? (fun part => p part.1) = (ns.find? p).map fun n => (n, n.classify source) := by
  rw [classifyAll_eq, List.find?_map]
  rfl

/-- The type expression of a node by its kind, in terms of its children. -/
theorem classify_eq (source : String) (n : Node) : n.classify source =
    match n.kind with
    | .typeIdentifier => .ofName n.span (n.text source)
    | .qualifiedType =>
      match n.childIn .package, n.childIn .name with
      | some package, some name => .named n.span (some (package.text source)) (name.text source)
      | _, _ => .other n.span
    | .pointerType =>
      match n.children.find? isNamed with
      | some target => .pointer n.span (target.classify source)
      | none => .other n.span
    | .sliceType =>
      match n.childIn .element with
      | some element => .slice n.span (element.classify source)
      | none => .other n.span
    | .arrayType | .implicitLengthArrayType =>
      match n.childIn .element with
      | some element => .array n.span (element.classify source)
      | none => .other n.span
    | .mapType =>
      match n.childIn .key, n.childIn .value with
      | some key, some value => .map n.span (key.classify source) (value.classify source)
      | _, _ => .other n.span
    | _ => .other n.span := by
  obtain ⟨kind, field, start, stop, comments, children⟩ := n
  have hin (f : Field) := find?_classifyAll source (fun n => n.field == some f) children
  have hnamed := find?_classifyAll source isNamed children
  simp only [classify, typeOfParts, partIn, hin, hnamed, childIn, Node.kind, Node.children]
  cases kind
  case qualifiedType =>
    cases children.find? (fun child => child.field == some .package) <;>
      cases children.find? (fun child => child.field == some .name) <;> rfl
  case pointerType => cases children.find? isNamed <;> rfl
  case sliceType => cases children.find? (fun child => child.field == some .element) <;> rfl
  case arrayType => cases children.find? (fun child => child.field == some .element) <;> rfl
  case implicitLengthArrayType => cases children.find? (fun child => child.field == some .element) <;> rfl
  case mapType =>
    cases children.find? (fun child => child.field == some .key) <;>
      cases children.find? (fun child => child.field == some .value) <;> rfl
  all_goals rfl

theorem span_classify (source : String) (n : Node) : (n.classify source).span = n.span := by
  have hname (s : Span) (name : String) : (TypeExpr.ofName s name).span = s := by
    unfold TypeExpr.ofName
    split
    · rfl
    · split <;> rfl
  rw [classify_eq]
  split
  · exact hname _ _
  all_goals first | rfl | (split <;> rfl)

theorem text_classify (source : String) (n : Node) : (n.classify source).text source = n.text source := by
  rw [TypeExpr.text, span_classify]
  rfl

theorem classify_of_comment (source : String) (h : n.isComment = true) : n.classify source = .other n.span := by
  have hkind : n.kind = .comment := by simpa [isComment] using h
  rw [classify_eq, hkind]

/-- The first child that is no bare token, if that is no comment, is the first such part. -/
theorem find?_isNamed_parts (h : n.children.find? isNamed = some m) (hm : m.isComment = false) :
    n.parts.find? isNamed = some m := by
  obtain ⟨hnamed, before, after, hchildren, hbefore⟩ := List.find?_eq_some_iff_append.1 h
  rw [parts, hchildren, List.filter_append, List.filter_cons_of_pos (by simp [hm]), List.find?_append]
  have hnone : (before.filter fun child => !child.isComment).find? isNamed = none := by
    rw [List.find?_eq_none]
    intro child hchild
    simpa using hbefore child (List.mem_filter.1 hchild).1
  rw [hnone]
  simp [hnamed]

theorem WrittenIn.spelt_qualified {word : List Char} {package name : Node} (h : n.WrittenIn source word)
    (hkind : n.kind = .qualifiedType) (hpackage : n.childIn .package = some package)
    (hname : n.childIn .name = some name) :
    (TypeExpr.named n.span (some (package.text source)) (name.text source)).Spelt source := by
  have htext := h.text_eq
  obtain ⟨package', name', p, q, gap, gap', hpackage', hname', hp, hq, hwordp, hwordq, hgap, hgap', rfl⟩ :=
    h.qualified hkind (List.ne_nil_of_mem (List.mem_of_find?_eq_some hpackage))
  obtain rfl := Option.some.inj (hpackage.symm.trans hpackage')
  obtain rfl := Option.some.inj (hname.symm.trans hname')
  rw [hp, hq]
  refine ⟨by simpa using hwordp, by simpa using hwordq, gap, gap', hgap, hgap', ?_⟩
  rw [String.toList_ofList, String.toList_ofList]
  exact htext

/-- A pointer is a star and the type that it points to, unless a comment is found in its place. -/
theorem WrittenIn.pointer_target {word : List Char} {target : Node} (h : n.WrittenIn source word)
    (hkind : n.kind = .pointerType) (htarget : n.children.find? isNamed = some target)
    (hsolid : target.isComment = false) :
    target.kind.isType = true ∧ ∃ gap, IsGap gap ∧ word = '*' :: (gap ++ (target.text source).toList) := by
  obtain ⟨star, target', gap, hparts, hstar, htype, hgap, hword⟩ :=
    h.pointer hkind (List.ne_nil_of_mem (List.mem_of_find?_eq_some htarget))
  have hfind := find?_isNamed_parts htarget hsolid
  have hnamed : target'.isNamed = true := Kind.isNamed_of_isType htype
  rw [hparts] at hfind
  obtain rfl : target' = target := by simpa [hstar, hnamed] using hfind
  exact ⟨htype, gap, hgap, hword⟩

theorem WrittenIn.spelt_pointer {word : List Char} {target : Node} (h : n.WrittenIn source word)
    (hkind : n.kind = .pointerType) (htarget : n.children.find? isNamed = some target) :
    (TypeExpr.pointer n.span (target.classify source)).Spelt source := by
  have htext := h.text_eq
  cases hcomment : target.isComment with
  | true => exact .inl ⟨_, classify_of_comment source hcomment⟩
  | false =>
    obtain ⟨-, gap, hgap, rfl⟩ := h.pointer_target hkind htarget hcomment
    refine .inr ⟨gap, hgap, ?_⟩
    rw [text_classify]
    exact htext

/-- The type of a written node is spelt as it should, layer by layer. -/
theorem IsWritten.wellSpelt_classify (h : n.IsWritten source) : (n.classify source).WellSpelt source := by
  induction n using childInduction with
  | node n ih =>
    have hchild {m : Node} (hm : m ∈ n.children) : (m.classify source).WellSpelt source := ih m hm (h.child hm)
    have hin {f : Field} {m : Node} (hm : n.childIn f = some m) : (m.classify source).WellSpelt source :=
      hchild (List.mem_of_find?_eq_some hm)
    have hne {f : Field} {m : Node} (hm : n.childIn f = some m) : n.children ≠ [] :=
      List.ne_nil_of_mem (List.mem_of_find?_eq_some hm)
    obtain ⟨word, h⟩ := h
    have htext := h.text_eq
    have hbracket {element : Node} (helement : n.childIn .element = some element)
        (hkind : n.kind = .sliceType ∨ n.kind = .arrayType ∨ n.kind = .implicitLengthArrayType) :
        ∃ rest, n.text source = String.ofList ('[' :: rest) := by
      obtain ⟨rest, rfl⟩ := h.bracket hkind (hne helement)
      exact ⟨rest, htext⟩
    rw [classify_eq]
    split
    · rename_i hkind
      obtain ⟨_, _, -, hwritten⟩ := id h
      exact TypeExpr.wellSpelt_ofName (by rw [htext]; simpa using hwritten.isWord (.inl hkind)) rfl
    · rename_i hkind
      split
      · rename_i package name hpackage hname
        exact List.forall_mem_singleton.2 (h.spelt_qualified hkind hpackage hname)
      · exact TypeExpr.wellSpelt_other source _
    · rename_i hkind
      split
      · rename_i target htarget
        exact List.forall_mem_cons.2 ⟨h.spelt_pointer hkind htarget, hchild (List.mem_of_find?_eq_some htarget)⟩
      · exact TypeExpr.wellSpelt_other source _
    · rename_i hkind
      split
      · rename_i element helement
        exact List.forall_mem_cons.2 ⟨hbracket helement (.inl hkind), hin helement⟩
      · exact TypeExpr.wellSpelt_other source _
    · rename_i hkind
      split
      · rename_i element helement
        exact List.forall_mem_cons.2 ⟨hbracket helement (.inr (.inl hkind)), hin helement⟩
      · exact TypeExpr.wellSpelt_other source _
    · rename_i hkind
      split
      · rename_i element helement
        exact List.forall_mem_cons.2 ⟨hbracket helement (.inr (.inr hkind)), hin helement⟩
      · exact TypeExpr.wellSpelt_other source _
    · rename_i hkind
      split
      · rename_i key value hkey hvalue
        obtain ⟨gap, rest, hgap, rfl⟩ := h.map hkind (hne hkey)
        exact List.forall_mem_cons.2 ⟨⟨gap, rest, hgap, htext⟩, List.forall_mem_append.2 ⟨hin hkey, hin hvalue⟩⟩
      · exact TypeExpr.wellSpelt_other source _
    · exact TypeExpr.wellSpelt_other source _

/-! ## Fields, parameters and results -/

theorem IsWritten.childIn {f : Field} (h : n.IsWritten source) (hm : n.childIn f = some m) : m.IsWritten source :=
  h.child (List.mem_of_find?_eq_some hm)

theorem IsWritten.namedChild (h : n.IsWritten source) (hm : m ∈ n.namedChildren) : m.IsWritten source :=
  h.child (List.mem_filter.1 hm).1

/-- The types of written nodes are spelt as they should, also behind a star or an ellipsis. -/
theorem typesHave_wellSpelt : TypesHave source (IsWritten source) (TypeExpr.WellSpelt source) where
  child := IsWritten.child
  classified := fun h hm => (h.child hm.mem).wellSpelt_classify
  starred := by
    intro n star type h hkind hstar hstarKind htype
    obtain ⟨word, hword⟩ := id h
    obtain ⟨gap, hgap, htext⟩ := hword.starred hkind hstar hstarKind htype
    refine List.forall_mem_cons.2 ⟨.inr ⟨gap, hgap, ?_⟩, (h.childIn htype).wellSpelt_classify⟩
    rw [text_classify]
    exact htext
  variadic := by
    intro n ellipsis type h hkind hellipsis htype
    obtain ⟨word, hword⟩ := id h
    exact List.forall_mem_cons.2
      ⟨hword.variadic hkind hellipsis htype, (h.childIn htype).wellSpelt_classify⟩

/-! ## Declarations -/

theorem IsWritten.unwrapped (h : n.IsWritten source) (hm : n.unwrapped = some m) : m.IsWritten source :=
  unwrapped_of_closed (fun _ _ => IsWritten.child) h hm

theorem IsWritten.spec {spec : Node} (h : n.IsWritten source) (hspec : spec ∈ n.groupSpecs) :
    spec.IsWritten source :=
  spec_of_closed (fun _ _ => IsWritten.child) h hspec

end Node

/-! ## Files -/

namespace File

/-- The fields, parameters and results of the declarations of a file. -/
def args (f : File) : List Arg :=
  f.structs.flatMap (·.fields) ++ f.interfaces.flatMap fun i => i.methods.flatMap fun m => m.inputs ++ m.outputs

/-- The type expressions in the model of a file, with all that is inside them. -/
def types (f : File) : List TypeExpr :=
  (f.args.map (·.type) ++ f.values.filterMap (·.type)).flatMap TypeExpr.layers

variable {location : Path} {source : String} {file : File}

/-- A scanned file is what its tree is read as. -/
theorem reading_of_ofSource (h : File.ofSource location source = .ok file) :
    ∃ root, parse source = .ok root ∧ file.source = source ∧ file.values = (root.reading source).values ∧
      file.interfaces = (root.reading source).interfaces ∧ file.structs = (root.reading source).structs := by
  unfold File.ofSource at h
  split at h
  · cases h
  · rename_i root hparse
    have hextract : extract source root = root.reading source :=
      Walk.run_topLevels (isTopLevel_of_parse hparse) Walk.start
    split at h
    · cases h
    · cases h
      exact ⟨root, hparse, rfl, by rw [hextract], by rw [hextract], by rw [hextract]⟩

/-- The types of a scanned file are what written nodes give. -/
theorem types_have {P : TypeExpr → Prop} (h : File.ofSource location source = .ok file)
    (htypes : Node.TypesHave source (Node.IsWritten source) P) :
    (∀ a ∈ file.args, P a.type) ∧ ∀ v ∈ file.values, ∀ t ∈ v.type, P t := by
  obtain ⟨root, hparse, -, hvalues, hinterfaces, hstructs⟩ := reading_of_ofSource h
  have hextract : extract source root = root.reading source :=
    Walk.run_topLevels (isTopLevel_of_parse hparse) Walk.start
  have hmade : (extract source root).MadeOf source (Node.IsWritten source) :=
    madeOf_children (fun _ _ => Node.IsWritten.child) fun n hn => (written_of_parse hparse n hn).1
  have hhave := hmade.types_have htypes
  rwa [hextract, ← hvalues, ← hinterfaces, ← hstructs] at hhave

/-- What holds of the layers of all types of a scanned file. -/
theorem layers_have {P : TypeExpr → Prop} (h : File.ofSource location source = .ok file)
    (htypes : Node.TypesHave source (Node.IsWritten source) fun t => ∀ layer ∈ t.layers, P layer) {t : TypeExpr}
    (ht : t ∈ file.types) : ∀ layer ∈ t.layers, P layer := by
  obtain ⟨hargs, hvalues⟩ := types_have h htypes
  obtain ⟨whole, hwhole, ht⟩ := List.mem_flatMap.1 ht
  have hlayers : ∀ layer ∈ whole.layers, P layer := by
    rcases List.mem_append.1 hwhole with hwhole | hwhole
    · obtain ⟨a, ha, rfl⟩ := List.mem_map.1 hwhole
      exact hargs a ha
    · obtain ⟨v, hv, htype⟩ := List.mem_filterMap.1 hwhole
      exact hvalues v hv whole htype
  exact fun layer hlayer => hlayers layer (TypeExpr.layers_subset ht hlayer)

/-- All types of a scanned file are spelt as they should. -/
theorem wellSpelt_of_mem_types (h : File.ofSource location source = .ok file) {t : TypeExpr} (ht : t ∈ file.types) :
    t.WellSpelt source :=
  layers_have h Node.typesHave_wellSpelt ht

end File

end GoOutline
