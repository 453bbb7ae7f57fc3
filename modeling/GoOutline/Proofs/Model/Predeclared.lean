import GoOutline.Proofs.Model.Spelling

/-!
# Predeclared types: `PrimitiveKind::from_ident`

The type `error` and the basic types are known by their names. Whether a type is one of them is decided once, by the
kind of its node; its text is looked up in the source whenever it is asked for. The two agree (`TypeExpr.Agrees`), in all
layers of all types of a scanned file (`File.predeclared_by_text`): only a bare name is classified by its spelling, and
every other type has a sign or a word in it that no predeclared name has (`typeMarks`).
-/
namespace GoOutline

/-! ## Names -/

/-- The predeclared names that types are classified by. -/
def predeclaredNames : List String :=
  errorName :: (Primitive.integerNames ++ Primitive.floatNames ++ ["string", "bool"])

/-- The text is no predeclared name. -/
structure IsPlain (text : String) : Prop where
  error : text ≠ errorName
  primitive : Primitive.ofName? text = none

theorem mem_of_ofName? {name : String} {family : Primitive} (h : Primitive.ofName? name = some family) :
    name ∈ predeclaredNames := by
  simp only [predeclaredNames, List.mem_cons, List.mem_append]
  unfold Primitive.ofName? at h
  split at h
  · rename_i hname
    exact .inr (.inl (.inl (by simpa using hname)))
  · split at h
    · rename_i hname
      exact .inr (.inl (.inr (by simpa using hname)))
    · split at h
      · rename_i hname
        exact .inr (.inr (.inl (by simpa using hname)))
      · split at h
        · rename_i hname
          exact .inr (.inr (.inr (.inl (by simpa using hname))))
        · cases h

theorem isPlain_of_notMem {text : String} (h : text ∉ predeclaredNames) : IsPlain text := by
  refine ⟨?_, ?_⟩
  · rintro rfl
    exact h (List.mem_cons_self ..)
  · cases hfamily : Primitive.ofName? text with
    | none => rfl
    | some family => exact absurd (mem_of_ofName? hfamily) h

/-- What has a mark of types in it, or the mark of a comment, is no predeclared name. -/
theorem isPlain_of_infix (mark : String) {word : List Char} (hmark : mark ∈ "/" :: typeMarks)
    (h : mark.toList <:+: word) : IsPlain (String.ofList word) := by
  have hnone : ∀ name ∈ predeclaredNames, ∀ mark ∈ "/" :: typeMarks, ¬mark.toList <:+: name.toList := by
    decide +kernel
  refine isPlain_of_notMem fun hmem => hnone _ hmem mark hmark ?_
  rwa [String.toList_ofList]

namespace TypeExpr

/-- What the type expression is classified as agrees with its text. -/
structure Agrees (source : String) (t : TypeExpr) : Prop where
  error : t.isError = true ↔ t.text source = errorName
  primitive : t.primitive? = Primitive.ofName? (t.text source)

variable {source : String} {t : TypeExpr}

theorem agrees_of_isPlain (h : IsPlain (t.text source)) (herror : t.isError = false) (hprimitive : t.primitive? = none) :
    t.Agrees source := by
  refine ⟨?_, ?_⟩
  · simp [herror, h.error]
  · rw [hprimitive, h.primitive]

theorem agrees_ofName (source : String) (s : Span) : (ofName s (s.text source)).Agrees source := by
  unfold ofName
  split
  · rename_i herror
    have htext : s.text source = errorName := by simpa using herror
    refine ⟨?_, ?_⟩
    · simp [isError, text, span, htext]
    · rw [text, span, htext]
      rfl
  · rename_i herror
    have htext : s.text source ≠ errorName := by simpa using herror
    split
    · rename_i family hfamily
      refine ⟨?_, ?_⟩
      · simp [isError, text, span, htext]
      · rw [text, span, hfamily]
        rfl
    · rename_i hnone
      exact agrees_of_isPlain ⟨htext, hnone⟩ rfl rfl

/-- No two of these hold at once. -/
theorem count_sorts_le_one (t : TypeExpr) : [t.isError, t.isSimple, t.isPointer, t.isArray, t.isMap].count true ≤ 1 := by
  cases t <;> simp [isError, isSimple, primitive?, isPointer, isArray, isMap]

end TypeExpr

/-! ## Marked nodes -/

/-- The kind is that of a mark, or of a type other than a bare name. -/
def Kind.isMarked (kind : Kind) : Bool := kind.isMark || (kind.isType && kind != .typeIdentifier)

/-- A leaf of a marked kind is a mark. -/
theorem Kind.exists_of_spells {kind : Kind} {word : List Char} (hkind : kind.isMarked = true) (h : kind.Spells word) :
    ∃ mark ∈ typeMarks, word = mark.toList := by
  have hname : kind.isName = false := by cases kind <;> first | rfl | cases hkind
  have hliteral : kind.isLiteral = false := by cases kind <;> first | rfl | cases hkind
  cases kind with
  | token text => exact ⟨text, by simpa [isMarked, isMark, isType] using hkind, h⟩
  | comment => cases hkind
  | _ =>
    obtain ⟨hword, -⟩ | hword := h
    · rw [hname] at hword
      cases hword
    · rw [hliteral] at hword
      cases hword

theorem Grammar.marked_of_mayHold {kind : Kind} {labels : List Label} (hkind : kind.isMarked = true)
    (h : MayHold kind labels) : ∃ label ∈ labels, label.1.isMark = true := by
  cases kind
  case token => exact h.elim
  case qualifiedType =>
    obtain rfl := h
    exact ⟨(.token ".", none), by simp, rfl⟩
  case pointerType =>
    obtain ⟨target, -, rfl⟩ := h
    exact ⟨(.token "*", none), by simp, rfl⟩
  case sliceType | arrayType | implicitLengthArrayType =>
    obtain ⟨⟨rest, rfl⟩, -⟩ := h
    exact ⟨(.token "[", none), by simp, rfl⟩
  case mapType =>
    obtain ⟨key, value, -, -, rfl⟩ := h
    exact ⟨(.token "map", none), by simp, rfl⟩
  case genericType | typeArguments | channelType | functionType | structType | interfaceType | parenthesizedType
      | negatedType => exact h
  all_goals cases hkind

namespace Node

variable {source : String} {n m : Node} {word : List Char}

/-- In a written node of a marked kind there is a mark. -/
theorem WrittenIn.exists_mark (h : n.WrittenIn source word) (hkind : n.kind.isMarked = true) :
    ∃ mark ∈ typeMarks, mark.toList <:+: word := by
  induction n using childInduction generalizing word with
  | node n ih =>
    obtain ⟨_, _, -, hwritten⟩ := id h
    obtain ⟨_, -, hfills⟩ := hwritten.filled
    cases hfills with
    | leaf _ spelt =>
      obtain ⟨mark, hmark, rfl⟩ := Kind.exists_of_spells hkind spelt
      exact ⟨mark, hmark, List.infix_rfl⟩
    | node _ _ _ _ _ _ shaped =>
      -- The mark of a generic type is inside its arguments, so a marked part may not be a token yet.
      obtain ⟨label, hlabel, hmark⟩ := Grammar.marked_of_mayHold hkind shaped
      obtain ⟨child, hchild, rfl⟩ := List.mem_map.1 hlabel
      have hmem : child ∈ n.children := (List.mem_filter.1 hchild).1
      obtain ⟨word', hchildWritten, hinfix⟩ := h.child hmem
      have hmarked : child.kind.isMarked = true := by
        rw [Kind.isMarked, Bool.or_eq_true]
        exact .inl hmark
      obtain ⟨mark, hmark, hin⟩ := ih child hmem hchildWritten hmarked
      exact ⟨mark, hmark, hin.trans hinfix⟩

/-- A type other than a bare name is not spelt as a predeclared one, and neither is a comment. -/
theorem IsWritten.isPlain (h : n.IsWritten source) (hkind : n.kind.isType = true ∨ n.isComment = true)
    (hname : n.kind ≠ .typeIdentifier) : IsPlain (n.text source) := by
  obtain ⟨word, hword⟩ := h
  rw [hword.text_eq]
  rcases hkind with hkind | hkind
  · obtain ⟨mark, hmark, hin⟩ := hword.exists_mark (by simp [Kind.isMarked, hkind, hname])
    exact isPlain_of_infix mark (List.mem_cons_of_mem _ hmark) hin
  · obtain ⟨_, _, -, hwritten⟩ := hword
    obtain ⟨rest, rfl⟩ := hwritten.eq_of_comment hkind
    exact isPlain_of_infix "/" (List.mem_cons_self ..) (List.prefix_append ['/'] rest).isInfix

end Node

/-! ## Where types stand -/

theorem Grammar.isType_of_mayHold {kind : Kind} {f : Field} {labels : List Label} {part : Kind}
    (hf : f ∈ kind.typeRoles) (h : MayHold kind labels) (hpart : (part, some f) ∈ labels) : part.isType = true := by
  cases kind
  case fieldDeclaration =>
    obtain rfl := List.mem_singleton.1 hf
    exact h.2 _ hpart rfl
  case parameterDeclaration | constSpec | varSpec =>
    obtain rfl := List.mem_singleton.1 hf
    exact h _ hpart rfl
  case variadicParameterDeclaration =>
    obtain rfl := List.mem_singleton.1 hf
    obtain ⟨type, htype, rfl | rfl⟩ := h
    · obtain rfl : part = type := by simpa using hpart
      exact htype
    · obtain rfl : part = type := by simpa using hpart
      exact htype
  case sliceType | arrayType | implicitLengthArrayType =>
    obtain rfl := List.mem_singleton.1 hf
    exact h.2 _ hpart rfl
  case mapType =>
    obtain ⟨key, value, hkey, hvalue, rfl⟩ := h
    simp only [Kind.typeRoles, List.mem_cons, List.not_mem_nil, or_false] at hf
    rcases hf with rfl | rfl
    · obtain rfl : part = key := by simpa using hpart
      exact hkey
    · obtain rfl : part = value := by simpa using hpart
      exact hvalue
  all_goals cases hf

namespace Node

variable {source : String} {n m : Node}

theorem IsWritten.isType_childIn {f : Field} (h : n.IsWritten source) (hf : f ∈ n.kind.typeRoles)
    (hm : n.childIn f = some m) : m.kind.isType = true := by
  obtain ⟨_, _, _, -, hwritten⟩ := h
  obtain ⟨labels, hlabels, hmem⟩ := hwritten.label_childIn hm
  exact Grammar.isType_of_mayHold hf hlabels hmem

/-- The parts that a type is classified by. -/
def typeParts (n : Node) : List Node :=
  match n.kind with
  | .pointerType => (n.children.find? isNamed).toList
  | .sliceType | .arrayType | .implicitLengthArrayType => (n.childIn .element).toList
  | .mapType =>
    match n.childIn .key, n.childIn .value with
    | some key, some value => [key, value]
    | _, _ => []
  | _ => []

/-- The layers of a type below the first are those of its parts. -/
theorem layers_classify (source : String) (n : Node) :
    (n.classify source).layers = n.classify source :: n.typeParts.flatMap fun m => (m.classify source).layers := by
  have hname (s : Span) (name : String) : (TypeExpr.ofName s name).layers = [.ofName s name] := by
    unfold TypeExpr.ofName
    split
    · rfl
    · split <;> rfl
  rw [classify_eq, typeParts]
  cases hkind : n.kind
  case typeIdentifier => exact hname _ _
  case qualifiedType => cases n.childIn .package <;> cases n.childIn .name <;> rfl
  case pointerType => cases n.children.find? isNamed <;> simp [TypeExpr.layers]
  case sliceType | arrayType | implicitLengthArrayType => cases n.childIn .element <;> simp [TypeExpr.layers]
  case mapType => cases n.childIn .key <;> cases n.childIn .value <;> simp [TypeExpr.layers]
  all_goals rfl

/-- The part of a pointer is the first child that is no bare token; all others are found by their roles. -/
theorem cases_of_mem_typeParts (h : m ∈ n.typeParts) :
    (n.kind = .pointerType ∧ n.children.find? isNamed = some m) ∨ ∃ f ∈ n.kind.typeRoles, n.childIn f = some m := by
  unfold typeParts at h
  split at h
  · rename_i hkind
    exact .inl ⟨hkind, Option.mem_toList.1 h⟩
  · rename_i hkind
    exact .inr ⟨.element, by simp [hkind, Kind.typeRoles], Option.mem_toList.1 h⟩
  · rename_i hkind
    exact .inr ⟨.element, by simp [hkind, Kind.typeRoles], Option.mem_toList.1 h⟩
  · rename_i hkind
    exact .inr ⟨.element, by simp [hkind, Kind.typeRoles], Option.mem_toList.1 h⟩
  · rename_i hkind
    split at h
    · rename_i key value hkey hvalue
      rcases List.mem_pair.1 h with rfl | rfl
      · exact .inr ⟨.key, by simp [hkind, Kind.typeRoles], hkey⟩
      · exact .inr ⟨.value, by simp [hkind, Kind.typeRoles], hvalue⟩
    · cases h
  · cases h

theorem mem_of_mem_typeParts (h : m ∈ n.typeParts) : m ∈ n.children := by
  rcases cases_of_mem_typeParts h with ⟨-, hm⟩ | ⟨f, -, hm⟩
  · exact List.mem_of_find?_eq_some hm
  · exact List.mem_of_find?_eq_some hm

theorem IsWritten.isType_target (h : n.IsWritten source) (hkind : n.kind = .pointerType)
    (hm : n.children.find? isNamed = some m) : m.kind.isType = true ∨ m.isComment = true := by
  cases hcomment : m.isComment with
  | true => exact .inr rfl
  | false =>
    obtain ⟨word, hword⟩ := h
    exact .inl (hword.pointer_target hkind hm hcomment).1

/-- The parts of types are types, except that a comment may come between a star and its target. -/
theorem IsWritten.isType_of_mem_typeParts (h : n.IsWritten source) (hm : m ∈ n.typeParts) :
    m.kind.isType = true ∨ m.isComment = true := by
  rcases cases_of_mem_typeParts hm with ⟨hkind, hm⟩ | ⟨f, hf, hm⟩
  · exact h.isType_target hkind hm
  · exact .inl (h.isType_childIn hf hm)

/-- Only a bare name is classified as a predeclared type. -/
theorem classify_of_ne (source : String) (h : n.kind ≠ .typeIdentifier) :
    (n.classify source).isError = false ∧ (n.classify source).primitive? = none := by
  rw [classify_eq]
  split
  · rename_i hkind
    exact absurd hkind h
  all_goals first | exact ⟨rfl, rfl⟩ | (split <;> exact ⟨rfl, rfl⟩)

/-- The classification of a written type agrees with its text, layer by layer. -/
theorem IsWritten.agrees_classify (h : n.IsWritten source) (hkind : n.kind.isType = true ∨ n.isComment = true) :
    ∀ layer ∈ (n.classify source).layers, layer.Agrees source := by
  induction n using childInduction with
  | node n ih =>
    rw [layers_classify]
    refine List.forall_mem_cons.2 ⟨?_, ?_⟩
    · -- Only here the text decides; everywhere else the kind does, and the text has a mark in it.
      by_cases hname : n.kind = .typeIdentifier
      · rw [classify_eq, hname]
        exact TypeExpr.agrees_ofName source n.span
      · obtain ⟨herror, hprimitive⟩ := classify_of_ne source hname
        refine TypeExpr.agrees_of_isPlain ?_ herror hprimitive
        rw [text_classify]
        exact h.isPlain hkind hname
    · intro layer hlayer
      obtain ⟨m, hm, hlayer⟩ := List.mem_flatMap.1 hlayer
      have hmem := mem_of_mem_typeParts hm
      exact ih m hmem (h.child hmem) (h.isType_of_mem_typeParts hm) layer hlayer

/-- What a written node gives as a type is a type. -/
theorem IsWritten.isType_of_givesType (h : n.IsWritten source) (hm : n.GivesType m) : m.kind.isType = true := by
  cases hm with
  | declared role type => exact h.isType_childIn role type
  | result method type single =>
    obtain ⟨_, _, _, -, hwritten⟩ := h
    obtain ⟨labels, hlabels, hmem⟩ := hwritten.label_childIn type
    rw [method] at hlabels
    exact (hlabels _ hmem rfl).resolve_left single

/-- The types that written nodes give agree with their texts, also behind a star or an ellipsis. -/
theorem typesHave_agrees :
    TypesHave source (IsWritten source) fun t => ∀ layer ∈ t.layers, layer.Agrees source where
  child := IsWritten.child
  classified := fun h hm => (h.child hm.mem).agrees_classify (.inl (h.isType_of_givesType hm))
  starred := by
    intro n star type h hkind hstar hstarKind htype
    have hdeclared : n.GivesType type := .declared (by simp [hkind, Kind.typeRoles]) htype
    have hinner := (h.child hdeclared.mem).agrees_classify (.inl (h.isType_of_givesType hdeclared))
    refine List.forall_mem_cons.2 ⟨TypeExpr.agrees_of_isPlain ?_ rfl rfl, hinner⟩
    obtain ⟨word, hword⟩ := h
    obtain ⟨gap, -, htext⟩ := hword.starred hkind hstar hstarKind htype
    rw [TypeExpr.text, TypeExpr.span, htext]
    exact isPlain_of_infix "*" (by simp [typeMarks]) (List.prefix_append ['*'] _).isInfix
  variadic := by
    intro n ellipsis type h hkind hellipsis htype
    have hdeclared : n.GivesType type := .declared (by simp [hkind, Kind.typeRoles]) htype
    have hinner := (h.child hdeclared.mem).agrees_classify (.inl (h.isType_of_givesType hdeclared))
    refine List.forall_mem_cons.2 ⟨TypeExpr.agrees_of_isPlain ?_ rfl rfl, hinner⟩
    obtain ⟨word, hword⟩ := h
    obtain ⟨rest, htext⟩ := hword.variadic hkind hellipsis htype
    rw [TypeExpr.text, TypeExpr.span, htext]
    exact isPlain_of_infix "." (by simp [typeMarks]) (List.prefix_append ['.'] _).isInfix

end Node

/-! ## Files -/

namespace File

variable {location : Path} {source : String} {file : File}

/-- The classification of every type of a scanned file agrees with its text. -/
theorem agrees_of_mem_types (h : File.ofSource location source = .ok file) {t : TypeExpr} (ht : t ∈ file.types) :
    t.Agrees source :=
  layers_have h Node.typesHave_agrees ht t t.mem_layers_self

/-- A type of a scanned file is an error if it is spelt so, and of a basic family if it has the name of one of its types;
so arguments that agree, in one file or in two, are alike in this. -/
theorem predeclared_by_text (h : File.ofSource location source = .ok file) :
    (∀ t ∈ file.types, (t.isError = true ↔ t.text source = errorName) ∧
      (∀ family, t.primitive? = some family ↔ Primitive.ofName? (t.text source) = some family) ∧
      [t.isError, t.isSimple, t.isPointer, t.isArray, t.isMap].count true ≤ 1) ∧
    ∀ (location' : Path) (source' : String) (file' : File), File.ofSource location' source' = .ok file' →
      ∀ a b : Arg, a.type ∈ file.types → b.type ∈ file'.types → a.agrees source source' b = true →
        a.type.isError = b.type.isError ∧ a.type.isSimple = b.type.isSimple := by
  refine ⟨fun t ht => ?_, fun location' source' file' h' a b ha hb hagrees => ?_⟩
  · have hagrees := agrees_of_mem_types h ht
    exact ⟨hagrees.error, fun family => by rw [hagrees.primitive], t.count_sorts_le_one⟩
  · have htext : a.type.text source = b.type.text source' := by
      simp only [Arg.agrees, Bool.and_eq_true, beq_iff_eq] at hagrees
      exact hagrees.1.1.2
    have hleft := agrees_of_mem_types h ha
    have hright := agrees_of_mem_types h' hb
    constructor
    · rw [Bool.eq_iff_iff, hleft.error, hright.error, htext]
    · rw [TypeExpr.isSimple, TypeExpr.isSimple, hleft.primitive, hright.primitive, htext]

/-- A file with predeclared types behind a star, a comment, an ellipsis, brackets and parentheses, and with a type of
another package that is called as one of them. -/
def sortedSource : String :=
  "package p\n\ntype S struct\x7b\n\tE error\n\t*error\n\tM map[string]* /* c */ int\n\tQ my.error\n\tG (int)\n" ++
    "\x7d\n\ntype I interface\x7b F(...error) chan<- bool \x7d\n\nvar x []int8 = nil\n"

/-- A file with a field that agrees with the first one of the other. -/
def agreeingSource : String := "package q\n\ntype T struct\x7b E error \x7d\n"

theorem predeclared_by_text_sortedSource : ∃ file file' : File, ∃ a b : Arg,
    File.ofSource (.ofString "/p/p.go") sortedSource = .ok file ∧
    File.ofSource (.ofString "/q/q.go") agreeingSource = .ok file' ∧
    file.types.map (·.text sortedSource) =
      ["error", "*error", "error", "map[string]* /* c */ int", "string", "* /* c */ int", "/* c */", "my.error", "(int)",
        "...error", "error", "chan<- bool", "[]int8", "int8"] ∧
    (∀ t ∈ file.types, (t.isError = true ↔ t.text sortedSource = errorName) ∧
      (∀ family, t.primitive? = some family ↔ Primitive.ofName? (t.text sortedSource) = some family) ∧
      [t.isError, t.isSimple, t.isPointer, t.isArray, t.isMap].count true ≤ 1) ∧
    a.type ∈ file.types ∧ b.type ∈ file'.types ∧ a.agrees sortedSource agreeingSource b = true ∧
    a.type.isError = b.type.isError ∧ a.type.isSimple = b.type.isSimple := by
  let a : Arg := ⟨"E", .error ⟨29, 34⟩, "", none⟩
  let b : Arg := ⟨"E", .error ⟨28, 33⟩, "", none⟩
  obtain ⟨file, hfile, hfacts⟩ := exists_of_any (x := File.ofSource (.ofString "/p/p.go") sortedSource)
    (p := fun file => file.types.map (·.text sortedSource) ==
        ["error", "*error", "error", "map[string]* /* c */ int", "string", "* /* c */ int", "/* c */", "my.error",
          "(int)", "...error", "error", "chan<- bool", "[]int8", "int8"] &&
      file.types.contains a.type) (by decide +kernel)
  obtain ⟨file', hfile', hb⟩ := exists_of_any (x := File.ofSource (.ofString "/q/q.go") agreeingSource)
    (p := fun file' => file'.types.contains b.type) (by decide +kernel)
  simp only [Bool.and_eq_true, beq_iff_eq, List.contains_iff_mem] at hfacts hb
  have hagrees : a.agrees sortedSource agreeingSource b = true := by decide +kernel
  obtain ⟨hsorts, halike⟩ := predeclared_by_text hfile
  exact ⟨file, file', a, b, hfile, hfile', hfacts.1, hsorts, hfacts.2, hb, hagrees,
    halike _ agreeingSource file' hfile' a b hfacts.2 hb hagrees⟩

end File

end GoOutline
