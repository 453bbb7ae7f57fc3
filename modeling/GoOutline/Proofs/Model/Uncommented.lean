import GoOutline.Proofs.Model.Spelling

/-!
# Declarations without comments

A tree without its comments (`Node.withoutComments`) holds the same declarations, up to the texts of comments
(`extract_withoutComments`): what a declaration is made of is looked up by role and by kind, and comments play no role.
The exceptions are pointers and types in parentheses, whose first child other than a bare token is looked at: a comment
before it obscures it (`Node.isObscured`).
-/
namespace GoOutline

namespace Node

mutual

/-- The tree without its comments, those that belong to its nodes included. -/
def withoutComments : Node → Node
  | .mk kind field start stop _ children => .mk kind field start stop [] (withoutCommentsAll children)

/-- `withoutComments` on every tree of a list that is no comment. -/
def withoutCommentsAll : List Node → List Node
  | [] => []
  | n :: ns => if n.isComment then withoutCommentsAll ns else n.withoutComments :: withoutCommentsAll ns

end

/-- A comment stands before the target of the pointer, or before the type in the parentheses. -/
def isObscured (n : Node) : Bool :=
  (n.kind == .pointerType || n.kind == .parenthesizedType) && (n.children.find? isNamed).any isComment

mutual

/-- Neither the node nor one inside it is obscured. -/
def isClear : Node → Bool
  | .mk kind field start stop comments children =>
    !(Node.mk kind field start stop comments children).isObscured && areClear children

/-- `isClear` for every tree of a list. -/
def areClear : List Node → Bool
  | [] => true
  | n :: ns => n.isClear && areClear ns

end

end Node

/-! ## Records without comments -/

/-- The argument without its comment. -/
def Arg.bare (a : Arg) : Arg := { a with comment := "" }

/-- The value without its comment. -/
def Value.bare (v : Value) : Value := { v with comment := "" }

/-- The method without comments. -/
def Method.bare (m : Method) : Method :=
  { m with comment := "", inputs := m.inputs.map Arg.bare, outputs := m.outputs.map Arg.bare }

/-- The interface without comments. -/
def Interface.bare (i : Interface) : Interface := { i with comment := "", methods := i.methods.map Method.bare }

/-- The struct without comments. -/
def Struct.bare (s : Struct) : Struct := { s with comment := "", fields := s.fields.map Arg.bare }

/-- The declarations without comments. -/
def Declarations.bare (d : Declarations) : Declarations :=
  { comment := "", imports := d.imports, values := d.values.map Value.bare,
    interfaces := d.interfaces.map Interface.bare, structs := d.structs.map Struct.bare }

namespace Node

variable {source : String} {n m : Node}

/-! ## Nodes without comments -/

theorem withoutCommentsAll_eq (ns : List Node) :
    withoutCommentsAll ns = (ns.filter fun n => !n.isComment).map withoutComments := by
  induction ns with
  | nil => rfl
  | cons n ns ih =>
    rw [withoutCommentsAll, ih]
    cases h : n.isComment <;> simp [h]

theorem children_withoutComments (n : Node) : n.withoutComments.children = n.parts.map withoutComments := by
  cases n
  exact withoutCommentsAll_eq _

@[simp] theorem kind_withoutComments (n : Node) : n.withoutComments.kind = n.kind := by
  cases n
  rfl

@[simp] theorem field_withoutComments (n : Node) : n.withoutComments.field = n.field := by
  cases n
  rfl

@[simp] theorem span_withoutComments (n : Node) : n.withoutComments.span = n.span := by
  cases n
  rfl

@[simp] theorem text_withoutComments (source : String) (n : Node) : n.withoutComments.text source = n.text source := by
  rw [text, span_withoutComments, text]

@[simp] theorem isComment_withoutComments (n : Node) : n.withoutComments.isComment = n.isComment := by
  rw [isComment, kind_withoutComments, isComment]

@[simp] theorem isNamed_withoutComments (n : Node) : n.withoutComments.isNamed = n.isNamed := by
  rw [isNamed, kind_withoutComments, isNamed]

/-- Finding a child by its kind or role. -/
theorem find?_withoutComments {p : Node → Bool} (hp : ∀ child ∈ n.children, child.isComment = true → p child = false)
    (hsame : ∀ child, p child.withoutComments = p child) :
    n.withoutComments.children.find? p = (n.children.find? p).map withoutComments := by
  rw [find?_children hp, children_withoutComments, List.find?_map]
  congr 2
  funext child
  exact hsame child

theorem filter_withoutComments {p : Node → Bool} (hp : ∀ child ∈ n.children, child.isComment = true → p child = false)
    (hsame : ∀ child, p child.withoutComments = p child) :
    n.withoutComments.children.filter p = (n.children.filter p).map withoutComments := by
  rw [children_withoutComments, List.filter_map, parts, List.filter_filter]
  congr 1
  refine List.filter_congr fun child hchild => ?_
  rw [Function.comp_apply, hsame]
  cases hcomment : child.isComment with
  | false => simp
  | true => simp [hp child hchild hcomment]

theorem IsWritten.field_eq_none (h : n.IsWritten source) {child : Node} (hchild : child ∈ n.children)
    (hcomment : child.isComment = true) : child.field = none := by
  obtain ⟨_, _, _, -, hwritten⟩ := h
  rcases hwritten.stands_children with hnone | hstands
  · rw [hnone] at hchild
    cases hchild
  · exact hstands.field_eq_none hchild hcomment

theorem IsWritten.childIn_withoutComments (h : n.IsWritten source) (f : Field) :
    n.withoutComments.childIn f = (n.childIn f).map withoutComments :=
  find?_withoutComments (fun child hchild hcomment => by simp [h.field_eq_none hchild hcomment]) (by simp)

theorem IsWritten.childrenIn_withoutComments (h : n.IsWritten source) (f : Field) :
    n.withoutComments.childrenIn f = (n.childrenIn f).map withoutComments :=
  filter_withoutComments (fun child hchild hcomment => by simp [h.field_eq_none hchild hcomment]) (by simp)

theorem namedChildren_withoutComments (n : Node) :
    n.withoutComments.namedChildren = (n.namedChildren.filter fun child => !child.isComment).map withoutComments := by
  rw [namedChildren, children_withoutComments, List.filter_map, parts, List.filter_filter, namedChildren,
    List.filter_filter]
  congr 1
  refine List.filter_congr fun child _ => ?_
  simp [Bool.and_comm]

theorem filter_namedChildren_withoutComments {p : Node → Bool}
    (hp : ∀ child : Node, child.isComment = true → p child = false)
    (hsame : ∀ child, p child.withoutComments = p child) :
    n.withoutComments.namedChildren.filter p = (n.namedChildren.filter p).map withoutComments := by
  rw [namedChildren_withoutComments, List.filter_map, List.filter_filter]
  congr 1
  refine List.filter_congr fun child _ => ?_
  rw [Function.comp_apply, hsame]
  cases hcomment : child.isComment with
  | false => simp
  | true => simp [hp child hcomment]

theorem find?_namedChildren_withoutComments (n : Node) (kind : Kind) (hkind : kind ≠ .comment) :
    n.withoutComments.namedChildren.find? (fun m => m.kind == kind) =
      (n.namedChildren.find? fun m => m.kind == kind).map withoutComments := by
  rw [← List.head?_filter, filter_namedChildren_withoutComments _ (by simp), List.head?_map, List.head?_filter]
  intro child hcomment
  have hchild : child.kind = .comment := by simpa [isComment] using hcomment
  simpa [hchild] using hkind.symm

/-- A written node does not begin with a comment. -/
theorem IsWritten.head?_withoutComments (h : n.IsWritten source) :
    n.withoutComments.children.head? = n.children.head?.map withoutComments := by
  obtain ⟨_, _, _, -, hwritten⟩ := h
  rw [children_withoutComments, List.head?_map]
  by_cases hchildren : n.children = []
  · simp [parts, hchildren]
  · obtain ⟨first, _, _, _, hfirst, hparts, -⟩ := hwritten.opened hchildren
    rw [hfirst, hparts]
    rfl

/-! ## Clear nodes -/

theorem areClear_eq (ns : List Node) : areClear ns = (ns.map isClear).all id := by
  induction ns with
  | nil => rfl
  | cons n ns ih => simp [areClear, ih]

theorem isClear_iff (n : Node) :
    n.isClear = true ↔ n.isObscured = false ∧ ∀ child ∈ n.children, child.isClear = true := by
  obtain ⟨kind, field, start, stop, comments, children⟩ := n
  simp [isClear, areClear_eq, Node.children]

theorem isClear_child (h : n.isClear = true) (hm : m ∈ n.children) : m.isClear = true :=
  ((isClear_iff n).1 h).2 m hm

theorem isClear_childIn {f : Field} (h : n.isClear = true) (hm : n.childIn f = some m) : m.isClear = true :=
  isClear_child h (List.mem_of_find?_eq_some hm)

theorem isClear_namedChild (h : n.isClear = true) (hm : m ∈ n.namedChildren) : m.isClear = true :=
  isClear_child h (List.mem_filter.1 hm).1

/-- In clear pointers and parentheses the first child that is no bare token stays the first one. -/
theorem find?_isNamed_withoutComments (h : n.isClear = true)
    (hkind : n.kind = .pointerType ∨ n.kind = .parenthesizedType) :
    n.withoutComments.children.find? isNamed = (n.children.find? isNamed).map withoutComments := by
  have hfind : n.parts.find? isNamed = n.children.find? isNamed := by
    cases hfirst : n.children.find? isNamed with
    | none =>
      rw [List.find?_eq_none] at hfirst ⊢
      exact fun child hchild => hfirst child (List.mem_filter.1 hchild).1
    | some child =>
      refine find?_isNamed_parts hfirst ?_
      have hobscured := ((isClear_iff n).1 h).1
      rcases hkind with hkind | hkind <;> simpa [isObscured, hkind, hfirst] using hobscured
  rw [children_withoutComments, List.find?_map, ← hfind]
  congr 2
  funext child
  exact isNamed_withoutComments child

/-! ## Types -/

theorem IsWritten.classify_withoutComments (h : n.IsWritten source) (hclear : n.isClear = true) :
    n.withoutComments.classify source = n.classify source := by
  induction n using childInduction with
  | node n ih =>
    have hchild {m : Node} (hm : m ∈ n.children) : m.withoutComments.classify source = m.classify source :=
      ih m hm (h.child hm) (isClear_child hclear hm)
    have hin {f : Field} {m : Node} (hm : n.childIn f = some m) :
        m.withoutComments.classify source = m.classify source :=
      hchild (List.mem_of_find?_eq_some hm)
    simp only [classify_eq source n.withoutComments, classify_eq source n, kind_withoutComments, span_withoutComments,
      text_withoutComments, h.childIn_withoutComments]
    cases hkind : n.kind
    case qualifiedType =>
      cases n.childIn .package <;> cases n.childIn .name <;> simp
    case pointerType =>
      simp only [find?_isNamed_withoutComments hclear (.inl hkind)]
      cases htarget : n.children.find? isNamed with
      | none => rfl
      | some target => simp [hchild (List.mem_of_find?_eq_some htarget)]
    case mapType =>
      cases hkey : n.childIn .key with
      | none => rfl
      | some key =>
        cases hvalue : n.childIn .value with
        | none => rfl
        | some value => simp [hin hkey, hin hvalue]
    case sliceType | arrayType | implicitLengthArrayType =>
      cases helement : n.childIn .element with
      | none => rfl
      | some element => simp [hin helement]
    all_goals rfl

theorem IsWritten.unwrapped_withoutComments (h : n.IsWritten source) (hclear : n.isClear = true) :
    n.withoutComments.unwrapped = n.unwrapped.map withoutComments ∧
      ∀ type, n.unwrapped = some type → type.isClear = true := by
  induction n using childInduction with
  | node n ih =>
    by_cases hkind : n.kind = .parenthesizedType
    · have hhead (n : Node) : n.namedChildren.head? = n.children.find? isNamed := List.head?_filter ..
      rw [unwrapped_of_parenthesized hkind, unwrapped_of_parenthesized (by rw [kind_withoutComments, hkind]), hhead,
        hhead,
        find?_isNamed_withoutComments hclear (.inr hkind)]
      cases hinner : n.children.find? isNamed with
      | none => simp
      | some inner =>
        have hmem := List.mem_of_find?_eq_some hinner
        simpa using ih inner hmem (h.child hmem) (isClear_child hclear hmem)
    · rw [unwrapped_of_ne hkind, unwrapped_of_ne (by rwa [kind_withoutComments])]
      refine ⟨rfl, ?_⟩
      rintro type ⟨⟩
      exact hclear

/-! ## Fields, parameters and results -/

theorem map_bare_slots (names : List String) (unnamed : String) (type : TypeExpr) (comment : String)
    (tag : Option String) :
    (slots names unnamed type comment tag).map Arg.bare = slots names unnamed type "" tag := by
  unfold slots
  split
  · rfl
  · simp [Arg.bare]

theorem IsWritten.namesIn_withoutComments (h : n.IsWritten source) (kind : Kind) :
    n.withoutComments.namesIn source kind = n.namesIn source kind := by
  simp [namesIn, h.childrenIn_withoutComments, List.filter_map, Function.comp_def]

theorem embeddedType_withoutComments {type : Node} (h : n.IsWritten source) (hclear : n.isClear = true)
    (htype : n.childIn .type = some type) :
    embeddedType source n.withoutComments type.withoutComments = embeddedType source n type := by
  have hclassify := (h.childIn htype).classify_withoutComments (isClear_childIn hclear htype)
  unfold embeddedType
  rw [h.head?_withoutComments, hclassify]
  cases n.children.head? with
  | none => rfl
  | some star => simp

theorem fieldSlots_withoutComments (h : n.IsWritten source) (hclear : n.isClear = true) (index : Nat) :
    (fieldSlots source n.withoutComments index).map Arg.bare = (fieldSlots source n index).map Arg.bare := by
  unfold fieldSlots
  rw [h.childIn_withoutComments, h.childIn_withoutComments]
  cases htype : n.childIn .type with
  | none => rfl
  | some type =>
    simp only [Option.map_some, map_bare_slots, h.namesIn_withoutComments,
      (h.childIn htype).classify_withoutComments (isClear_childIn hclear htype),
      embeddedType_withoutComments h hclear htype]
    cases n.childIn .tag <;> simp

/-- Arguments of the numbered children of some kinds. -/
theorem map_bare_flatMap_zipIdx {p : Node → Bool} {make : Node → Nat → List Arg}
    (hp : ∀ child : Node, child.isComment = true → p child = false) (hsame : ∀ child, p child.withoutComments = p child)
    (hmake : ∀ child ∈ n.namedChildren, ∀ index,
      (make child.withoutComments index).map Arg.bare = (make child index).map Arg.bare) :
    (((n.withoutComments.namedChildren.filter p).zipIdx).flatMap fun (child, index) => make child index).map Arg.bare =
      (((n.namedChildren.filter p).zipIdx).flatMap fun (child, index) => make child index).map Arg.bare := by
  rw [filter_namedChildren_withoutComments hp hsame, List.zipIdx_map, List.flatMap_map, List.map_flatMap,
    List.map_flatMap]
  refine List.flatMap_congr fun x hx => ?_
  obtain ⟨child, index⟩ := x
  exact hmake child (List.mem_filter.1 (List.fst_mem_of_mem_zipIdx hx)).1 index

theorem fieldArgs_withoutComments (h : n.IsWritten source) (hclear : n.isClear = true) :
    (n.withoutComments.fieldArgs source).map Arg.bare = (n.fieldArgs source).map Arg.bare := by
  refine map_bare_flatMap_zipIdx (by simp +contextual [isComment]) (by simp) fun field hfield index => ?_
  exact fieldSlots_withoutComments (h.namedChild hfield) (isClear_namedChild hclear hfield) index

theorem parameterType_withoutComments (h : n.IsWritten source) (hclear : n.isClear = true) :
    parameterType source n.withoutComments = parameterType source n := by
  unfold parameterType
  rw [h.childIn_withoutComments]
  cases htype : n.childIn .type with
  | none => rfl
  | some type =>
    have hellipsis := find?_withoutComments (n := n) (p := fun child => child.kind == .token "...")
      (by simp +contextual [isComment]) (by simp)
    simp only [Option.map_some, Option.bind_some, kind_withoutComments, hellipsis,
      (h.childIn htype).classify_withoutComments (isClear_childIn hclear htype), span_withoutComments]
    cases n.children.find? (fun child => child.kind == .token "...") <;> simp

theorem parameterArgs_withoutComments {stem : String} (h : n.IsWritten source) (hclear : n.isClear = true) :
    (n.withoutComments.parameterArgs source stem).map Arg.bare = (n.parameterArgs source stem).map Arg.bare := by
  refine map_bare_flatMap_zipIdx (by simp +contextual [isComment, isParameter]) (by simp [isParameter])
    fun parameter hparameter index => ?_
  have hwritten := h.namedChild hparameter
  simp only [parameterSlots, parameterType_withoutComments hwritten (isClear_namedChild hclear hparameter),
    hwritten.namesIn_withoutComments]
  cases parameterType source parameter with
  | none => rfl
  | some type => simp [map_bare_slots]

theorem resultArgs_withoutComments (h : n.IsWritten source) (hclear : n.isClear = true) :
    (n.withoutComments.resultArgs source).map Arg.bare = (n.resultArgs source).map Arg.bare := by
  unfold resultArgs
  rw [kind_withoutComments]
  split
  · exact parameterArgs_withoutComments h hclear
  · rw [h.classify_withoutComments hclear]

/-! ## Records -/

theorem toStruct_withoutComments {name type : Node} (h : type.IsWritten source) (hclear : type.isClear = true)
    (comment comment' : String) :
    (toStruct source name.withoutComments type.withoutComments comment).bare =
      (toStruct source name type comment').bare := by
  have hlist := type.find?_namedChildren_withoutComments .fieldDeclarationList (by simp)
  simp only [toStruct, Struct.bare, text_withoutComments, span_withoutComments, hlist, Struct.mk.injEq, true_and,
    and_true]
  cases hfind : type.namedChildren.find? (fun n => n.kind == .fieldDeclarationList) with
  | none => rfl
  | some list =>
    have hmem := List.mem_of_find?_eq_some hfind
    exact fieldArgs_withoutComments (h.namedChild hmem) (isClear_namedChild hclear hmem)

theorem toMethod?_withoutComments (h : n.IsWritten source) (hclear : n.isClear = true) :
    (n.withoutComments.toMethod? source).map Method.bare = (n.toMethod? source).map Method.bare := by
  simp only [toMethod?, Option.map_map]
  rw [h.childIn_withoutComments .name, Option.map_map]
  congr 1
  funext name
  simp only [Function.comp_apply, Method.bare, text_withoutComments, Method.mk.injEq, true_and]
  constructor
  · rw [h.childIn_withoutComments]
    cases hlist : n.childIn .parameters with
    | none => rfl
    | some list => exact parameterArgs_withoutComments (h.childIn hlist) (isClear_childIn hclear hlist)
  · rw [h.childIn_withoutComments]
    cases hresult : n.childIn .result with
    | none => rfl
    | some result => exact resultArgs_withoutComments (h.childIn hresult) (isClear_childIn hclear hresult)

theorem toInterface_withoutComments {name type : Node} (h : type.IsWritten source) (hclear : type.isClear = true)
    (comment comment' : String) :
    (toInterface source name.withoutComments type.withoutComments comment).bare =
      (toInterface source name type comment').bare := by
  simp only [toInterface, Interface.bare, text_withoutComments, span_withoutComments, Interface.mk.injEq, true_and,
    and_true]
  rw [filter_namedChildren_withoutComments (by simp +contextual [isComment]) (by simp), List.filterMap_map,
    List.map_filterMap, List.map_filterMap]
  refine List.filterMap_congr fun n hn => ?_
  have hmem := (List.mem_filter.1 hn).1
  exact toMethod?_withoutComments (h.namedChild hmem) (isClear_namedChild hclear hmem)

theorem toImport?_withoutComments (h : n.IsWritten source) :
    n.withoutComments.toImport? source = n.toImport? source := by
  unfold toImport?
  rw [h.childIn_withoutComments, h.childIn_withoutComments, Option.map_map]
  cases n.childIn .name <;> cases n.childIn .path <;> simp

theorem valueSpans_withoutComments (h : n.IsWritten source) : n.withoutComments.valueSpans = n.valueSpans := by
  unfold valueSpans
  rw [h.childIn_withoutComments]
  cases n.childIn .value with
  | none => rfl
  | some list =>
    simp only [Option.map_some]
    rw [filter_namedChildren_withoutComments (by simp) (by simp), List.map_map]
    exact List.map_congr_left fun e _ => span_withoutComments e

theorem toValues_withoutComments (h : n.IsWritten source) (hclear : n.isClear = true) (kind : ValueKind)
    (comment comment' : String) :
    (n.withoutComments.toValues source kind comment).map Value.bare =
      (n.toValues source kind comment').map Value.bare := by
  have htype :
      (n.withoutComments.childIn .type).map (·.classify source) = (n.childIn .type).map (·.classify source) := by
    rw [h.childIn_withoutComments]
    cases htype : n.childIn .type with
    | none => rfl
    | some type => simp [(h.childIn htype).classify_withoutComments (isClear_childIn hclear htype)]
  simp only [toValues, htype, h.namesIn_withoutComments, valueSpans_withoutComments h, List.map_filterMap]
  refine List.filterMap_congr fun x _ => ?_
  split <;> rfl

/-! ## Declarations -/

/-- What yields nothing need not be kept. -/
theorem isSpecList_of_isComment (h : n.isComment = true) : n.kind.isSpecList = false := by
  have hkind : n.kind = .comment := by simpa [isComment] using h
  rw [hkind]
  rfl

theorem groupSpecs_withoutComments (n : Node) : n.withoutComments.groupSpecs = n.groupSpecs.map withoutComments := by
  unfold groupSpecs
  rw [namedChildren_withoutComments, List.flatMap_map, List.map_flatMap, flatMap_filter_of_nil]
  · refine List.flatMap_congr fun child _ => ?_
    rw [kind_withoutComments, isComment_withoutComments]
    split
    · exact filter_namedChildren_withoutComments (by simp) (by simp)
    · split <;> simp
  · intro child _ hcomment
    have hcomment : child.isComment = true := by simpa using hcomment
    simp [isSpecList_of_isComment hcomment, hcomment]

theorem isTopLevel_withoutComments (n : Node) : n.withoutComments.isTopLevel = n.isTopLevel := by
  simp [isTopLevel, groupSpecs_withoutComments, List.all_map, Function.comp_def]

theorem isClear_spec {spec : Node} (hclear : n.isClear = true) (hspec : spec ∈ n.groupSpecs) : spec.isClear = true := by
  rcases mem_groupSpecs.1 hspec with ⟨hmem, -⟩ | ⟨list, hlist, -, -, hmem, -⟩
  · exact isClear_namedChild hclear hmem
  · exact isClear_namedChild (isClear_namedChild hclear hlist) hmem

/-- A type spec makes the same record, if records of one kind are made of the same types. -/
theorem record?_withoutComments {α : Type} {bare : α → α} {kind : Kind} {make : Node → Node → String → α}
    (hmake : ∀ {name type : Node}, type.IsWritten source → type.isClear = true → ∀ comment comment',
      bare (make name.withoutComments type.withoutComments comment) = bare (make name type comment'))
    (h : n.IsWritten source) (hclear : n.isClear = true) (comment comment' : String) :
    (n.withoutComments.record? source kind make comment).map bare = (n.record? source kind make comment').map bare := by
  have hdeclared :
      n.withoutComments.declared? = n.declared?.map fun x => (x.1.withoutComments, x.2.withoutComments) := by
    unfold declared?
    rw [h.childIn_withoutComments, h.childIn_withoutComments]
    cases n.childIn .name with
    | none => rfl
    | some name =>
      cases htype : n.childIn .type with
      | none => rfl
      | some type =>
        simp only [Option.map_some, ((h.childIn htype).unwrapped_withoutComments (isClear_childIn hclear htype)).1,
          Option.map_map]
        rfl
  unfold record?
  rw [hdeclared]
  cases hfound : n.declared? with
  | none => rfl
  | some found =>
    obtain ⟨name, type⟩ := found
    obtain ⟨htype, htypeClear⟩ : type.IsWritten source ∧ type.isClear = true := by
      unfold declared? at hfound
      split at hfound
      · rename_i name' written hname hwritten
        obtain ⟨inner, hinner, heq⟩ := Option.map_eq_some_iff.1 hfound
        cases heq
        exact ⟨(h.childIn hwritten).unwrapped hinner,
          ((h.childIn hwritten).unwrapped_withoutComments (isClear_childIn hclear hwritten)).2 type hinner⟩
      · cases hfound
    simp only [Option.map_some, kind_withoutComments]
    split
    · exact congrArg some (hmake htype htypeClear _ _)
    · rfl

/-- The records of the specs of a declaration. -/
theorem map_bare_filterMap_specs {α : Type} {bare : α → α} {make : Node → Option α} {make' : Node → Option α}
    (hmake : ∀ spec ∈ n.groupSpecs, (make spec.withoutComments).map bare = (make' spec).map bare) :
    (n.withoutComments.groupSpecs.filterMap make).map bare = (n.groupSpecs.filterMap make').map bare := by
  rw [groupSpecs_withoutComments, List.filterMap_map, List.map_filterMap, List.map_filterMap]
  exact List.filterMap_congr hmake

/-- The records of one kind in a declaration, which has to be clear if it is one of types. -/
theorem records_withoutComments {α : Type} {bare : α → α} {kind : Kind} {make : Node → Node → String → α}
    (hmake : ∀ {name type : Node}, type.IsWritten source → type.isClear = true → ∀ comment comment',
      bare (make name.withoutComments type.withoutComments comment) = bare (make name type comment'))
    (h : n.IsWritten source) (hclear : n.kind.specs ≠ [] → n.isClear = true) (comment comment' : String) :
    (if n.withoutComments.kind = .typeDeclaration then
      n.withoutComments.groupSpecs.filterMap (record? source kind make comment) else []).map bare =
    (if n.kind = .typeDeclaration then
      n.groupSpecs.filterMap (record? source kind make comment') else []).map bare := by
  rw [kind_withoutComments]
  split
  · rename_i hkind
    have hclear := hclear (by simp [hkind, Kind.specs])
    refine map_bare_filterMap_specs fun spec hspec => ?_
    exact record?_withoutComments hmake (h.spec hspec) (isClear_spec hclear hspec) _ _
  · rfl

theorem structsOf_withoutComments (h : n.IsWritten source) (hclear : n.kind.specs ≠ [] → n.isClear = true) :
    (n.withoutComments.structsOf source).map Struct.bare = (n.structsOf source).map Struct.bare :=
  records_withoutComments toStruct_withoutComments h hclear _ _

theorem interfacesOf_withoutComments (h : n.IsWritten source) (hclear : n.kind.specs ≠ [] → n.isClear = true) :
    (n.withoutComments.interfacesOf source).map Interface.bare = (n.interfacesOf source).map Interface.bare :=
  records_withoutComments toInterface_withoutComments h hclear _ _

theorem importsOf_withoutComments (h : n.IsWritten source) :
    n.withoutComments.importsOf source = n.importsOf source := by
  unfold importsOf
  rw [kind_withoutComments, groupSpecs_withoutComments, List.filterMap_map]
  split
  · exact List.filterMap_congr fun spec hspec => toImport?_withoutComments (h.spec hspec)
  · rfl

theorem valuesOf_withoutComments (h : n.IsWritten source) (hclear : n.kind.specs ≠ [] → n.isClear = true) :
    (n.withoutComments.valuesOf source).map Value.bare = (n.valuesOf source).map Value.bare := by
  have hspecs (hkind : n.kind.specs ≠ []) (kind : ValueKind) (comment comment' : String) :
      (specValues source kind comment n.withoutComments.groupSpecs).map Value.bare =
        (specValues source kind comment' n.groupSpecs).map Value.bare := by
    unfold specValues
    rw [groupSpecs_withoutComments, List.flatMap_map, List.map_flatMap, List.map_flatMap]
    refine List.flatMap_congr fun spec hspec => ?_
    exact toValues_withoutComments (h.spec hspec) (isClear_spec (hclear hkind) hspec) _ _ _
  unfold valuesOf
  rw [kind_withoutComments]
  split
  · rename_i hkind
    exact hspecs (by simp [hkind, Kind.specs]) _ _ _
  · split
    · rename_i hkind
      exact hspecs (by simp [hkind, Kind.specs]) _ _ _
    · rfl

/-! ## Shared comments -/

theorem withoutComments_withComments (n : Node) (spans : List Span) :
    (n.withComments spans).withoutComments = n.withoutComments := by
  cases n
  rfl

theorem isComment_withComments (n : Node) (spans : List Span) : (n.withComments spans).isComment = n.isComment := by
  cases n
  rfl

theorem isComment_dress (map : CommentMap) (address : Address) (n : Node) :
    (n.dress map address).isComment = n.isComment := by
  cases n
  rfl

mutual

/-- Whoever the comments belong to, without them the tree is the same. -/
theorem withoutComments_dress (map : CommentMap) (address : Address) (n : Node) :
    (n.dress map address).withoutComments = n.withoutComments := by
  obtain ⟨kind, field, start, stop, comments, children⟩ := n
  rw [dress, withoutComments, withoutComments, withoutCommentsAll_dressAll]

theorem withoutCommentsAll_dressAll (map : CommentMap) (address : Address) (place : Nat) (ns : List Node) :
    withoutCommentsAll (dressAll map address place ns) = withoutCommentsAll ns := by
  cases ns with
  | nil => rfl
  | cons n ns =>
    rw [dressAll, withoutCommentsAll, withoutCommentsAll, withoutCommentsAll_dressAll map address (place + 1) ns]
    split
    · rw [isComment_withComments, isComment_dress, withoutComments_withComments,
        withoutComments_dress map (address ++ [place]) n]
    · rfl

end

theorem withoutComments_shareComments (n : Node) : n.shareComments.withoutComments = n.withoutComments :=
  withoutComments_dress _ _ n

/-- Where there are no comments, none can be shared. -/
theorem share_withoutComments (map : CommentMap) (address : Address) (n : Node) :
    map.share address n.withoutComments = map := by
  have hwalk (children : List (Node × Nat)) (h : ∀ child ∈ children, child.1.isComment = false)
      (previous : Option (Node × Nat)) : (children.foldl (Sharing.step address) ⟨map, previous, []⟩).map = map := by
    induction children generalizing previous with
    | nil => rfl
    | cons child children ih =>
      rw [List.forall_mem_cons] at h
      rw [List.foldl_cons, Sharing.step, if_neg (by simp [h.1])]
      exact ih h.2 (some child)
  refine hwalk _ (fun child hchild => ?_) none
  have hmem := List.fst_mem_of_mem_zipIdx (List.mem_filter.1 hchild).1
  rw [children_withoutComments] at hmem
  obtain ⟨part, hpart, hsame⟩ := List.mem_map.1 hmem
  rw [← hsame, isComment_withoutComments]
  simpa using (List.mem_filter.1 hpart).2

theorem collect_withoutComments (map : CommentMap) (work : List (Address × Node))
    (h : ∀ entry ∈ work, ∃ n : Node, entry.2 = n.withoutComments) : map.collect work = map := by
  fun_induction CommentMap.collect map work with
  | case1 => rfl
  | case2 map address n rest ih =>
    rw [List.forall_mem_cons] at h
    obtain ⟨⟨n, rfl⟩, hrest⟩ := h
    rw [share_withoutComments] at ih ⊢
    refine ih fun entry hentry => ?_
    rcases List.mem_append.1 hentry with hentry | hentry
    · obtain ⟨child, hchild, rfl⟩ := List.mem_map.1 (List.mem_reverse.1 hentry)
      have hmem := List.fst_mem_of_mem_zipIdx (List.mem_filter.1 (List.mem_filter.1 hchild).1).1
      rw [children_withoutComments] at hmem
      obtain ⟨part, -, hsame⟩ := List.mem_map.1 hmem
      exact ⟨part, hsame.symm⟩
    · exact hrest entry hentry

mutual

theorem dress_withoutComments (address : Address) (n : Node) :
    n.withoutComments.dress [] address = n.withoutComments := by
  obtain ⟨kind, field, start, stop, comments, children⟩ := n
  rw [withoutComments, dress, dressAll_withoutCommentsAll address 0 children]

theorem dressAll_withoutCommentsAll (address : Address) (place : Nat) (ns : List Node) :
    dressAll [] address place (withoutCommentsAll ns) = withoutCommentsAll ns := by
  cases ns with
  | nil => rfl
  | cons n ns =>
    rw [withoutCommentsAll]
    split
    · exact dressAll_withoutCommentsAll address place ns
    · rw [dressAll, dressAll_withoutCommentsAll address (place + 1) ns,
        dress_withoutComments (address ++ [place]) n]
      obtain ⟨kind, field, start, stop, comments, children⟩ := n
      rw [withoutComments]
      split <;> rfl

end

theorem shareComments_withoutComments (n : Node) : n.withoutComments.shareComments = n.withoutComments := by
  rw [shareComments, commentMap, collect_withoutComments _ _ (by simp), dress_withoutComments]

/-- Whether a node is obscured can be told from the outlines of its children. -/
theorem isObscured_eq (n : Node) : n.isObscured = ((n.kind == .pointerType || n.kind == .parenthesizedType) &&
    ((n.children.map outline).find? fun o => o.1.isNamed).any fun o => o.1 == .comment) := by
  rw [List.find?_map, Option.any_map]
  rfl

theorem isClear_withComments (n : Node) (spans : List Span) : (n.withComments spans).isClear = n.isClear := by
  cases n
  rfl

mutual

theorem isClear_dress (map : CommentMap) (address : Address) (n : Node) :
    (n.dress map address).isClear = n.isClear := by
  have hobscured : (n.dress map address).isObscured = n.isObscured := by
    rw [isObscured_eq, isObscured_eq, map_outline_children_dress]
    cases n
    rfl
  obtain ⟨kind, field, start, stop, comments, children⟩ := n
  rw [dress] at hobscured ⊢
  rw [isClear, isClear, hobscured, areClear_dressAll map address 0 children]

theorem areClear_dressAll (map : CommentMap) (address : Address) (place : Nat) (ns : List Node) :
    areClear (dressAll map address place ns) = areClear ns := by
  cases ns with
  | nil => rfl
  | cons n ns =>
    rw [dressAll, areClear, areClear, areClear_dressAll map address (place + 1) ns]
    split
    · rw [isClear_withComments, isClear_dress map (address ++ [place]) n]
    · rfl

end

theorem exists_child_of_mem_shareComments {child : Node} (h : child ∈ n.shareComments.children) :
    ∃ m ∈ n.children, m.kind = child.kind ∧ m.isClear = child.isClear := by
  have hshared (m : Node) (address : Address) : ((m.dress n.commentMap address).kind,
      (m.dress n.commentMap address).isClear) = (m.kind, m.isClear) := by
    rw [isClear_dress]
    cases m
    rfl
  have hmem : (child.kind, child.isClear) ∈ n.children.map fun m => (m.kind, m.isClear) := by
    rw [← map_dressAll (fun m _ => by cases m; rfl) (fun address m => hshared m address) [] 0, ← children_dress]
    exact List.mem_map_of_mem h
  obtain ⟨m, hm, heq⟩ := List.mem_map.1 hmem
  exact ⟨m, hm, Prod.mk.inj heq⟩

end Node

/-! ## Whole trees -/

section

variable {source : String} {root : Node}

theorem packageName?_withoutComments (source : String) (root : Node) :
    packageName? source root.withoutComments = packageName? source root := by
  unfold packageName?
  rw [root.find?_namedChildren_withoutComments .packageClause (by simp)]
  cases root.namedChildren.find? (fun m => m.kind == .packageClause) with
  | none => rfl
  | some clause =>
    simp only [Option.map_some, Option.bind_some,
      clause.find?_namedChildren_withoutComments .packageIdentifier (by simp), Option.map_map]
    congr 1
    funext name
    exact Node.text_withoutComments source name

/-- What the declarations of a tree hold, they hold without comments. -/
theorem flatMap_withoutComments {α : Type} {bare : α → α} {parts : Node → List α}
    (hcomment : ∀ n : Node, n.isComment = true → parts n = [])
    (hparts : ∀ n ∈ root.namedChildren, (parts n.withoutComments).map bare = (parts n).map bare) :
    (root.withoutComments.namedChildren.flatMap parts).map bare = (root.namedChildren.flatMap parts).map bare := by
  have hkept : (root.namedChildren.filter fun n => !n.isComment).flatMap parts = root.namedChildren.flatMap parts :=
    Node.flatMap_filter_of_nil fun n _ hn => hcomment n (by simpa using hn)
  rw [Node.namedChildren_withoutComments, ← hkept, List.flatMap_map, List.map_flatMap, List.map_flatMap]
  exact List.flatMap_congr fun n hn => hparts n (List.mem_filter.1 hn).1

theorem imports_reading_withoutComments (hwritten : ∀ n ∈ root.children, n.IsWritten source) :
    (root.withoutComments.reading source).imports = (root.reading source).imports := by
  have himports : (root.withoutComments.namedChildren.flatMap (Node.importsOf source)).map id =
      (root.namedChildren.flatMap (Node.importsOf source)).map id := by
    refine flatMap_withoutComments (by simp +contextual [Node.isComment, Node.importsOf]) fun n hn => ?_
    rw [Node.importsOf_withoutComments (hwritten n (List.mem_filter.1 hn).1)]
  rw [List.map_id, List.map_id] at himports
  simp [Node.reading, Declarations.andThen, himports]

theorem bare_reading_withoutComments (hwritten : ∀ n ∈ root.children, n.IsWritten source)
    (hclear : ∀ n ∈ root.children, n.kind.specs ≠ [] → n.isClear = true) :
    (root.withoutComments.reading source).bare = (root.reading source).bare := by
  have hchild {n : Node} (hn : n ∈ root.namedChildren) :
      n.IsWritten source ∧ (n.kind.specs ≠ [] → n.isClear = true) :=
    have hmem := (List.mem_filter.1 hn).1
    ⟨hwritten n hmem, hclear n hmem⟩
  have hvalues : (root.withoutComments.namedChildren.flatMap (Node.valuesOf source)).map Value.bare =
      (root.namedChildren.flatMap (Node.valuesOf source)).map Value.bare :=
    flatMap_withoutComments (by simp +contextual [Node.isComment, Node.valuesOf])
      fun n hn => Node.valuesOf_withoutComments (hchild hn).1 (hchild hn).2
  have hinterfaces : (root.withoutComments.namedChildren.flatMap (Node.interfacesOf source)).map Interface.bare =
      (root.namedChildren.flatMap (Node.interfacesOf source)).map Interface.bare :=
    flatMap_withoutComments (by simp +contextual [Node.isComment, Node.interfacesOf])
      fun n hn => Node.interfacesOf_withoutComments (hchild hn).1 (hchild hn).2
  have hstructs : (root.withoutComments.namedChildren.flatMap (Node.structsOf source)).map Struct.bare =
      (root.namedChildren.flatMap (Node.structsOf source)).map Struct.bare :=
    flatMap_withoutComments (by simp +contextual [Node.isComment, Node.structsOf])
      fun n hn => Node.structsOf_withoutComments (hchild hn).1 (hchild hn).2
  simp only [Declarations.bare, imports_reading_withoutComments hwritten, Declarations.mk.injEq, true_and]
  simp [Node.reading, Declarations.andThen, Declarations.none, hvalues, hinterfaces, hstructs]

end

/-- A tree without its comments has the same package and imports and, if no declaration holds an obscured type, the same
declarations but for their comments. -/
theorem extract_withoutComments {source : String} {tree : Node} (h : parseChars source.toList = .ok tree) :
    packageName? source tree.withoutComments.shareComments = packageName? source tree.shareComments ∧
      (extract source tree.withoutComments.shareComments).imports = (extract source tree.shareComments).imports ∧
      ((∀ n ∈ tree.children, n.kind.specs ≠ [] → n.isClear = true) →
        (extract source tree.withoutComments.shareComments).bare = (extract source tree.shareComments).bare) := by
  have hparse : parse source = .ok tree.shareComments := by
    rw [parse, h]
    rfl
  have hwritten := fun n hn => (written_of_parse hparse n hn).1
  have htop := isTopLevel_of_parse hparse
  have htop' : ∀ n ∈ tree.shareComments.withoutComments.namedChildren, n.isTopLevel = true := by
    intro n hn
    rw [Node.namedChildren_withoutComments] at hn
    obtain ⟨m, hm, rfl⟩ := List.mem_map.1 hn
    rw [Node.isTopLevel_withoutComments]
    exact htop m (List.mem_filter.1 hm).1
  have hextract {root : Node} (htop : ∀ n ∈ root.namedChildren, n.isTopLevel = true) :
      extract source root = root.reading source := Walk.run_topLevels htop Walk.start
  rw [Node.shareComments_withoutComments, ← Node.withoutComments_shareComments, hextract htop, hextract htop']
  refine ⟨packageName?_withoutComments source _, imports_reading_withoutComments hwritten, fun hclear => ?_⟩
  refine bare_reading_withoutComments hwritten fun n hn hspecs => ?_
  obtain ⟨m, hm, hkind, hsame⟩ := Node.exists_child_of_mem_shareComments hn
  rw [← hsame]
  exact hclear m hm (by rwa [hkind])

/-- A file with comments inside a field, a list of values and lists of parameters. -/
def commentedSource : String :=
  "package p\n\n// s\ntype S struct\x7b\n\tF, /*g*/ G []*T // t\n\x7d\n\nvar v, /*w*/ w = 1, /*x*/ 2\n\n" ++
    "type I interface\x7b\n\tM(a /*b*/ int, /*c*/ d ...string) ( /*e*/ error)\n\x7d\n"

theorem extract_withoutComments_commentedSource : ∃ tree, parseChars commentedSource.toList = .ok tree ∧
    (extract commentedSource tree.withoutComments.shareComments).bare =
      (extract commentedSource tree.shareComments).bare ∧
    (extract commentedSource tree.withoutComments.shareComments).structs.map (·.comment) = [""] ∧
    (extract commentedSource tree.shareComments).structs.map (·.comment) = ["s"] := by
  obtain ⟨tree, hparse, hfacts⟩ := exists_of_any (x := parseChars commentedSource.toList)
    (p := fun tree => tree.children.all (fun n => n.kind.specs.isEmpty || n.isClear) &&
      ((extract commentedSource tree.withoutComments.shareComments).structs.map (·.comment) == [""] &&
      (extract commentedSource tree.shareComments).structs.map (·.comment) == ["s"]))
    (by decide +kernel)
  simp only [Bool.and_eq_true, List.all_eq_true, Bool.or_eq_true, List.isEmpty_iff, beq_iff_eq] at hfacts
  have hclear : ∀ n ∈ tree.children, n.kind.specs ≠ [] → n.isClear = true :=
    fun n hn hspecs => (hfacts.1 n hn).resolve_left hspecs
  exact ⟨tree, hparse, (extract_withoutComments hparse).2.2 hclear, hfacts.2⟩

/-- A pointer and a struct in parentheses, each with a comment in the first place. -/
def obscuredSource : String :=
  "package p\n\ntype S struct\x7b\n\tF * /*t*/ T\n\x7d\n\ntype R ( /*r*/ struct\x7b\x7d)\n"

/-- The target of the pointer is taken to be the comment, and the struct in parentheses is lost. -/
theorem extract_obscuredSource : ∃ tree, parseChars obscuredSource.toList = .ok tree ∧
    (extract obscuredSource tree.withoutComments.shareComments).structs.map
        (fun s => (s.name, s.fields.map fun f => (f.name, f.type))) =
      [("S", [("F", .pointer ⟨29, 38⟩ (.named ⟨37, 38⟩ none "T"))]), ("R", [])] ∧
    (extract obscuredSource tree.shareComments).structs.map
        (fun s => (s.name, s.fields.map fun f => (f.name, f.type))) =
      [("S", [("F", .pointer ⟨29, 38⟩ (.other ⟨31, 36⟩))])] := by
  obtain ⟨tree, hparse, hfacts⟩ := exists_of_any (x := parseChars obscuredSource.toList)
    (p := fun tree =>
      (extract obscuredSource tree.withoutComments.shareComments).structs.map
          (fun s => (s.name, s.fields.map fun f => (f.name, f.type))) ==
        [("S", [("F", .pointer ⟨29, 38⟩ (.named ⟨37, 38⟩ none "T"))]), ("R", [])] &&
      (extract obscuredSource tree.shareComments).structs.map
          (fun s => (s.name, s.fields.map fun f => (f.name, f.type))) ==
        [("S", [("F", .pointer ⟨29, 38⟩ (.other ⟨31, 36⟩))])])
    (by decide +kernel)
  simp only [Bool.and_eq_true, beq_iff_eq] at hfacts
  exact ⟨tree, hparse, hfacts⟩

end GoOutline
