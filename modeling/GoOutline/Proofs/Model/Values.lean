import GoOutline.Proofs.Model.Spelling

/-!
# Values and their initial values: `extract_value_spec`

A spec of constants or variables gives a name to some of its initial values. The two are told apart by where they stand:
among the names, blank ones included, and among the expressions, comments left out. Both places are counted on the
children of the spec here (`Node.isDeclaredName`, `Node.isItem`), and `values_in_place` says which value each name makes
and which of the expressions it takes.
-/
namespace GoOutline

namespace Node

/-- The node is a name of its parent, if names are nodes of the kind there. The commas between names stand in the same
role. -/
def isNameOf (kind : Kind) (n : Node) : Bool :=
  n.field == some .name && n.kind == kind

/-- The node is a name that a spec of values declares. -/
def isDeclaredName (n : Node) : Bool :=
  n.isNameOf .identifier

/-- The node is a declared name that a value can have. -/
def isOwnName (source : String) (n : Node) : Bool :=
  n.isDeclaredName && n.text source != blankName

/-- The node is an expression of a list: neither a bare token nor a comment. -/
def isItem (n : Node) : Bool :=
  n.isNamed && !n.isComment

/-- What stands in the list of initial values of a spec. -/
def initialList (spec : Node) : List Node :=
  ((spec.childIn .value).map (·.children)).getD []

end Node

/-- The value is that of a name of a spec with so many names before it. It takes the expression that has as many
expressions before it, if there is one. -/
structure Value.IsOf (source : String) (kind : ValueKind) (comment : String) (spec name : Node) (place : Nat)
    (value : Value) : Prop where
  name_eq : value.name = name.text source
  kind_eq : value.kind = kind
  type_eq : value.type = (spec.childIn .type).map (·.classify source)
  comment_eq : value.comment = comment
  initialized : ∀ front expr back, spec.initialList = front ++ expr :: back → expr.isItem = true →
    front.countP Node.isItem = place → value.initializer = some expr.span
  bare : spec.initialList.countP Node.isItem ≤ place → value.initializer = none

namespace Node

variable {source : String} {kind : ValueKind} {comment : String} {spec : Node}

/-! ## Counted places -/

/-- Of the elements with a property, so many stand before one as there are before it in the list. -/
theorem getElem?_filter_split {α : Type} {p : α → Bool} {a : α} (ha : p a = true) (before after : List α) :
    ((before ++ a :: after).filter p)[before.countP p]? = some a := by
  rw [List.filter_append, List.countP_eq_length_filter, List.filter_cons_of_pos ha]
  simp

theorem namesIn_eq (source : String) (kind : Kind) (n : Node) :
    n.namesIn source kind = (n.children.filter (isNameOf kind)).map (·.text source) := by
  rw [namesIn, childrenIn, List.filter_filter]
  congr 2
  funext child
  exact Bool.and_comm _ _

theorem valueSpans_eq (spec : Node) : spec.valueSpans = (spec.initialList.filter isItem).map span := by
  unfold valueSpans initialList
  cases spec.childIn .value with
  | none => rfl
  | some list =>
    simp only [namedChildren, List.filter_filter, Option.map_some, Option.getD_some]
    congr 2
    funext item
    exact Bool.and_comm _ _

/-! ## Names in a row -/

/-- The value that a name with so many names before it makes. -/
def valueAt? (source : String) (kind : ValueKind) (comment : String) (spec : Node) (name : String) (place : Nat) :
    Option Value :=
  if name = blankName then none
  else some ⟨name, kind, (spec.childIn .type).map (·.classify source), spec.valueSpans[place]?, comment⟩

/-- The values of names in a row, with so many names before them. -/
def valuesFrom (source : String) (kind : ValueKind) (comment : String) (spec : Node) (start : Nat)
    (names : List String) : List Value :=
  (names.zipIdx start).filterMap fun (name, place) => spec.valueAt? source kind comment name place

theorem toValues_eq (source : String) (kind : ValueKind) (comment : String) (spec : Node) :
    spec.toValues source kind comment =
      spec.valuesFrom source kind comment 0 ((spec.children.filter isDeclaredName).map (·.text source)) := by
  have hnames : spec.namesIn source .identifier = (spec.children.filter isDeclaredName).map (·.text source) :=
    namesIn_eq source .identifier spec
  rw [← hnames]
  simp only [toValues, valuesFrom, valueAt?, beq_iff_eq]

theorem valuesFrom_append (start : Nat) (names more : List String) :
    spec.valuesFrom source kind comment start (names ++ more) =
      spec.valuesFrom source kind comment start names ++
        spec.valuesFrom source kind comment (start + names.length) more := by
  rw [valuesFrom, List.zipIdx_append, List.filterMap_append, Nat.add_comm]
  rfl

theorem valuesFrom_cons (start : Nat) (name : String) (names : List String) :
    spec.valuesFrom source kind comment start (name :: names) =
      (spec.valueAt? source kind comment name start).toList ++
        spec.valuesFrom source kind comment (start + 1) names := by
  rw [valuesFrom, List.zipIdx_cons, List.filterMap_cons]
  cases hvalue : spec.valueAt? source kind comment name start with
  | none => simp [hvalue, valuesFrom]
  | some value => simp [hvalue, valuesFrom]

theorem map_name_valuesFrom (source : String) (kind : ValueKind) (comment : String) (spec : Node) (start : Nat)
    (names : List String) :
    (spec.valuesFrom source kind comment start names).map (·.name) = names.filter (· != blankName) := by
  induction names generalizing start with
  | nil => rfl
  | cons name names ih =>
    rw [valuesFrom_cons, List.map_append, ih]
    by_cases hblank : name = blankName
    · simp [valueAt?, hblank]
    · simp [valueAt?, hblank]

/-- Blank names can be left out before their texts are read or after. -/
theorem filter_text_declared (source : String) (ns : List Node) :
    ((ns.filter isDeclaredName).map (·.text source)).filter (· != blankName) =
      (ns.filter (isOwnName source)).map (·.text source) := by
  rw [List.filter_map, List.filter_filter]
  congr 2
  funext n
  exact Bool.and_comm _ _

/-! ## Specs -/

theorem map_name_toValues (source : String) (kind : ValueKind) (comment : String) (spec : Node) :
    (spec.toValues source kind comment).map (·.name) =
      (spec.children.filter (isOwnName source)).map (·.text source) := by
  rw [toValues_eq, map_name_valuesFrom, filter_text_declared]

theorem isOf_of_valueAt? {name : Node} {place : Nat} {value : Value}
    (h : spec.valueAt? source kind comment (name.text source) place = some value) :
    value.IsOf source kind comment spec name place := by
  unfold valueAt? at h
  split at h
  · cases h
  · cases h
    refine ⟨rfl, rfl, rfl, rfl, ?_, ?_⟩
    · intro front expr back hlist hitem hplace
      rw [valueSpans_eq, hlist, ← hplace, List.getElem?_map, getElem?_filter_split hitem, Option.map_some]
    · intro hfew
      rw [valueSpans_eq, List.getElem?_eq_none]
      rwa [List.length_map, ← List.countP_eq_length_filter]

/-- A name that is not blank makes the value that has as many values before it as there are such names. -/
theorem getElem?_toValues {before after : List Node} {name : Node} (hsplit : spec.children = before ++ name :: after)
    (hname : name.isOwnName source = true) :
    ∃ value, (spec.toValues source kind comment)[before.countP (isOwnName source)]? = some value ∧
      value.IsOf source kind comment spec name (before.countP isDeclaredName) := by
  obtain ⟨hdeclared, hblank⟩ : name.isDeclaredName = true ∧ name.text source ≠ blankName := by
    simpa [isOwnName] using hname
  obtain ⟨value, hvalue⟩ : ∃ value,
      spec.valueAt? source kind comment (name.text source) (before.countP isDeclaredName) = some value :=
    ⟨_, if_neg hblank⟩
  -- the values of the names before it are as many as these names without the blank ones
  have hlength : (spec.valuesFrom source kind comment 0
      ((before.filter isDeclaredName).map (·.text source))).length = before.countP (isOwnName source) := by
    have hnames := congrArg List.length
      (map_name_valuesFrom source kind comment spec 0 ((before.filter isDeclaredName).map (·.text source)))
    rwa [filter_text_declared, List.length_map, List.length_map, ← List.countP_eq_length_filter] at hnames
  refine ⟨value, ?_, isOf_of_valueAt? hvalue⟩
  rw [toValues_eq, hsplit, List.filter_append, List.filter_cons_of_pos hdeclared, List.map_append, List.map_cons,
    valuesFrom_append, valuesFrom_cons, List.length_map, Nat.zero_add, ← List.countP_eq_length_filter, hvalue,
    ← hlength]
  simp

end Node

/-- A spec makes one value for each name but the blank ones, in their order, and the value of a name takes the
expression at the place of the name among all names, or none if the expressions do not reach that far. The values of a
file are those of the specs in its declarations of constants and variables. -/
theorem values_in_place (source : String) :
    (∀ (spec : Node) (kind : ValueKind) (comment : String),
      (spec.toValues source kind comment).map (·.name) =
        (spec.children.filter (Node.isOwnName source)).map (·.text source) ∧
      ∀ before name after, spec.children = before ++ name :: after → name.isOwnName source = true →
        ∃ value, (spec.toValues source kind comment)[before.countP (Node.isOwnName source)]? = some value ∧
          value.IsOf source kind comment spec name (before.countP Node.isDeclaredName)) ∧
    ∀ location file, File.ofSource location source = .ok file →
      ∃ root, parse source = .ok root ∧ file.values = root.namedChildren.flatMap (Node.valuesOf source) := by
  refine ⟨fun spec kind comment => ⟨Node.map_name_toValues source kind comment spec, ?_⟩, ?_⟩
  · intro before name after hsplit hname
    exact Node.getElem?_toValues hsplit hname
  · intro location file hfile
    obtain ⟨root, hparse, -, hvalues, -, -⟩ := File.reading_of_ofSource hfile
    exact ⟨root, hparse, hvalues⟩

/-- A file with blank names, comments between names and between expressions, and too few or too many expressions. -/
def scatteredSource : String :=
  "package p\n\nvar a, _, b, /* c */ d int = 1, /* x */ 2, f(3)\n\nconst (\n\te, _ = iota, // y\n\t\t4\n\t_, g\n)\n"

example : (File.ofSource (.ofString "/p.go") scatteredSource).toOption.map (fun file =>
    file.values.map fun v => (v.name, v.kind, v.typeText scatteredSource, v.valueText scatteredSource)) =
      some [("a", .var, "int", "1"), ("b", .var, "int", "f(3)"), ("d", .var, "int", ""), ("e", .const, "", "iota"),
        ("g", .const, "", "")] := by decide +kernel

end GoOutline
