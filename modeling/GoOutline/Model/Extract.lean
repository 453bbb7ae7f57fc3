import GoOutline.Model.Imports
import GoOutline.Model.Slots

/-!
# Extraction of declarations: `DeclarationExtractor`

The declarations of a file are found by a walk over the top level of its tree with a list of pending
work. A group puts its specs in front of the work, a type spec its type, a parenthesized type what it
holds. The walk remembers the comment of the last group, which a spec without a comment of its own
takes over, and whether the last group of values held constants or variables.
-/
namespace GoOutline

/-- All that a file declares. -/
structure Declarations where
  comment : String
  imports : Imports
  values : List Value
  interfaces : List Interface
  structs : List Struct
deriving DecidableEq, Repr

/-- No declarations. -/
def Declarations.none : Declarations := ⟨"", [], [], [], []⟩

namespace Node

/-! ## Single declarations -/

/-- A struct from its name and type nodes (`extract_struct`). -/
def toStruct (source : String) (name type : Node) (comment : String) : Struct :=
  { name := name.text source, comment, definition := type.span,
    fields := match type.namedChildren.find? fun n => n.kind == .fieldDeclarationList with
      | some list => list.fieldArgs source
      | none => [] }

/-- A method from its node; none if it has no name (`extract_method`). -/
def toMethod? (source : String) (n : Node) : Option Method :=
  (n.childIn .name).map fun name =>
    { name := name.text source, comment := n.commentText source,
      inputs := match n.childIn .parameters with
        | some list => list.parameterArgs source argStem
        | none => [],
      outputs := match n.childIn .result with
        | some result => result.resultArgs source
        | none => [] }

/-- An interface from its name and type nodes (`extract_interface`). Only its own methods count. -/
def toInterface (source : String) (name type : Node) (comment : String) : Interface :=
  { name := name.text source, comment, definition := type.span,
    methods := (type.namedChildren.filter fun n => n.kind == .methodElem).filterMap
      (toMethod? source) }

/-- The text between a pair of quotes. -/
def unquoted? (quote : Char) (cs : List Char) : Option (List Char) :=
  match cs with
  | c :: rest =>
    if c == quote && rest.getLast? == some quote then some rest.dropLast else none
  | [] => none

/-- The text of a string literal without its quotes. -/
def unquote (raw : String) : String :=
  let cs := raw.toList
  String.ofList (((unquoted? '\x22' cs).or (unquoted? '\x60' cs)).getD cs)

/-- The path and bound name of an import spec; none if it has no path (`extract_import_spec`). -/
def toImport? (source : String) (n : Node) : Option (String × String) :=
  (n.childIn .path).map fun path =>
    (unquote (path.text source), ((n.childIn .name).map (·.text source)).getD "")

/-- The spans of the values of a spec. -/
def valueSpans (n : Node) : List Span :=
  match n.childIn .value with
  | some list => (list.namedChildren.filter fun e => !e.isComment).map span
  | none => []

/-- One value for each name of a spec but the blank ones (`extract_value_spec`). A name takes the initial value
at its own place among the names. -/
def toValues (source : String) (kind : ValueKind) (comment : String) (n : Node) : List Value :=
  let type := (n.childIn .type).map (·.classify source)
  (n.namesIn source .identifier).zipIdx.filterMap fun (name, index) =>
    if name == blankName then none
    else some { name, kind, type, initializer := n.valueSpans[index]?, comment }

/-! ## Groups -/

/-- The specs of a declaration, those of a spec list in its place (`group_specs`). -/
def groupSpecs (group : Node) : List Node :=
  group.namedChildren.flatMap fun child =>
    if child.kind.isSpecList then child.namedChildren.filter fun n => !n.isComment
    else if child.isComment then [] else [child]

/-- A spec's own comment, or that of its group if it has none (`spec_comment`). -/
def specComment (source groupComment : String) (spec : Node) : String :=
  let own := spec.commentText source
  if own.isEmpty then groupComment else own

/-! ## Sizes -/

theorem size_childIn_lt {f : Field} {n child : Node} (h : n.childIn f = some child) :
    child.size < n.size := by
  have := size_le_sizeAll (List.mem_of_find?_eq_some h)
  rw [size_eq n]; omega

theorem size_namedChild_lt {n child : Node} (h : child ∈ n.namedChildren) :
    child.size < n.size := by
  have := size_le_sizeAll (List.mem_filter.1 h).1
  rw [size_eq n]; omega

theorem sizeAll_groupSpecs_lt (group : Node) : sizeAll group.groupSpecs < group.size := by
  have key : ∀ ns : List Node, sizeAll (ns.flatMap fun child =>
      if child.kind.isSpecList then child.namedChildren.filter fun n => !n.isComment
      else if child.isComment then [] else [child]) ≤ sizeAll ns := by
    intro ns
    induction ns with
    | nil => simp [sizeAll]
    | cons n ns ih =>
      rw [List.flatMap_cons, sizeAll_append]
      have : sizeAll (if n.kind.isSpecList then n.namedChildren.filter fun n => !n.isComment
          else if n.isComment then [] else [n]) ≤ n.size := by
        split
        · have h₁ := sizeAll_filter_le (fun n => !n.isComment) n.namedChildren
          have h₂ := sizeAll_filter_le isNamed n.children
          rw [size_eq n]
          simp only [namedChildren] at h₁ ⊢
          omega
        · split <;> simp [sizeAll]
      simp only [sizeAll]
      omega
  have h₁ := key group.namedChildren
  have h₂ := sizeAll_filter_le isNamed group.children
  rw [size_eq group]
  simp only [groupSpecs, namedChildren] at h₁ ⊢
  omega

end Node

/-! ## The walk -/

/-- A piece of work: a node to look at, or the type of a spec. -/
inductive Work where
  | node (n : Node)
  | type (spec name written : Node)

/-- How much of the tree a piece of work can still reach. -/
def Work.weight : Work → Nat
  | .node n => n.size
  | .type _ _ written => written.size

/-- Weight of a list of work. -/
def workWeight (work : List Work) : Nat :=
  work.foldr (fun x total => x.weight + total) 0

theorem workWeight_cons (x : Work) (rest : List Work) :
    workWeight (x :: rest) = x.weight + workWeight rest := rfl

/-- Finished work is lighter. -/
theorem workWeight_lt_cons (x : Work) (rest : List Work) :
    workWeight rest < workWeight (x :: rest) := by
  have : 0 < x.weight := by cases x <;> exact Node.size_pos _
  rw [workWeight_cons]; omega

/-- Work exchanged for lighter work makes the list lighter. -/
theorem workWeight_cons_lt {x y : Work} (h : x.weight < y.weight) (rest : List Work) :
    workWeight (x :: rest) < workWeight (y :: rest) := by
  rw [workWeight_cons, workWeight_cons]; omega

/-- A group exchanged for its specs makes the list lighter. -/
theorem workWeight_groupSpecs_lt (group : Node) (rest : List Work) :
    workWeight (group.groupSpecs.map .node ++ rest) < workWeight (.node group :: rest) := by
  have nodes : ∀ ns : List Node, workWeight (ns.map Work.node ++ rest) =
      Node.sizeAll ns + workWeight rest := by
    intro ns
    induction ns with
    | nil => simp [Node.sizeAll]
    | cons n ns ih =>
      rw [List.map_cons, List.cons_append, workWeight_cons, ih, Work.weight, Node.sizeAll]
      omega
  have := group.sizeAll_groupSpecs_lt
  rw [nodes, workWeight_cons, Work.weight]
  omega

/-- What the walk knows: what it found, the comment of the last group, and what its values are. -/
structure Walk where
  found : Declarations
  groupComment : String
  valueKind : ValueKind

namespace Walk

/-- A walk that begins. -/
def start : Walk := ⟨.none, "", .const⟩

/-- The walk after entering a group. -/
def enterGroup (source : String) (group : Node) (w : Walk) : Walk :=
  { w with
    groupComment := group.commentText source
    valueKind := match group.kind with
      | .varDeclaration => .var
      | .constDeclaration => .const
      | _ => w.valueKind }

/-- The walk after a package clause, whose comment is that of the file. -/
def addPackage (source : String) (n : Node) (w : Walk) : Walk :=
  { w with found := { w.found with comment := n.commentText source } }

/-- The walk after a spec of values. -/
def addValues (source : String) (n : Node) (w : Walk) : Walk :=
  let comment := n.specComment source w.groupComment
  { w with found :=
    { w.found with values := w.found.values ++ n.toValues source w.valueKind comment } }

/-- The walk after an import spec. -/
def addImport (source : String) (n : Node) (w : Walk) : Walk :=
  match n.toImport? source with
  | some (path, name) =>
    { w with found := { w.found with imports := w.found.imports.insert path name } }
  | none => w

/-- The walk after a struct. -/
def addStruct (source : String) (spec name type : Node) (w : Walk) : Walk :=
  let comment := spec.specComment source w.groupComment
  { w with found :=
    { w.found with structs := w.found.structs ++ [name.toStruct source type comment] } }

/-- The walk after an interface. -/
def addInterface (source : String) (spec name type : Node) (w : Walk) : Walk :=
  let comment := spec.specComment source w.groupComment
  { w with found :=
    { w.found with interfaces := w.found.interfaces ++ [name.toInterface source type comment] } }

/-- Does the pending work, first things first. -/
def run (source : String) (w : Walk) : List Work → Declarations
  | [] => w.found
  | .node n :: rest =>
    match n.kind with
    | .packageClause => run source (w.addPackage source n) rest
    | .typeDeclaration | .constDeclaration | .varDeclaration | .importDeclaration =>
      run source (w.enterGroup source n) (n.groupSpecs.map .node ++ rest)
    | .typeSpec | .typeAlias =>
      match _hn : n.childIn .name, _ht : n.childIn .type with
      | some name, some type => run source w (.type n name type :: rest)
      | _, _ => run source w rest
    | .constSpec | .varSpec => run source (w.addValues source n) rest
    | .importSpec => run source (w.addImport source n) rest
    | _ => run source w rest
  | .type spec name written :: rest =>
    match written.kind with
    | .structType => run source (w.addStruct source spec name written) rest
    | .interfaceType => run source (w.addInterface source spec name written) rest
    | .parenthesizedType =>
      match _h : written.namedChildren.head? with
      | some inner => run source w (.type spec name inner :: rest)
      | none => run source w rest
    | _ => run source w rest
termination_by work => workWeight work
decreasing_by
  · exact workWeight_lt_cons _ _
  · exact workWeight_groupSpecs_lt n rest
  · exact workWeight_cons_lt (x := .type n name type) (y := .node n) (Node.size_childIn_lt _ht) rest
  · exact workWeight_lt_cons _ _
  · exact workWeight_lt_cons _ _
  · exact workWeight_lt_cons _ _
  · exact workWeight_lt_cons _ _
  · exact workWeight_lt_cons _ _
  · exact workWeight_lt_cons _ _
  · exact workWeight_cons_lt (x := .type spec name inner) (y := .type spec name written)
      (Node.size_namedChild_lt (List.mem_of_head? _h)) rest
  · exact workWeight_lt_cons _ _
  · exact workWeight_lt_cons _ _

end Walk

/-- The declarations of a tree (`extract`). -/
def extract (source : String) (root : Node) : Declarations :=
  Walk.start.run source (root.namedChildren.map .node)

/-- The name in the first package clause of a tree (`package_name`). -/
def packageName? (source : String) (root : Node) : Option String :=
  (root.namedChildren.find? fun n => n.kind == .packageClause).bind fun clause =>
    (clause.namedChildren.find? fun n => n.kind == .packageIdentifier).map (·.text source)

end GoOutline
