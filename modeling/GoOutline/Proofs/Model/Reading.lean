import GoOutline.Grammar.Parse
import GoOutline.Model.Extract

/-!
# Declarations read in source order: `DeclarationExtractor::extract`

The walk of `extract` keeps a list of pending work and two things it remembers. On a tree whose top level is as
the grammar has it, none of that shows (`extract_eq_reading`): the walk yields what a reading from left to right
yields, declaration by declaration and spec by spec, in which a spec without a comment takes that of its own
declaration and a value is what the keyword of its own declaration says. Parentheses around a type are taken off
one after the other (`Node.unwrapped`).
-/
namespace GoOutline

/-! ## The top level -/

/-- The kinds of the specs in a declaration of the kind; none if it is no declaration of specs. -/
def Kind.specs : Kind → List Kind
  | .typeDeclaration => [.typeSpec, .typeAlias]
  | .constDeclaration => [.constSpec]
  | .varDeclaration => [.varSpec]
  | .importDeclaration => [.importSpec]
  | _ => []

/-- Specs stand in declarations only. -/
def Kind.isSpec : Kind → Bool
  | .typeSpec | .typeAlias | .constSpec | .varSpec | .importSpec => true
  | _ => false

namespace Node

/-- The node can stand at the top level of a file: it is no spec, and a declaration holds specs of its own sort
only. -/
def isTopLevel (n : Node) : Bool :=
  !n.kind.isSpec && (n.kind.specs.isEmpty || n.groupSpecs.all fun spec => n.kind.specs.contains spec.kind)

/-! ## The reading -/

mutual

/-- The type inside all parentheses around it: a parenthesized type stands for the first of its children that is
not a bare token. -/
def unwrapped : Node → Option Node
  | .mk .parenthesizedType _ _ _ _ children => unwrappedFirst children
  | n => some n

/-- The first of several nodes that is not a bare token, without its parentheses. -/
def unwrappedFirst : List Node → Option Node
  | [] => none
  | n :: ns => if n.isNamed then n.unwrapped else unwrappedFirst ns

end

/-- The name of a type spec and its type without parentheses. -/
def declared? (spec : Node) : Option (Node × Node) :=
  match spec.childIn .name, spec.childIn .type with
  | some name, some type => type.unwrapped.map fun inner => (name, inner)
  | _, _ => none

/-- What a type spec with a type of one kind makes; the comment is for a spec that has none. -/
def record? {α : Type} (source : String) (kind : Kind) (make : Node → Node → String → α) (comment : String)
    (spec : Node) : Option α :=
  match spec.declared? with
  | some (name, type) => if type.kind = kind then some (make name type (spec.specComment source comment)) else none
  | none => none

/-- The structs of a declaration. -/
def structsOf (source : String) (n : Node) : List Struct :=
  if n.kind = .typeDeclaration then
    n.groupSpecs.filterMap (record? source .structType (toStruct source) (n.commentText source))
  else []

/-- The interfaces of a declaration. -/
def interfacesOf (source : String) (n : Node) : List Interface :=
  if n.kind = .typeDeclaration then
    n.groupSpecs.filterMap (record? source .interfaceType (toInterface source) (n.commentText source))
  else []

/-- The values of specs; the comment is for those that have none. -/
def specValues (source : String) (kind : ValueKind) (comment : String) (specs : List Node) : List Value :=
  specs.flatMap fun spec => spec.toValues source kind (spec.specComment source comment)

/-- The values of a declaration. -/
def valuesOf (source : String) (n : Node) : List Value :=
  if n.kind = .constDeclaration then specValues source .const (n.commentText source) n.groupSpecs
  else if n.kind = .varDeclaration then specValues source .var (n.commentText source) n.groupSpecs
  else []

/-- The imports of a declaration. -/
def importsOf (source : String) (n : Node) : List (String × String) :=
  if n.kind = .importDeclaration then n.groupSpecs.filterMap (toImport? source) else []

/-- The comment that a package clause gives to its file. -/
def fileComment? (source : String) (n : Node) : Option String :=
  if n.kind = .packageClause then some (n.commentText source) else none

end Node

/-- The table with more imports, one after the other. -/
def Imports.insertAll (table : Imports) (imports : List (String × String)) : Imports :=
  imports.foldl (fun t (path, name) => t.insert path name) table

/-- What is found after further declarations are read: of several package clauses the last one counts. -/
def Declarations.andThen (source : String) (found : Declarations) (declarations : List Node) : Declarations where
  comment := (declarations.filterMap (Node.fileComment? source)).getLastD found.comment
  imports := found.imports.insertAll (declarations.flatMap (Node.importsOf source))
  values := found.values ++ declarations.flatMap (Node.valuesOf source)
  interfaces := found.interfaces ++ declarations.flatMap (Node.interfacesOf source)
  structs := found.structs ++ declarations.flatMap (Node.structsOf source)

/-- The declarations of a tree, read from left to right. -/
def Node.reading (source : String) (root : Node) : Declarations :=
  Declarations.none.andThen source root.namedChildren

namespace Declarations

variable {source : String}

theorem andThen_nil (found : Declarations) : found.andThen source [] = found := by
  simp [andThen, Imports.insertAll]

theorem andThen_single (found : Declarations) (n : Node) :
    found.andThen source [n] =
      { comment := if n.kind = .packageClause then n.commentText source else found.comment
        imports := if n.kind = .importDeclaration
          then found.imports.insertAll (n.groupSpecs.filterMap (Node.toImport? source)) else found.imports
        values := found.values ++ n.valuesOf source
        interfaces := found.interfaces ++ n.interfacesOf source
        structs := found.structs ++ n.structsOf source } := by
  by_cases hpackage : n.kind = .packageClause
  · simp [andThen, Node.fileComment?, Node.importsOf, Imports.insertAll, hpackage]
  · by_cases himport : n.kind = .importDeclaration
    · simp [andThen, Node.fileComment?, Node.importsOf, himport]
    · simp [andThen, Node.fileComment?, Node.importsOf, Imports.insertAll, hpackage, himport]

theorem andThen_append (found : Declarations) (ns ms : List Node) :
    found.andThen source (ns ++ ms) = (found.andThen source ns).andThen source ms := by
  simp [andThen, Imports.insertAll]

end Declarations

/-! ## Parentheses -/

namespace Node

/-- Induction on trees: the children of a node come before it. -/
@[elab_as_elim]
theorem childInduction {motive : Node → Prop} (node : ∀ n : Node, (∀ m ∈ n.children, motive m) → motive n) (n : Node) :
    motive n := by
  induction hsize : n.size using Nat.strongRecOn generalizing n with
  | ind size ih =>
    refine node n fun m hm => ih m.size ?_ m rfl
    have hle := size_le_sizeAll hm
    rw [← hsize, size_eq n]
    omega

theorem unwrappedFirst_eq (ns : List Node) :
    unwrappedFirst ns = (ns.filter isNamed).head?.bind unwrapped := by
  induction ns with
  | nil => rfl
  | cons n ns ih =>
    unfold unwrappedFirst
    by_cases h : n.isNamed = true
    · simp [h]
    · simp [h, ih]

theorem unwrapped_of_parenthesized {n : Node} (h : n.kind = .parenthesizedType) :
    n.unwrapped = n.namedChildren.head?.bind unwrapped := by
  obtain ⟨kind, field, start, stop, comments, children⟩ := n
  cases h
  exact unwrappedFirst_eq children

theorem unwrapped_of_ne {n : Node} (h : n.kind ≠ .parenthesizedType) : n.unwrapped = some n := by
  obtain ⟨kind, field, start, stop, comments, children⟩ := n
  unfold unwrapped
  split
  · rename_i heq
    cases heq
    exact absurd rfl h
  · rfl

end Node

/-! ## Steps of the walk -/

namespace Walk

variable {source : String}

/-- The walk after a declared type without its parentheses. -/
def addType (source : String) (spec name type : Node) (w : Walk) : Walk :=
  match type.kind with
  | .structType => w.addStruct source spec name type
  | .interfaceType => w.addInterface source spec name type
  | _ => w

/-- The walk after a type spec. -/
def addTypeSpec (source : String) (w : Walk) (spec : Node) : Walk :=
  match spec.declared? with
  | some (name, type) => w.addType source spec name type
  | none => w

theorem run_type (w : Walk) (spec name written : Node) (rest : List Work) :
    w.run source (.type spec name written :: rest) =
      match written.unwrapped with
      | some type => (w.addType source spec name type).run source rest
      | none => w.run source rest := by
  -- The parentheses come off one by one.
  induction written using Node.childInduction with
  | node written ih =>
    rw [run]
    split
    · rename_i hkind
      rw [Node.unwrapped_of_ne (by simp [hkind])]
      simp [addType, hkind]
    · rename_i hkind
      rw [Node.unwrapped_of_ne (by simp [hkind])]
      simp [addType, hkind]
    · rename_i hkind
      rw [Node.unwrapped_of_parenthesized hkind]
      split
      · rename_i inner hinner
        rw [ih inner (List.mem_filter.1 (List.mem_of_head? hinner)).1, hinner]
        rfl
      · rename_i hnone
        rw [hnone]
        rfl
    · rename_i hstruct hinterface hparens
      rw [Node.unwrapped_of_ne hparens]
      simp [addType]

theorem run_typeSpec {spec : Node} (h : spec.kind = .typeSpec ∨ spec.kind = .typeAlias) (w : Walk)
    (rest : List Work) : w.run source (.node spec :: rest) = (w.addTypeSpec source spec).run source rest := by
  have hrun : w.run source (.node spec :: rest) =
      match spec.childIn .name, spec.childIn .type with
      | some name, some type => w.run source (.type spec name type :: rest)
      | _, _ => w.run source rest := by
    rcases h with h | h
    all_goals
      rw [run, h]
      cases spec.childIn .name <;> cases spec.childIn .type <;> rfl
  rw [hrun, addTypeSpec, Node.declared?]
  split
  · rename_i name type hname htype
    rw [run_type]
    cases type.unwrapped <;> rfl
  · rfl

theorem run_valueSpec {spec : Node} (h : spec.kind = .constSpec ∨ spec.kind = .varSpec) (w : Walk)
    (rest : List Work) : w.run source (.node spec :: rest) = (w.addValues source spec).run source rest := by
  rcases h with h | h <;> rw [run, h]

theorem run_importSpec {spec : Node} (h : spec.kind = .importSpec) (w : Walk) (rest : List Work) :
    w.run source (.node spec :: rest) = (w.addImport source spec).run source rest := by
  rw [run, h]

/-- A step for each spec is a step for all of them. -/
theorem run_specs {step : Walk → Node → Walk} {specs : List Node}
    (h : ∀ spec ∈ specs, ∀ (w : Walk) (rest : List Work),
      w.run source (.node spec :: rest) = (step w spec).run source rest) (w : Walk) (rest : List Work) :
    w.run source (specs.map .node ++ rest) = (specs.foldl step w).run source rest := by
  induction specs generalizing w with
  | nil => rfl
  | cons spec specs ih =>
    rw [List.map_cons, List.cons_append, h spec (by simp), ih fun s hs => h s (by simp [hs])]
    rfl

/-! ## What the specs of a declaration add -/

theorem addTypeSpec_eq (w : Walk) (spec : Node) :
    w.addTypeSpec source spec = { w with found := { w.found with
      interfaces := w.found.interfaces ++
        [spec].filterMap (Node.record? source .interfaceType (Node.toInterface source) w.groupComment)
      structs := w.found.structs ++
        [spec].filterMap (Node.record? source .structType (Node.toStruct source) w.groupComment) } } := by
  cases hdeclared : spec.declared? with
  | none => simp [addTypeSpec, Node.record?, hdeclared]
  | some declared =>
    obtain ⟨name, type⟩ := declared
    by_cases hstruct : type.kind = .structType
    · simp [addTypeSpec, Node.record?, hdeclared, addType, addStruct, hstruct]
    · by_cases hinterface : type.kind = .interfaceType
      · simp [addTypeSpec, Node.record?, hdeclared, addType, addInterface, hinterface]
      · simp [addTypeSpec, Node.record?, hdeclared, addType, hstruct, hinterface]

theorem foldl_addTypeSpec (w : Walk) (specs : List Node) :
    specs.foldl (addTypeSpec source) w = { w with found := { w.found with
      interfaces := w.found.interfaces ++
        specs.filterMap (Node.record? source .interfaceType (Node.toInterface source) w.groupComment)
      structs := w.found.structs ++
        specs.filterMap (Node.record? source .structType (Node.toStruct source) w.groupComment) } } := by
  induction specs generalizing w with
  | nil => simp
  | cons spec specs ih =>
    rw [List.foldl_cons, ih, addTypeSpec_eq]
    simp only [List.append_assoc, ← List.filterMap_append, List.singleton_append]

theorem foldl_addValues (w : Walk) (specs : List Node) :
    specs.foldl (fun w spec => w.addValues source spec) w = { w with found := { w.found with
      values := w.found.values ++ Node.specValues source w.valueKind w.groupComment specs } } := by
  induction specs generalizing w with
  | nil => simp [Node.specValues]
  | cons spec specs ih =>
    rw [List.foldl_cons, ih]
    simp [addValues, Node.specValues]

theorem foldl_addImport (w : Walk) (specs : List Node) :
    specs.foldl (fun w spec => w.addImport source spec) w = { w with found := { w.found with
      imports := w.found.imports.insertAll (specs.filterMap (Node.toImport? source)) } } := by
  induction specs generalizing w with
  | nil => rfl
  | cons spec specs ih =>
    rw [List.foldl_cons, ih, addImport]
    cases himport : spec.toImport? source with
    | none => simp [himport]
    | some entry => simp [himport, Imports.insertAll]

/-! ## Whole declarations -/

/-- What stands at the top level adds to the findings just what the reading takes from it. -/
theorem run_topLevel {n : Node} (h : n.isTopLevel = true) (w : Walk) (rest : List Work) :
    ∃ w' : Walk, w'.found = w.found.andThen source [n] ∧
      w.run source (.node n :: rest) = w'.run source rest := by
  obtain ⟨hspec, hspecs⟩ : n.kind.isSpec = false ∧
      (n.kind.specs = [] ∨ ∀ spec ∈ n.groupSpecs, spec.kind ∈ n.kind.specs) := by
    simpa [Node.isTopLevel] using h
  rw [run]
  split
  case h_1 hkind =>
    refine ⟨_, ?_, rfl⟩
    simp [Declarations.andThen_single, addPackage, hkind, Node.valuesOf, Node.interfacesOf, Node.structsOf]
  case h_2 hkind =>
    have hspecs : ∀ spec ∈ n.groupSpecs, spec.kind = .typeSpec ∨ spec.kind = .typeAlias := by
      simpa [hkind, Kind.specs] using hspecs
    refine ⟨_, ?_, run_specs (fun spec hspec => run_typeSpec (hspecs spec hspec)) _ rest⟩
    rw [foldl_addTypeSpec]
    simp [Declarations.andThen_single, enterGroup, hkind, Node.valuesOf, Node.interfacesOf, Node.structsOf]
  case h_3 hkind =>
    have hspecs : ∀ spec ∈ n.groupSpecs, spec.kind = .constSpec := by
      simpa [hkind, Kind.specs] using hspecs
    refine ⟨_, ?_, run_specs (fun spec hspec => run_valueSpec (.inl (hspecs spec hspec))) _ rest⟩
    rw [foldl_addValues]
    simp [Declarations.andThen_single, enterGroup, hkind, Node.valuesOf, Node.interfacesOf, Node.structsOf]
  case h_4 hkind =>
    have hspecs : ∀ spec ∈ n.groupSpecs, spec.kind = .varSpec := by
      simpa [hkind, Kind.specs] using hspecs
    refine ⟨_, ?_, run_specs (fun spec hspec => run_valueSpec (.inr (hspecs spec hspec))) _ rest⟩
    rw [foldl_addValues]
    simp [Declarations.andThen_single, enterGroup, hkind, Node.valuesOf, Node.interfacesOf, Node.structsOf]
  case h_5 hkind =>
    have hspecs : ∀ spec ∈ n.groupSpecs, spec.kind = .importSpec := by
      simpa [hkind, Kind.specs] using hspecs
    refine ⟨_, ?_, run_specs (fun spec hspec => run_importSpec (hspecs spec hspec)) _ rest⟩
    rw [foldl_addImport]
    simp [Declarations.andThen_single, enterGroup, hkind, Node.valuesOf, Node.interfacesOf, Node.structsOf]
  -- Specs do not stand at the top level, and everything else is passed over.
  case h_11 hpackage htype hconst hvar himport _ _ _ _ _ =>
    refine ⟨w, ?_, rfl⟩
    simp [Declarations.andThen_single, Node.valuesOf, Node.interfacesOf, Node.structsOf, if_neg hpackage,
      if_neg htype, if_neg hconst, if_neg hvar, if_neg himport]
  all_goals
    rename_i hkind
    rw [hkind] at hspec
    cases hspec

theorem run_topLevels {ns : List Node} (h : ∀ n ∈ ns, n.isTopLevel = true) (w : Walk) :
    w.run source (ns.map .node) = w.found.andThen source ns := by
  induction ns generalizing w with
  | nil => simp [run, Declarations.andThen_nil]
  | cons n ns ih =>
    obtain ⟨w', hfound, hrun⟩ := run_topLevel (h n (by simp)) w (ns.map .node)
    rw [List.map_cons, hrun, ih (fun m hm => h m (by simp [hm])), hfound, ← Declarations.andThen_append]
    rfl

end Walk

/-- A fact that can be checked on the outcome of a parse is one of a tree. -/
theorem exists_of_any {ε α : Type} {x : Except ε α} {p : α → Bool} (h : x.toOption.any p = true) :
    ∃ a, x = .ok a ∧ p a = true := by
  cases x with
  | error e => cases h
  | ok a => exact ⟨a, rfl, h⟩

/-- A tree whose top level is as the grammar has it is extracted as it is read from left to right. -/
theorem extract_eq_reading {root : Node} (h : ∀ n ∈ root.namedChildren, n.isTopLevel = true) (source : String) :
    extract source root = root.reading source :=
  Walk.run_topLevels h Walk.start

/-- A file with single and grouped declarations, types in parentheses and comments of specs and of groups. -/
def groupedSource : String :=
  "// f\npackage p\n\n// g\ntype (\n\t// a\n\tA ((struct\x7b x int \x7d))\n\tB = interface\x7b M() \x7d\n)\n\n" ++
    "// k\nconst c, d = 1, 2\n\nvar (\n\tv (A)\n\tw int // w\n)\n"

theorem extract_eq_reading_groupedSource : ∃ root, parse groupedSource = .ok root ∧
    extract groupedSource root = root.reading groupedSource ∧
    (root.reading groupedSource).structs.map (fun s => (s.name, s.comment)) = [("A", "a")] ∧
    (root.reading groupedSource).interfaces.map (fun i => (i.name, i.comment)) = [("B", "g")] ∧
    (root.reading groupedSource).values.map (fun v => (v.name, v.kind, v.comment)) =
      [("c", .const, "k"), ("d", .const, "k"), ("v", .var, ""), ("w", .var, "w")] := by
  obtain ⟨root, hparse, hfacts⟩ := exists_of_any (x := parse groupedSource)
    (p := fun root => root.namedChildren.all Node.isTopLevel &&
      ((root.reading groupedSource).structs.map (fun s => (s.name, s.comment)) == [("A", "a")] &&
      ((root.reading groupedSource).interfaces.map (fun i => (i.name, i.comment)) == [("B", "g")] &&
      (root.reading groupedSource).values.map (fun v => (v.name, v.kind, v.comment)) ==
        [("c", .const, "k"), ("d", .const, "k"), ("v", .var, ""), ("w", .var, "w")])))
    (by decide +kernel)
  simp only [Bool.and_eq_true, List.all_eq_true, beq_iff_eq] at hfacts
  exact ⟨root, hparse, extract_eq_reading hfacts.1 groupedSource, hfacts.2⟩

end GoOutline
