import GoOutline.Grammar.Parse
import GoOutline.Proofs.Grammar.Layout
import GoOutline.Proofs.Model.Reading

/-!
# The shapes of parsed trees

What the grammar allows the parts of a node to be (`Grammar.MayHold`), as far as declarations and types are
concerned, follows rule by rule from the phrases (`Grammar.checked_phrase`). So what a rule reads is laid out on the
source, node by node, each node with parts that it may hold (`Grammar.laid`).
-/
namespace GoOutline

open Phrase

/-! ## Labels of one sort -/

namespace Phrase

variable {ρ : Type} {yield : ρ → List Label → Prop} {P : Label → Prop} {p q : Phrase ρ} {ps : List (Phrase ρ)}

/-- The phrase yields labels of one sort only. -/
def OnlyYields (yield : ρ → List Label → Prop) (P : Label → Prop) (p : Phrase ρ) : Prop :=
  ∀ labels, Yields yield p labels → ∀ label ∈ labels, P label

theorem OnlyYields.nil : OnlyYields yield P (.sequence []) := by
  rintro _ rfl
  simp

theorem OnlyYields.cons (hp : OnlyYields yield P p) (hps : OnlyYields yield P (.sequence ps)) :
    OnlyYields yield P (.sequence (p :: ps)) := by
  rintro _ ⟨first, rest, hfirst, hrest, rfl⟩
  exact List.forall_mem_append.2 ⟨hp _ hfirst, hps _ hrest⟩

theorem OnlyYields.never : OnlyYields yield P (.choice []) :=
  fun _ hnone => hnone.elim

theorem OnlyYields.either (hp : OnlyYields yield P p) (hps : OnlyYields yield P (.choice ps)) :
    OnlyYields yield P (.choice (p :: ps)) := by
  rintro labels (h | h)
  · exact hp _ h
  · exact hps _ h

theorem OnlyYields.heavier (hp : OnlyYields yield P p) (hq : OnlyYields yield P q) :
    OnlyYields yield P (.heavier p q) := by
  rintro labels (h | h)
  · exact hp _ h
  · exact hq _ h

theorem OnlyYields.many (h : OnlyYields yield P p) : OnlyYields yield P (.many p) := by
  rintro _ ⟨parts, rfl, hparts⟩ label hlabel
  obtain ⟨part, hpart, hmem⟩ := List.mem_flatten.1 hlabel
  exact h _ (hparts part hpart) label hmem

theorem OnlyYields.node {kind : Kind} (h : P (kind, none)) : OnlyYields yield P (.node kind p) := by
  rintro _ ⟨inside, -, rfl⟩ label hlabel
  cases inside with
  | nil => cases hlabel
  | cons _ _ =>
    obtain rfl := List.mem_singleton.1 hlabel
    exact h

theorem OnlyYields.ahead : OnlyYields yield P (.ahead p) := by
  rintro _ rfl
  simp

theorem OnlyYields.unless : OnlyYields yield P (.unless p) := by
  rintro _ rfl
  simp

theorem OnlyYields.rule {r : ρ} (h : ∀ labels, yield r labels → ∀ label ∈ labels, P label) :
    OnlyYields yield P (.rule r) := h

theorem OnlyYields.growOnce {extensions : List (Extension ρ)} (h : ∀ kind ∈ endingKinds extensions, P (kind, none)) :
    OnlyYields yield P (.grow .once p extensions) := by
  rintro _ (⟨hnever, -⟩ | ⟨start, -, kind, hkind, rfl | ⟨-, rfl⟩⟩)
  · exact absurd rfl hnever
  · intro label hlabel
    obtain rfl := List.mem_singleton.1 hlabel
    exact h kind hkind
  · simp

theorem OnlyYields.sign {text : String} {longer : List String} (h : P (.token text, none)) :
    OnlyYields yield P (.token (.sign text longer)) := by
  rintro _ rfl
  simpa using h

theorem OnlyYields.keyword {text : String} (h : P (.token text, none)) :
    OnlyYields yield P (.token (.keyword text)) := by
  rintro _ rfl
  simpa using h

theorem OnlyYields.terminator (h : ∀ text, P (.token text, none)) : OnlyYields yield P (.token .terminator) := by
  rintro _ (rfl | ⟨text, rfl⟩)
  · simp
  · simpa using h text

/-- The phrase always yields a label of some sort. -/
def SomeYields (yield : ρ → List Label → Prop) (P : Label → Prop) (p : Phrase ρ) : Prop :=
  ∀ labels, Yields yield p labels → ∃ label ∈ labels, P label

theorem SomeYields.first (h : SomeYields yield P p) (ps : List (Phrase ρ)) :
    SomeYields yield P (.sequence (p :: ps)) := by
  rintro _ ⟨first, rest, hfirst, -, rfl⟩
  obtain ⟨label, hlabel, hP⟩ := h first hfirst
  exact ⟨label, List.mem_append_left rest hlabel, hP⟩

theorem SomeYields.later (p : Phrase ρ) (h : SomeYields yield P (.sequence ps)) :
    SomeYields yield P (.sequence (p :: ps)) := by
  rintro _ ⟨first, rest, -, hrest, rfl⟩
  obtain ⟨label, hlabel, hP⟩ := h rest hrest
  exact ⟨label, List.mem_append_right first hlabel, hP⟩

theorem SomeYields.never : SomeYields yield P (.choice []) :=
  fun _ hnone => hnone.elim

theorem SomeYields.either (hp : SomeYields yield P p) (hps : SomeYields yield P (.choice ps)) :
    SomeYields yield P (.choice (p :: ps)) := by
  rintro labels (h | h)
  · exact hp _ h
  · exact hps _ h

theorem SomeYields.sign {text : String} {longer : List String} (h : P (.token text, none)) :
    SomeYields yield P (.token (.sign text longer)) := by
  rintro _ rfl
  exact ⟨_, List.mem_singleton_self _, h⟩

theorem SomeYields.keyword {text : String} (h : P (.token text, none)) :
    SomeYields yield P (.token (.keyword text)) := by
  rintro _ rfl
  exact ⟨_, List.mem_singleton_self _, h⟩

end Phrase

/-! ## Types and their marks -/

namespace Kind

/-- The kind is that of types. -/
def isType : Kind → Bool
  | .typeIdentifier | .qualifiedType | .genericType | .pointerType | .sliceType | .arrayType
  | .implicitLengthArrayType | .mapType | .channelType | .functionType | .structType | .interfaceType
  | .parenthesizedType | .negatedType => true
  | _ => false

theorem isNamed_of_isType {kind : Kind} (h : kind.isType = true) : kind.isNamed = true := by
  cases kind with
  | token text => cases h
  | _ => rfl

end Kind

/-- Signs and words that types have in them, other than mere names. -/
def typeMarks : List String := ["*", "[", "(", "~", ".", "map", "chan", "func", "struct", "interface"]

/-- The kind is that of a mark, or of type arguments, which have one. -/
def Kind.isMark : Kind → Bool
  | .token text => typeMarks.contains text
  | .typeArguments => true
  | _ => false

namespace Grammar

/-! ## What nodes hold and rules yield -/

/-- The label is of one of the kinds, or it is that of a bare token. -/
def OfKinds (kinds : List Kind) (label : Label) : Prop := label.1.isNamed = true → label.1 ∈ kinds

/-- If the label has the role then it is of one sort. -/
def InRole (f : Field) (P : Kind → Prop) (label : Label) : Prop := label.2 = some f → P label.1

/-- A label in the role is that of a type. -/
abbrev TypedIn (f : Field) : Label → Prop := InRole f fun kind => kind.isType = true

/-- The label of a result is that of parameters or of a type. -/
abbrev ResultLike : Label → Prop := InRole .result fun kind => kind = .parameterList ∨ kind.isType = true

/-- The labels that the parts of a node of a kind may have. Bare tokens and the names of types and packages have no
parts. -/
def MayHold (kind : Kind) (labels : List Label) : Prop :=
  match kind with
  | .token _ | .typeIdentifier | .packageIdentifier => False
  | .qualifiedType =>
    labels = [(.packageIdentifier, some .package), (.token ".", none), (.typeIdentifier, some .name)]
  | .pointerType => ∃ target : Kind, target.isType = true ∧ labels = [(.token "*", none), (target, none)]
  | .sliceType | .arrayType | .implicitLengthArrayType =>
    (∃ rest, labels = (.token "[", none) :: rest) ∧ ∀ label ∈ labels, TypedIn .element label
  | .mapType => ∃ key value : Kind, key.isType = true ∧ value.isType = true ∧
    labels = [(.token "map", none), (.token "[", none), (key, some .key), (.token "]", none), (value, some .value)]
  | .genericType | .typeArguments | .channelType | .functionType | .structType | .interfaceType | .parenthesizedType
  | .negatedType => ∃ label ∈ labels, label.1.isMark = true
  | .variadicParameterDeclaration => ∃ type : Kind, type.isType = true ∧
    (labels = [(.token "...", none), (type, some .type)] ∨
      labels = [(.identifier, some .name), (.token "...", none), (type, some .type)])
  | .fieldDeclaration =>
    (∀ f rest, labels = (.token "*", f) :: rest → f = none ∧ ∃ type rest', rest = (type, some .type) :: rest') ∧
      ∀ label ∈ labels, TypedIn .type label
  | .parameterDeclaration | .constSpec | .varSpec => ∀ label ∈ labels, TypedIn .type label
  | .methodElem => ∀ label ∈ labels, ResultLike label
  | .typeDeclaration => ∀ label ∈ labels, OfKinds [.typeSpec, .typeAlias] label
  | .constDeclaration => ∀ label ∈ labels, OfKinds [.constSpec] label
  | .varDeclaration => ∀ label ∈ labels, OfKinds [.varSpec, .varSpecList] label
  | .varSpecList => ∀ label ∈ labels, OfKinds [.varSpec] label
  | .importDeclaration => ∀ label ∈ labels, OfKinds [.importSpec, .importSpecList] label
  | .importSpecList => ∀ label ∈ labels, OfKinds [.importSpec] label
  | _ => True

/-- The labels are those of one type. -/
def OneType (labels : List Label) : Prop := ∃ kind : Kind, kind.isType = true ∧ labels = [(kind, none)]

/-- The labels that a rule may yield. -/
def MayYield (r : Rule) (labels : List Label) : Prop :=
  match r with
  | .type _ | .simpleType _ => OneType labels
  | .typeArguments => labels = [(.typeArguments, none)]
  | .parameters => labels = [(.parameterList, none)]
  | .sourceFile | .statement _ | .ifStatement | .block => ∀ label ∈ labels, label.1.isSpec = false
  | _ => True

/-! ## Small phrases -/

section

variable {labels : List Label} {p q : Part}

@[simp] theorem yields_sign {text : String} :
    Yields MayYield (sign text) labels ↔ labels = [(.token text, none)] := Iff.rfl

@[simp] theorem yields_keyword {text : String} :
    Yields MayYield (keyword text) labels ↔ labels = [(.token text, none)] := Iff.rfl

@[simp] theorem yields_name {kind : Kind} {except : List String} :
    Yields MayYield (name kind except) labels ↔ labels = [(kind, none)] := Iff.rfl

@[simp] theorem yields_nothing : Yields MayYield nothing labels ↔ labels = [] := Iff.rfl

@[simp] theorem yields_optional : Yields MayYield (optional p) labels ↔ Yields MayYield p labels ∨ labels = [] := by
  simp [optional, Yields, YieldsOneOf]

@[simp] theorem yields_onRow {line : Bool} : Yields MayYield (onRow line p) labels ↔ Yields MayYield p labels := by
  cases line <;> simp [onRow, Yields, YieldsInOrder]

/-- A node that begins with a token or another node is there. -/
theorem eq_of_nodeOf {kind : Kind} {ps : List Part} (hp : ∀ inside, Yields MayYield p inside → inside ≠ [])
    (h : Yields MayYield (nodeOf kind (p :: ps)) labels) : labels = [(kind, none)] := by
  obtain ⟨inside, ⟨first, rest, hfirst, -, rfl⟩, rfl⟩ := h
  cases first with
  | nil => exact absurd rfl (hp _ hfirst)
  | cons _ _ => rfl

theorem oneType_nodeOf {kind : Kind} {ps : List Part} (hkind : kind.isType = true)
    (hp : ∀ inside, Yields MayYield p inside → inside ≠ []) (h : Yields MayYield (nodeOf kind (p :: ps)) labels) :
    OneType labels :=
  ⟨kind, hkind, eq_of_nodeOf hp h⟩

/-- What grows from a type into types is a type. -/
theorem oneType_grow {growth : Growth} {extensions : List (Extension Rule)}
    (hkinds : ∀ kind ∈ endingKinds extensions, kind.isType = true)
    (hp : ∀ start, Yields MayYield p start → OneType start) (h : Yields MayYield (.grow growth p extensions) labels) :
    OneType labels := by
  rcases h with ⟨-, h⟩ | ⟨start, hstart, kind, hkind, rfl | ⟨rfl, rfl⟩⟩
  · exact hp _ h
  · exact ⟨kind, hkinds kind hkind, rfl⟩
  · exact hp _ hstart

end

/-! ## Types -/

section

variable {labels : List Label} {line : Bool} {except : List String}

theorem oneType_typeName (h : Yields MayYield (typeName line except) labels) : OneType labels := by
  rcases h with h | h | h
  · refine oneType_nodeOf rfl ?_ h
    rintro _ ⟨inside, rfl, rfl⟩
    simp
  · cases h
    exact ⟨_, rfl, rfl⟩
  · cases h

theorem oneType_approximation (h : Yields MayYield (approximation line) labels) : OneType labels :=
  oneType_nodeOf rfl (by simp) h

theorem oneType_simpleType (h : Yields MayYield (simpleType line) labels) : OneType labels := by
  rcases h with h | h | h | h | h | h | h | h | h | h | h
  -- Channels begin with their word or with an arrow.
  case inr.inr.inr.inl =>
    refine oneType_nodeOf rfl ?_ h
    rintro _ ((⟨_, _, rfl, _, rfl⟩ | ⟨_, _, rfl, _, rfl⟩ | hnone))
    · simp
    · simp
    · cases hnone
  case inr.inr.inr.inr.inr.inr.inr.inr.inl =>
    exact oneType_grow (by simp [generic, endingKinds, Kind.isType]) (fun _ => oneType_approximation) h
  case inr.inr.inr.inr.inr.inr.inr.inr.inr.inl =>
    exact oneType_grow (by simp [generic, endingKinds, Kind.isType]) (fun _ => oneType_typeName) h
  case inr.inr.inr.inr.inr.inr.inr.inr.inr.inr => cases h
  all_goals exact oneType_nodeOf rfl (by simp) h

theorem oneType_anyType (h : Yields MayYield (anyType line) labels) : OneType labels := by
  rcases h with h | h | h
  · exact oneType_nodeOf rfl (by simp) h
  · exact h
  · cases h

theorem oneType_embeddedType (h : Yields MayYield embeddedType labels) : OneType labels := by
  rcases h with h | h | h
  · exact oneType_grow (by simp [endingKinds, Kind.isType]) (fun _ => oneType_typeName) h
  · exact oneType_grow (by simp [generic, endingKinds, Kind.isType]) (fun _ => oneType_approximation) h
  · cases h

end

/-! ## Statements and declarations -/

/-- The label is not that of a spec. -/
def NoSpec (label : Label) : Prop := label.1.isSpec = false

theorem onlyYields_declaration : OnlyYields MayYield NoSpec declaration :=
  .either (.node rfl) (.either (.node rfl) (.either (.node rfl) .never))

theorem onlyYields_topLevelDeclaration : OnlyYields MayYield NoSpec topLevelDeclaration :=
  .either (.node rfl) (.either (.node rfl) (.either (.node rfl) (.either (.node rfl) .never)))

theorem onlyYields_simpleStatement {c right : Context} : OnlyYields MayYield NoSpec (simpleStatement c right) :=
  .growOnce (by simp [endingKinds, NoSpec, Kind.isSpec])

theorem onlyYields_anyStatement {clause : Bool} : OnlyYields MayYield NoSpec (anyStatement clause) := by
  have hsimple {words : List String} : OnlyYields MayYield NoSpec
      (.sequence [noneOf words,
        .choice [nodeOf .labeledStatement [label, .rule (.statement clause)],
          .sequence [.unless label, simpleStatement .statement .value]]]) :=
    .cons .unless (.cons (.either (.node rfl)
      (.either (.cons .unless (.cons onlyYields_simpleStatement .nil)) .never)) .nil)
  have hnode {kind : Kind} {p : Part} {ps : List Part} (hkind : kind.isSpec = false)
      (hps : OnlyYields MayYield NoSpec (.choice ps)) : OnlyYields MayYield NoSpec (.choice (.node kind p :: ps)) :=
    .either (.node hkind) hps
  refine .either onlyYields_declaration (hnode rfl (hnode rfl (hnode rfl (.either (.rule fun _ h => h) ?_))))
  refine hnode rfl (hnode rfl (hnode rfl (hnode rfl (hnode rfl (hnode rfl (hnode rfl (hnode rfl ?_)))))))
  exact .either (.rule fun _ h => h) (hnode rfl (.either hsimple .never))

theorem onlyYields_sourceFile : OnlyYields MayYield NoSpec sourceFile := by
  have hterminator : OnlyYields MayYield NoSpec terminator := .terminator fun _ => rfl
  have hstatement : OnlyYields MayYield NoSpec (.sequence [noneOf topLevelWords, .rule (.statement false)]) :=
    .cons .unless (.cons (.rule fun _ h => h) .nil)
  refine .cons (.many (.cons (.either onlyYields_topLevelDeclaration (.either hstatement .never))
    (.cons hterminator .nil))) (.cons ?_ .nil)
  exact .either onlyYields_topLevelDeclaration (.either .nil .never)

/-- Every rule yields what it may. -/
theorem mayYield_of_yields {r : Rule} {labels : List Label} (h : Yields MayYield (phrase r) labels) :
    MayYield r labels := by
  have hnode {kind : Kind} {p : Part} (hkind : kind.isSpec = false) : OnlyYields MayYield NoSpec (.node kind p) :=
    .node hkind
  cases r with
  | type line => exact oneType_anyType h
  | simpleType line => exact oneType_simpleType h
  | typeArguments => exact eq_of_nodeOf (by simp) h
  | parameters => exact eq_of_nodeOf (by simp) h
  | sourceFile => exact onlyYields_sourceFile labels h
  | statement clause => exact onlyYields_anyStatement labels h
  | ifStatement => exact hnode rfl labels h
  | block => exact hnode rfl labels h
  | _ => trivial

/-! ## Phrases in order -/

attribute [local simp] MayHold Kind.isName nodeOf openBrace closeBrace CheckedExtensions CheckedEndings

section

variable {p q : Part}

@[simp] theorem checked_sign {text : String} : Checked MayHold MayYield (sign text) := trivial

@[simp] theorem checked_signUnless {text : String} {longer : List String} :
    Checked MayHold MayYield (signUnless text longer) := trivial

@[simp] theorem checked_keyword {text : String} : Checked MayHold MayYield (keyword text) := trivial

@[simp] theorem checked_terminator : Checked MayHold MayYield terminator := trivial

@[simp] theorem checked_rule {r : Rule} : Checked MayHold MayYield (.rule r) := trivial

@[simp] theorem checked_unless : Checked MayHold MayYield (.unless p) := trivial

@[simp] theorem checked_ahead : Checked MayHold MayYield (.ahead p) := trivial

@[simp] theorem checked_name {kind : Kind} {except : List String} :
    Checked MayHold MayYield (name kind except) ↔ kind.isName = true := Iff.rfl

@[simp] theorem checked_field {f : Field} :
    Checked MayHold MayYield (.field f p) ↔ Checked MayHold MayYield p := Iff.rfl

@[simp] theorem checked_closing : Checked MayHold MayYield (.closing p) ↔ Checked MayHold MayYield p := Iff.rfl

@[simp] theorem checked_many : Checked MayHold MayYield (.many p) ↔ Checked MayHold MayYield p := Iff.rfl

@[simp] theorem checked_sequence {ps : List Part} :
    Checked MayHold MayYield (.sequence ps) ↔ CheckedAll MayHold MayYield ps := Iff.rfl

@[simp] theorem checked_choice {ps : List Part} :
    Checked MayHold MayYield (.choice ps) ↔ CheckedAll MayHold MayYield ps := Iff.rfl

@[simp] theorem checkedAll_nil : CheckedAll MayHold MayYield ([] : List Part) := trivial

@[simp] theorem checkedAll_cons {ps : List Part} :
    CheckedAll MayHold MayYield (p :: ps) ↔ Checked MayHold MayYield p ∧ CheckedAll MayHold MayYield ps := Iff.rfl

@[simp] theorem checked_node {kind : Kind} : Checked MayHold MayYield (.node kind p) ↔
    (kind ≠ .comment ∧ ∀ labels, Yields MayYield p labels → MayHold kind labels) ∧ Checked MayHold MayYield p := Iff.rfl

@[simp] theorem checked_grow {growth : Growth} {extensions : List (Extension Rule)} :
    Checked MayHold MayYield (.grow growth p extensions) ↔
      Checked MayHold MayYield p ∧ CheckedExtensions MayHold MayYield extensions := Iff.rfl

@[simp] theorem checked_nothing : Checked MayHold MayYield nothing := trivial

@[simp] theorem checked_optional : Checked MayHold MayYield (optional p) ↔ Checked MayHold MayYield p := by
  simp [optional]

@[simp] theorem checked_separated : Checked MayHold MayYield (separated p q) ↔
    Checked MayHold MayYield p ∧ Checked MayHold MayYield q := by
  simp only [separated, checked_sequence, checkedAll_cons, checked_many]
  tauto

@[simp] theorem checked_terminated : Checked MayHold MayYield (terminated p) ↔ Checked MayHold MayYield p := by
  simp [terminated]

@[simp] theorem checked_closedGroup : Checked MayHold MayYield (closedGroup p) ↔ Checked MayHold MayYield p := by
  simp [closedGroup]

@[simp] theorem checked_onRow {line : Bool} : Checked MayHold MayYield (onRow line p) ↔ Checked MayHold MayYield p := by
  cases line <;> simp [onRow]

@[simp] theorem checked_noneOf {words : List String} : Checked MayHold MayYield (noneOf words) := trivial

@[simp] theorem checked_onClauseRow {line : Bool} :
    Checked MayHold MayYield (onClauseRow line p) ↔ Checked MayHold MayYield p := by
  cases line <;> simp [onClauseRow]

theorem checked_upTo (h : Checked MayHold MayYield p) (n : Nat) : Checked MayHold MayYield (upTo n p) := by
  induction n with
  | zero => exact checked_nothing
  | succ n ih => simp [upTo, h, ih]

@[simp] theorem checked_typeAt {line : Bool} : Checked MayHold MayYield (typeAt line) := trivial

@[simp] theorem checked_simpleTypeAt {line : Bool} : Checked MayHold MayYield (simpleTypeAt line) := trivial

@[simp] theorem checked_expressionIn {c : Context} : Checked MayHold MayYield (expressionIn c) := trivial

@[simp] theorem checked_parameterList : Checked MayHold MayYield parameterList := trivial

@[simp] theorem checked_blockPart : Checked MayHold MayYield blockPart := trivial

@[simp] theorem checked_result {line : Bool} : Checked MayHold MayYield (result line) := by
  simp [result]

@[simp] theorem checked_stringLiteral : Checked MayHold MayYield stringLiteral := by
  simp [stringLiteral, literal, Checked, Token.Proper, Kind.isLiteral]

@[simp] theorem checked_expressionListFrom {first rest : Context} :
    Checked MayHold MayYield (expressionListFrom first rest) := by
  simp [expressionListFrom]

@[simp] theorem checked_expressionList {c : Context} : Checked MayHold MayYield (expressionList c) :=
  checked_expressionListFrom

/-- A node may hold labels of one sort, and the phrase in it yields no others. -/
theorem checked_of_only {kind : Kind} {P : Label → Prop} (hkind : kind ≠ .comment)
    (hholds : ∀ labels, (∀ label ∈ labels, P label) → MayHold kind labels) (honly : OnlyYields MayYield P p)
    (hp : Checked MayHold MayYield p) : Checked MayHold MayYield (.node kind p) :=
  ⟨⟨hkind, fun labels hlabels => hholds labels (honly labels hlabels)⟩, hp⟩

/-- A node has to hold a label of some sort, and the phrase in it yields one. -/
theorem checked_of_some {kind : Kind} {P : Label → Prop} (hkind : kind ≠ .comment)
    (hholds : ∀ labels, (∃ label ∈ labels, P label) → MayHold kind labels) (hsome : SomeYields MayYield P p)
    (hp : Checked MayHold MayYield p) : Checked MayHold MayYield (.node kind p) :=
  ⟨⟨hkind, fun labels hlabels => hholds labels (hsome labels hlabels)⟩, hp⟩

end

/-! ### Types -/

section

variable {line : Bool} {except : List String}

theorem checked_typeName : Checked MayHold MayYield (typeName line except) := by
  simp [typeName, qualifiedType, Yields, YieldsInOrder]

/-- What is in the brackets of type arguments is marked by them, whatever stands before. -/
theorem marked_typeArguments {before labels : List Label}
    (h : Yields MayYield (.field .typeArguments (.rule .typeArguments)) labels) :
    ∃ label ∈ before ++ labels, label.1.isMark = true := by
  obtain ⟨_, rfl, rfl⟩ := h
  exact ⟨(.typeArguments, some .typeArguments), by simp, rfl⟩

theorem checked_genericType : Checked MayHold MayYield (genericType line except) := by
  refine ⟨⟨by simp, ?_⟩, by simp [checked_typeName]⟩
  rintro _ ⟨before, _, -, ⟨arguments, _, harguments, rfl, rfl⟩, rfl⟩
  rw [List.append_nil]
  exact marked_typeArguments (yields_onRow.1 harguments)

theorem checkedExtensions_generic : CheckedExtensions MayHold MayYield [generic line] := by
  refine ⟨checked_nothing, ⟨⟨⟨by simp, fun before labels h => ?_⟩, by simp, by simp⟩, trivial⟩, trivial⟩
  exact marked_typeArguments (yields_onRow.1 h)

theorem checked_namedType : Checked MayHold MayYield (namedType line except) := by
  simp [namedType, checked_typeName, checkedExtensions_generic]

/-- A node that begins with a mark has one. -/
theorem marked_of_sign {text : String} (htext : text ∈ typeMarks) (ps : List Part) :
    SomeYields MayYield (fun label => label.1.isMark = true) (.sequence (sign text :: ps)) :=
  .first (.sign (List.contains_iff_mem.2 htext)) ps

theorem marked_of_keyword {text : String} (htext : text ∈ typeMarks) (ps : List Part) :
    SomeYields MayYield (fun label => label.1.isMark = true) (.sequence (keyword text :: ps)) :=
  .first (.keyword (List.contains_iff_mem.2 htext)) ps

theorem checked_approximation : Checked MayHold MayYield (approximation line) :=
  ⟨⟨by simp, marked_of_sign (by simp [typeMarks]) _⟩, by simp⟩

theorem checked_typeArguments : Checked MayHold MayYield typeArguments :=
  ⟨⟨by simp, marked_of_sign (by simp [typeMarks]) _⟩, by simp⟩

theorem checked_typeAlternatives : Checked MayHold MayYield (typeAlternatives line) := by
  simp [typeAlternatives]

theorem checked_typeParameter : Checked MayHold MayYield (typeParameter except) := by
  simp [typeParameter, checked_typeAlternatives]

theorem checked_typeParameters : Checked MayHold MayYield (typeParameters except) := by
  simp [typeParameters, checked_typeParameter]

section

variable {f g : Field} {P : Kind → Prop} {p : Part}

theorem inRole_token (f : Field) (P : Kind → Prop) (text : String) : InRole f P (.token text, none) := nofun

theorem onlyYields_otherRole (hne : g ≠ f) : OnlyYields MayYield (InRole f P) (.field g p) := by
  rintro _ ⟨_, -, rfl⟩
  refine List.forall_mem_map.2 fun label _ hrole => ?_
  exact absurd (Option.some.inj hrole) hne

theorem onlyYields_typeAt : OnlyYields MayYield (TypedIn f) (.field f (typeAt line)) := by
  rintro _ ⟨_, ⟨kind, hkind, rfl⟩, rfl⟩
  exact List.forall_mem_singleton.2 fun _ => hkind

theorem onlyYields_upTo {P : Label → Prop} (h : OnlyYields MayYield P p) (n : Nat) :
    OnlyYields MayYield P (upTo n p) := by
  induction n with
  | zero => exact .nil
  | succ n ih => exact .either (.cons h (.cons ih .nil)) (.either .nil .never)

theorem onlyYields_onRow {P : Label → Prop} (h : OnlyYields MayYield P p) (line : Bool) :
    OnlyYields MayYield P (onRow line p) :=
  fun labels hlabels => h labels (yields_onRow.1 hlabels)

theorem onlyYields_optional {P : Label → Prop} (h : OnlyYields MayYield P p) : OnlyYields MayYield P (optional p) :=
  .either h (.either .nil .never)

end

theorem mayHold_variadicParameter {labels : List Label} (h : Yields MayYield
    (.sequence [optional (.field .name (name .identifier typeWords)), sign "...",
      .field .type (typeAt false)]) labels) :
    MayHold .variadicParameterDeclaration labels := by
  obtain ⟨first, _, hfirst, ⟨_, _, rfl, ⟨_, _, ⟨_, ⟨type, htype, rfl⟩, rfl⟩, rfl, rfl⟩, rfl⟩, rfl⟩ := h
  refine ⟨type, htype, ?_⟩
  rcases yields_optional.1 hfirst with ⟨_, rfl, rfl⟩ | rfl
  · exact .inr rfl
  · exact .inl rfl

theorem checked_parameters : Checked MayHold MayYield parameters := by
  have hname {except : List String} : OnlyYields MayYield (TypedIn .type) (.field .name (name .identifier except)) :=
    onlyYields_otherRole (by simp)
  have hbare : OnlyYields MayYield (TypedIn .type) (.field .type (name .typeIdentifier typeWords)) := by
    rintro _ ⟨_, rfl, rfl⟩
    exact List.forall_mem_singleton.2 fun _ => rfl
  have hvariadic : Checked MayHold MayYield variadicParameter := by
    refine ⟨⟨by simp, fun _ => mayHold_variadicParameter⟩, ?_⟩
    simp
  have hdeclared {ps : List Part} (honly : OnlyYields MayYield (TypedIn .type) (.sequence ps))
      (hps : CheckedAll MayHold MayYield ps) : Checked MayHold MayYield (nodeOf .parameterDeclaration ps) :=
    checked_of_only (by simp) (fun _ h => h) honly hps
  have hunnamed : Checked MayHold MayYield unnamedParameter :=
    hdeclared (.cons .unless (.cons onlyYields_typeAt .nil)) (by simp)
  have hnamed : Checked MayHold MayYield namedParameters := by
    refine hdeclared (.cons hname (.cons (onlyYields_upTo ?_ _) (.cons onlyYields_typeAt .nil))) ?_
    · exact .cons (.sign (inRole_token _ _ _)) (.cons hname .nil)
    · simp [checked_upTo]
  have hupToWord : Checked MayHold MayYield typesUpToWord := by
    have hbareDeclared := hdeclared (.cons hbare .nil) (by simp)
    simp only [typesUpToWord, checked_sequence, checkedAll_cons]
    refine ⟨checked_upTo ?_ _, checked_ahead, hunnamed, checkedAll_nil⟩
    exact ⟨hbareDeclared, checked_sign, trivial⟩
  simp [parameters, parameterGroup, parameterEnd, hvariadic, hunnamed, hnamed, hupToWord, Checked]

theorem checked_tag : Checked MayHold MayYield tag := by
  simp [tag]

theorem checked_embeddedType : Checked MayHold MayYield embeddedType := by
  have hextensions : CheckedExtensions MayHold MayYield [.mk nothing [.mk .genericType none (some .type)
      (onRow true (.sequence [.unless valueBracket, .field .typeArguments (.rule .typeArguments)]))]] := by
    refine ⟨checked_nothing, ⟨⟨⟨by simp, fun before labels h => ?_⟩, by simp, by simp⟩, trivial⟩, trivial⟩
    obtain ⟨_, _, rfl, ⟨_, _, harguments, rfl, rfl⟩, rfl⟩ := yields_onRow.1 h
    rw [List.nil_append, List.append_nil]
    exact marked_typeArguments harguments
  exact ⟨⟨checked_typeName, hextensions⟩, ⟨checked_approximation, checkedExtensions_generic⟩, trivial⟩

theorem onlyYields_tag : OnlyYields MayYield (TypedIn .type) tag :=
  onlyYields_optional (onlyYields_onRow (onlyYields_otherRole (by simp)) true)

/-- A star before an embedded field stands right before the type. -/
theorem mayHold_embeddedField {labels : List Label} (h : Yields MayYield
    (.sequence [optional (sign "*"), .field .type embeddedType, tag, .ahead (.choice [terminator, closeBrace])])
    labels) : MayHold .fieldDeclaration labels := by
  have hembedded : OnlyYields MayYield (TypedIn .type) (.field .type embeddedType) := by
    rintro _ ⟨_, hinside, rfl⟩
    obtain ⟨type, htype, rfl⟩ := oneType_embeddedType hinside
    exact List.forall_mem_singleton.2 fun _ => htype
  have hall : OnlyYields MayYield (TypedIn .type) (.sequence
      [optional (sign "*"), .field .type embeddedType, tag, .ahead (.choice [terminator, closeBrace])]) :=
    .cons (onlyYields_optional (.sign (inRole_token _ _ _)))
      (.cons hembedded (.cons onlyYields_tag (.cons .ahead .nil)))
  refine ⟨?_, hall labels h⟩
  obtain ⟨star, _, hstar, ⟨_, more, ⟨inside, hinside, rfl⟩, -, rfl⟩, rfl⟩ := h
  obtain ⟨type, htype, rfl⟩ := oneType_embeddedType hinside
  intro f rest hrest
  rcases yields_optional.1 hstar with rfl | rfl
  · cases hrest
    exact ⟨rfl, type, more, rfl⟩
  · cases hrest
    cases htype

/-- A named field begins with its name. -/
theorem mayHold_namedFields {labels : List Label} (h : Yields MayYield
    (.sequence [.choice [.sequence [fieldName, onRow true (sign ","), separated fieldName (sign ","),
      .field .type (typeAt true)], .sequence [fieldName, onRow true (.field .type (typeAt true))]], tag]) labels) :
    MayHold .fieldDeclaration labels := by
  have hname : OnlyYields MayYield (TypedIn .type) fieldName := onlyYields_otherRole (by simp)
  have hcomma : OnlyYields MayYield (TypedIn .type) (sign ",") := .sign (inRole_token _ _ _)
  have hnames : OnlyYields MayYield (TypedIn .type) (separated fieldName (sign ",")) :=
    .cons hname (.cons (.many (.cons hcomma (.cons hname .nil))) .nil)
  have hmany : OnlyYields MayYield (TypedIn .type) (.sequence [fieldName, onRow true (sign ","),
      separated fieldName (sign ","), .field .type (typeAt true)]) :=
    .cons hname (.cons (onlyYields_onRow hcomma true) (.cons hnames (.cons onlyYields_typeAt .nil)))
  have hone : OnlyYields MayYield (TypedIn .type) (.sequence [fieldName, onRow true (.field .type (typeAt true))]) :=
    .cons hname (.cons (onlyYields_onRow onlyYields_typeAt true) .nil)
  have hall := OnlyYields.cons (.either hmany (.either hone .never)) (.cons onlyYields_tag .nil)
  refine ⟨?_, hall labels h⟩
  obtain ⟨_, _, ⟨_, _, ⟨_, rfl, rfl⟩, -, rfl⟩ | ⟨_, _, ⟨_, rfl, rfl⟩, -, rfl⟩ | hnone, -, rfl⟩ := h
  · rintro f rest ⟨⟩
  · rintro f rest ⟨⟩
  · cases hnone

theorem checked_fieldList : Checked MayHold MayYield fieldList := by
  have hembedded : Checked MayHold MayYield embeddedField := by
    refine ⟨⟨by simp, fun _ => mayHold_embeddedField⟩, ?_⟩
    simp [checked_embeddedType, checked_tag]
  have hnamed : Checked MayHold MayYield namedFields := by
    refine ⟨⟨by simp, fun _ => mayHold_namedFields⟩, ?_⟩
    simp [fieldName, checked_tag]
  simp [fieldList, hembedded, hnamed]

/-- Only the result of a method has the role of one. -/
theorem checked_methodElem : Checked MayHold MayYield methodElem := by
  have hresult : OnlyYields MayYield ResultLike (result true) := by
    rintro _ ⟨_, rfl | ⟨kind, hkind, rfl⟩ | hnone, rfl⟩
    · exact List.forall_mem_singleton.2 fun _ => .inl rfl
    · exact List.forall_mem_singleton.2 fun _ => .inr hkind
    · cases hnone
  refine checked_of_only (by simp) (fun _ h => h) (.cons (onlyYields_otherRole (by simp)) (.cons ?_ (.cons ?_ .nil))) ?_
  · exact onlyYields_onRow (onlyYields_otherRole (by simp)) true
  · exact onlyYields_optional (onlyYields_onRow hresult true)
  · simp

theorem checked_interfaceType : Checked MayHold MayYield interfaceType := by
  refine ⟨⟨by simp, marked_of_keyword (by simp [typeMarks]) _⟩, ?_⟩
  simp [checked_methodElem]

theorem checked_mapType : Checked MayHold MayYield (mapType line) := by
  refine ⟨⟨by simp, ?_⟩, by simp⟩
  rintro _ ⟨_, _, rfl, ⟨_, _, rfl, ⟨_, _, ⟨_, ⟨key, hkey, rfl⟩, rfl⟩, ⟨_, _, rfl, ⟨_, _, ⟨_, ⟨value, hvalue, rfl⟩, rfl⟩,
    rfl, rfl⟩, rfl⟩, rfl⟩, rfl⟩, rfl⟩
  exact ⟨key, value, hkey, hvalue, rfl⟩

/-- Slices and arrays begin with a bracket, and their elements are types. -/
theorem mayHold_bracket {kind : Kind} (hkind : kind = .sliceType ∨ kind = .arrayType ∨ kind = .implicitLengthArrayType)
    {ps : List Part} (hps : OnlyYields MayYield (TypedIn .element) (.sequence ps)) {labels : List Label}
    (h : Yields MayYield (.sequence (sign "[" :: ps)) labels) : MayHold kind labels := by
  have htyped := OnlyYields.cons (.sign (inRole_token _ _ _)) hps labels h
  obtain ⟨_, rest, rfl, -, rfl⟩ := h
  rcases hkind with rfl | rfl | rfl <;> exact ⟨⟨rest, rfl⟩, htyped⟩

/-- The bracket that closes, and the element behind it. -/
theorem onlyYields_element :
    OnlyYields MayYield (TypedIn .element) (.sequence [sign "]", .field .element (typeAt line)]) :=
  .cons (.sign (inRole_token _ _ _)) (.cons onlyYields_typeAt .nil)

theorem checked_sliceType : Checked MayHold MayYield (sliceType line) :=
  ⟨⟨by simp, fun _ => mayHold_bracket (by simp) onlyYields_element⟩, by simp⟩

theorem checked_arrayType : Checked MayHold MayYield (arrayType line) :=
  ⟨⟨by simp, fun _ => mayHold_bracket (by simp) (.cons (onlyYields_otherRole (by simp)) onlyYields_element)⟩, by simp⟩

theorem checked_implicitLengthArrayType : Checked MayHold MayYield implicitLengthArrayType :=
  ⟨⟨by simp, fun _ => mayHold_bracket (by simp) (.cons (.sign (inRole_token _ _ _)) onlyYields_element)⟩, by simp⟩

theorem checked_pointerType : Checked MayHold MayYield (nodeOf .pointerType [sign "*", typeAt line]) := by
  refine ⟨⟨by simp, ?_⟩, by simp⟩
  rintro _ ⟨_, _, rfl, ⟨_, _, ⟨target, htarget, rfl⟩, rfl, rfl⟩, rfl⟩
  exact ⟨target, htarget, rfl⟩

theorem checked_channelType : Checked MayHold MayYield (channelType line) := by
  have hword : SomeYields MayYield (fun label => label.1.isMark = true) (keyword "chan") := .keyword rfl
  refine checked_of_some (by simp) (fun _ h => h) (.first (.either (.first hword _) (.either ?_ .never)) _) ?_
  · exact .later _ (.first hword _)
  · simp [receivingChannel]

theorem checked_simpleType : Checked MayHold MayYield (simpleType line) := by
  have hstruct : Checked MayHold MayYield structType :=
    ⟨⟨by simp, marked_of_keyword (by simp [typeMarks]) _⟩, by simp⟩
  have hfunction : Checked MayHold MayYield (functionType line) :=
    ⟨⟨by simp, marked_of_keyword (by simp [typeMarks]) _⟩, by simp⟩
  simp only [simpleType, checked_choice, checkedAll_cons, checked_grow]
  exact ⟨hstruct, checked_interfaceType, checked_mapType, checked_channelType, hfunction, checked_pointerType,
    checked_sliceType, checked_arrayType, ⟨checked_approximation, checkedExtensions_generic⟩, checked_namedType,
    checkedAll_nil⟩

theorem checked_parenthesizedType :
    Checked MayHold MayYield (nodeOf .parenthesizedType [sign "(", typeAt false, sign ")"]) :=
  ⟨⟨by simp, marked_of_sign (by simp [typeMarks]) _⟩, by simp⟩

theorem checked_anyType : Checked MayHold MayYield (anyType line) :=
  ⟨checked_parenthesizedType, checked_simpleTypeAt, trivial⟩

end

/-! ### Expressions -/

theorem checked_literalElement : Checked MayHold MayYield literalElement := by
  simp [literalElement]

theorem checked_literalValue : Checked MayHold MayYield literalValue := by
  simp [literalValue, literalEntry, checked_literalElement]

theorem checked_namedLiteral {c : Context} : Checked MayHold MayYield (namedLiteral c) := by
  have hqualified {line : Bool} {except : List String} : Checked MayHold MayYield (qualifiedType line except) :=
    checked_typeName.1
  unfold namedLiteral
  split <;> simp [literalBody, checked_namedType, checked_genericType, hqualified]

theorem checked_operand {c : Context} : Checked MayHold MayYield (operand c) := by
  have hbasic : Checked MayHold MayYield basicLiteral := by
    simp [basicLiteral, literal, Checked, Token.Proper, Kind.isLiteral]
  have hfunction : Checked MayHold MayYield functionLiteral := by
    simp [functionLiteral]
  have htype : Checked MayHold MayYield typeOperand := by
    simp [typeOperand, startingWith, typedLiteral, conversion, instantiation, literalBody,
      checked_implicitLengthArrayType]
  have hparenthesized : Checked MayHold MayYield parenthesized := by
    refine ⟨?_, ⟨checked_parenthesizedType, ?_⟩, trivial⟩
    · simp
    · simp [conversion, instantiation]
  have hallocator : Checked MayHold MayYield allocator := by
    simp [allocator]
  simp [operand, checked_namedLiteral, hbasic, hfunction, htype, hparenthesized, hallocator, allocatorCall]

theorem checked_primary {c : Context} : Checked MayHold MayYield (primary c) := by
  have hasks : Checked MayHold MayYield (if c.asks then noneOf ["type"] else nothing) := by
    split <;> simp
  simp [primary, selection, indexing, slicing, genericCall, instantiating, call, sliceRest, argumentList, argument,
    hasks]

theorem checked_unary {c : Context} : Checked MayHold MayYield (unary c) := by
  simp [unary, checked_primary, unaryOperators]

theorem checked_binaryOperand {level : Nat} {c : Context} : Checked MayHold MayYield (binaryOperand level c) := by
  unfold binaryOperand
  split <;> simp

theorem checked_binary {level : Nat} {c : Context} : Checked MayHold MayYield (binary level c) := by
  have hoperators : CheckedAll MayHold MayYield (binaryOperators c.leads level) := by
    unfold binaryOperators
    split <;> simp
  simp [binary, checked_binaryOperand, hoperators]

/-! ### Statements and declarations -/

theorem checked_simpleStatement {c right : Context} : Checked MayHold MayYield (simpleStatement c right) := by
  simp [simpleStatement, rightSide, assignmentOperator]

theorem checked_label : Checked MayHold MayYield label := by
  simp [label]

theorem checked_statementList {clause : Bool} : Checked MayHold MayYield (statementList clause) := by
  simp [statementList, emptyLabel, checked_label]

theorem checked_block : Checked MayHold MayYield block := by
  simp [block, checked_statementList]

theorem checked_initializer {c : Context} : Checked MayHold MayYield (initializer c) := by
  simp [initializer, checked_simpleStatement]

theorem checked_ifStatement : Checked MayHold MayYield ifStatement := by
  simp [ifStatement, condition, checked_initializer]

theorem checked_forStatement : Checked MayHold MayYield forStatement := by
  simp [forStatement, rangeClause, forClause, receivers, condition, checked_initializer, checked_simpleStatement]

theorem checked_defaultCase : Checked MayHold MayYield defaultCase := by
  simp [defaultCase, clause, checked_statementList]

theorem checked_typeSwitchStatement : Checked MayHold MayYield typeSwitchStatement := by
  simp [typeSwitchStatement, switchHeader, typeQuestion, clauses, typeCase, clause, checked_defaultCase,
    checked_statementList, checked_initializer, checked_primary]

theorem checked_expressionSwitchStatement : Checked MayHold MayYield expressionSwitchStatement := by
  simp [expressionSwitchStatement, switchHeader, clauses, expressionCase, clause, checked_defaultCase,
    checked_statementList, checked_initializer]

theorem checked_selectStatement : Checked MayHold MayYield selectStatement := by
  simp [selectStatement, clauses, communicationCase, clause, checked_defaultCase, checked_statementList]

section

variable {kinds : List Kind} {p : Part}

theorem ofKinds_token (kinds : List Kind) (text : String) : OfKinds kinds (.token text, none) :=
  fun hnamed => absurd hnamed (by simp [Kind.isNamed])

theorem onlyYields_closedGroup (h : OnlyYields MayYield (OfKinds kinds) p) :
    OnlyYields MayYield (OfKinds kinds) (closedGroup p) := by
  have hterminator : OnlyYields MayYield (OfKinds kinds) terminator := .terminator (ofKinds_token kinds)
  exact .cons (.sign (ofKinds_token _ _)) (.cons (.many (.cons h (.cons hterminator .nil)))
    (.cons (.sign (ofKinds_token _ _)) .nil))

theorem onlyYields_terminated (h : OnlyYields MayYield (OfKinds kinds) p) :
    OnlyYields MayYield (OfKinds kinds) (terminated p) := by
  have hterminator : OnlyYields MayYield (OfKinds kinds) terminator := .terminator (ofKinds_token kinds)
  exact .cons h (.cons (.many (.cons hterminator (.cons h .nil)))
    (.cons (.either hterminator (.either .nil .never)) .nil))

/-- A declaration of the kind holds nodes of some kinds, if what comes behind its keyword does. -/
theorem checked_declared (kind : Kind) (kinds : List Kind) (hkind : kind ≠ .comment)
    (hholds : ∀ labels, (∀ label ∈ labels, OfKinds kinds label) → MayHold kind labels) {word : String}
    (honly : OnlyYields MayYield (OfKinds kinds) p) (hp : Checked MayHold MayYield p) :
    Checked MayHold MayYield (nodeOf kind [keyword word, p]) := by
  exact checked_of_only hkind hholds (.cons (.keyword (ofKinds_token _ _)) (.cons honly .nil)) (by simp [hp])

end

theorem checked_importDeclaration : Checked MayHold MayYield importDeclaration := by
  have hspec : Checked MayHold MayYield importSpec := by
    simp [importSpec]
  have honly {kinds : List Kind} (hkinds : .importSpec ∈ kinds) : OnlyYields MayYield (OfKinds kinds) importSpec :=
    .node fun _ => hkinds
  have hlist : OnlyYields MayYield (OfKinds [.importSpec])
      (.sequence [sign "(", optional (terminated importSpec), sign ")"]) :=
    .cons (.sign (ofKinds_token _ _)) (.cons (.either (onlyYields_terminated (honly (by simp))) (.either .nil .never))
      (.cons (.sign (ofKinds_token _ _)) .nil))
  refine checked_declared .importDeclaration [.importSpec, .importSpecList] (by simp) (fun _ h => h)
    (.either (honly (by simp)) (.either (.node fun _ => by simp) .never)) ?_
  exact ⟨hspec, ⟨⟨by simp, hlist⟩, by simp [hspec]⟩, trivial⟩

theorem checked_assignedValues : Checked MayHold MayYield assignedValues := by
  simp [assignedValues]

theorem onlyYields_declaredName : OnlyYields MayYield (TypedIn .type) declaredName :=
  onlyYields_otherRole (by simp)

theorem onlyYields_assignedValues : OnlyYields MayYield (TypedIn .type) assignedValues :=
  .cons (.sign (inRole_token _ _ _)) (.cons (fun labels h => onlyYields_otherRole (by simp) labels h) .nil)

/-- Names, separated by commas. -/
theorem onlyYields_declaredNames {p : Part} (hp : OnlyYields MayYield (TypedIn .type) p) :
    OnlyYields MayYield (TypedIn .type) (separated declaredName p) :=
  .cons onlyYields_declaredName (.cons (.many (.cons hp (.cons onlyYields_declaredName .nil))) .nil)

theorem checked_constSpec : Checked MayHold MayYield constSpec := by
  have hcomma : OnlyYields MayYield (TypedIn .type) (onRow true (sign ",")) :=
    onlyYields_onRow (.sign (inRole_token _ _ _)) true
  have htyped : OnlyYields MayYield (TypedIn .type)
      (.sequence [optional (.field .type (typeAt false)), assignedValues]) :=
    .cons (onlyYields_optional onlyYields_typeAt) (.cons onlyYields_assignedValues .nil)
  refine checked_of_only (by simp) (fun _ h => h)
    (.cons (onlyYields_declaredNames hcomma) (.cons (onlyYields_optional ?_) .nil)) ?_
  · exact onlyYields_onRow (.cons .unless (.cons htyped .nil)) true
  · simp [declaredName, checked_assignedValues]

theorem checked_varSpec : Checked MayHold MayYield varSpec := by
  have htyped : OnlyYields MayYield (TypedIn .type)
      (.sequence [.field .type (typeAt true), optional (onRow true assignedValues)]) :=
    .cons onlyYields_typeAt (.cons (onlyYields_optional (onlyYields_onRow onlyYields_assignedValues true)) .nil)
  refine checked_of_only (by simp) (fun _ h => h)
    (.cons (onlyYields_declaredNames (.sign (inRole_token _ _ _))) (.cons ?_ .nil)) ?_
  · exact .either onlyYields_assignedValues (.either htyped .never)
  · simp [declaredName, checked_assignedValues]

theorem checked_constDeclaration : Checked MayHold MayYield constDeclaration := by
  have honly : OnlyYields MayYield (OfKinds [.constSpec]) constSpec := .node fun _ => by simp
  refine checked_declared .constDeclaration [.constSpec] (by simp) (fun _ h => h)
    (.either honly (.either (onlyYields_closedGroup honly) .never)) ?_
  simp [checked_constSpec]

theorem checked_varDeclaration : Checked MayHold MayYield varDeclaration := by
  have honly {kinds : List Kind} (hkinds : .varSpec ∈ kinds) : OnlyYields MayYield (OfKinds kinds) varSpec :=
    .node fun _ => hkinds
  have hlist : OnlyYields MayYield (OfKinds [.varSpec]) (closedGroup varSpec) :=
    onlyYields_closedGroup (honly (by simp))
  refine checked_declared .varDeclaration [.varSpec, .varSpecList] (by simp) (fun _ h => h)
    (.either (honly (by simp)) (.either (.node fun _ => by simp) .never)) ?_
  exact ⟨checked_varSpec, ⟨⟨by simp, hlist⟩, by simp [checked_varSpec]⟩, trivial⟩

theorem checked_typeDeclaration : Checked MayHold MayYield typeDeclaration := by
  have hspec {grouped : Bool} : Checked MayHold MayYield (typeSpec grouped) := by
    cases grouped <;>
      simp [typeSpec, plainTypeSpec, genericTypeSpec, declaredType, Checked]
  have honly {grouped : Bool} : OnlyYields MayYield (OfKinds [.typeSpec, .typeAlias]) (typeSpec grouped) := by
    have hplain : OnlyYields MayYield (OfKinds [.typeSpec, .typeAlias]) plainTypeSpec := .node fun _ => by simp
    have hgeneric : OnlyYields MayYield (OfKinds [.typeSpec, .typeAlias]) genericTypeSpec := .node fun _ => by simp
    cases grouped with
    | true => exact .either (.node fun _ => by simp) (.either (.heavier hgeneric hplain) .never)
    | false => exact .either (.node fun _ => by simp) (.either (.heavier hplain hgeneric) .never)
  refine checked_declared .typeDeclaration [.typeSpec, .typeAlias] (by simp) (fun _ h => h)
    (.either honly (.either (onlyYields_closedGroup honly) .never)) ?_
  simp [hspec]

theorem checked_declaration : Checked MayHold MayYield declaration :=
  ⟨checked_constDeclaration, checked_typeDeclaration, checked_varDeclaration, trivial⟩

theorem checked_sourceFile : Checked MayHold MayYield sourceFile := by
  have hpackage : Checked MayHold MayYield packageClause := by
    simp [packageClause]
  have hrest : Checked MayHold MayYield functionRest := by
    simp [functionRest]
  have hfunction : Checked MayHold MayYield functionDeclaration := by
    simp [functionDeclaration, hrest]
  have hmethod : Checked MayHold MayYield methodDeclaration := by
    simp [methodDeclaration, hrest]
  simp [sourceFile, topLevelDeclaration, hpackage, checked_importDeclaration, hfunction, hmethod]

theorem checked_anyStatement {clause : Bool} : Checked MayHold MayYield (anyStatement clause) := by
  simp [anyStatement, checked_declaration, checked_forStatement, checked_typeSwitchStatement,
    checked_expressionSwitchStatement, checked_selectStatement, checked_label, checked_simpleStatement, jump]

/-- The phrases of all rules are in order. -/
theorem checked_phrase (r : Rule) : Checked MayHold MayYield (phrase r) := by
  cases r with
  | sourceFile => exact checked_sourceFile
  | type line => exact checked_anyType
  | simpleType line => exact checked_simpleType
  | typeElem line => simp [phrase, checked_typeAlternatives]
  | typeArguments => exact checked_typeArguments
  | typeParameters except => exact checked_typeParameters
  | parameters => exact checked_parameters
  | fieldList => exact checked_fieldList
  | expression c => exact checked_rule
  | binary level c => exact checked_binary
  | unary c => exact checked_unary
  | operand c => exact checked_operand
  | literalValue => exact checked_literalValue
  | block => exact checked_block
  | statement clause => exact checked_anyStatement
  | ifStatement => exact checked_ifStatement

/-- Every rule is read as items that stand in the source and have the labels it may yield. -/
theorem laid {fuel : Nat} {p : Part} {c c' : Cursor} {items : List Item}
    (h : Phrase.read phrase fuel p c = some (items, c')) : Reads (LaidMeaning MayHold MayYield) p c items c' := by
  refine reads_of_read ?_ h
  intro r c items c' hreads
  exact ⟨fun p hp => laid_of_reads hreads (checked_phrase r) hp,
    mayYield_of_yields (yields_of_reads (fun hmeans => hmeans.2) hreads)⟩

end Grammar

end GoOutline
