import GoOutline.Proofs.Grammar.Fresh
import GoOutline.Proofs.Model.Values

/-!
# Arguments of lists: `field_args`, `parameter_args` and `result_args`

Lists of fields, of parameters and of results are read alike: their declarations stand between commas and comments, and
each makes one argument for each of its names, or a single one with a made-up name. `ListForm` holds what differs, and
`ListForm.Lists` says which arguments belong to a list, by counts over the nodes that stand before a declaration. Every
list of an accepted source has just these (`args_in_order`), and a single result type the one that it has as the only
declaration of a list.
-/
namespace GoOutline

open Node

/-! ## Forms of lists -/

/-- How a list tells its declarations and their names, whether there are tags, and how made-up names begin. -/
structure ListForm where
  isDeclaration : Node → Bool
  nameKind : Kind
  hasTags : Bool
  stem : String

namespace ListForm

/-- Lists of fields. -/
def fields : ListForm where
  isDeclaration n := n.kind == .fieldDeclaration
  nameKind := .fieldIdentifier
  hasTags := true
  stem := argStem

/-- Lists of parameters, those of results among them. -/
def parameters (stem : String) : ListForm where
  isDeclaration := isParameter
  nameKind := .identifier
  hasTags := false
  stem

variable {form : ListForm} {source : String} {list decl type : Node} {number : Nat} {own args : List Arg}

/-- The number of names of a declaration. -/
def nameCount (form : ListForm) (decl : Node) : Nat :=
  decl.children.countP (isNameOf form.nameKind)

/-- How many arguments the declarations among some nodes make: as many as each has names, and one if it has none. -/
def width (form : ListForm) : List Node → Nat
  | [] => 0
  | n :: ns => (if form.isDeclaration n then max 1 (form.nameCount n) else 0) + form.width ns

/-- Every declaration of the list has a type. -/
def IsTyped (form : ListForm) (list : Node) : Prop :=
  ∀ decl ∈ list.children, form.isDeclaration decl = true → (decl.childIn .type).isSome = true

instance (form : ListForm) (list : Node) : Decidable (form.IsTyped list) :=
  inferInstanceAs (Decidable (∀ decl ∈ list.children,
    form.isDeclaration decl = true → (decl.childIn .type).isSome = true))

/-- What a declaration with a type node makes its arguments be of: a variadic type from its ellipsis on, a pointer from
its star on if it is a field without a name, and else just what the node is. -/
inductive TypedAs (form : ListForm) (source : String) (decl type : Node) : TypeExpr → Prop
  | plain (single : decl.kind ≠ .variadicParameterDeclaration)
      (starless : decl.kind = .fieldDeclaration → form.nameCount decl = 0 →
        ∀ first, decl.children.head? = some first → first.kind ≠ .token "*") :
      TypedAs form source decl type (type.classify source)
  | pointer {star : Node} (embedded : decl.kind = .fieldDeclaration) (unnamed : form.nameCount decl = 0)
      (first : decl.children.head? = some star) (mark : star.kind = .token "*") :
      TypedAs form source decl type (.pointer ⟨star.span.start, type.span.stop⟩ (type.classify source))
  | variadic {before after : List Node} {ellipsis : Node} (many : decl.kind = .variadicParameterDeclaration)
      (split : decl.children = before ++ ellipsis :: after) (mark : ellipsis.kind = .token "...")
      (first : ∀ n ∈ before, n.kind ≠ .token "...") :
      TypedAs form source decl type (.variadic ⟨ellipsis.span.start, type.span.stop⟩ (type.classify source))

/-- The arguments are those of a declaration with so many declarations before it. -/
structure Makes (form : ListForm) (source : String) (decl : Node) (number : Nat) (own : List Arg) : Prop where
  named : form.nameCount decl ≠ 0 →
    own.map (·.name) = (decl.children.filter (isNameOf form.nameKind)).map (·.text source)
  unnamed : form.nameCount decl = 0 → own.map (·.name) = [form.stem ++ toString number]
  alike : ∃ node type, decl.childIn .type = some node ∧ form.TypedAs source decl node type ∧
    ∀ a ∈ own, a.type = type ∧ a.comment = decl.commentText source ∧
      a.tag = if form.hasTags then (decl.childIn .tag).map (·.text source) else none

/-- The argument at the place is that of a declaration without a name. -/
def UnnamedAt (form : ListForm) (list : Node) (place : Nat) : Prop :=
  ∃ before decl after, list.children = before ++ decl :: after ∧ form.isDeclaration decl = true ∧
    form.nameCount decl = 0 ∧ place = form.width before

/-- The arguments are those of the declarations of a list, one after the other. -/
structure Lists (form : ListForm) (source : String) (list : Node) (args : List Arg) : Prop where
  in_order : ∀ before decl after, list.children = before ++ decl :: after → form.isDeclaration decl = true →
    ∃ front own back, args = front ++ own ++ back ∧ front.length = form.width before ∧
      back.length = form.width after ∧ form.Makes source decl (before.countP form.isDeclaration) own
  length_eq : args.length = form.width list.children
  distinct : ∀ i j a b, form.UnnamedAt list i → form.UnnamedAt list j → args[i]? = some a → args[j]? = some b →
    a.name = b.name → i = j

/-! ## Declarations -/

theorem namesIn_eq_nil_iff (source : String) : decl.namesIn source form.nameKind = [] ↔ form.nameCount decl = 0 := by
  rw [namesIn_eq, List.map_eq_nil_iff, nameCount, List.countP_eq_length_filter, List.length_eq_zero_iff]

theorem Makes.length_eq (h : form.Makes source decl number own) : own.length = max 1 (form.nameCount decl) := by
  by_cases hcount : form.nameCount decl = 0
  · have hnames := congrArg List.length (h.unnamed hcount)
    rw [List.length_map, List.length_singleton] at hnames
    omega
  · have hnames := congrArg List.length (h.named hcount)
    rw [List.length_map, List.length_map, ← List.countP_eq_length_filter] at hnames
    rw [hnames, ← nameCount]
    omega

/-- The slots of a declaration are its arguments, if they have its type. -/
theorem makes_slots {t : TypeExpr} (htype : decl.childIn .type = some type) (htyped : form.TypedAs source decl type t)
    (number : Nat) :
    form.Makes source decl number (slots (decl.namesIn source form.nameKind) (slotName form.stem number) t
      (decl.commentText source) (if form.hasTags then (decl.childIn .tag).map (·.text source) else none)) := by
  constructor
  · intro hcount
    have hsome := mt (namesIn_eq_nil_iff source).1 hcount
    rw [← namesIn_eq]
    unfold slots
    split
    · rename_i hnone
      exact absurd hnone hsome
    · rw [List.map_map]
      exact List.map_id _
  · intro hcount
    rw [(namesIn_eq_nil_iff source).2 hcount]
    rfl
  · refine ⟨type, t, htype, htyped, fun a ha => ?_⟩
    unfold slots at ha
    split at ha
    · obtain rfl := List.mem_singleton.1 ha
      exact ⟨rfl, rfl, rfl⟩
    · obtain ⟨name, -, rfl⟩ := List.mem_map.1 ha
      exact ⟨rfl, rfl, rfl⟩

theorem makes_fieldSlots (hdecl : fields.isDeclaration decl = true) (htype : (decl.childIn .type).isSome = true)
    (number : Nat) : fields.Makes source decl number (decl.fieldSlots source number) := by
  have hkind : decl.kind = .fieldDeclaration := by simpa [fields] using hdecl
  obtain ⟨type, htype⟩ := Option.isSome_iff_exists.1 htype
  have hnames : (decl.namesIn source .fieldIdentifier).isEmpty = true ↔ fields.nameCount decl = 0 := by
    rw [List.isEmpty_iff, ← namesIn_eq_nil_iff source]
    rfl
  rw [fieldSlots, htype]
  refine makes_slots htype ?_ number
  split
  · rename_i hnone
    unfold embeddedType
    split
    · rename_i first hfirst
      split
      · rename_i hstar
        exact .pointer hkind (hnames.1 hnone) hfirst (by simpa using hstar)
      · rename_i hplain
        refine .plain (by simp [hkind]) fun _ _ star hstar => ?_
        obtain rfl := Option.some.inj (hfirst.symm.trans hstar)
        simpa using hplain
    · rename_i hfirst
      exact .plain (by simp [hkind]) fun _ _ star hstar => by simp [hfirst] at hstar
  · rename_i hsome
    exact .plain (by simp [hkind]) fun _ hcount => absurd (hnames.2 hcount) hsome

/-- A written variadic parameter has its ellipsis. -/
theorem exists_ellipsis (h : decl.IsWritten source) (hkind : decl.kind = .variadicParameterDeclaration)
    (htype : decl.childIn .type = some type) :
    ∃ ellipsis, decl.children.find? (fun child => child.kind == .token "...") = some ellipsis := by
  obtain ⟨_, _, _, -, hwritten⟩ := h
  obtain ⟨_, _, _, _, -, -, -, -, -, hshape⟩ :=
    hwritten.opened (List.ne_nil_of_mem (List.mem_of_find?_eq_some htype))
  rw [hkind] at hshape
  obtain ⟨kind, -, hlabels⟩ := hshape
  have hlabel : (Kind.token "...", none) ∈ decl.parts.map label := by
    rcases hlabels with hlabels | hlabels <;> simp [hlabels]
  obtain ⟨mark, hmark, hlabel⟩ := List.mem_map.1 hlabel
  refine Option.isSome_iff_exists.1 (List.find?_isSome.2 ⟨mark, (List.mem_filter.1 hmark).1, ?_⟩)
  simp [(label_eq hlabel).1]

theorem makes_parameterSlots {stem : String} (hwritten : decl.IsWritten source)
    (hdecl : (parameters stem).isDeclaration decl = true) (htype : (decl.childIn .type).isSome = true) (number : Nat) :
    (parameters stem).Makes source decl number (decl.parameterSlots source stem number) := by
  obtain ⟨type, htype⟩ := Option.isSome_iff_exists.1 htype
  obtain ⟨t, ht, htyped⟩ : ∃ t, decl.parameterType source = some t ∧ (parameters stem).TypedAs source decl type t := by
    by_cases hkind : decl.kind = .variadicParameterDeclaration
    · obtain ⟨ellipsis, hfind⟩ := exists_ellipsis hwritten hkind htype
      obtain ⟨hmark, before, after, hsplit, hbefore⟩ := List.find?_eq_some_iff_append.1 hfind
      have ht : decl.parameterType source =
          some (.variadic ⟨ellipsis.span.start, type.span.stop⟩ (type.classify source)) := by
        rw [parameterType, htype, Option.bind_some, if_pos (by simp [hkind]), hfind]
        rfl
      exact ⟨_, ht, .variadic hkind hsplit (by simpa using hmark) (by simpa using hbefore)⟩
    · have hparameter : decl.kind = .parameterDeclaration := by
        simpa [parameters, isParameter, hkind] using hdecl
      exact ⟨_, by simp [parameterType, htype, hkind], .plain hkind (by simp [hparameter])⟩
  rw [parameterSlots, ht]
  exact makes_slots htype htyped number

/-! ## Lists -/

/-- What declarations in a row make, with so many declarations before them. -/
def argsFrom (make : Node → Nat → List Arg) (start : Nat) (decls : List Node) : List Arg :=
  (decls.zipIdx start).flatMap fun (decl, number) => make decl number

theorem argsFrom_append (make : Node → Nat → List Arg) (start : Nat) (decls more : List Node) :
    argsFrom make start (decls ++ more) = argsFrom make start decls ++ argsFrom make (start + decls.length) more := by
  rw [argsFrom, List.zipIdx_append, List.flatMap_append, Nat.add_comm]
  rfl

theorem argsFrom_cons (make : Node → Nat → List Arg) (start : Nat) (decls : List Node) :
    argsFrom make start (decl :: decls) = make decl start ++ argsFrom make (start + 1) decls := by
  rw [argsFrom, List.zipIdx_cons, List.flatMap_cons]
  rfl

section

variable {make : Node → Nat → List Arg} {before after : List Node}

theorem length_argsFrom (ns : List Node) (h : ∀ decl ∈ ns, form.isDeclaration decl = true → ∀ number,
      form.Makes source decl number (make decl number)) (start : Nat) :
    (argsFrom make start (ns.filter form.isDeclaration)).length = form.width ns := by
  induction ns generalizing start with
  | nil => rfl
  | cons n ns ih =>
    have ih := ih fun decl hmem => h decl (.tail _ hmem)
    by_cases hdecl : form.isDeclaration n = true
    · rw [List.filter_cons_of_pos hdecl, argsFrom_cons, List.length_append, ih,
        (h n List.mem_cons_self hdecl start).length_eq, width, if_pos hdecl]
    · rw [List.filter_cons_of_neg hdecl, ih, width, if_neg hdecl, Nat.zero_add]

/-- The arguments of one declaration stand behind those of the declarations before it. -/
theorem argsFrom_split (h : ∀ decl ∈ list.children, form.isDeclaration decl = true → ∀ number,
      form.Makes source decl number (make decl number)) (hsplit : list.children = before ++ decl :: after)
    (hdecl : form.isDeclaration decl = true) :
    ∃ front own back, argsFrom make 0 (list.children.filter form.isDeclaration) = front ++ own ++ back ∧
      front.length = form.width before ∧ back.length = form.width after ∧
      form.Makes source decl (before.countP form.isDeclaration) own := by
  have hbefore := length_argsFrom before (fun n hn => h n (by simp [hsplit, hn])) 0
  have hafter := length_argsFrom after (fun n hn => h n (by simp [hsplit, hn])) (before.countP form.isDeclaration + 1)
  refine ⟨_, _, _, ?_, hbefore, hafter, h decl (by simp [hsplit]) hdecl _⟩
  rw [hsplit, List.filter_append, List.filter_cons_of_pos hdecl, argsFrom_append, argsFrom_cons, Nat.zero_add,
    ← List.countP_eq_length_filter, List.append_assoc]

end

/-- The digits of a number give it back, so made-up names with different numbers differ. -/
theorem numbered_inj {stem : String} {i j : Nat} : stem ++ toString i = stem ++ toString j ↔ i = j := by
  rw [String.append_right_inj]
  constructor
  · intro h
    have hvalue := congrArg (fun digits : String => Nat.ofDigitChars 10 digits.toList 0) h
    simpa [Nat.toString_eq_ofList_toDigits] using hvalue
  · rintro rfl
    rfl

/-- Of two places in a list, the one with fewer nodes before it has fewer declarations before it. -/
theorem countP_lt_of_split {before before' after after' : List Node} {decl' : Node}
    (h : before ++ decl :: after = before' ++ decl' :: after') (hdecl : form.isDeclaration decl = true)
    (hlength : before.length < before'.length) :
    before.countP form.isDeclaration < before'.countP form.isDeclaration := by
  rcases List.append_eq_append_iff.1 h with ⟨middle, rfl, hmiddle⟩ | ⟨middle, rfl, -⟩
  · cases middle with
    | nil => simp at hlength
    | cons first middle =>
      obtain ⟨rfl, -⟩ := List.cons.inj hmiddle
      rw [List.countP_append, List.countP_cons_of_pos hdecl]
      omega
  · rw [List.length_append] at hlength
    omega

/-- Two declarations of a list with as many declarations before them are the same one. -/
theorem eq_of_countP_eq {before before' after after' : List Node} {decl' : Node}
    (h : before ++ decl :: after = before' ++ decl' :: after') (hdecl : form.isDeclaration decl = true)
    (hdecl' : form.isDeclaration decl' = true)
    (hcount : before.countP form.isDeclaration = before'.countP form.isDeclaration) : before = before' := by
  rcases Nat.lt_trichotomy before.length before'.length with hlt | heq | hgt
  · exact absurd hcount (Nat.ne_of_lt (countP_lt_of_split h hdecl hlt))
  · exact (List.append_inj h heq).1
  · exact absurd hcount.symm (Nat.ne_of_lt (countP_lt_of_split h.symm hdecl' hgt))

/-- What makes the arguments of every declaration makes those of the list. -/
theorem lists_argsFrom {make : Node → Nat → List Arg} (h : ∀ decl ∈ list.children, form.isDeclaration decl = true →
      ∀ number, form.Makes source decl number (make decl number)) :
    form.Lists source list (argsFrom make 0 (list.children.filter form.isDeclaration)) := by
  have hmade : ∀ before decl after a, list.children = before ++ decl :: after → form.isDeclaration decl = true →
      form.nameCount decl = 0 →
      (argsFrom make 0 (list.children.filter form.isDeclaration))[form.width before]? = some a →
      a.name = form.stem ++ toString (before.countP form.isDeclaration) := by
    intro before decl after a hsplit hdecl hcount ha
    obtain ⟨front, own, back, hargs, hfront, -, hown⟩ := argsFrom_split h hsplit hdecl
    obtain ⟨b, rfl, hname⟩ := List.map_eq_singleton_iff.1 (hown.unnamed hcount)
    rw [hargs, ← hfront] at ha
    obtain rfl : b = a := by simpa using ha
    exact hname
  refine ⟨fun before decl after hsplit hdecl => argsFrom_split h hsplit hdecl, length_argsFrom _ h 0, ?_⟩
  rintro _ _ a b ⟨before, decl, after, hsplit, hdecl, hcount, rfl⟩ ⟨before', decl', after', hsplit', hdecl', hcount', rfl⟩
    ha hb hname
  rw [hmade before decl after a hsplit hdecl hcount ha, hmade before' decl' after' b hsplit' hdecl' hcount' hb,
    numbered_inj] at hname
  rw [eq_of_countP_eq (hsplit.symm.trans hsplit') hdecl hdecl' hname]

theorem lists_fieldArgs (hlist : fields.IsTyped list) : fields.Lists source list (list.fieldArgs source) := by
  have hargs : list.fieldArgs source =
      argsFrom (fun decl number => decl.fieldSlots source number) 0 (list.children.filter fields.isDeclaration) := by
    rw [fieldArgs, namedChildren, List.filter_filter, argsFrom]
    congr 2
    refine List.filter_congr fun n _ => ?_
    cases hkind : n.kind <;> simp [fields, isNamed, Kind.isNamed, hkind]
  rw [hargs]
  exact lists_argsFrom fun decl hmem hdecl number => makes_fieldSlots hdecl (hlist decl hmem hdecl) number

theorem parameterArgs_eq (stem : String) (list : Node) : list.parameterArgs source stem =
    argsFrom (fun decl number => decl.parameterSlots source stem number) 0
      (list.children.filter (parameters stem).isDeclaration) := by
  rw [parameterArgs, namedChildren, List.filter_filter, argsFrom]
  congr 2
  refine List.filter_congr fun n _ => ?_
  cases hkind : n.kind <;> simp [parameters, isParameter, isNamed, Kind.isNamed, hkind]

theorem lists_parameterArgs {stem : String} (hwritten : list.IsWritten source)
    (hlist : (parameters stem).IsTyped list) :
    (parameters stem).Lists source list (list.parameterArgs source stem) := by
  rw [parameterArgs_eq]
  exact lists_argsFrom fun decl hmem hdecl number =>
    makes_parameterSlots (hwritten.child hmem) hdecl (hlist decl hmem hdecl) number

/-! ## Results -/

/-- The type of a written parameter is a type and no list. -/
theorem isType_of_isParameter (h : decl.IsWritten source) (hdecl : decl.isParameter = true)
    (htype : decl.childIn .type = some type) : type.kind.isType = true := by
  obtain ⟨_, _, _, -, hwritten⟩ := h
  obtain ⟨labels, hlabels, hmem⟩ := hwritten.label_childIn htype
  have hkind : decl.kind = .parameterDeclaration ∨ decl.kind = .variadicParameterDeclaration := by
    simpa [isParameter] using hdecl
  rcases hkind with hkind | hkind
  · rw [hkind] at hlabels
    exact hlabels _ hmem rfl
  · rw [hkind] at hlabels
    obtain ⟨kind, hkind, rfl | rfl⟩ := hlabels
    all_goals
      obtain rfl : type.kind = kind := by simpa using hmem
      exact hkind

theorem resultArgs_of_ne (h : type.kind ≠ .parameterList) :
    type.resultArgs source = [⟨resultStem ++ toString 0, type.classify source, "", none⟩] := by
  rw [resultArgs, if_neg (by simpa using h)]
  rfl

/-- A list of results whose only declaration has no name makes the argument that the type of the declaration makes as a
single result, apart from the comment. A variadic type has that type inside it. -/
theorem resultArgs_sole (hwritten : list.IsWritten source) (hkind : list.kind = .parameterList)
    (hsole : list.children.filter isParameter = [decl]) (hunnamed : (parameters resultStem).nameCount decl = 0)
    (htype : decl.childIn .type = some type) :
    ∃ arg, list.resultArgs source = [arg] ∧
      (decl.kind = .parameterDeclaration → type.resultArgs source = [{ arg with comment := "" }]) ∧
      (decl.kind = .variadicParameterDeclaration →
        ∃ span t, arg.type = .variadic span t ∧ type.resultArgs source = [{ arg with type := t, comment := "" }]) := by
  have hdecl : decl ∈ list.children.filter isParameter := by simp [hsole]
  obtain ⟨hmem, hparameter⟩ := List.mem_filter.1 hdecl
  have hdeclWritten : decl.IsWritten source := hwritten.child hmem
  have hbare : type.resultArgs source = [⟨resultStem ++ toString 0, type.classify source, "", none⟩] :=
    resultArgs_of_ne fun hlist => by
      have htypeKind := isType_of_isParameter hdeclWritten hparameter htype
      rw [hlist] at htypeKind
      cases htypeKind
  have hmakes : (parameters resultStem).Makes source decl 0 (decl.parameterSlots source resultStem 0) :=
    makes_parameterSlots hdeclWritten hparameter (by simp [htype]) 0
  obtain ⟨arg, hown, hname⟩ := List.map_eq_singleton_iff.1 (hmakes.unnamed hunnamed)
  obtain ⟨type', t, htype', htyped, halike⟩ := hmakes.alike
  obtain rfl := Option.some.inj (htype.symm.trans htype')
  obtain ⟨htypeEq, -, htagEq⟩ := halike arg (by simp [hown])
  have hname : arg.name = resultStem ++ toString 0 := hname
  have htagEq : arg.tag = none := htagEq
  have hargs : list.resultArgs source = [arg] := by
    have hdecls : list.children.filter (parameters resultStem).isDeclaration = [decl] := hsole
    rw [resultArgs, if_pos (by simp [hkind]), parameterArgs_eq, ← hown, hdecls, argsFrom_cons]
    simp [argsFrom]
  refine ⟨arg, hargs, fun hplain => ?_, fun hvariadic => ?_⟩
  · cases htyped with
    | plain => rw [hbare, hname, htypeEq, htagEq]
    | pointer embedded => simp [hplain] at embedded
    | variadic many => simp [hplain] at many
  · cases htyped with
    | plain single => exact absurd hvariadic single
    | pointer embedded => simp [hvariadic] at embedded
    | variadic => exact ⟨_, _, htypeEq, by rw [hbare, hname, htagEq]⟩

end ListForm

/-! ## Accepted sources -/

/-- The arguments of every list in an accepted source whose declarations have types: in source order, for each declaration
one argument for each name, or one that is named by the number of declarations before it, with the type, comment and tag
of the declaration. A list of results with one nameless declaration makes what the type of that makes on its own. -/
theorem args_in_order {source : String} {root parent list : Node} {a : Address} (hparse : parse source = .ok root)
    (hat : root.at? a = some parent) (hlist : list ∈ parent.children) :
    (ListForm.fields.IsTyped list → ListForm.fields.Lists source list (list.fieldArgs source)) ∧
    (∀ stem, (ListForm.parameters stem).IsTyped list →
      (ListForm.parameters stem).Lists source list (list.parameterArgs source stem)) ∧
    (list.kind = .parameterList → (ListForm.parameters resultStem).IsTyped list →
      (ListForm.parameters resultStem).Lists source list (list.resultArgs source)) ∧
    ∀ decl type, list.kind = .parameterList → list.children.filter isParameter = [decl] →
      (ListForm.parameters resultStem).nameCount decl = 0 → decl.childIn .type = some type →
      ∃ arg, list.resultArgs source = [arg] ∧
        (decl.kind = .parameterDeclaration → type.resultArgs source = [{ arg with comment := "" }]) ∧
        (decl.kind = .variadicParameterDeclaration →
          ∃ span t, arg.type = .variadic span t ∧ type.resultArgs source = [{ arg with type := t, comment := "" }]) := by
  have hwritten : list.IsWritten source := by
    cases a with
    | nil =>
      obtain rfl := Option.some.inj hat
      exact (written_of_parse hparse list hlist).1
    | cons place rest => exact (written_at_of_parse hparse hat (by simp)).child hlist
  refine ⟨ListForm.lists_fieldArgs, fun stem => ListForm.lists_parameterArgs hwritten, fun hkind htyped => ?_, ?_⟩
  · rw [resultArgs, if_pos (by simp [hkind])]
    exact ListForm.lists_parameterArgs hwritten htyped
  · intro decl type hkind hsole hunnamed htype
    exact ListForm.resultArgs_sole hwritten hkind hsole hunnamed htype

/-- A file with grouped names, embedded fields, a variadic parameter and comments between declarations. -/
def mixedListsSource : String :=
  "package p\n\ntype S struct\x7b\n\t// a\n\tA, B int `t`\n\t/* b */\n\n\t*T // c\n\tq.U\n\x7d\n\n" ++
    "type I interface\x7b\n\tM(x, y []T, /* d */ ...T)\n\tN() (error /* e */)\n\x7d\n"

theorem args_in_order_mixedLists : ∃ root struct method other fields inputs outputs, parse mixedListsSource = .ok root ∧
    (root.at? [2, 1, 1] = some struct ∧ fields ∈ struct.children ∧
      ListForm.fields.Lists mixedListsSource fields (fields.fieldArgs mixedListsSource) ∧
      (fields.fieldArgs mixedListsSource).map (fun a => (a.name, a.typeText mixedListsSource, a.tag)) =
        [("A", "int", some "`t`"), ("B", "int", some "`t`"), ("arg1", "*T", none), ("arg2", "q.U", none)]) ∧
    (root.at? [4, 1, 1, 2] = some method ∧ inputs ∈ method.children ∧
      (ListForm.parameters argStem).Lists mixedListsSource inputs (inputs.parameterArgs mixedListsSource argStem) ∧
      (inputs.parameterArgs mixedListsSource argStem).map (fun a => (a.name, a.typeText mixedListsSource)) =
        [("x", "[]T"), ("y", "[]T"), ("arg1", "...T")]) ∧
    root.at? [4, 1, 1, 4] = some other ∧ outputs ∈ other.children ∧
      ∃ decl type arg, outputs.children.filter isParameter = [decl] ∧ decl.childIn .type = some type ∧
        outputs.resultArgs mixedListsSource = [arg] ∧ type.resultArgs mixedListsSource = [{ arg with comment := "" }] := by
  obtain ⟨root, hparse, hfacts⟩ := exists_of_any (x := parse mixedListsSource)
    (p := fun root =>
      ((root.at? [2, 1, 1]).any fun struct => struct.children[1]?.any fun fields =>
        decide (ListForm.fields.IsTyped fields) &&
          (fields.fieldArgs mixedListsSource).map (fun a => (a.name, a.typeText mixedListsSource, a.tag)) ==
            [("A", "int", some "`t`"), ("B", "int", some "`t`"), ("arg1", "*T", none), ("arg2", "q.U", none)]) &&
      (((root.at? [4, 1, 1, 2]).any fun method => method.children[1]?.any fun inputs =>
        decide ((ListForm.parameters argStem).IsTyped inputs) &&
          (inputs.parameterArgs mixedListsSource argStem).map (fun a => (a.name, a.typeText mixedListsSource)) ==
            [("x", "[]T"), ("y", "[]T"), ("arg1", "...T")]) &&
      ((root.at? [4, 1, 1, 4]).any fun other => other.children[2]?.any fun outputs =>
        outputs.kind == .parameterList && ((outputs.children.filter isParameter).length == 1 &&
          (outputs.children.filter isParameter).all fun decl => decl.kind == .parameterDeclaration &&
            ((ListForm.parameters resultStem).nameCount decl == 0 && (decl.childIn .type).isSome)))))
    (by decide +kernel)
  simp only [Bool.and_eq_true, Option.any_eq_true, decide_eq_true_eq, beq_iff_eq, List.all_eq_true] at hfacts
  obtain ⟨⟨struct, hstruct, fields, hfields, htyped, hfieldArgs⟩, ⟨method, hmethod, inputs, hinputs, htyped', hinputArgs⟩,
    other, hother, outputs, houtputs, hkind, hone, hdecl⟩ := hfacts
  obtain ⟨decl, hsole⟩ := List.length_eq_one_iff.1 hone
  obtain ⟨hplain, hunnamed, htype⟩ := hdecl decl (by simp [hsole])
  obtain ⟨type, htype⟩ := Option.isSome_iff_exists.1 htype
  have hfields := List.mem_of_getElem? hfields
  have hinputs := List.mem_of_getElem? hinputs
  have houtputs := List.mem_of_getElem? houtputs
  obtain ⟨arg, harg, hbare, -⟩ :=
    (args_in_order hparse hother houtputs).2.2.2 decl type hkind hsole hunnamed htype
  exact ⟨root, struct, method, other, fields, inputs, outputs, hparse,
    ⟨hstruct, hfields, (args_in_order hparse hstruct hfields).1 htyped, hfieldArgs⟩,
    ⟨hmethod, hinputs, (args_in_order hparse hmethod hinputs).2.1 argStem htyped', hinputArgs⟩,
    hother, houtputs, decl, type, arg, hsole, htype, harg, hbare hplain⟩

end GoOutline
