import GoOutline.Proofs.Model.Passages

/-!
# Structs read again from their renderings

A struct is rendered as a file of its own: the declaration of its name with the text of its type. If the tree of the
rendering has the struct type that the source has, moved to its new place, then that struct is all that is read from it,
with the same fields, and it renders as before (`struct_of_rendering`). It does not matter whether the struct was declared
in a group, in parentheses, as an alias or with type parameters.
-/
namespace GoOutline

/-! ## Struct types -/

namespace Node

/-- The struct types that a tree declares, in source order, each with its name. -/
def structTypes (root : Node) : List (Node × Node) :=
  root.namedChildren.flatMap fun n =>
    if n.kind = .typeDeclaration then
      n.groupSpecs.filterMap fun spec => spec.declared?.filter fun declared => declared.2.kind == .structType
    else []

variable {source : String} {root : Node}

/-- The structs of a parsed tree are made of its struct types, one by one. -/
theorem forall₂_structTypes (hparse : parse source = .ok root) :
    List.Forall₂ (fun (s : Struct) declared => ∃ comment, s = declared.1.toStruct source declared.2 comment)
      (extract source root).structs root.structTypes := by
  have hread : extract source root = _ := Walk.run_topLevels (isTopLevel_of_parse hparse) Walk.start
  rw [hread]
  refine List.rel_flatMap (List.forall₂_same.2 fun _ _ => rfl) ?_
  rintro n _ rfl
  by_cases hgroup : n.kind = .typeDeclaration
  · simp only [structsOf, if_pos hgroup]
    refine List.rel_filterMap ?_ (List.forall₂_same.2 fun _ _ => rfl)
    rintro spec _ rfl
    cases hdeclared : spec.declared? with
    | none => simp [record?, hdeclared]
    | some declared =>
      by_cases hkind : declared.2.kind = .structType
      · simp [record?, hdeclared, hkind, Option.filter]
      · simp [record?, hdeclared, hkind, Option.filter]
  · simp only [structsOf, if_neg hgroup]
    exact .nil

theorem of_mem_structTypes {H : Node → Prop} (hchild : ∀ n m, H n → m ∈ n.children → H m)
    (hroot : ∀ n ∈ root.children, H n) {name type : Node} (h : (name, type) ∈ root.structTypes) :
    H type ∧ type.kind = .structType := by
  obtain ⟨n, hn, h⟩ := List.mem_flatMap.1 h
  split at h
  · obtain ⟨spec, hspec, h⟩ := List.mem_filterMap.1 h
    obtain ⟨hdeclared, hkind⟩ := Option.filter_eq_some_iff.1 h
    have hspec := spec_of_closed hchild (hroot n (List.mem_filter.1 hn).1) hspec
    exact ⟨declared_of_closed hchild hspec hdeclared, by simpa using hkind⟩
  · cases h

end Node

/-! ## Renderings -/

namespace Struct

/-- What stands before the struct type in a rendering. -/
def header (name : String) : String := "package p\n\n" ++ ("type " ++ name ++ " ")

/-- A file with the declaration of the struct. What stands behind the declaration is given: the parser wants a line feed
there. -/
def rendering (source : String) (s : Struct) (rest : String) : String :=
  "package p\n\n" ++ s.declaration source ++ rest

theorem rendering_eq (source : String) (s : Struct) (rest : String) :
    s.rendering source rest = header s.name ++ (s.definition.text source ++ rest) := by
  simp only [rendering, declaration, header, String.append_assoc]

end Struct

/-- The tree of a file has one type declaration. It declares the one name, and the type of it is the given one, moved to
where it stands now, which is right behind the header. -/
def Node.redeclares (text name : String) (root type : Node) : Bool :=
  root.namedChildren.all isTopLevel &&
  match root.namedChildren.filter fun n => n.kind == .typeDeclaration with
  | [group] =>
    match group.groupSpecs with
    | [spec] =>
      match spec.childIn .name, spec.childIn .type with
      | some written, some type' =>
        written.text text == name && type'.start.byte == Text.byteLength (Struct.header name).toList &&
          type.isMoved type.start type'.start type'
      | _, _ => false
    | _ => false
  | _ => false

theorem Node.exists_of_redeclares {text name : String} {type root : Node} (h : root.redeclares text name type = true) :
    (∀ n ∈ root.namedChildren, n.isTopLevel = true) ∧
    ∃ group spec written type', root.namedChildren.filter (fun n => n.kind == .typeDeclaration) = [group] ∧
      group.groupSpecs = [spec] ∧ spec.childIn .name = some written ∧ spec.childIn .type = some type' ∧
      written.text text = name ∧ type'.start.byte = Text.byteLength (Struct.header name).toList ∧
      type.isMoved type.start type'.start type' = true := by
  obtain ⟨htop, h⟩ := Bool.and_eq_true_iff.1 h
  refine ⟨List.all_eq_true.1 htop, ?_⟩
  split at h
  · rename_i group hgroup
    split at h
    · rename_i spec hspec
      split at h
      · rename_i written type' hwritten htype'
        simp only [Bool.and_eq_true, beq_iff_eq] at h
        exact ⟨group, spec, written, type', hgroup, hspec, hwritten, htype', h.1.1, h.1.2, h.2⟩
      · cases h
    · cases h
  · cases h

/-- A tree that redeclares a struct type holds the struct of it and no other. -/
theorem Node.Shared.structs_of_redeclares {text name : String} {type root : Node} (hshared : root.Shared)
    (hkind : type.kind = .structType) (h : root.redeclares text name type = true) :
    ∃ (written type' : Node) (comment : String), (extract text root).structs = [written.toStruct text type' comment] ∧
      written.text text = name ∧ type'.start.byte = Text.byteLength (Struct.header name).toList ∧
      type.isMoved type.start type'.start type' = true ∧ type'.Shared := by
  obtain ⟨htop, group, spec, written, type', hgroup, hspec, hwritten, htype, hname, hstart, hmoved⟩ :=
    exists_of_redeclares h
  have hkind' : type'.kind = .structType := (eq_of_isMoved hmoved).1.trans hkind
  have hmem : group ∈ root.namedChildren.filter fun n => n.kind == .typeDeclaration := by simp [hgroup]
  obtain ⟨hmem, hgroupKind⟩ := List.mem_filter.1 hmem
  have hread : extract text root = _ := Walk.run_topLevels htop Walk.start
  have hothers : ∀ n ∈ root.namedChildren, (n.kind == .typeDeclaration) = false → n.structsOf text = [] := by
    intro n _ hn
    simp only [beq_eq_false_iff_ne] at hn
    simp [structsOf, hn]
  have hdeclared : spec.declared? = some (written, type') := by
    simp [declared?, hwritten, htype, unwrapped_of_ne (n := type') (by simp [hkind'])]
  have hshared : type'.Shared := by
    have hchild : ∀ n m : Node, n.Shared → m ∈ n.children → m.Shared := fun _ _ hn hm => hn.child hm
    have hgroup := hshared.child (List.mem_filter.1 hmem).1
    exact (spec_of_closed hchild hgroup (by simp [hspec])).child (List.mem_of_find?_eq_some htype)
  refine ⟨written, type', spec.specComment text (group.commentText text), ?_, hname, hstart, hmoved, hshared⟩
  calc (extract text root).structs = root.namedChildren.flatMap (structsOf text) := by rw [hread]; rfl
    _ = [group].flatMap (structsOf text) := by rw [← hgroup, flatMap_filter_of_nil hothers]
    _ = [written.toStruct text type' (spec.specComment text (group.commentText text))] := by
      simp [structsOf, beq_iff_eq.1 hgroupKind, hspec, record?, hdeclared, hkind']

/-- What the struct of a type and the struct read from its rendering have in common. -/
structure Struct.Survives (source : String) (s : Struct) (text : String) (t : Struct) : Prop where
  name : t.name = s.name
  fields : List.Forall₂ (fun a b => a.agrees source text b = true ∧
    b.type = a.type.moved s.definition.start t.definition.start) s.fields t.fields
  definition : t.definition.text text = s.definition.text source
  declaration : t.declaration text = s.declaration source

theorem Passage.CarriesArg.agrees {source text : String} {p : Passage source text} {a b : Arg} (h : p.CarriesArg a b) :
    a.agrees source text b = true := by
  have htype : b.typeText text = a.typeText source := h.type.text_eq
  simp [Arg.agrees, h.name, htype, h.comment, h.tag]

theorem Node.survives {source text : String} {p : Passage source text} {rows : Int} {name name' type type' : Node}
    (h : type.Carried p rows type') (hhere : p.here = type.start.byte) (hthere : p.there = type'.start.byte)
    (hname : name'.text text = name.text source) (comment comment' : String) :
    (name.toStruct source type comment).Survives source text (name'.toStruct text type' comment') where
  name := hname
  fields := by
    refine (h.toStruct name name' comment comment').imp fun a b hab => ⟨hab.agrees, ?_⟩
    rw [hab.type.moved, hhere, hthere]
    rfl
  definition := h.text_eq
  declaration := by
    have hdefinition : type'.span.text text = type.span.text source := h.text_eq
    simp only [Struct.declaration, toStruct, hname, hdefinition]

theorem Node.survives_rendering {source rest : String} {name type root' : Node} {comment : String} {s : Struct}
    (hwritten : type.IsWritten source) (hshared : type.Shared) (hkind : type.kind = .structType)
    (hs : s = name.toStruct source type comment) (hroot : root'.Shared)
    (h : root'.redeclares (s.rendering source rest) s.name type = true) :
    ∃ t, (extract (s.rendering source rest) root').structs = [t] ∧ s.Survives source (s.rendering source rest) t := by
  obtain ⟨name', type', comment', hstructs, hname, hstart, hmoved, hshared'⟩ := hroot.structs_of_redeclares hkind h
  obtain ⟨word, before, after, hsource, hword⟩ := id hwritten
  have htext : s.definition.text source = String.ofList word := by
    rw [hs]
    exact WrittenIn.text_eq ⟨before, after, hsource, hword⟩
  let p : Passage source (s.rendering source rest) := {
    before, inside := word, after, head := (Struct.header s.name).toList, foot := rest.toList
    source_eq := by rw [hsource, List.append_assoc]
    text_eq := by rw [s.rendering_eq, htext, String.toList_append, String.toList_append, String.toList_ofList] }
  have hcarried : type.Carried p (type'.start.row - type.start.row) type' :=
    carried_of_isMoved hshared hshared' hwritten.placed (Nat.le_of_eq hword.start.symm) (Nat.le_of_eq hword.stop)
      hword.start.symm hstart.symm rfl hmoved
  have hnames : name'.text (s.rendering source rest) = name.text source := by
    rw [hname, hs]
    rfl
  have hsurvives := survives hcarried hword.start.symm hstart.symm hnames comment comment'
  rw [← hs] at hsurvives
  exact ⟨_, hstructs, hsurvives⟩

/-- A struct survives being rendered and read again, if the tree of the rendering, whichever parser it is from, has the
struct type that the source has. -/
theorem struct_of_rendering {source : String} {root : Node} {i : Nat} {s : Struct} (hparse : parse source = .ok root)
    (hs : (extract source root).structs[i]? = some s) :
    ∃ name type, root.structTypes[i]? = some (name, type) ∧
      ∀ (rest : String) (tree : Node), tree.Fresh → tree.InSequence →
        tree.shareComments.redeclares (s.rendering source rest) s.name type = true →
        ∃ t, (extract (s.rendering source rest) tree.shareComments).structs = [t] ∧
          s.Survives source (s.rendering source rest) t := by
  obtain ⟨hlength, hpairs⟩ := List.forall₂_iff_get.1 (Node.forall₂_structTypes hparse)
  obtain ⟨hi, hget⟩ := List.getElem?_eq_some_iff.1 hs
  have hi' : i < root.structTypes.length := hlength ▸ hi
  obtain ⟨⟨name, type⟩, hdeclared⟩ : ∃ declared, root.structTypes[i]? = some declared :=
    ⟨_, List.getElem?_eq_getElem hi'⟩
  obtain ⟨comment, hstruct⟩ : ∃ comment, s = name.toStruct source type comment := by
    have hstruct := hpairs i hi hi'
    rw [List.get_eq_getElem, List.get_eq_getElem, hget] at hstruct
    rw [List.getElem?_eq_getElem hi'] at hdeclared
    rwa [Option.some.inj hdeclared] at hstruct
  have hclosed : ∀ n m : Node, n.IsWritten source ∧ n.Shared → m ∈ n.children → m.IsWritten source ∧ m.Shared :=
    fun _ _ hn hm => ⟨hn.1.child hm, hn.2.child hm⟩
  obtain ⟨⟨hwritten, hshared⟩, hkind⟩ := Node.of_mem_structTypes hclosed
    (fun n hn => ⟨(written_of_parse hparse n hn).1, (shared_of_parse hparse).1.child hn⟩) (List.mem_of_getElem? hdeclared)
  refine ⟨name, type, hdeclared, fun rest tree hfresh hsequence hredeclares => ?_⟩
  exact Node.survives_rendering hwritten hshared hkind hstruct (hfresh.shared_shareComments hsequence) hredeclares

/-- A file with a struct in a group and in parentheses that has type parameters, comments, a tag and an embedded
pointer. -/
def listSource : String :=
  "package q\n\ntype (\n\t// L is a list.\n\tL[T any] ((struct\x7b\n\t\t// first\n" ++
    "\t\tHead, Tail *T \x60json:\"h\"\x60 // ends\n\n\t\t*Base // up\n\t\tm map[string][]error\n\t\x7d))\n)\n"

/-- The struct survives in the file that the parser reads, and also without the line feed at its end. -/
theorem struct_of_rendering_listSource : ∃ root s tree t t', parse listSource = .ok root ∧
    (extract listSource root).structs[0]? = some s ∧
    s.fields.map (fun a => (a.name, a.comment)) =
      [("Head", "first\nends"), ("Tail", "first\nends"), ("arg1", "up"), ("m", "")] ∧
    parseChars (s.rendering listSource "\n").toList = .ok tree ∧
    (extract (s.rendering listSource "\n") tree.shareComments).structs = [t] ∧
    s.Survives listSource (s.rendering listSource "\n") t ∧
    (extract (s.rendering listSource "") tree.shareComments).structs = [t'] ∧
    s.Survives listSource (s.rendering listSource "") t' := by
  obtain ⟨root, hparse, hfacts⟩ := exists_of_any (x := parse listSource)
    (p := fun root => (extract listSource root).structs[0]?.any fun s =>
      s.fields.map (fun a => (a.name, a.comment)) ==
          [("Head", "first\nends"), ("Tail", "first\nends"), ("arg1", "up"), ("m", "")] &&
        root.structTypes[0]?.any fun declared =>
          (parseChars (s.rendering listSource "\n").toList).toOption.any fun tree =>
            tree.shareComments.redeclares (s.rendering listSource "\n") s.name declared.2 &&
              tree.shareComments.redeclares (s.rendering listSource "") s.name declared.2)
    (by decide +kernel)
  obtain ⟨s, hs, hfacts⟩ := (Option.any_eq_true ..).1 hfacts
  obtain ⟨hfields, hfacts⟩ := Bool.and_eq_true_iff.1 hfacts
  obtain ⟨⟨name, type⟩, hdeclared, hagain⟩ := (Option.any_eq_true ..).1 hfacts
  obtain ⟨tree, htree, hredeclares⟩ := exists_of_any hagain
  obtain ⟨hredeclares, hredeclares'⟩ := Bool.and_eq_true_iff.1 hredeclares
  obtain ⟨name', type', hdeclared', hsurvives⟩ := struct_of_rendering hparse hs
  obtain ⟨rfl, rfl⟩ : name = name' ∧ type = type' := by simpa [hdeclared] using hdeclared'
  have hfresh := fresh_of_parseChars htree
  have hsequence := inSequence_of_parseChars htree
  obtain ⟨t, ht, hfound⟩ := hsurvives "\n" tree hfresh hsequence hredeclares
  obtain ⟨t', ht', hfound'⟩ := hsurvives "" tree hfresh hsequence hredeclares'
  exact ⟨root, s, tree, t, t', hparse, hs, beq_iff_eq.1 hfields, htree, ht, hfound, ht', hfound'⟩

end GoOutline
