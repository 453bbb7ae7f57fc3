import GoOutline.Proofs.Grammar.Placed
import GoOutline.Proofs.Model.Spelling

/-!
# Spans of the model

The spans in the model are those of nodes, but for two sorts that run from one node to another: an embedded field that is a
pointer begins with its star, and the type of a variadic parameter with its ellipsis. On a tree with its spans in place,
all of them are valid, so that each has its exact text, and those of types stand inside one another as the types
do (`spans_in_place`).
-/
namespace GoOutline

/-! ## Types -/

namespace TypeExpr

variable {source : String} {s : Span} {t key value : TypeExpr}

/-- The parts of the outermost layer stand inside it, and the key of a map before its value. -/
def Nests : TypeExpr → Prop
  | pointer s part | slice s part | array s part | variadic s part => part.span.Within s
  | map s key value => key.span.Within s ∧ value.span.Within s ∧ key.span.stop ≤ value.span.start
  | _ => True

/-- In all layers of the type, the span is valid and the parts stand inside it. -/
def InPlace (source : String) (t : TypeExpr) : Prop :=
  ∀ layer ∈ t.layers, layer.span.Valid source ∧ layer.Nests

theorem inPlace_other (h : s.Valid source) : (other s).InPlace source :=
  List.forall_mem_singleton.2 ⟨h, trivial⟩

theorem inPlace_ofName (h : s.Valid source) (name : String) : (ofName s name).InPlace source := by
  unfold ofName
  split
  · exact List.forall_mem_singleton.2 ⟨h, trivial⟩
  · split <;> exact List.forall_mem_singleton.2 ⟨h, trivial⟩

theorem inPlace_map (h : s.Valid source) (hkey : key.InPlace source) (hvalue : value.InPlace source)
    (hnests : (map s key value).Nests) : (map s key value).InPlace source :=
  List.forall_mem_cons.2 ⟨⟨h, hnests⟩, List.forall_mem_append.2 ⟨hkey, hvalue⟩⟩

end TypeExpr

namespace Node

variable {source : String} {n m first last : Node}

/-- The spans of the tree are in place, and its parts in the order of the grammar. -/
structure InOrder (source : String) (n : Node) : Prop where
  placed : n.Placed source
  arranged : n.Arranged

theorem InOrder.child (h : n.InOrder source) (hm : m ∈ n.children) : m.InOrder source := by
  obtain ⟨⟨-, -, -, hplaced⟩, ⟨-, -, harranged⟩⟩ := h
  exact ⟨hplaced m hm, harranged m hm⟩

theorem InOrder.valid (h : n.InOrder source) : n.span.Valid source := by
  obtain ⟨⟨hvalid, -, -, -⟩, -⟩ := h
  exact hvalid

theorem InOrder.within (h : n.InOrder source) (hm : m ∈ n.children) : m.span.Within n.span := by
  obtain ⟨⟨-, hinside, -, -⟩, -⟩ := h
  exact hinside m hm

/-- One child ends before another that comes behind it begins. -/
theorem InOrder.stop_le_start (h : n.InOrder source) (hsublist : [first, last].Sublist n.children) :
    first.span.stop ≤ last.span.start := by
  obtain ⟨⟨-, -, hordered, -⟩, -⟩ := h
  have hpair := hordered.sublist hsublist
  exact (List.pairwise_cons.1 hpair).1 last (List.mem_singleton_self last)

theorem InOrder.inPlace_classify (h : n.InOrder source) : (n.classify source).InPlace source := by
  induction n using childInduction with
  | node n ih =>
    -- whatever a layer has for a part is made of a child that the node is searched for
    have hpart {p : Node → Bool} {part : Node} (hfind : n.children.find? p = some part) :
        (part.classify source).span.Within n.span ∧ (part.classify source).InPlace source := by
      have hmem := List.mem_of_find?_eq_some hfind
      rw [span_classify]
      exact ⟨h.within hmem, ih part hmem (h.child hmem)⟩
    have hother := TypeExpr.inPlace_other h.valid
    rw [classify_eq]
    split
    · exact TypeExpr.inPlace_ofName h.valid _
    · split
      · exact List.forall_mem_singleton.2 ⟨h.valid, trivial⟩
      · exact hother
    · split
      · rename_i target htarget
        obtain ⟨hwithin, hinside⟩ := hpart htarget
        exact List.forall_mem_cons.2 ⟨⟨h.valid, hwithin⟩, hinside⟩
      · exact hother
    · split
      · rename_i element helement
        obtain ⟨hwithin, hinside⟩ := hpart helement
        exact List.forall_mem_cons.2 ⟨⟨h.valid, hwithin⟩, hinside⟩
      · exact hother
    · split
      · rename_i element helement
        obtain ⟨hwithin, hinside⟩ := hpart helement
        exact List.forall_mem_cons.2 ⟨⟨h.valid, hwithin⟩, hinside⟩
      · exact hother
    · split
      · rename_i element helement
        obtain ⟨hwithin, hinside⟩ := hpart helement
        exact List.forall_mem_cons.2 ⟨⟨h.valid, hwithin⟩, hinside⟩
      · exact hother
    · rename_i hkind
      split
      · rename_i key value hkey hvalue
        obtain ⟨hwithinKey, hinsideKey⟩ := hpart hkey
        obtain ⟨hwithinValue, hinsideValue⟩ := hpart hvalue
        have hsublist : [key, value].Sublist n.children := by
          obtain ⟨-, ⟨hmap, -, -⟩⟩ := h
          exact hmap hkind key value hkey hvalue
        refine TypeExpr.inPlace_map h.valid hinsideKey hinsideValue ⟨hwithinKey, hwithinValue, ?_⟩
        rw [span_classify, span_classify]
        exact h.stop_le_start hsublist
      · exact hother
    · exact hother

/-- A span from one child to another is valid, and it holds the latter. -/
theorem InOrder.covering (hfirst : first.InOrder source) (hlast : last.InOrder source)
    (hle : first.span.start ≤ last.span.start) :
    (Span.covering first.span last.span).Valid source ∧
      (last.classify source).span.Within (Span.covering first.span last.span) := by
  refine ⟨hfirst.valid.covering hlast.valid (Nat.le_trans hle hlast.valid.ordered), ?_⟩
  rw [span_classify]
  exact ⟨hle, Nat.le_refl _⟩

theorem typesHave_inPlace : TypesHave source (InOrder source) (TypeExpr.InPlace source) where
  child := InOrder.child
  classified := fun h hm => (h.child hm.mem).inPlace_classify
  starred := by
    intro n star type h _ hstar _ htype
    have hmem := List.mem_of_find?_eq_some htype
    obtain ⟨rest, hchildren⟩ := List.head?_eq_some_iff.1 hstar
    have hstarred : star.InOrder source := h.child (by simp [hchildren])
    have htyped : type.InOrder source := h.child hmem
    have hle : star.span.start ≤ type.span.start := by
      rw [hchildren] at hmem
      rcases List.mem_cons.1 hmem with rfl | hbehind
      · exact Nat.le_refl _
      · refine Nat.le_trans hstarred.valid.ordered (h.stop_le_start ?_)
        rw [hchildren]
        exact (List.singleton_sublist.2 hbehind).cons_cons star
    exact List.forall_mem_cons.2 ⟨hstarred.covering htyped hle, htyped.inPlace_classify⟩
  variadic := by
    intro n ellipsis type h hkind hellipsis htype
    have hstarting : ellipsis.InOrder source := h.child (List.mem_of_find?_eq_some hellipsis)
    have htyped : type.InOrder source := h.child (List.mem_of_find?_eq_some htype)
    have hsublist : [ellipsis, type].Sublist n.children := by
      obtain ⟨-, ⟨-, hvariadic, -⟩⟩ := h
      exact hvariadic hkind ellipsis type hellipsis htype
    have hle := Nat.le_trans hstarting.valid.ordered (h.stop_le_start hsublist)
    exact List.forall_mem_cons.2 ⟨hstarting.covering htyped hle, htyped.inPlace_classify⟩

theorem InOrder.initializer {kind : ValueKind} {comment : String} {v : Value} {s : Span} (h : n.InOrder source)
    (hv : v ∈ n.toValues source kind comment) (hs : v.initializer = some s) : s.Valid source := by
  obtain ⟨⟨name, index⟩, -, hv⟩ := List.mem_filterMap.1 hv
  dsimp only at hv
  split at hv
  · cases hv
  · obtain rfl := Option.some.inj hv
    have hmem : s ∈ n.valueSpans := List.mem_of_getElem? hs
    unfold valueSpans at hmem
    split at hmem
    · rename_i list hlist
      obtain ⟨e, he, rfl⟩ := List.mem_map.1 hmem
      have hlisted := h.child (List.mem_of_find?_eq_some hlist)
      exact (hlisted.child (List.mem_filter.1 (List.mem_filter.1 he).1).1).valid
    · cases hmem

end Node

/-! ## Declarations -/

namespace Declarations

/-- The type expressions of the declarations, with all that is inside them. -/
def types (found : Declarations) : List TypeExpr :=
  let fields := found.structs.flatMap (·.fields)
  let parameters := found.interfaces.flatMap fun i => i.methods.flatMap fun m => m.inputs ++ m.outputs
  ((fields ++ parameters).map (·.type) ++ found.values.filterMap (·.type)).flatMap TypeExpr.layers

/-- The spans that are kept: those of structs, interfaces and initial values, and those of all types. -/
def spans (found : Declarations) : List Span :=
  found.structs.map (·.definition) ++ found.interfaces.map (·.definition) ++
    found.values.filterMap (·.initializer) ++ found.types.map (·.span)

variable {source : String} {found : Declarations}

theorem MadeOf.inPlace (h : found.MadeOf source (Node.InOrder source)) :
    ∀ t ∈ found.types, t.span.Valid source ∧ t.Nests := by
  obtain ⟨hargs, hvalues⟩ := h.types_have Node.typesHave_inPlace
  intro t ht
  obtain ⟨whole, hwhole, ht⟩ := List.mem_flatMap.1 ht
  rcases List.mem_append.1 hwhole with hwhole | hwhole
  · obtain ⟨a, ha, rfl⟩ := List.mem_map.1 hwhole
    exact hargs a ha t ht
  · obtain ⟨v, hv, htype⟩ := List.mem_filterMap.1 hwhole
    exact hvalues v hv whole htype t ht

theorem MadeOf.valid (h : found.MadeOf source (Node.InOrder source)) : ∀ s ∈ found.spans, s.Valid source := by
  refine List.forall_mem_append.2 ⟨List.forall_mem_append.2 ⟨List.forall_mem_append.2 ⟨?_, ?_⟩, ?_⟩, ?_⟩
  · refine List.forall_mem_map.2 fun s hs => ?_
    obtain ⟨name, type, comment, htype, rfl⟩ := h.structs s hs
    exact htype.valid
  · refine List.forall_mem_map.2 fun i hi => ?_
    obtain ⟨name, type, comment, htype, rfl⟩ := h.interfaces i hi
    exact htype.valid
  · intro s hs
    obtain ⟨v, hv, hs⟩ := List.mem_filterMap.1 hs
    obtain ⟨n, kind, comment, hn, -, hv⟩ := h.values v hv
    exact hn.initializer hv hs
  · exact List.forall_mem_map.2 fun t ht => (h.inPlace t ht).1

end Declarations

/-- On a tree with its spans in place and its parts in the order of the grammar, every span that is kept is a part of the
source between two boundaries of characters and has that part for its text, and in every type the parts stand inside it,
the key of a map before its value. Parsed trees are of this sort. -/
theorem spans_in_place :
    (∀ (source : String) (root : Node), root.Placed source → root.Arranged →
      (∀ s ∈ (extract source root).spans, ∃ before inside after, source.toList = before ++ inside ++ after ∧
        s.start = Text.byteLength before ∧ s.stop = Text.byteLength before + Text.byteLength inside ∧
        s.text source = String.ofList inside) ∧
      ∀ t ∈ (extract source root).types, t.Nests) ∧
    ∀ (source : String) (root : Node), parse source = .ok root → root.Placed source ∧ root.Arranged := by
  refine ⟨?_, fun source root => placed_of_parse⟩
  intro source root hplaced harranged
  have hmade : (extract source root).MadeOf source (Node.InOrder source) :=
    madeOf_extract (fun n m hn hm => hn.child hm) ⟨hplaced, harranged⟩
  exact ⟨fun s hs => (hmade.valid s hs).exists_text, fun t ht => (hmade.inPlace t ht).2⟩

/-- A file with characters of more than one byte, an embedded pointer, a map and a variadic parameter. -/
def coveredSource : String :=
  "package p\n\ntype Sé struct\x7b\n\t* Té\n\tM map[string][]é\n\x7d\n\n" ++
    "type I interface\x7b F(... *é) \x7d\n\nvar ü = \"ö\"\n"

theorem spans_in_place_coveredSource : ∃ root, parse coveredSource = .ok root ∧
    (extract coveredSource root).spans.map (·.text coveredSource) =
      ["struct\x7b\n\t* Té\n\tM map[string][]é\n\x7d", "interface\x7b F(... *é) \x7d", "\"ö\"", "* Té", "Té",
        "map[string][]é", "string", "[]é", "é", "... *é", "*é", "é"] ∧
    (∀ s ∈ (extract coveredSource root).spans, ∃ before inside after,
      coveredSource.toList = before ++ inside ++ after ∧ s.start = Text.byteLength before ∧
      s.stop = Text.byteLength before + Text.byteLength inside ∧ s.text coveredSource = String.ofList inside) ∧
    ∀ t ∈ (extract coveredSource root).types, t.Nests := by
  obtain ⟨root, hparse, htexts⟩ := exists_of_any (x := parse coveredSource)
    (p := fun root => (extract coveredSource root).spans.map (·.text coveredSource) ==
      ["struct\x7b\n\t* Té\n\tM map[string][]é\n\x7d", "interface\x7b F(... *é) \x7d", "\"ö\"", "* Té", "Té",
        "map[string][]é", "string", "[]é", "é", "... *é", "*é", "é"])
    (by decide +kernel)
  obtain ⟨hextracted, hparsed⟩ := spans_in_place
  obtain ⟨hplaced, harranged⟩ := hparsed coveredSource root hparse
  exact ⟨root, hparse, beq_iff_eq.1 htexts, hextracted coveredSource root hplaced harranged⟩

end GoOutline
