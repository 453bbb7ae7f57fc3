import GoOutline.Proofs.Grammar.Shapes

/-!
# Written nodes

A node is written in a source if it stands for the characters between its bytes (`Node.WrittenIn`); so do its
children then (`Node.IsWritten.child`). From the labels of the parts of a node and the gaps between them follows how
a node of its kind is spelt.
-/
namespace GoOutline

/-! ## Slices -/

namespace Text

theorem dropBytes_append_add (cs ds : List Char) (k : Nat) :
    dropBytes (byteLength cs + k) (cs ++ ds) = dropBytes k ds := by
  induction cs with
  | nil => simp
  | cons c cs ih =>
    obtain ⟨n, hn⟩ : ∃ n, c.utf8Size = n + 1 := ⟨c.utf8Size - 1, by have := c.utf8Size_pos; omega⟩
    have hlength : byteLength (c :: cs) + k = n + (byteLength cs + k) + 1 := by rw [byteLength_cons, hn]; omega
    have hrest : n + (byteLength cs + k) + 1 - (n + 1) = byteLength cs + k := by omega
    rw [List.cons_append, hlength, dropBytes, hn, if_pos (by omega), hrest, ih]

theorem dropBytes_append (cs ds : List Char) : dropBytes (byteLength cs) (cs ++ ds) = some ds := by
  have hdrop := dropBytes_append_add cs ds 0
  rwa [Nat.add_zero, dropBytes] at hdrop

theorem takeBytes_append (cs ds : List Char) : takeBytes (byteLength cs) (cs ++ ds) = some cs := by
  induction cs with
  | nil => simp [takeBytes]
  | cons c cs ih =>
    obtain ⟨n, hn⟩ : ∃ n, c.utf8Size = n + 1 := ⟨c.utf8Size - 1, by have := c.utf8Size_pos; omega⟩
    have hlength : byteLength (c :: cs) = (n + byteLength cs) + 1 := by rw [byteLength_cons, hn]; omega
    have hrest : n + byteLength cs + 1 - (n + 1) = byteLength cs := by omega
    simp [hlength, takeBytes, hn, hrest, ih]

theorem sliceBytes_append (before word after : List Char) :
    sliceBytes (byteLength before) (byteLength before + byteLength word) (before ++ word ++ after) = some word := by
  simp [sliceBytes, List.append_assoc, dropBytes_append, takeBytes_append]

end Text

/-! ## Written nodes -/

/-- The characters of a gap: white space, perhaps with a comment behind it and more behind that. -/
inductive IsGap : List Char → Prop
  | blank {cs : List Char} (space : ∀ c ∈ cs, isSpace c = true) : IsGap cs
  | comment (blanks rest : List Char) (space : ∀ c ∈ blanks, isSpace c = true) : IsGap (blanks ++ '/' :: rest)

theorem IsGap.cons {c : Char} {cs : List Char} (hc : isSpace c = true) (h : IsGap cs) : IsGap (c :: cs) := by
  cases h with
  | blank space => exact .blank (List.forall_mem_cons.2 ⟨hc, space⟩)
  | comment blanks rest space => exact .comment (c :: blanks) rest (List.forall_mem_cons.2 ⟨hc, space⟩)

namespace Node

/-- The node is written in the characters, from a byte on. -/
structure Written (b : Nat) (n : Node) (word : List Char) : Prop where
  start : n.start.byte = b
  stop : n.stop.byte = b + Text.byteLength word
  filled : ∃ inside, Stands Grammar.MayHold b inside n.children ∧ Fills Grammar.MayHold b n inside word

/-- The node is written in the characters somewhere in the source. -/
def WrittenIn (source : String) (n : Node) (word : List Char) : Prop :=
  ∃ before after, source.toList = before ++ word ++ after ∧ n.Written (Text.byteLength before) word

/-- The node is written somewhere in the source. -/
def IsWritten (source : String) (n : Node) : Prop := ∃ word, n.WrittenIn source word

end Node

section

variable {b : Nat} {cs : List Char} {n m : Node} {ns ms : List Node} {word word' before after : List Char}
  {source : String}

theorem Stands.exists_written (h : Stands Grammar.MayHold b cs ns) (hn : n ∈ ns) :
    ∃ before word after, cs = before ++ word ++ after ∧ n.Written (b + Text.byteLength before) word := by
  induction h with
  | nil => cases hn
  | @space b c cs _ _ space rest ih =>
    obtain ⟨before, word, after, rfl, hwritten⟩ := ih hn
    refine ⟨c :: before, word, after, rfl, ?_⟩
    rwa [Text.byteLength_cons, ← Nat.add_assoc]
  | @cons b inner word cs m ns start stop inside fills rest _ ih =>
    rcases List.mem_cons.1 hn with rfl | hn
    · exact ⟨[], word, cs, rfl, start, stop, inner, inside, fills⟩
    · obtain ⟨before, word', after, rfl, hwritten⟩ := ih hn
      refine ⟨word ++ before, word', after, by simp, ?_⟩
      rwa [Text.byteLength_append, ← Nat.add_assoc]

namespace Node

/-- The children of a written node fill it, unless it has none. -/
theorem Written.stands_children (h : n.Written b word) :
    n.children = [] ∨ Stands Grammar.MayHold b word n.children := by
  obtain ⟨inside, hinside, hfills⟩ := h.filled
  cases hfills with
  | leaf childless => exact .inl childless
  | node whole => exact .inr (whole ▸ hinside)

/-- A child is written in characters of its parent. -/
theorem WrittenIn.child (h : n.WrittenIn source word) (hm : m ∈ n.children) :
    ∃ word', m.WrittenIn source word' ∧ word' <:+: word := by
  obtain ⟨before, after, hsource, hwritten⟩ := h
  rcases hwritten.stands_children with hnone | hstands
  · rw [hnone] at hm
    cases hm
  · obtain ⟨before', word', after', rfl, hchild⟩ := hstands.exists_written hm
    refine ⟨word', ⟨before ++ before', after' ++ after, by simp [hsource], ?_⟩, before', after', rfl⟩
    rwa [Text.byteLength_append]

theorem IsWritten.child (h : n.IsWritten source) (hm : m ∈ n.children) : m.IsWritten source := by
  obtain ⟨word, h⟩ := h
  obtain ⟨word', hwritten, -⟩ := h.child hm
  exact ⟨word', hwritten⟩

theorem text_of_covering {first last : Node} {before word after : List Char}
    (hsource : source.toList = before ++ word ++ after)
    (hfirst : first.start.byte = Text.byteLength before)
    (hlast : last.stop.byte = Text.byteLength before + Text.byteLength word) :
    (Span.covering first.span last.span).text source = String.ofList word := by
  simp only [Span.text, Span.covering, span, hfirst, hlast, hsource, Text.sliceBytes_append]

/-- The text of a node is what it is written in. -/
theorem WrittenIn.text_eq (h : n.WrittenIn source word) : n.text source = String.ofList word := by
  obtain ⟨before, after, hsource, hwritten⟩ := h
  exact text_of_covering hsource hwritten.start hwritten.stop

end Node

/-- The nodes are written one after the other, with a gap before each. -/
inductive Spaced : Nat → List Char → List Node → Prop
  | nil {b : Nat} : Spaced b [] []
  | cons {b : Nat} {gap word cs : List Char} {n : Node} {ns : List Node} (between : IsGap gap)
      (first : n.Written (b + Text.byteLength gap) word)
      (rest : Spaced (b + Text.byteLength gap + Text.byteLength word) cs ns) : Spaced b (gap ++ (word ++ cs)) (n :: ns)

/-- The first gap takes on what stands before it. -/
theorem Spaced.push (lead : List Char) (hlead : ∀ gap, IsGap gap → IsGap (lead ++ gap))
    (h : Spaced (b + Text.byteLength lead) cs ns) (hns : ns ≠ []) : Spaced b (lead ++ cs) ns := by
  cases h with
  | nil => exact absurd rfl hns
  | @cons _ gap _ _ _ _ hgap first rest =>
    rw [← List.append_assoc]
    refine .cons (hlead gap hgap) ?_ ?_
    · rwa [Text.byteLength_append, ← Nat.add_assoc]
    · rwa [Text.byteLength_append, ← Nat.add_assoc]

theorem parts_ne_nil (hfinal : ∀ last, ns.getLast? = some last → last.isComment = false) (hns : ns ≠ []) :
    ns.filter (fun n => !n.isComment) ≠ [] := by
  have hlast := List.getLast?_eq_some_getLast hns
  intro hnone
  have hcomment := List.filter_eq_nil_iff.1 hnone _ (List.getLast_mem hns)
  simp [hfinal _ hlast] at hcomment

theorem Node.Written.isRemark (h : n.Written b word) (hn : n.isComment = true) : IsRemark word := by
  obtain ⟨_, -, hfills⟩ := h.filled
  cases hfills with
  | leaf _ spelt =>
    have hkind : n.kind = .comment := by simpa [Node.isComment] using hn
    rw [hkind] at spelt
    exact spelt
  | node _ _ _ _ _ noted =>
    rw [hn] at noted
    cases noted

/-- A comment is written with its mark in front. -/
theorem Node.Written.eq_of_comment (h : n.Written b word) (hn : n.isComment = true) : ∃ rest, word = '/' :: rest :=
  (h.isRemark hn).exists_cons

/-- Among nodes that do not end with a comment, the parts have gaps before them and nothing behind them. -/
theorem Stands.spaced (h : Stands Grammar.MayHold b cs ns)
    (hfinal : ∀ last, ns.getLast? = some last → last.isComment = false) :
    Spaced b cs (ns.filter fun n => !n.isComment) := by
  induction h with
  | nil => exact .nil
  | @space b c cs n ns space rest ih =>
    refine Spaced.push [c] (fun gap hgap => hgap.cons space) (by simpa using ih hfinal) ?_
    exact parts_ne_nil hfinal (by simp)
  | @cons b inner word cs n ns start stop inside fills rest _ ih =>
    have hwritten : n.Written b word := ⟨start, stop, inner, inside, fills⟩
    have hrest : ∀ last, ns.getLast? = some last → last.isComment = false := fun last hlast =>
      hfinal last (by simp [List.getLast?_cons, hlast])
    by_cases hn : n.isComment = true
    · rw [List.filter_cons_of_neg (by simp [hn])]
      obtain ⟨tail, rfl⟩ := hwritten.eq_of_comment hn
      refine Spaced.push ('/' :: tail) (fun gap _ => .comment [] (tail ++ gap) (by simp)) (ih hrest)
        (parts_ne_nil hrest ?_)
      rintro rfl
      simp [hfinal n rfl] at hn
    · rw [List.filter_cons_of_pos (by simpa using hn)]
      have hspaced : Spaced b ([] ++ (word ++ cs)) (n :: ns.filter fun n => !n.isComment) :=
        .cons (.blank (by simp)) hwritten (ih hrest)
      exact hspaced

theorem Stands.field_eq_none (h : Stands Grammar.MayHold b cs ns) (hn : n ∈ ns) (hcomment : n.isComment = true) :
    n.field = none := by
  obtain ⟨_, _, _, -, hwritten⟩ := h.exists_written hn
  obtain ⟨_, -, hfills⟩ := hwritten.filled
  cases hfills with
  | leaf _ _ free => exact free hcomment
  | node _ _ _ _ _ noted =>
    rw [hcomment] at noted
    cases noted

namespace Node

/-- The parts of a written node: the first of them begins it, and the others follow up to its end. -/
theorem Written.opened (h : n.Written b word) (hchildren : n.children ≠ []) :
    ∃ first parts word' rest, n.children.head? = some first ∧ n.parts = first :: parts ∧ word = word' ++ rest ∧
      first.Written b word' ∧ Spaced (b + Text.byteLength word') rest parts ∧
      Grammar.MayHold n.kind (n.parts.map label) := by
  obtain ⟨inside, hinside, hfills⟩ := h.filled
  cases hfills with
  | leaf childless => exact absurd childless hchildren
  | @node first whole hfirst tight solid final noted shaped =>
    subst whole
    obtain ⟨following, hfollowing⟩ := List.head?_eq_some_iff.1 hfirst
    have hparts : n.parts = first :: following.filter (fun n => !n.isComment) := by
      rw [Node.parts, hfollowing, List.filter_cons_of_pos (by simp [solid])]
    have hspaced : Spaced b inside n.parts := hinside.spaced final
    rw [hparts] at hspaced
    cases hspaced with
    | @cons _ gap word' rest _ _ hgap hwritten hrest =>
      -- The node begins where its first child does, so there is no gap before it.
      obtain rfl : gap = [] := by
        have hbyte := hwritten.start
        rw [tight] at hbyte
        cases gap with
        | nil => rfl
        | cons c cs =>
          have := c.utf8Size_pos
          rw [Text.byteLength_cons] at hbyte
          omega
      exact ⟨first, _, word', rest, hfirst, hparts, rfl, by simpa using hwritten, by simpa using hrest, shaped⟩

/-- What no comment satisfies is looked for among the parts. -/
theorem find?_children {p : Node → Bool} (hp : ∀ child ∈ n.children, child.isComment = true → p child = false) :
    n.children.find? p = n.parts.find? p := by
  rw [parts, ← List.head?_filter, ← List.head?_filter, List.filter_filter]
  congr 1
  refine List.filter_congr fun child hchild => ?_
  cases hcomment : child.isComment with
  | false => simp
  | true => simp [hp child hchild hcomment]

/-- Comments play no role. -/
theorem Written.childIn_eq (h : n.Written b word) (f : Field) :
    n.childIn f = n.parts.find? fun child => child.field == some f := by
  refine find?_children fun child hchild hcomment => ?_
  rcases h.stands_children with hnone | hstands
  · rw [hnone] at hchild
    cases hchild
  · simp [hstands.field_eq_none hchild hcomment]

/-- A child in a role has one of the labels that the node may hold. -/
theorem Written.label_childIn {f : Field} (h : n.Written b word) (hm : n.childIn f = some m) :
    ∃ labels, Grammar.MayHold n.kind labels ∧ (m.kind, some f) ∈ labels := by
  obtain ⟨_, _, _, _, -, -, -, -, -, hshape⟩ := h.opened (List.ne_nil_of_mem (List.mem_of_find?_eq_some hm))
  rw [h.childIn_eq] at hm
  have hfield : m.field = some f := by simpa using List.find?_some hm
  refine ⟨_, hshape, List.mem_map.2 ⟨m, List.mem_of_find?_eq_some hm, ?_⟩⟩
  rw [label, hfield]

theorem Written.eq_of_token (h : n.Written b word) {text : String} (hkind : n.kind = .token text) :
    word = text.toList := by
  obtain ⟨_, -, hfills⟩ := h.filled
  cases hfills with
  | leaf _ spelt =>
    rw [hkind] at spelt
    exact spelt
  | node _ _ _ _ _ _ shaped =>
    rw [hkind] at shaped
    exact shaped.elim

theorem Written.isWord (h : n.Written b word) (hkind : n.kind = .typeIdentifier ∨ n.kind = .packageIdentifier) :
    IsWord word := by
  obtain ⟨_, -, hfills⟩ := h.filled
  cases hfills with
  | leaf _ spelt =>
    rcases hkind with hkind | hkind
    all_goals
      rw [hkind] at spelt
      obtain ⟨-, hword⟩ | hliteral := spelt
      · exact hword
      · cases hliteral
  | node _ _ _ _ _ _ shaped =>
    rcases hkind with hkind | hkind
    · rw [hkind] at shaped
      exact shaped.elim
    · rw [hkind] at shaped
      exact shaped.elim

/-! ## How nodes are spelt -/

theorem WrittenIn.of_part (lead rest : List Char) (hsource : source.toList = before ++ word ++ after)
    (hword : word = lead ++ (word' ++ rest)) (hm : m.Written (Text.byteLength before + Text.byteLength lead) word') :
    m.WrittenIn source word' := by
  refine ⟨before ++ lead, rest ++ after, by simp [hsource, hword], ?_⟩
  rwa [Text.byteLength_append]

theorem label_eq {label : Label} (h : n.label = label) : n.kind = label.1 ∧ n.field = label.2 := by
  cases h
  exact ⟨rfl, rfl⟩

theorem WrittenIn.eq_of_token (h : n.WrittenIn source word) {text : String} (hkind : n.kind = .token text) :
    word = text.toList := by
  obtain ⟨_, _, -, hwritten⟩ := h
  exact hwritten.eq_of_token hkind

theorem children_ne_nil_of_parts {first : Node} {parts : List Node} (h : n.parts = first :: parts) :
    n.children ≠ [] := by
  intro hnone
  simp [Node.parts, hnone] at h

/-- A node begins with its first part. -/
theorem WrittenIn.first {first : Node} {parts : List Node} (h : n.WrittenIn source word)
    (hparts : n.parts = first :: parts) :
    ∃ word' rest, word = word' ++ rest ∧ first.WrittenIn source word' := by
  obtain ⟨before, after, hsource, hwritten⟩ := h
  obtain ⟨first', _, word', rest, -, hparts', rfl, hfirst, -⟩ := hwritten.opened (children_ne_nil_of_parts hparts)
  obtain ⟨rfl, -⟩ := List.cons.inj (hparts.symm.trans hparts')
  exact ⟨word', rest, rfl, .of_part [] rest hsource rfl hfirst⟩

/-- A node begins with its first two parts and the gap between them. -/
theorem WrittenIn.first_two {first second : Node} {parts : List Node} (h : n.WrittenIn source word)
    (hparts : n.parts = first :: second :: parts) :
    ∃ word' gap word'' rest, word = word' ++ (gap ++ (word'' ++ rest)) ∧ IsGap gap ∧ first.WrittenIn source word' ∧
      second.WrittenIn source word'' ∧ (parts = [] → rest = []) ∧
      (Span.covering first.span second.span).text source = String.ofList (word' ++ (gap ++ word'')) := by
  obtain ⟨before, after, hsource, hwritten⟩ := h
  obtain ⟨first', _, word', rest, -, hparts', rfl, hfirst, hspaced, -⟩ :=
    hwritten.opened (children_ne_nil_of_parts hparts)
  obtain ⟨rfl, rfl⟩ := List.cons.inj (hparts.symm.trans hparts')
  cases hspaced with
  | @cons _ gap word'' rest _ _ hgap hsecond hspaced =>
    refine ⟨word', gap, word'', rest, rfl, hgap, .of_part [] _ hsource rfl hfirst, ?_, ?_, ?_⟩
    · refine .of_part (word' ++ gap) rest hsource (by simp) ?_
      rwa [Text.byteLength_append, ← Nat.add_assoc]
    · rintro rfl
      cases hspaced
      rfl
    · have hsource' : source.toList = before ++ (word' ++ (gap ++ word'')) ++ (rest ++ after) := by simp [hsource]
      refine text_of_covering hsource' hfirst.start ?_
      rw [hsecond.stop]
      simp [Nat.add_assoc]

/-- A qualified type is the name of a package, a dot and the name of a type, with gaps around the dot. -/
theorem WrittenIn.qualified (h : n.WrittenIn source word) (hkind : n.kind = .qualifiedType)
    (hchildren : n.children ≠ []) :
    ∃ package name p q gap gap', n.childIn .package = some package ∧ n.childIn .name = some name ∧
      package.text source = String.ofList p ∧ name.text source = String.ofList q ∧ IsWord p ∧ IsWord q ∧
      IsGap gap ∧ IsGap gap' ∧ word = p ++ (gap ++ '.' :: (gap' ++ q)) := by
  obtain ⟨before, after, hsource, hwritten⟩ := h
  obtain ⟨package, parts, p, rest, -, hparts, rfl, hpackage, hspaced, hshape⟩ := hwritten.opened hchildren
  have hin := hwritten.childIn_eq
  rw [hkind, hparts, List.map_cons] at hshape
  -- The parts behind the first one are the dot and the name.
  obtain ⟨hlabel, htail⟩ := List.cons.inj hshape
  obtain ⟨dot, parts, rfl, hdot, htail⟩ := List.map_eq_cons_iff.1 htail
  obtain ⟨name, parts, rfl, hname, htail⟩ := List.map_eq_cons_iff.1 htail
  obtain rfl := List.map_eq_nil_iff.1 htail
  obtain ⟨hpackageKind, hpackageField⟩ := label_eq hlabel
  obtain ⟨hnameKind, hnameField⟩ := label_eq hname
  obtain ⟨hdotKind, hdotField⟩ := label_eq hdot
  cases hspaced with
  | @cons _ gap _ _ _ _ hgap hwdot hspaced =>
    cases hspaced with
    | @cons _ gap' q _ _ _ hgap' hwname hspaced =>
      cases hspaced
      obtain rfl := hwdot.eq_of_token hdotKind
      have hpackageIn : package.WrittenIn source p := .of_part [] _ hsource rfl hpackage
      have hnameIn : name.WrittenIn source q := by
        refine .of_part (p ++ (gap ++ ".".toList ++ gap')) [] hsource (by simp) ?_
        simpa [Nat.add_assoc] using hwname
      refine ⟨package, name, p, q, gap, gap', ?_, ?_, hpackageIn.text_eq, hnameIn.text_eq,
        hpackage.isWord (.inr hpackageKind), hwname.isWord (.inl hnameKind), hgap, hgap', by simp⟩
      · simp [hin, hparts, hpackageField]
      · simp [hin, hparts, hpackageField, hdotField, hnameField]

/-- A pointer is a star and the type it points to, with a gap between them. -/
theorem WrittenIn.pointer (h : n.WrittenIn source word) (hkind : n.kind = .pointerType) (hchildren : n.children ≠ []) :
    ∃ star target gap, n.parts = [star, target] ∧ star.isNamed = false ∧ target.kind.isType = true ∧ IsGap gap ∧
      word = '*' :: (gap ++ (target.text source).toList) := by
  obtain ⟨_, _, _, hwritten⟩ := id h
  obtain ⟨star, parts, _, _, -, hparts, -, -, -, hshape⟩ := hwritten.opened hchildren
  rw [hkind, hparts, List.map_cons] at hshape
  obtain ⟨kind, htype, hshape⟩ := hshape
  obtain ⟨hstar, htail⟩ := List.cons.inj hshape
  obtain ⟨target, parts, rfl, htarget, htail⟩ := List.map_eq_cons_iff.1 htail
  obtain rfl := List.map_eq_nil_iff.1 htail
  obtain ⟨word', gap, word'', rest, rfl, hgap, hwstar, hwtarget, hrest, -⟩ := h.first_two hparts
  obtain rfl := hwstar.eq_of_token (label_eq hstar).1
  obtain rfl := hrest rfl
  refine ⟨star, target, gap, hparts, ?_, ?_, hgap, ?_⟩
  · simp [isNamed, (label_eq hstar).1, Kind.isNamed]
  · rw [(label_eq htarget).1, htype]
  · simp [hwtarget.text_eq]

/-- A map begins with its word, a gap and a bracket. -/
theorem WrittenIn.map (h : n.WrittenIn source word) (hkind : n.kind = .mapType) (hchildren : n.children ≠ []) :
    ∃ gap rest, IsGap gap ∧ word = "map".toList ++ (gap ++ '[' :: rest) := by
  obtain ⟨_, _, _, hwritten⟩ := id h
  obtain ⟨first, parts, _, _, -, hparts, -, -, -, hshape⟩ := hwritten.opened hchildren
  rw [hkind, hparts, List.map_cons] at hshape
  obtain ⟨_, _, -, -, hshape⟩ := hshape
  obtain ⟨hfirst, htail⟩ := List.cons.inj hshape
  obtain ⟨bracket, parts, rfl, hbracket, -⟩ := List.map_eq_cons_iff.1 htail
  obtain ⟨word', gap, word'', rest, rfl, hgap, hwfirst, hwbracket, -⟩ := h.first_two hparts
  obtain rfl := hwfirst.eq_of_token (label_eq hfirst).1
  obtain rfl := hwbracket.eq_of_token (label_eq hbracket).1
  exact ⟨gap, rest, hgap, by simp⟩

/-- Slices and arrays begin with a bracket. -/
theorem WrittenIn.bracket (h : n.WrittenIn source word)
    (hkind : n.kind = .sliceType ∨ n.kind = .arrayType ∨ n.kind = .implicitLengthArrayType)
    (hchildren : n.children ≠ []) :
    ∃ rest, word = '[' :: rest := by
  obtain ⟨_, _, _, hwritten⟩ := id h
  obtain ⟨first, parts, _, _, -, hparts, -, -, -, hshape⟩ := hwritten.opened hchildren
  have hfirst : first.label = (.token "[", none) := by
    rcases hkind with hkind | hkind | hkind
    all_goals
      rw [hkind, hparts, List.map_cons] at hshape
      obtain ⟨⟨_, hshape⟩, -⟩ := hshape
      exact (List.cons.inj hshape).1
  obtain ⟨word', rest, rfl, hwfirst⟩ := h.first hparts
  obtain rfl := hwfirst.eq_of_token (label_eq hfirst).1
  exact ⟨rest, by simp⟩

/-- The star of an embedded field stands before its type, with a gap between them. -/
theorem WrittenIn.starred {star type : Node} (h : n.WrittenIn source word) (hkind : n.kind = .fieldDeclaration)
    (hstar : n.children.head? = some star) (hstarKind : star.kind = .token "*") (htype : n.childIn .type = some type) :
    ∃ gap, IsGap gap ∧
      (Span.covering star.span type.span).text source = String.ofList ('*' :: (gap ++ (type.text source).toList)) := by
  obtain ⟨_, _, _, hwritten⟩ := id h
  have hchildren : n.children ≠ [] := by
    intro hnone
    simp [hnone] at hstar
  obtain ⟨star', parts, _, _, hhead, hparts, -, -, -, hshape⟩ := hwritten.opened hchildren
  obtain rfl := Option.some.inj (hstar.symm.trans hhead)
  rw [hkind, hparts, List.map_cons] at hshape
  have hlabel : star.label = (.token "*", star.field) := by rw [← hstarKind]; rfl
  obtain ⟨hstarField, kind, _, htail⟩ := hshape.1 star.field _ (by rw [hlabel])
  obtain ⟨type', parts, rfl, htype', -⟩ := List.map_eq_cons_iff.1 htail
  obtain rfl : type' = type := by
    rw [hwritten.childIn_eq, hparts] at htype
    simpa [hstarField, (label_eq htype').2] using htype
  obtain ⟨word', gap, word'', rest, rfl, hgap, hwstar, hwtype, -, htext⟩ := h.first_two hparts
  obtain rfl := hwstar.eq_of_token hstarKind
  exact ⟨gap, hgap, by simp [htext, hwtype.text_eq]⟩

/-- The type of a variadic parameter stands behind its ellipsis. -/
theorem WrittenIn.variadic {ellipsis type : Node} (h : n.WrittenIn source word)
    (hkind : n.kind = .variadicParameterDeclaration)
    (hellipsis : n.children.find? (fun child => child.kind == .token "...") = some ellipsis)
    (htype : n.childIn .type = some type) :
    ∃ rest, (Span.covering ellipsis.span type.span).text source = String.ofList ("...".toList ++ rest) := by
  obtain ⟨before, after, hsource, hwritten⟩ := id h
  have hchildren : n.children ≠ [] := by
    intro hnone
    simp [hnone] at hellipsis
  obtain ⟨first, parts, word', rest, -, hparts, rfl, hfirst, hspaced, hshape⟩ := hwritten.opened hchildren
  rw [find?_children (by simp +contextual [isComment]), hparts] at hellipsis
  rw [hwritten.childIn_eq, hparts] at htype
  rw [hkind, hparts, List.map_cons] at hshape
  obtain ⟨kind, -, hshape | hshape⟩ := hshape
  · obtain ⟨hlabel, htail⟩ := List.cons.inj hshape
    obtain ⟨second, parts, rfl, hsecond, -⟩ := List.map_eq_cons_iff.1 htail
    obtain rfl : first = ellipsis := by simpa [(label_eq hlabel).1] using hellipsis
    obtain rfl : second = type := by simpa [(label_eq hlabel).2, (label_eq hsecond).2] using htype
    obtain ⟨_, gap, _, _, -, -, hwfirst, -, -, htext⟩ := h.first_two hparts
    obtain rfl := hwfirst.eq_of_token (label_eq hlabel).1
    exact ⟨_, htext⟩
  · obtain ⟨hlabel, htail⟩ := List.cons.inj hshape
    obtain ⟨second, parts, rfl, hsecond, htail⟩ := List.map_eq_cons_iff.1 htail
    obtain ⟨third, parts, rfl, hthird, -⟩ := List.map_eq_cons_iff.1 htail
    obtain rfl : second = ellipsis := by simpa [(label_eq hlabel).1, (label_eq hsecond).1] using hellipsis
    obtain rfl : third = type := by
      simpa [(label_eq hlabel).2, (label_eq hsecond).2, (label_eq hthird).2] using htype
    cases hspaced with
    | @cons _ gap _ _ _ _ hgap hwsecond hspaced =>
      cases hspaced with
      | @cons _ gap' written rest _ _ hgap' hwthird hspaced =>
        obtain rfl := hwsecond.eq_of_token (label_eq hsecond).1
        refine ⟨gap' ++ written, ?_⟩
        have hsource' : source.toList =
            (before ++ word' ++ gap) ++ ("...".toList ++ (gap' ++ written)) ++ (rest ++ after) := by simp [hsource]
        refine text_of_covering hsource' ?_ ?_
        · simp [hwsecond.start, Nat.add_assoc]
        · rw [hwthird.stop]
          simp [Nat.add_assoc]

end Node

end

end GoOutline
