import GoOutline.Proofs.Model.Spelling
import GoOutline.Proofs.TypeRef
import GoOutline.Resolver.Resolve

/-!
# Types read as references

The sort of a type expression comes from its node, a reference to a type from its text. Slices, arrays and variadic
parameters are never read as references, and maps only as the word they begin with (`composite_reference`). A name,
with any stars before it, is read as that name if it is written without gaps in it (`named_reference`).
-/
namespace GoOutline

namespace TypeRef

/-! ## Characters -/

/-- Signs that stand in the texts of types, outside of names. -/
def signs : List Char := ['*', '.', '[', '/']

theorem isNamePart_signs : ∀ c ∈ signs, isNamePart c = false := by
  have hall : signs.all (fun c => !isNamePart c) = true := by decide +kernel
  simpa using hall

theorem isIdentifierPart_signs : ∀ c ∈ signs, Text.isIdentifierPart c = false := by
  have hall : signs.all (fun c => !Text.isIdentifierPart c) = true := by decide +kernel
  simpa using hall

theorem isBlank_signs : ∀ c ∈ signs, Text.isBlank c = false := by
  have hall : signs.all (fun c => !Text.isBlank c) = true := by decide
  simpa using hall

theorem isIdentifierPart_blankPoints : ∀ n ∈ blankPoints, Text.isIdentifierPart (Char.ofNat n) = false := by
  decide +kernel

theorem isBlank_of_isIdentifierPart {c : Char} (h : Text.isIdentifierPart c = true) : Text.isBlank c = false := by
  by_contra hblank
  have hpoint := isIdentifierPart_blankPoints c.toNat (toNat_mem_blankPoints (by simpa using hblank))
  rw [Char.ofNat_toNat, h] at hpoint
  cases hpoint

theorem not_mem_signs_of_isIdentifierPart {c : Char} (h : Text.isIdentifierPart c = true) : c ∉ signs := by
  intro hc
  rw [isIdentifierPart_signs c hc] at h
  cases h

theorem isIdentifierPart_of_isIdentifierStart {c : Char} (h : Text.isIdentifierStart c = true) :
    Text.isIdentifierPart c = true := by
  unfold Text.isIdentifierPart
  split
  · rename_i hascii
    rw [Text.isIdentifierStart, if_pos hascii] at h
    simp only [Bool.or_eq_true] at h ⊢
    exact h.imp id fun halpha => by simp [Char.isAlphanum, halpha]
  · simp [h]

theorem isBlank_of_isSpace {c : Char} (h : isSpace c = true) : Text.isBlank c = true := by
  simp only [isSpace, Bool.or_eq_true, beq_iff_eq, Bool.and_eq_true, decide_eq_true_eq] at h
  rcases h with rfl | h
  · decide
  · simp [Text.isBlank, h]

theorem isNameStart_of_not_isNamePart {c : Char} (h : isNamePart c = false) : isNameStart c = false := by
  by_contra hstart
  rw [isNamePart_of_isNameStart (by simpa using hstart)] at h
  cases h

/-- White space and the signs stand in no name. -/
theorem isNamePart_of_isSpace {c : Char} (h : isSpace c = true) : isNamePart c = false := by
  by_contra hpart
  have := isBlank_of_isNamePart (c := c) (by simpa using hpart)
  rw [isBlank_of_isSpace h] at this
  cases this

/-! ## White space at the ends -/

theorem trimStart_cons {c : Char} (hc : Text.isBlank c = false) (cs : List Char) :
    Text.trimStart (c :: cs) = c :: cs := by
  simp [Text.trimStart, hc]

theorem trimStart_append {blanks : List Char} (h : ∀ c ∈ blanks, isSpace c = true) (cs : List Char) :
    Text.trimStart (blanks ++ cs) = Text.trimStart cs := by
  unfold Text.trimStart
  exact List.dropWhile_append_of_pos fun c hc => isBlank_of_isSpace (h c hc)

theorem trimEnd_cons {c : Char} (hc : Text.isBlank c = false) (cs : List Char) :
    Text.trimEnd (c :: cs) = c :: Text.trimEnd cs := by
  rw [Text.trimEnd]
  cases Text.trimEnd cs with
  | nil => simp [hc]
  | cons d ds => rfl

theorem trimEnd_append {cs ds : List Char} (h : Text.trimEnd ds ≠ []) :
    Text.trimEnd (cs ++ ds) = cs ++ Text.trimEnd ds := by
  induction cs with
  | nil => rfl
  | cons c cs ih =>
    rw [List.cons_append, Text.trimEnd, ih]
    cases hend : cs ++ Text.trimEnd ds with
    | nil => exact absurd (List.append_eq_nil_iff.1 hend).2 h
    | cons x xs => rw [List.cons_append, hend]

end TypeRef

/-! ## Words and gaps -/

theorem IsWord.isIdentifierPart {word : List Char} (h : IsWord word) : ∀ c ∈ word, Text.isIdentifierPart c = true := by
  obtain ⟨start, part⟩ := h
  exact List.forall_mem_cons.2 ⟨TypeRef.isIdentifierPart_of_isIdentifierStart start, part⟩

theorem IsWord.ne_nil {word : List Char} (h : IsWord word) : word ≠ [] := by
  cases h
  simp

/-- A gap is nothing, or it begins with a character that stands neither in names nor before them. -/
theorem IsGap.eq_nil_or {gap : List Char} (h : IsGap gap) :
    gap = [] ∨ ∃ c rest, gap = c :: rest ∧ TypeRef.isNamePart c = false ∧ c ≠ '.' ∧ c ≠ '*' := by
  have hspace {c : Char} (hc : isSpace c = true) : TypeRef.isNamePart c = false ∧ c ≠ '.' ∧ c ≠ '*' := by
    refine ⟨TypeRef.isNamePart_of_isSpace hc, ?_, ?_⟩
    · rintro rfl
      cases hc
    · rintro rfl
      cases hc
  cases h with
  | blank space =>
    cases gap with
    | nil => exact .inl rfl
    | cons c rest => exact .inr ⟨c, rest, rfl, hspace (space c (by simp))⟩
  | comment blanks rest space =>
    cases blanks with
    | nil => exact .inr ⟨'/', rest, rfl, TypeRef.isNamePart_signs _ (by decide), by decide, by decide⟩
    | cons c blanks => exact .inr ⟨c, blanks ++ '/' :: rest, rfl, hspace (space c (by simp))⟩

/-- Without its white space a gap is nothing, or it begins with the mark of a comment. -/
theorem IsGap.trimStart_append {gap : List Char} (h : IsGap gap) (cs : List Char) :
    ((∀ c ∈ gap, isSpace c = true) ∧ Text.trimStart (gap ++ cs) = Text.trimStart cs) ∨
      ∃ rest, Text.trimStart (gap ++ cs) = '/' :: rest := by
  cases h with
  | blank space => exact .inl ⟨space, TypeRef.trimStart_append space cs⟩
  | comment blanks rest space =>
    refine .inr ⟨rest ++ cs, ?_⟩
    rw [List.append_assoc, TypeRef.trimStart_append space, List.cons_append]
    exact TypeRef.trimStart_cons (by decide) _

namespace TypeRef

/-! ## Reading words -/

/-- Reads a type text without stars and white space before it. -/
def readBare (cs : List Char) : Option TypeRef :=
  (takeQualified cs).bind fun (package, name, rest) =>
    if isArguments (Text.trimStart rest) then some ⟨package.map String.ofList, String.ofList name⟩ else none

theorem parse?_eq_readBare (text : String) :
    parse? text = readBare (Text.trimStart ((Text.trim text.toList).dropWhile (· == '*'))) := rfl

theorem takeName_eq_none {c : Char} (hc : isNamePart c = false) (cs : List Char) : takeName (c :: cs) = none := by
  simp [takeName, isNameStart_of_not_isNamePart hc]

theorem readBare_eq_none {c : Char} (hc : isNamePart c = false) (cs : List Char) : readBare (c :: cs) = none := by
  simp [readBare, takeQualified, takeName_eq_none hc]

/-- A name ends where a character follows that stands in no name. -/
theorem IsName.takeName_append {name rest : List Char} (h : IsName name)
    (hrest : ∀ c ∈ rest.head?, TypeRef.isNamePart c = false) : takeName (name ++ rest) = some (name, rest) := by
  obtain ⟨start, part⟩ := h
  rename_i c cs
  have htake : (cs ++ rest).takeWhile TypeRef.isNamePart = cs := by
    rw [List.takeWhile_append_of_pos part]
    cases rest with
    | nil => simp
    | cons d ds => simp [hrest d (by simp)]
  have hdrop : (cs ++ rest).dropWhile TypeRef.isNamePart = rest := by
    rw [List.dropWhile_append_of_pos part]
    cases rest with
    | nil => simp
    | cons d ds => simp [hrest d (by simp)]
  simp [takeName, start, htake, hdrop]

/-- A word that is no name is read as none, or only up to a character inside it. -/
theorem takeName_of_not_isName {word : List Char} (hword : IsWord word) (hname : ¬ IsName word) (rest : List Char) :
    takeName (word ++ rest) = none ∨
      ∃ name c more, takeName (word ++ rest) = some (name, c :: more) ∧ Text.isIdentifierPart c = true := by
  obtain ⟨hstart, hpart⟩ := hword
  rename_i c cs
  by_cases hc : isNameStart c = true
  · refine .inr ?_
    -- The rest of the word holds a character that stands in no name.
    have hstop : ¬ ∀ x ∈ cs, isNamePart x = true := fun hall => hname (.mk hc hall)
    have hsplit : cs.dropWhile isNamePart ≠ [] := by rwa [Ne, List.dropWhile_eq_nil_iff]
    obtain ⟨d, ds, hd⟩ := List.exists_cons_of_ne_nil hsplit
    have hmem : d ∈ cs.dropWhile isNamePart := by simp [hd]
    refine ⟨c :: (cs ++ rest).takeWhile isNamePart, d, ds ++ rest, ?_, hpart d (List.dropWhile_subset _ hmem)⟩
    have hdrop : (cs ++ rest).dropWhile isNamePart = d :: (ds ++ rest) := by
      rw [List.dropWhile_append, hd]
      simp
    simp [takeName, hc, hdrop]
  · exact .inl (by simp [takeName, hc])

/-- Arguments begin with a bracket, if there are any. -/
theorem isArguments_eq_false {c : Char} (hc : c ≠ '[') (cs : List Char) : isArguments (c :: cs) = false := by
  unfold isArguments
  split
  · rename_i heq
    cases heq
  · rename_i heq
    cases heq
    exact absurd rfl hc
  · rfl

/-- Where no dot follows a name, it is local, and arguments may follow it. -/
theorem readBare_of_takeName {cs name rest : List Char} (h : takeName cs = some (name, rest))
    (hdot : ∀ c ∈ rest.head?, c ≠ '.') :
    readBare cs = if isArguments (Text.trimStart rest) then some (ofLocal (String.ofList name)) else none := by
  have hqualified : takeQualified cs = some (none, name, rest) := by
    unfold takeQualified
    rw [h, Option.bind_some]
    dsimp only
    split
    · exact absurd rfl (hdot '.' rfl)
    · rfl
  simp [readBare, hqualified, ofLocal]

/-- Behind a name and a dot another name is read. -/
theorem readBare_dot {package : List Char} (hpackage : IsName package) (more : List Char) :
    readBare (package ++ '.' :: more) = (takeName more).bind fun (name, rest) =>
      if isArguments (Text.trimStart rest) then some ⟨some (String.ofList package), String.ofList name⟩ else none := by
  have htake : takeName (package ++ '.' :: more) = some (package, '.' :: more) :=
    hpackage.takeName_append (by simpa using isNamePart_signs '.' (by decide))
  simp only [readBare, takeQualified, htake, Option.bind_some]
  cases takeName more <;> rfl

/-- What follows the start of a word inside it is no end of a reference. -/
theorem isArguments_of_isIdentifierPart {c : Char} (hc : Text.isIdentifierPart c = true) (cs : List Char) :
    isArguments (Text.trimStart (c :: cs)) = false := by
  rw [trimStart_cons (isBlank_of_isIdentifierPart hc)]
  exact isArguments_eq_false (fun heq => not_mem_signs_of_isIdentifierPart hc (by simp [heq, signs])) cs

/-- A word that is no name begins nothing that is read. -/
theorem readBare_of_not_isName {word : List Char} (hword : IsWord word) (hname : ¬ IsName word) (rest : List Char) :
    readBare (word ++ rest) = none := by
  rcases takeName_of_not_isName hword hname rest with h | ⟨name, c, more, h, hc⟩
  · simp [readBare, takeQualified, h]
  · have hdot : c ≠ '.' := fun heq => not_mem_signs_of_isIdentifierPart hc (by simp [heq, signs])
    simp [readBare_of_takeName h (by simpa using hdot), isArguments_of_isIdentifierPart hc more]

/-- The display of a reference made of names is read as that reference. -/
theorem readBare_display {ref : TypeRef} (hname : IsName ref.name.toList)
    (hpackage : ∀ p ∈ ref.package, IsName p.toList) :
    readBare ref.display.toList = some ref := by
  obtain ⟨package, name⟩ := ref
  cases package with
  | none => simp [readBare, takeQualified, display, hname.takeName_eq, isArguments, Text.trimStart]
  | some package =>
    have hdisplay : (mk (some package) name).display.toList = package.toList ++ '.' :: name.toList := by
      simp [display]
    rw [hdisplay, readBare_dot (hpackage package rfl)]
    simp [hname.takeName_eq, isArguments, Text.trimStart]

/-- Two words with a dot between them are not read if one of them is no name or if there are gaps around the dot. -/
theorem readBare_qualified {p q gap gap' : List Char} (hp : IsWord p) (hq : IsWord q) (hgap : IsGap gap)
    (hgap' : IsGap gap') (hnot : ¬ (IsName p ∧ IsName q ∧ gap = [] ∧ gap' = [])) :
    readBare (p ++ (gap ++ '.' :: (gap' ++ q))) = none := by
  by_cases hnamep : IsName p
  · rcases hgap.eq_nil_or with rfl | ⟨c, rest, rfl, hc, hdot, -⟩
    · rw [List.nil_append, readBare_dot hnamep]
      rcases hgap'.eq_nil_or with rfl | ⟨c, rest, rfl, hc, -⟩
      · have hnameq : ¬ IsName q := fun hnameq => hnot ⟨hnamep, hnameq, rfl, rfl⟩
        rcases takeName_of_not_isName hq hnameq [] with h | ⟨name, c, more, h, hc⟩
        · rw [List.append_nil] at h
          simp [h]
        · rw [List.append_nil] at h
          simp [h, isArguments_of_isIdentifierPart hc]
      · simp [takeName_eq_none hc]
    · have htake : takeName (p ++ c :: (rest ++ '.' :: (gap' ++ q))) = some (p, c :: (rest ++ '.' :: (gap' ++ q))) :=
        hnamep.takeName_append (by simpa using hc)
      have hargs : isArguments (Text.trimStart (c :: rest ++ '.' :: (gap' ++ q))) = false := by
        rcases hgap.trimStart_append ('.' :: (gap' ++ q)) with ⟨-, htrim⟩ | ⟨more, htrim⟩
        · rw [htrim, trimStart_cons (by decide)]
          exact isArguments_eq_false (by decide) _
        · rw [htrim]
          exact isArguments_eq_false (by decide) _
      have hread := readBare_of_takeName htake (by simpa using hdot)
      rw [← List.cons_append, hargs] at hread
      simpa using hread
  · exact readBare_of_not_isName hp hnamep _

end TypeRef

/-! ## Names with stars -/

/-- Gaps around a dot show. -/
theorem gaps_eq_nil_iff {p q gap gap' : List Char} (hgap : IsGap gap) :
    p ++ (gap ++ '.' :: (gap' ++ q)) = p ++ '.' :: q ↔ gap = [] ∧ gap' = [] := by
  rw [List.append_cancel_left_eq]
  rcases hgap.eq_nil_or with rfl | ⟨c, rest, rfl, -, hdot, -⟩
  · simp
  · simp [hdot]

namespace TypeExpr

/-- What is left of a type without pointers around it. -/
def pointee : TypeExpr → TypeExpr
  | pointer _ target => target.pointee
  | t => t

/-- Number of pointers around a type. -/
def stars : TypeExpr → Nat
  | pointer _ target => target.stars + 1
  | _ => 0

/-- The type is written as its stars and a reference made of names, with nothing but white space between them. -/
structure WrittenAs (source : String) (t : TypeExpr) (ref : TypeRef) : Prop where
  text : ∃ blanks, (∀ c ∈ blanks, isSpace c = true) ∧
    (t.text source).toList = List.replicate t.stars '*' ++ (blanks ++ ref.display.toList)
  name : TypeRef.IsName ref.name.toList
  package : ∀ p ∈ ref.package, TypeRef.IsName p.toList

variable {source : String} {t : TypeExpr} {s : Span} {package : Option String} {name : String}

/-- The text of a name begins and ends with a character of an identifier. -/
theorem edges_of_named (h : (named s package name).Spelt source) :
    ∃ c rest lead last, ((named s package name).text source).toList = c :: rest ∧ Text.isIdentifierPart c = true ∧
      ((named s package name).text source).toList = lead ++ last ∧ IsWord last := by
  cases package with
  | none =>
    obtain ⟨hword, htext⟩ := h
    rw [htext]
    obtain ⟨c, rest, hname⟩ := List.exists_cons_of_ne_nil hword.ne_nil
    exact ⟨c, rest, [], name.toList, hname, hword.isIdentifierPart c (by simp [hname]), rfl, hword⟩
  | some package =>
    obtain ⟨hpackage, hname, gap, gap', -, -, htext⟩ := h
    rw [htext, String.toList_ofList]
    obtain ⟨c, rest, hfirst⟩ := List.exists_cons_of_ne_nil hpackage.ne_nil
    refine ⟨c, rest ++ (gap ++ '.' :: (gap' ++ name.toList)), package.toList ++ (gap ++ '.' :: gap'), name.toList,
      by simp [hfirst], hpackage.isIdentifierPart c (by simp [hfirst]), by simp, hname⟩

/-- Before a name without stars there is no room for white space. -/
theorem writtenAs_named_iff (h : (named s package name).Spelt source) :
    (named s package name).WrittenAs source ⟨package, name⟩ ↔
      ((named s package name).text source).toList = (TypeRef.mk package name).display.toList ∧
        TypeRef.IsName name.toList ∧ ∀ p ∈ package, TypeRef.IsName p.toList := by
  constructor
  · rintro ⟨⟨blanks, hblanks, htext⟩, hname, hpackage⟩
    obtain ⟨c, rest, -, -, hfirst, hc, -⟩ := edges_of_named h
    refine ⟨?_, hname, hpackage⟩
    cases blanks with
    | nil => exact htext
    | cons blank blanks =>
      rw [hfirst] at htext
      obtain ⟨rfl, -⟩ := List.cons.inj htext
      have := TypeRef.isBlank_of_isIdentifierPart hc
      rw [TypeRef.isBlank_of_isSpace (hblanks c (by simp))] at this
      cases this
  · rintro ⟨htext, hname, hpackage⟩
    exact ⟨⟨[], by simp, htext⟩, hname, hpackage⟩

/-- A name that is not written as its display is not read. -/
theorem readBare_named (h : (named s package name).Spelt source)
    (hnot : ¬ (named s package name).WrittenAs source ⟨package, name⟩) :
    TypeRef.readBare ((named s package name).text source).toList = none := by
  rw [writtenAs_named_iff h] at hnot
  cases package with
  | none =>
    obtain ⟨hword, htext⟩ := h
    have hname : ¬ TypeRef.IsName name.toList := by simpa [htext, TypeRef.display] using hnot
    simpa [htext] using TypeRef.readBare_of_not_isName hword hname []
  | some package =>
    obtain ⟨hpackage, hname, gap, gap', hgap, hgap', htext⟩ := h
    have hdisplay : (TypeRef.mk (some package) name).display.toList = package.toList ++ '.' :: name.toList := by
      simp [TypeRef.display]
    rw [htext, String.toList_ofList, hdisplay, gaps_eq_nil_iff hgap] at hnot
    rw [htext, String.toList_ofList]
    refine TypeRef.readBare_qualified hpackage hname hgap hgap' ?_
    rintro ⟨hnamep, hnameq, hnil, hnil'⟩
    exact hnot ⟨⟨hnil, hnil'⟩, hnameq, by simpa using hnamep⟩

/-- The text of a name with stars begins with a star, or with a character of the name if there are none. -/
theorem head_of_pointee (h : t.WellSpelt source) (hnamed : t.pointee = named s package name) :
    ∃ c rest, (t.text source).toList = c :: rest ∧ Text.isBlank c = false ∧ (0 < t.stars → c = '*') := by
  cases t with
  | pointer span target =>
    rcases h _ (mem_layers_self _) with ⟨_, rfl⟩ | ⟨gap, -, htext⟩
    · cases hnamed
    · exact ⟨'*', _, by rw [htext, String.toList_ofList], by decide, fun _ => rfl⟩
  | named span package' name' =>
    obtain ⟨c, rest, -, -, hfirst, hc, -⟩ := edges_of_named (h _ (mem_layers_self _))
    exact ⟨c, rest, hfirst, TypeRef.isBlank_of_isIdentifierPart hc, by simp [stars]⟩
  | _ => cases hnamed

theorem wellSpelt_target {span : Span} {target : TypeExpr} (h : (pointer span target).WellSpelt source) :
    target.WellSpelt source :=
  fun layer hlayer => h layer (List.mem_cons_of_mem _ hlayer)

/-- A star before a name belongs to its text, with a gap behind it. -/
theorem text_of_pointer {span : Span} {target : TypeExpr} (h : (pointer span target).WellSpelt source)
    (hnamed : target.pointee = named s package name) :
    ∃ gap, IsGap gap ∧ ((pointer span target).text source).toList = '*' :: (gap ++ (target.text source).toList) := by
  rcases h _ (mem_layers_self _) with ⟨_, rfl⟩ | ⟨gap, hgap, htext⟩
  · cases hnamed
  · exact ⟨gap, hgap, by rw [htext, String.toList_ofList]⟩

/-- There is no white space around the text of a name with stars. -/
theorem trim_text_of_pointee (h : t.WellSpelt source) (hnamed : t.pointee = named s package name) :
    Text.trim (t.text source).toList = (t.text source).toList := by
  have hend : ∃ lead last, (t.text source).toList = lead ++ last ∧ IsWord last := by
    induction t with
    | pointer span target ih =>
      obtain ⟨gap, -, htext⟩ := text_of_pointer h hnamed
      obtain ⟨lead, last, htarget, hlast⟩ := ih (wellSpelt_target h) hnamed
      exact ⟨'*' :: (gap ++ lead), last, by simp [htext, htarget], hlast⟩
    | named span package' name' =>
      obtain ⟨-, -, lead, last, -, -, hlast, hword⟩ := edges_of_named (h _ (mem_layers_self _))
      exact ⟨lead, last, hlast, hword⟩
    | _ => cases hnamed
  obtain ⟨c, rest, hfirst, hc, -⟩ := head_of_pointee h hnamed
  obtain ⟨lead, last, hlast, hword⟩ := hend
  have htrim : Text.trimEnd last = last :=
    TypeRef.trimEnd_eq_self fun c hc => TypeRef.isBlank_of_isIdentifierPart (hword.isIdentifierPart c hc)
  rw [Text.trim, hfirst, TypeRef.trimStart_cons hc, ← hfirst, hlast,
    TypeRef.trimEnd_append (by rw [htrim]; exact hword.ne_nil),
    htrim]

/-- Whatever is read off a name with stars, it is written plainly. -/
theorem writtenAs_of_readBare (h : t.WellSpelt source) (hnamed : t.pointee = named s package name) {ref : TypeRef}
    (hread : TypeRef.readBare (Text.trimStart ((t.text source).toList.dropWhile (· == '*'))) = some ref) :
    t.WrittenAs source ⟨package, name⟩ := by
  induction t with
  | pointer span target ih =>
    obtain ⟨gap, hgap, htext⟩ := text_of_pointer h hnamed
    have htarget := wellSpelt_target h
    obtain ⟨c, rest, hfirst, hc, hstar⟩ := head_of_pointee htarget hnamed
    rcases hgap.eq_nil_or with rfl | ⟨d, more, hd, -, -, hdstar⟩
    · -- Stars in a row are dropped together.
      have hdrop : ((pointer span target).text source).toList.dropWhile (· == '*') =
          (target.text source).toList.dropWhile (· == '*') := by simp [htext]
      rw [hdrop] at hread
      obtain ⟨⟨blanks, hblanks, hrest⟩, hname, hpackage⟩ := ih htarget hnamed hread
      exact ⟨⟨blanks, hblanks, by simp [htext, hrest, stars, List.replicate_succ]⟩, hname, hpackage⟩
    · have hdrop : ((pointer span target).text source).toList.dropWhile (· == '*') =
          gap ++ (target.text source).toList := by simp [htext, hd, hdstar]
      rw [hdrop] at hread
      rcases hgap.trimStart_append (target.text source).toList with ⟨hblanks, htrim⟩ | ⟨more, htrim⟩
      · -- Behind white space a further star is no start of a name.
        rw [htrim, hfirst, TypeRef.trimStart_cons hc, ← hfirst] at hread
        have hnone : target.stars = 0 := by
          by_contra hpos
          rw [hfirst, hstar (by omega), TypeRef.readBare_eq_none (TypeRef.isNamePart_signs _ (by decide))] at hread
          cases hread
        cases target with
        | named span' package' name' =>
          cases hnamed
          have hspelt := htarget _ (mem_layers_self _)
          have hwritten : (named s package name).WrittenAs source ⟨package, name⟩ := by
            by_contra hnot
            rw [readBare_named hspelt hnot] at hread
            cases hread
          obtain ⟨hdisplay, hname, hpackage⟩ := (writtenAs_named_iff hspelt).1 hwritten
          exact ⟨⟨gap, hblanks, by simp [htext, hdisplay, stars]⟩, hname, hpackage⟩
        | pointer _ _ => simp [stars] at hnone
        | _ => cases hnamed
      · rw [htrim, TypeRef.readBare_eq_none (TypeRef.isNamePart_signs _ (by decide))] at hread
        cases hread
  | named span package' name' =>
    cases hnamed
    have hspelt := h _ (mem_layers_self _)
    obtain ⟨c, rest, -, -, hfirst, hc, -⟩ := edges_of_named hspelt
    have hstar : c ≠ '*' := fun heq => TypeRef.not_mem_signs_of_isIdentifierPart hc (by simp [heq, TypeRef.signs])
    have hdrop : (c :: rest).dropWhile (· == '*') = c :: rest := by simp [hstar]
    rw [hfirst, hdrop, TypeRef.trimStart_cons (TypeRef.isBlank_of_isIdentifierPart hc), ← hfirst] at hread
    by_contra hnot
    rw [readBare_named hspelt hnot] at hread
    cases hread
  | _ => cases hnamed

/-- A name with stars is read as that name if it is written plainly, and otherwise not at all. -/
theorem parse?_of_pointee (h : t.WellSpelt source) (hnamed : t.pointee = named s package name) :
    (t.WrittenAs source ⟨package, name⟩ → TypeRef.parse? (t.text source) = some ⟨package, name⟩) ∧
      (¬ t.WrittenAs source ⟨package, name⟩ → TypeRef.parse? (t.text source) = none) := by
  rw [TypeRef.parse?_eq_readBare, trim_text_of_pointee h hnamed]
  refine ⟨?_, fun hnot => ?_⟩
  · rintro ⟨⟨blanks, hblanks, htext⟩, hname, hpackage⟩
    have hread := TypeRef.readBare_display hname hpackage
    -- The display begins with a character of a name, since it is read.
    obtain ⟨c, rest, hdisplay, hc⟩ : ∃ c rest, (TypeRef.mk package name).display.toList = c :: rest ∧
        TypeRef.isNamePart c = true := by
      cases hdisplay : (TypeRef.mk package name).display.toList with
      | nil =>
        rw [hdisplay] at hread
        cases hread
      | cons c rest =>
        refine ⟨c, rest, rfl, ?_⟩
        by_contra hc
        rw [hdisplay, TypeRef.readBare_eq_none (by simpa using hc)] at hread
        cases hread
    have hdrop : (t.text source).toList.dropWhile (· == '*') = blanks ++ c :: rest := by
      rw [htext, hdisplay, List.dropWhile_append_of_pos (by simp [List.mem_replicate])]
      cases blanks with
      | nil =>
        have hstar : c ≠ '*' := by
          rintro rfl
          rw [TypeRef.isNamePart_signs _ (by decide)] at hc
          cases hc
        simp [hstar]
      | cons blank blanks =>
        have hstar : blank ≠ '*' := by
          rintro rfl
          cases hblanks '*' (by simp)
        simp [hstar]
    rw [hdrop, TypeRef.trimStart_append hblanks, TypeRef.trimStart_cons (TypeRef.isBlank_of_isNamePart hc), ← hdisplay]
    exact hread
  · by_contra hsome
    obtain ⟨ref, hread⟩ := Option.ne_none_iff_exists'.1 hsome
    exact hnot (writtenAs_of_readBare h hnamed hread)

/-! ## Composite types -/

/-- Slices, arrays, maps and variadic parameters. -/
def isComposite : TypeExpr → Bool
  | slice _ _ | array _ _ | map _ _ _ | variadic _ _ => true
  | _ => false

/-- The text of a map can be taken for the name `map` with type arguments: behind the word there is a text in
brackets, which has no line feed. -/
def isTakenForName (source : String) (t : TypeExpr) : Bool :=
  t.isMap && TypeRef.isArguments (Text.trimStart ((Text.trim (t.text source).toList).drop "map".length))

theorem parse?_of_sign {c : Char} (hc : c ∈ TypeRef.signs) (hstar : c ≠ '*') (rest : List Char) :
    TypeRef.parse? (String.ofList (c :: rest)) = none := by
  have hblank := TypeRef.isBlank_signs c hc
  have hdrop : (c :: Text.trimEnd rest).dropWhile (· == '*') = c :: Text.trimEnd rest := by simp [hstar]
  rw [TypeRef.parse?_eq_readBare, String.toList_ofList, Text.trim, TypeRef.trimStart_cons hblank,
    TypeRef.trimEnd_cons hblank,
    hdrop, TypeRef.trimStart_cons hblank]
  exact TypeRef.readBare_eq_none (TypeRef.isNamePart_signs c hc) _

theorem isName_map : TypeRef.IsName "map".toList := by
  have hall : ['a', 'p'].all TypeRef.isNamePart = true := by decide
  have hname : TypeRef.IsName ['m', 'a', 'p'] := .mk (by decide) (List.all_eq_true.1 hall)
  exact hname

/-- A composite type is not read as a reference, unless its text can be taken for the name `map`. -/
theorem parse?_of_isComposite (h : t.Spelt source) (hcomposite : t.isComposite = true) :
    TypeRef.parse? (t.text source) = if t.isTakenForName source then some (.ofLocal "map") else none := by
  cases t with
  | slice span element =>
    obtain ⟨rest, htext⟩ := h
    rw [htext]
    exact parse?_of_sign (by decide) (by decide) rest
  | array span element =>
    obtain ⟨rest, htext⟩ := h
    rw [htext]
    exact parse?_of_sign (by decide) (by decide) rest
  | variadic span element =>
    obtain ⟨rest, htext⟩ := h
    rw [htext]
    exact parse?_of_sign (c := '.') (by decide) (by decide) _
  | map span key value =>
    obtain ⟨gap, rest, hgap, htext⟩ := h
    -- What follows the word is not touched by trimming up to the bracket.
    have htrim : Text.trim ((map span key value).text source).toList =
        "map".toList ++ (gap ++ '[' :: Text.trimEnd rest) := by
      have hend : Text.trimEnd ('[' :: rest) = '[' :: Text.trimEnd rest := TypeRef.trimEnd_cons (by decide) rest
      have hfirst : Text.trimStart ("map".toList ++ (gap ++ '[' :: rest)) = "map".toList ++ (gap ++ '[' :: rest) :=
        TypeRef.trimStart_cons (c := 'm') (by decide) _
      rw [htext, String.toList_ofList, Text.trim, hfirst, ← List.append_assoc,
        TypeRef.trimEnd_append (by simp [hend]), hend,
        List.append_assoc]
    have hhead : ∀ c ∈ (gap ++ '[' :: Text.trimEnd rest).head?, TypeRef.isNamePart c = false ∧ c ≠ '.' := by
      rcases hgap.eq_nil_or with rfl | ⟨c, more, rfl, hc, hdot, -⟩
      · simpa using TypeRef.isNamePart_signs '[' (by decide)
      · simpa using ⟨hc, hdot⟩
    have hread := TypeRef.readBare_of_takeName (isName_map.takeName_append fun c hc => (hhead c hc).1)
      fun c hc => (hhead c hc).2
    have hdrop : ("map".toList ++ (gap ++ '[' :: Text.trimEnd rest)).dropWhile (· == '*') =
        "map".toList ++ (gap ++ '[' :: Text.trimEnd rest) := by simp
    have hstart : Text.trimStart ("map".toList ++ (gap ++ '[' :: Text.trimEnd rest)) =
        "map".toList ++ (gap ++ '[' :: Text.trimEnd rest) := TypeRef.trimStart_cons (c := 'm') (by decide) _
    rw [TypeRef.parse?_eq_readBare, htrim, hdrop, hstart, hread, isTakenForName, htrim]
    rfl
  | _ => cases hcomposite

end TypeExpr

/-! ## Packages and types cut apart -/

/-- A name is cut into its package and itself if there are no gaps in it. -/
theorem Arg.packageAndType_of_named {source : String} {a : Arg} {s : Span} {package : Option String} {name : String}
    (ha : a.type = .named s package name) (h : a.type.Spelt source) :
    a.packageAndType source = (package.getD "", name) ↔ a.typeText source = (TypeRef.mk package name).display := by
  have hdot {word : List Char} (hword : IsWord word) : ∀ c ∈ word, (c != '.') = true := by
    intro c hc
    have hsign := TypeRef.not_mem_signs_of_isIdentifierPart (hword.isIdentifierPart c hc)
    simpa using fun heq : c = '.' => hsign (by simp [heq, TypeRef.signs])
  rw [ha] at h
  cases package with
  | none =>
    obtain ⟨hword, htext⟩ := h
    have htypeText : a.typeText source = name := by rw [Arg.typeText, ha, htext]
    have htake : name.toList.takeWhile (· != '.') = name.toList := List.takeWhile_eq_self_iff.2 (hdot hword)
    simp [Arg.packageAndType, htypeText, htake, TypeRef.display]
  | some package =>
    obtain ⟨hpackage, hname, gap, gap', hgap, -, htext⟩ := h
    have htypeText : a.typeText source = String.ofList (package.toList ++ (gap ++ '.' :: (gap' ++ name.toList))) := by
      rw [Arg.typeText, ha, htext]
    have hdisplay :
        (TypeRef.mk (some package) name).display = String.ofList (package.toList ++ '.' :: name.toList) := by
      simp [TypeRef.display, String.append_assoc]
    rw [hdisplay, htypeText, String.ofList_inj, gaps_eq_nil_iff hgap]
    rcases hgap.eq_nil_or with rfl | ⟨c, rest, rfl, -, hc, -⟩
    · have htake : (package.toList ++ '.' :: (gap' ++ name.toList)).takeWhile (· != '.') = package.toList := by
        rw [List.takeWhile_append_of_pos (hdot hpackage)]
        simp
      have hcut : a.packageAndType source = (package, String.ofList (gap' ++ name.toList)) := by
        simp only [Arg.packageAndType, htypeText, String.toList_ofList, List.nil_append, htake, List.drop_left,
          String.ofList_toList]
      have hname' : String.ofList (gap' ++ name.toList) = name ↔ gap' = [] := by
        rw [← String.toList_inj, String.toList_ofList, List.append_left_eq_self]
      simp only [hcut, Option.getD_some, Prod.mk.injEq, hname', true_and]
    · -- The package is cut off behind the gap or inside it.
      have htake : ∃ more, (package.toList ++ (c :: rest ++ '.' :: (gap' ++ name.toList))).takeWhile (· != '.') =
          package.toList ++ c :: more := by
        rw [List.takeWhile_append_of_pos (hdot hpackage), List.cons_append,
          List.takeWhile_cons_of_pos (by simpa using hc)]
        exact ⟨_, rfl⟩
      obtain ⟨more, htake⟩ := htake
      simp only [List.cons_ne_nil, false_and, iff_false]
      simp only [Arg.packageAndType, htypeText, String.toList_ofList, htake, Option.getD_some]
      split
      · rintro heq
        have hpart := congrArg String.toList (Prod.mk.inj heq).1
        simp at hpart
      · rintro heq
        have hpart := congrArg String.toList (Prod.mk.inj heq).1
        exact hpackage.ne_nil hpart.symm

/-! ## Types of scanned files -/

section

variable {location : Path} {source : String} {file : File}

theorem extractArgType_of_parse?_none (d : Disk) (sheet : Sheet) {a : Arg}
    (h : TypeRef.parse? (a.typeText sheet.file.source) = none) (s : Session) :
    (Session.extractArgType d sheet a).run s =
      (.error (.typeNotFound (a.typeText sheet.file.source)), s.remember sheet) := by
  have htext : Search.typeTextWithin d (Search.depthLimit d) sheet (a.typeText sheet.file.source) = pure none := by
    simp only [Search.depthLimit, Search.typeTextWithin, Search.typeText, h]
  unfold Session.extractArgType Session.extractType
  rw [htext]
  rfl

/-- In a scanned file a composite type is not read as a reference, and looking for it finds nothing and looks at
nothing, unless it is a map whose text can be taken for the name `map` with type arguments. -/
theorem composite_reference (h : File.ofSource location source = .ok file) {t : TypeExpr} (ht : t ∈ file.types)
    (hcomposite : t.isComposite = true) :
    (TypeRef.parse? (t.text source) = if t.isTakenForName source then some (.ofLocal "map") else none) ∧
    (t.isTakenForName source = false → ∀ (d : Disk) (number : Nat) (s : Session) (a : Arg), a.type = t →
      (Session.extractArgType d ⟨number, file⟩ a).run s =
        (.error (.typeNotFound (t.text source)), s.remember ⟨number, file⟩)) := by
  have hspelt := File.wellSpelt_of_mem_types h ht t t.mem_layers_self
  have hparse := t.parse?_of_isComposite hspelt hcomposite
  refine ⟨hparse, ?_⟩
  rintro htaken d number s a rfl
  obtain ⟨_, -, hsource, -⟩ := File.reading_of_ofSource h
  rw [htaken] at hparse
  have hnone := extractArgType_of_parse?_none d ⟨number, file⟩ (by rw [hsource]; exact hparse) s
  rw [hnone, hsource]
  rfl

/-- A file with a map of generic elements, a slice of them, a name with a gap in it and one with a gap before it. -/
def fieldTypes : File where
  location := .ofString "/p/p.go"
  package := "p"
  comment := ""
  imports := []
  values := []
  interfaces := []
  structs := [⟨"S", "",
    [⟨"F", .map ⟨29, 46⟩ (.primitive ⟨33, 39⟩ .string) (.other ⟨40, 46⟩), "", none⟩,
     ⟨"G", .slice ⟨50, 58⟩ (.other ⟨52, 58⟩), "", none⟩,
     ⟨"H", .named ⟨62, 66⟩ (some "a") "T", "", none⟩,
     ⟨"I", .pointer ⟨70, 76⟩ (.pointer ⟨71, 76⟩ (.named ⟨73, 76⟩ (some "a") "T")), "", none⟩], ⟨18, 78⟩⟩]
  source :=
    "package p\n\ntype S struct\x7b\n\tF map[string]T[int]\n\tG []T[int]\n\tH a. T\n\tI ** a.T\n\x7d\n"

theorem ofSource_fieldTypes : File.ofSource fieldTypes.location fieldTypes.source = .ok fieldTypes := by
  decide +kernel

/-- The slice is not read and not looked for. -/
theorem composite_reference_slice :
    let t : TypeExpr := .slice ⟨50, 58⟩ (.other ⟨52, 58⟩)
    t ∈ fieldTypes.types ∧ t.isComposite = true ∧ TypeRef.parse? (t.text fieldTypes.source) = none ∧
      ∀ (d : Disk) (number : Nat) (s : Session) (a : Arg), a.type = t →
        (Session.extractArgType d ⟨number, fieldTypes⟩ a).run s =
          (.error (.typeNotFound "[]T[int]"), s.remember ⟨number, fieldTypes⟩) := by
  intro t
  have ht : t ∈ fieldTypes.types := by decide
  have htext : t.text fieldTypes.source = "[]T[int]" := by decide
  obtain ⟨hparse, hsearch⟩ := composite_reference ofSource_fieldTypes ht rfl
  rw [htext] at hsearch
  exact ⟨ht, rfl, hparse, hsearch rfl⟩

/-- The map is read as a reference to a type `map`. -/
theorem map_read_as_name :
    File.ofSource fieldTypes.location fieldTypes.source = .ok fieldTypes ∧
      ∃ t ∈ fieldTypes.types, t.isComposite = true ∧ t.text fieldTypes.source = "map[string]T[int]" ∧
        TypeRef.parse? (t.text fieldTypes.source) = some (.ofLocal "map") := by
  let t : TypeExpr := .map ⟨29, 46⟩ (.primitive ⟨33, 39⟩ .string) (.other ⟨40, 46⟩)
  have htext : t.text fieldTypes.source = "map[string]T[int]" := by decide
  refine ⟨ofSource_fieldTypes, t, by decide, rfl, htext, ?_⟩
  rw [htext]
  decide

/-- In a scanned file a name with any stars before it is read as that name if it is written plainly, and otherwise
not at all. Without stars it is cut into package and name if there are no gaps in it, and only then. -/
theorem named_reference (h : File.ofSource location source = .ok file) {a : Arg} (ha : a.type ∈ file.types) {s : Span}
    {package : Option String} {name : String} (hnamed : a.type.pointee = .named s package name) :
    (a.type.WrittenAs source ⟨package, name⟩ → TypeRef.parse? (a.typeText source) = some ⟨package, name⟩) ∧
    (¬ a.type.WrittenAs source ⟨package, name⟩ → TypeRef.parse? (a.typeText source) = none) ∧
    (a.type = .named s package name →
      (a.packageAndType source = (package.getD "", name) ↔ a.typeText source = (TypeRef.mk package name).display)) := by
  have hspelt := File.wellSpelt_of_mem_types h ha
  obtain ⟨hplain, hother⟩ := TypeExpr.parse?_of_pointee hspelt hnamed
  exact ⟨hplain, hother, fun htype => Arg.packageAndType_of_named htype (hspelt _ (TypeExpr.mem_layers_self _))⟩

/-- The gap behind the stars is passed over. -/
theorem named_reference_stars :
    let a : Arg := ⟨"I", .pointer ⟨70, 76⟩ (.pointer ⟨71, 76⟩ (.named ⟨73, 76⟩ (some "a") "T")), "", none⟩
    a ∈ fieldTypes.args ∧ a.type ∈ fieldTypes.types ∧ a.type.WrittenAs fieldTypes.source ⟨some "a", "T"⟩ ∧
      TypeRef.parse? (a.typeText fieldTypes.source) = some ⟨some "a", "T"⟩ := by
  intro a
  have ha : a.type ∈ fieldTypes.types := by decide
  have htext : (a.type.text fieldTypes.source).toList = "** a.T".toList := by decide
  have hname (c : Char) (hc : TypeRef.isNameStart c = true) : TypeRef.IsName [c] := .mk hc (by simp)
  have hwritten : a.type.WrittenAs fieldTypes.source ⟨some "a", "T"⟩ := by
    refine ⟨⟨[' '], by simp [isSpace], htext⟩, hname 'T' (by decide), ?_⟩
    rintro p ⟨⟩
    exact hname 'a' (by decide)
  exact ⟨by decide, ha, hwritten, (named_reference ofSource_fieldTypes ha rfl).1 hwritten⟩

/-- A name with a gap behind its dot is not read, and it is cut apart with the gap. -/
theorem gap_in_name :
    File.ofSource fieldTypes.location fieldTypes.source = .ok fieldTypes ∧
      ∃ a ∈ fieldTypes.args, a.type = .named ⟨62, 66⟩ (some "a") "T" ∧
        TypeRef.parse? (a.typeText fieldTypes.source) = none ∧ a.packageAndType fieldTypes.source = ("a", " T") := by
  let a : Arg := ⟨"H", .named ⟨62, 66⟩ (some "a") "T", "", none⟩
  have htext : a.typeText fieldTypes.source = "a. T" := by decide
  refine ⟨ofSource_fieldTypes, a, by decide, rfl, ?_, ?_⟩
  · rw [htext]
    decide
  · rw [Arg.packageAndType, htext]
    decide

end

end GoOutline
