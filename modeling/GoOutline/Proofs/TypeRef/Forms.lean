import GoOutline.Proofs.Model.References

/-!
# The form of a reference: `TypeRef::parse`

A text is read as a reference if and only if, without the white space around it, it has the form of one
(`TypeRef.Form`): stars, white space, perhaps a package with a dot, a name, white space, and perhaps type arguments in
brackets. A text has that form in one way only, as far as package and name go (`parse?_eq_some_iff_form`).
-/
namespace GoOutline

/-! ## White space around a text -/

namespace Text

/-- The first text is the second with white space around it, and the second has none at its ends. -/
structure Trims (cs core : List Char) : Prop where
  around : ∃ before after, cs = before ++ (core ++ after) ∧ (∀ c ∈ before, isBlank c = true) ∧
    ∀ c ∈ after, isBlank c = true
  first : ∀ c ∈ core.head?, isBlank c = false
  last : ∀ c ∈ core.getLast?, isBlank c = false

variable {cs core blanks : List Char}

theorem trimStart_blanks (h : ∀ c ∈ blanks, isBlank c = true) (cs : List Char) :
    trimStart (blanks ++ cs) = trimStart cs :=
  List.dropWhile_append_of_pos h

theorem trimStart_of_head (h : ∀ c ∈ cs.head?, isBlank c = false) : trimStart cs = cs := by
  cases cs with
  | nil => rfl
  | cons c cs => exact TypeRef.trimStart_cons (h c rfl) cs

theorem trimEnd_eq_nil (h : ∀ c ∈ blanks, isBlank c = true) : trimEnd blanks = [] := by
  induction blanks with
  | nil => rfl
  | cons c blanks ih =>
    rw [List.forall_mem_cons] at h
    rw [trimEnd, ih h.2]
    simp [h.1]

theorem trimEnd_of_getLast (h : ∀ c ∈ cs.getLast?, isBlank c = false) : trimEnd cs = cs := by
  rcases List.eq_nil_or_concat cs with rfl | ⟨front, c, rfl⟩
  · rfl
  · have hc : isBlank c = false := h c (by simp)
    have hend : trimEnd [c] = [c] := by simp [trimEnd, hc]
    rw [List.concat_eq_append, TypeRef.trimEnd_append (by simp [hend]), hend]

theorem trimEnd_blanks (h : ∀ c ∈ blanks, isBlank c = true) (cs : List Char) :
    trimEnd (cs ++ blanks) = trimEnd cs := by
  induction cs with
  | nil => exact trimEnd_eq_nil h
  | cons c cs ih => rw [List.cons_append, trimEnd, ih, trimEnd]

/-- What is trimmed off the end of a text is white space, and no more of it is left there. -/
theorem exists_trimEnd (cs : List Char) :
    ∃ after, cs = trimEnd cs ++ after ∧ (∀ c ∈ after, isBlank c = true) ∧
      ∀ c ∈ (trimEnd cs).getLast?, isBlank c = false := by
  induction cs with
  | nil => exact ⟨[], rfl, by simp, by simp [trimEnd]⟩
  | cons c cs ih =>
    obtain ⟨after, hcs, hafter, hlast⟩ := ih
    rw [trimEnd]
    cases hend : trimEnd cs with
    | nil =>
      rw [hend, List.nil_append] at hcs
      subst hcs
      by_cases hc : isBlank c = true
      · exact ⟨c :: cs, by simp [hc], List.forall_mem_cons.2 ⟨hc, hafter⟩, by simp [hc]⟩
      · exact ⟨cs, by simp [hc], hafter, by simp [hc]⟩
    | cons d ds =>
      rw [hend] at hcs hlast
      exact ⟨after, by rw [List.cons_append, ← hcs], hafter, by rwa [List.getLast?_cons_cons]⟩

theorem trims_trim (cs : List Char) : Trims cs (trim cs) := by
  obtain ⟨after, hcs, hafter, hlast⟩ := exists_trimEnd (trimStart cs)
  refine ⟨⟨cs.takeWhile isBlank, after, ?_, fun c hc => List.mem_takeWhile_imp hc, hafter⟩, ?_, hlast⟩
  · rw [trim, ← hcs, trimStart, List.takeWhile_append_dropWhile]
  · -- The first character of what is left is the one that stopped the trimming at the start.
    intro c hc
    have hhead : c ∈ (trimStart cs).head? := by
      rw [hcs, List.head?_append]
      rw [trim, Option.mem_def] at hc
      simp [hc]
    have := List.head?_dropWhile_not isBlank cs
    rw [trimStart, Option.mem_def] at hhead
    simpa [hhead] using this

theorem Trims.trim_eq (h : Trims cs core) : trim cs = core := by
  obtain ⟨⟨before, after, rfl, hbefore, hafter⟩, hfirst, hlast⟩ := h
  rw [trim, trimStart_blanks hbefore]
  cases core with
  | nil =>
    have hnone : trimStart after = [] := by
      have := trimStart_blanks hafter []
      rwa [List.append_nil] at this
    rw [List.nil_append, hnone]
    rfl
  | cons c core =>
    rw [trimStart_of_head (by simpa using hfirst c rfl), trimEnd_blanks hafter]
    exact trimEnd_of_getLast hlast

end Text

namespace TypeRef

/-! ## Forms -/

/-- The parts of a type text that names a type. -/
structure Form where
  stars : Nat
  /-- White space behind the stars. -/
  lead : List Char
  package : Option (List Char)
  name : List Char
  /-- White space behind the name. -/
  gap : List Char
  /-- What stands between the brackets. -/
  arguments : Option (List Char)
  isBlank_lead : ∀ c ∈ lead, Text.isBlank c = true
  isName_package : ∀ p ∈ package, IsName p
  isName_name : IsName name
  isBlank_gap : ∀ c ∈ gap, Text.isBlank c = true
  line_arguments : ∀ inside ∈ arguments, '\n' ∉ inside

namespace Form

/-- The package with its dot. -/
def qualifier (f : Form) : List Char := f.package.elim [] (· ++ ['.'])

/-- The type arguments in their brackets. -/
def bracketed (f : Form) : List Char := f.arguments.elim [] fun inside => '[' :: (inside ++ [']'])

/-- What stands behind the stars and the white space after them. -/
def bare (f : Form) : List Char := f.qualifier ++ (f.name ++ (f.gap ++ f.bracketed))

/-- All parts in their order. -/
def text (f : Form) : List Char := List.replicate f.stars '*' ++ (f.lead ++ f.bare)

/-- The reference that the parts make. -/
def ref (f : Form) : TypeRef := ⟨f.package.map String.ofList, String.ofList f.name⟩

end Form

variable {cs name rest : List Char} {package : Option (List Char)}

theorem IsName.exists_cons (h : IsName cs) : ∃ c rest, cs = c :: rest ∧ isNameStart c = true := by
  obtain ⟨start, -⟩ := h
  exact ⟨_, _, rfl, start⟩

theorem isNamePart_of_isBlank {c : Char} (h : Text.isBlank c = true) : isNamePart c = false := by
  by_contra hpart
  rw [isBlank_of_isNamePart (by simpa using hpart)] at h
  cases h

theorem ne_star_of_isBlank {c : Char} (h : Text.isBlank c = true) : c ≠ '*' := by
  rintro rfl
  exact absurd h (by decide)

theorem isArguments_iff : isArguments cs = true ↔
    cs = [] ∨ ∃ inside, '\n' ∉ inside ∧ cs = '[' :: (inside ++ [']']) := by
  constructor
  · intro h
    unfold isArguments at h
    split at h
    · exact .inl rfl
    · rename_i rest
      simp only [Bool.and_eq_true, beq_iff_eq, Bool.not_eq_true'] at h
      obtain ⟨inside, rfl⟩ := List.getLast?_eq_some_iff.1 h.1
      exact .inr ⟨inside, by simpa using h.2, rfl⟩
    · cases h
  · rintro (rfl | ⟨inside, hline, rfl⟩)
    · rfl
    · simp [isArguments, hline]

theorem eq_append_of_takeName (h : takeName cs = some (name, rest)) : cs = name ++ rest := by
  unfold takeName at h
  split at h
  · split at h
    · cases h
      simp
    · cases h
  · cases h

/-- What is taken for a reference is a name, perhaps behind another one and a dot. -/
theorem eq_append_of_takeQualified (h : takeQualified cs = some (package, name, rest)) :
    cs = package.elim [] (· ++ ['.']) ++ (name ++ rest) ∧ IsName name ∧ ∀ p ∈ package, IsName p := by
  unfold takeQualified at h
  obtain ⟨⟨first, more⟩, hfirst, h⟩ := Option.bind_eq_some_iff.1 h
  have hcs := eq_append_of_takeName hfirst
  have hisName := isName_of_takeName hfirst
  dsimp only at h
  split at h
  · obtain ⟨⟨second, rest'⟩, hsecond, heq⟩ := Option.map_eq_some_iff.1 h
    cases heq
    refine ⟨?_, isName_of_takeName hsecond, by simpa using hisName⟩
    rw [hcs, eq_append_of_takeName hsecond]
    simp
  · cases h
    exact ⟨by simpa using hcs, hisName, by simp⟩

namespace Form

theorem bare_head (f : Form) : ∀ c ∈ f.bare.head?, isNameStart c = true := by
  obtain ⟨c, rest, hname, hc⟩ := f.isName_name.exists_cons
  unfold bare qualifier
  cases hpackage : f.package with
  | none => simp [hname, hc]
  | some p =>
    obtain ⟨d, rest', rfl, hd⟩ := (f.isName_package p hpackage).exists_cons
    simp [hd]

/-- Behind the name stands white space, a bracket or nothing. -/
theorem gap_head (f : Form) : ∀ c ∈ (f.gap ++ f.bracketed).head?, isNamePart c = false ∧ c ≠ '.' := by
  intro c hc
  cases hgap : f.gap with
  | nil =>
    rw [hgap, List.nil_append, bracketed] at hc
    cases harguments : f.arguments with
    | none => simp [harguments] at hc
    | some inside =>
      obtain rfl : '[' = c := by simpa [harguments] using hc
      exact ⟨isNamePart_signs _ (by decide), by decide⟩
  | cons d gap =>
    obtain rfl : d = c := by simpa [hgap] using hc
    have hblank : Text.isBlank d = true := f.isBlank_gap d (by simp [hgap])
    refine ⟨isNamePart_of_isBlank hblank, ?_⟩
    rintro rfl
    exact absurd hblank (by decide)

theorem isArguments_bracketed (f : Form) : isArguments (Text.trimStart (f.gap ++ f.bracketed)) = true := by
  rw [Text.trimStart_blanks f.isBlank_gap, bracketed]
  cases harguments : f.arguments with
  | none => rfl
  | some inside =>
    rw [Option.elim_some, trimStart_cons (by decide)]
    exact isArguments_iff.2 (.inr ⟨inside, f.line_arguments inside harguments, rfl⟩)

theorem readBare_bare (f : Form) : readBare f.bare = some f.ref := by
  have htake : takeName (f.name ++ (f.gap ++ f.bracketed)) = some (f.name, f.gap ++ f.bracketed) :=
    f.isName_name.takeName_append fun c hc => (f.gap_head c hc).1
  unfold bare qualifier ref
  cases hpackage : f.package with
  | none =>
    rw [Option.elim_none, List.nil_append, readBare_of_takeName htake fun c hc => (f.gap_head c hc).2,
      if_pos f.isArguments_bracketed]
    rfl
  | some p =>
    rw [Option.elim_some, List.append_assoc, List.singleton_append, readBare_dot (f.isName_package p hpackage), htake,
      Option.bind_some]
    dsimp only
    rw [if_pos f.isArguments_bracketed]
    rfl

/-- Stars and the white space behind them are passed over. -/
theorem bare_eq (f : Form) : Text.trimStart (f.text.dropWhile (· == '*')) = f.bare := by
  have hstars : ∀ c ∈ List.replicate f.stars '*', (c == '*') = true := by
    intro c hc
    simp [List.eq_of_mem_replicate hc]
  have hhead : ∀ c ∈ (f.lead ++ f.bare).head?, (c == '*') = false := by
    intro c hc
    rw [beq_eq_false_iff_ne]
    cases hlead : f.lead with
    | nil =>
      rw [hlead, List.nil_append] at hc
      exact ne_star_of_isNameStart (f.bare_head c hc)
    | cons d lead =>
      obtain rfl : d = c := by simpa [hlead] using hc
      exact ne_star_of_isBlank (f.isBlank_lead d (by simp [hlead]))
  have hdrop : f.text.dropWhile (· == '*') = f.lead ++ f.bare := by
    rw [text, List.dropWhile_append_of_pos hstars]
    cases h : f.lead ++ f.bare with
    | nil => rfl
    | cons c rest => rw [List.dropWhile_cons, hhead c (by simp [h])]; rfl
  rw [hdrop, Text.trimStart_blanks f.isBlank_lead]
  exact Text.trimStart_of_head fun c hc => isBlank_of_isNamePart (isNamePart_of_isNameStart (f.bare_head c hc))

end Form

/-- What is read behind stars and white space has a form. -/
theorem exists_form_of_readBare {ref : TypeRef}
    (h : readBare (Text.trimStart (cs.dropWhile (· == '*'))) = some ref) :
    ∃ form : Form, form.text = cs ∧ form.ref = ref := by
  obtain ⟨⟨package, name, rest⟩, htake, h⟩ := Option.bind_eq_some_iff.1 h
  obtain ⟨hbare, hname, hpackage⟩ := eq_append_of_takeQualified htake
  dsimp only at h
  split at h
  · rename_i harguments
    cases h
    obtain ⟨arguments, hline, hrest⟩ : ∃ arguments : Option (List Char), (∀ inside ∈ arguments, '\n' ∉ inside) ∧
        Text.trimStart rest = arguments.elim [] fun inside => '[' :: (inside ++ [']']) := by
      rcases isArguments_iff.1 harguments with hnone | ⟨inside, hline, hinside⟩
      · exact ⟨none, by simp, hnone⟩
      · exact ⟨some inside, by simpa using hline, hinside⟩
    let stars := cs.takeWhile (· == '*')
    let behind := cs.dropWhile (· == '*')
    have hstars : List.replicate stars.length '*' = stars :=
      (List.eq_replicate_of_mem fun c hc => by simpa using List.mem_takeWhile_imp hc).symm
    let form : Form := {
      stars := stars.length, lead := behind.takeWhile Text.isBlank, package, name, gap := rest.takeWhile Text.isBlank,
      arguments, isBlank_lead := fun c hc => List.mem_takeWhile_imp hc, isName_package := hpackage, isName_name := hname,
      isBlank_gap := fun c hc => List.mem_takeWhile_imp hc, line_arguments := hline }
    have hform : form.bare = Text.trimStart behind := by
      have hgap : rest.takeWhile Text.isBlank ++ Text.trimStart rest = rest := List.takeWhile_append_dropWhile
      rw [hbare, Form.bare, Form.qualifier, Form.bracketed]
      dsimp only [form]
      rw [← hrest, hgap]
    refine ⟨form, ?_, rfl⟩
    calc form.text = stars ++ (behind.takeWhile Text.isBlank ++ Text.trimStart behind) := by
          rw [Form.text, hform, hstars]
      _ = stars ++ behind := by rw [Text.trimStart, List.takeWhile_append_dropWhile]
      _ = cs := List.takeWhile_append_dropWhile
  · cases h

/-- A text is read as a reference if and only if it has, white space around it apart, the form of that reference; and no
text has the forms of two references. -/
theorem parse?_eq_some_iff_form :
    (∀ (text : String) (ref : TypeRef),
      parse? text = some ref ↔ ∃ form : Form, Text.Trims text.toList form.text ∧ form.ref = ref) ∧
    ∀ f g : Form, f.text = g.text → f.package = g.package ∧ f.name = g.name := by
  have hread (f : Form) : readBare (Text.trimStart (f.text.dropWhile (· == '*'))) = some f.ref := by
    rw [f.bare_eq, f.readBare_bare]
  constructor
  · intro text ref
    rw [parse?_eq_readBare]
    constructor
    · intro h
      obtain ⟨form, hform, href⟩ := exists_form_of_readBare h
      exact ⟨form, by rw [hform]; exact Text.trims_trim _, href⟩
    · rintro ⟨form, htrims, rfl⟩
      rw [htrims.trim_eq, hread]
  · intro f g htext
    have href : f.ref = g.ref := Option.some.inj (by rw [← hread f, htext, hread g])
    obtain ⟨hpackage, hname⟩ := TypeRef.mk.inj href
    exact ⟨Option.map_injective (fun _ _ h => String.ofList_injective h) hpackage, String.ofList_injective hname⟩

end TypeRef

end GoOutline
