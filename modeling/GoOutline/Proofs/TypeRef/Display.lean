import GoOutline.Proofs.TypeRef.Forms
import GoOutline.Resolver.Session

/-!
# The display of a reference: the text of a `TypeRef`

A reference that was read once is read again from its own display, whatever stars, white space and type arguments are
put around it (`display_faithful`). Displays of different references thus differ, and a search is recognised by the
display of what it looks for.
-/
namespace GoOutline.TypeRef

namespace Form

/-- The form without the white space that stands at one of its ends. -/
def trimmed (f : Form) : Form where
  stars := f.stars
  lead := if f.stars = 0 then [] else f.lead
  package := f.package
  name := f.name
  gap := if f.arguments.isNone then [] else f.gap
  arguments := f.arguments
  isBlank_lead := by
    split
    · simp
    · exact f.isBlank_lead
  isName_package := f.isName_package
  isName_name := f.isName_name
  isBlank_gap := by
    split
    · simp
    · exact f.isBlank_gap
  line_arguments := f.line_arguments

@[simp] theorem ref_trimmed (f : Form) : f.trimmed.ref = f.ref := rfl

theorem bare_eq_display (f : Form) : f.bare = f.ref.display.toList ++ (f.gap ++ f.bracketed) := by
  unfold bare qualifier ref display
  cases f.package <;> simp

theorem text_head_trimmed (f : Form) : ∀ c ∈ f.trimmed.text.head?, Text.isBlank c = false := by
  intro c hc
  cases hstars : f.stars with
  | zero =>
    have htext : f.trimmed.text = f.trimmed.bare := by simp [text, trimmed, hstars]
    rw [htext] at hc
    exact isBlank_of_isNamePart (isNamePart_of_isNameStart (f.trimmed.bare_head c hc))
  | succ n =>
    obtain rfl : '*' = c := by simpa [text, trimmed, hstars, List.replicate_succ] using hc
    decide

/-- A form without its white space ends in a bracket or in its name. -/
theorem text_getLast_trimmed (f : Form) : ∀ c ∈ f.trimmed.text.getLast?, Text.isBlank c = false := by
  intro c hc
  cases harguments : f.arguments with
  | none =>
    obtain ⟨d, rest, hname, -⟩ := f.isName_name.exists_cons
    have hlast : c ∈ f.name.getLast? := by
      simpa [text, bare, trimmed, bracketed, harguments, hname, List.getLast?_append] using hc
    exact isBlank_of_isNamePart (f.isName_name.isNamePart c (List.mem_of_getLast? hlast))
  | some inside =>
    obtain rfl : ']' = c := by
      simpa [text, bare, trimmed, bracketed, harguments, List.getLast?_append, List.getLast?_cons] using hc
    decide

variable {before after : List Char}

theorem trims_text (f : Form) (hbefore : ∀ c ∈ before, Text.isBlank c = true)
    (hafter : ∀ c ∈ after, Text.isBlank c = true) : Text.Trims (before ++ (f.text ++ after)) f.trimmed.text := by
  refine ⟨⟨before ++ (if f.stars = 0 then f.lead else []), (if f.arguments.isNone then f.gap else []) ++ after,
    ?_, ?_, ?_⟩, f.text_head_trimmed, f.text_getLast_trimmed⟩
  · have hlead : List.replicate f.stars '*' ++ f.lead =
        (if f.stars = 0 then f.lead else []) ++ (List.replicate f.stars '*' ++ f.trimmed.lead) := by
      by_cases hstars : f.stars = 0 <;> simp [trimmed, hstars]
    have hgap : f.gap ++ f.bracketed =
        f.trimmed.gap ++ (f.bracketed ++ if f.arguments.isNone then f.gap else []) := by
      cases harguments : f.arguments <;> simp [trimmed, bracketed, harguments]
    have hkept : f.trimmed.text = List.replicate f.stars '*' ++ f.trimmed.lead ++
        (f.qualifier ++ (f.name ++ (f.trimmed.gap ++ f.bracketed))) := by
      simp [text, bare, qualifier, bracketed, trimmed]
    rw [hkept, text, bare, hgap, ← List.append_assoc (List.replicate _ _), hlead]
    simp
  · intro c hc
    split at hc
    · exact (List.mem_append.1 hc).elim (hbefore c) (f.isBlank_lead c)
    · exact hbefore c (by simpa using hc)
  · intro c hc
    split at hc
    · exact (List.mem_append.1 hc).elim (f.isBlank_gap c) (hafter c)
    · exact hafter c (by simpa using hc)

/-- All parts of a form together, with white space around them, are read as its reference. -/
theorem parse?_text (f : Form) (hbefore : ∀ c ∈ before, Text.isBlank c = true)
    (hafter : ∀ c ∈ after, Text.isBlank c = true) :
    parse? (String.ofList (before ++ (f.text ++ after))) = some f.ref := by
  rw [parse?_eq_readBare, String.toList_ofList, (f.trims_text hbefore hafter).trim_eq, bare_eq, readBare_bare,
    ref_trimmed]

end Form

theorem exists_form_of_parse? {text : String} {ref : TypeRef} (hparse : parse? text = some ref) :
    ∃ form : Form, form.ref = ref := by
  rw [parse?_eq_readBare] at hparse
  obtain ⟨form, -, href⟩ := exists_form_of_readBare hparse
  exact ⟨form, href⟩

/-- The display of a reference is read as that reference behind any stars and white space, and before any white space
and type arguments. -/
theorem parse?_around_display {text : String} {ref : TypeRef} (hparse : parse? text = some ref) (stars : Nat)
    (before lead gap after : List Char) (arguments : Option (List Char))
    (hbefore : ∀ c ∈ before, Text.isBlank c = true) (hlead : ∀ c ∈ lead, Text.isBlank c = true)
    (hgap : ∀ c ∈ gap, Text.isBlank c = true) (hafter : ∀ c ∈ after, Text.isBlank c = true)
    (harguments : ∀ inside ∈ arguments, '\n' ∉ inside) :
    parse? (String.ofList (before ++ List.replicate stars '*' ++ lead ++ ref.display.toList ++ gap ++
      arguments.elim [] (fun inside => '[' :: (inside ++ [']'])) ++ after)) = some ref := by
  obtain ⟨form, rfl⟩ := exists_form_of_parse? hparse
  let dressed : Form := { form with
    stars, lead, gap, arguments, isBlank_lead := hlead, isBlank_gap := hgap, line_arguments := harguments }
  have hread := dressed.parse?_text hbefore hafter
  rw [Form.text, dressed.bare_eq_display] at hread
  simpa [Form.bracketed, dressed, Form.ref] using hread

theorem parse?_display {text : String} {ref : TypeRef} (hparse : parse? text = some ref) :
    parse? ref.display = some ref := by
  have hread := parse?_around_display hparse 0 [] [] [] [] none (by simp) (by simp) (by simp) (by simp) (by simp)
  simpa using hread

theorem display_inj {text text' : String} {ref ref' : TypeRef} (hparse : parse? text = some ref)
    (hparse' : parse? text' = some ref') (hdisplay : ref.display = ref'.display) : ref = ref' := by
  have hread : some ref = some ref' := by
    rw [← parse?_display hparse, hdisplay, parse?_display hparse']
  exact Option.some.inj hread

/-- Reading undoes displaying. A reference that was read is read from its display, with or without stars and white
space before it and white space and type arguments behind it; its name is read as the local reference of that name; and
a search for it is taken for a search for another one only if the two are the same, so never a search for a qualified
name for one for a local name. -/
theorem display_faithful {text : String} {ref : TypeRef} (hparse : parse? text = some ref) :
    parse? ref.display = some ref ∧
    parse? ref.name = some (ofLocal ref.name) ∧
    (∀ (stars : Nat) (before lead gap after : List Char) (arguments : Option (List Char)),
      (∀ c ∈ before, Text.isBlank c = true) → (∀ c ∈ lead, Text.isBlank c = true) →
      (∀ c ∈ gap, Text.isBlank c = true) → (∀ c ∈ after, Text.isBlank c = true) →
      (∀ inside ∈ arguments, '\n' ∉ inside) →
      parse? (String.ofList (before ++ List.replicate stars '*' ++ lead ++ ref.display.toList ++ gap ++
        arguments.elim [] (fun inside => '[' :: (inside ++ [']'])) ++ after)) = some ref) ∧
    ∀ (text' : String) (ref' : TypeRef), parse? text' = some ref' →
      (ref.display = ref'.display → ref = ref') ∧
      ∀ dir dir' : Path,
        (Session.sameKey (dir, ref.display) (dir', ref'.display) = true ↔ dir.same dir' = true ∧ ref = ref') ∧
        (ref.isLocal = false → ref'.isLocal = true →
          Session.sameKey (dir, ref.display) (dir', ref'.display) = false) := by
  refine ⟨parse?_display hparse, parse?_name hparse, ?_, ?_⟩
  · intro stars before lead gap after arguments hbefore hlead hgap hafter harguments
    exact parse?_around_display hparse stars before lead gap after arguments hbefore hlead hgap hafter harguments
  · intro text' ref' hparse'
    have hinj : ref.display = ref'.display → ref = ref' := display_inj hparse hparse'
    refine ⟨hinj, fun dir dir' => ?_⟩
    have hkey : Session.sameKey (dir, ref.display) (dir', ref'.display) = true ↔
        dir.same dir' = true ∧ ref = ref' := by
      rw [Session.sameKey, Bool.and_eq_true, beq_iff_eq]
      exact and_congr_right fun _ => ⟨hinj, congrArg display⟩
    refine ⟨hkey, fun hqualified hlocal => Bool.eq_false_iff.2 fun hsame => ?_⟩
    rw [(hkey.1 hsame).2, hlocal] at hqualified
    cases hqualified

/-- A reference with stars, white space and type arguments, a text that writes its display with others around it, and
the bare name, which is searched for under another key. -/
theorem display_faithful_list :
    parse? " **\u3000list.List [int,\tstring] " = some ⟨some "list", "List"⟩ ∧
    parse? "\n* list.List\u2003[[]]\t" = some ⟨some "list", "List"⟩ ∧
    parse? "*List" = some ⟨none, "List"⟩ ∧
    Session.sameKey (.ofString "src", "list.List") (.ofString "./src", "List") = false := by
  have hparse : parse? " **\u3000list.List [int,\tstring] " = some ⟨some "list", "List"⟩ := by decide +kernel
  have hlocal : parse? "*List" = some ⟨none, "List"⟩ := by decide +kernel
  obtain ⟨-, -, hread, hkey⟩ := display_faithful hparse
  refine ⟨hparse, ?_, hlocal, ((hkey _ _ hlocal).2 _ _).2 rfl rfl⟩
  have hblank {c : Char} (hc : Text.isBlank c = true) : ∀ x ∈ [c], Text.isBlank x = true := List.forall_mem_singleton.2 hc
  exact hread 1 ['\n'] [' '] ['\u2003'] ['\t'] (some ['[', ']']) (hblank (by decide)) (hblank (by decide))
    (hblank (by decide)) (hblank (by decide)) (by decide)

end GoOutline.TypeRef
