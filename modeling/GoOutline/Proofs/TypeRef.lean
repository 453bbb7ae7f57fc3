import GoOutline.TypeRef
import Mathlib.Data.List.TakeWhile

/-!
# Reading a name again

The name of a reference reads as a reference to itself (`parse?_name`): it has nothing before or behind it
that reading drops, and no dot. A search that goes on with a bare name thus looks for that very name.
-/
namespace GoOutline.TypeRef

/-! ## Characters of names -/

/-- Code points of white space. -/
def blankPoints : List Nat :=
  [9, 10, 11, 12, 13, 0x20, 0x85, 0xa0, 0x1680, 0x2000, 0x2001, 0x2002, 0x2003, 0x2004, 0x2005, 0x2006,
   0x2007, 0x2008, 0x2009, 0x200a, 0x2028, 0x2029, 0x202f, 0x205f, 0x3000]

theorem toNat_mem_blankPoints {c : Char} (h : Text.isBlank c = true) : c.toNat ∈ blankPoints := by
  simp only [Text.isBlank, Bool.or_eq_true, Bool.and_eq_true, decide_eq_true_eq, beq_iff_eq] at h
  simp only [blankPoints, List.mem_cons, List.not_mem_nil, or_false]
  omega

theorem isNamePart_blankPoints : ∀ n ∈ blankPoints, isNamePart (Char.ofNat n) = false := by
  decide +kernel

theorem isBlank_of_isNamePart {c : Char} (h : isNamePart c = true) : Text.isBlank c = false := by
  by_contra hblank
  have hpoint := isNamePart_blankPoints c.toNat (toNat_mem_blankPoints (by simpa using hblank))
  rw [Char.ofNat_toNat, h] at hpoint
  cases hpoint

theorem isNamePart_of_isNameStart {c : Char} (h : isNameStart c = true) : isNamePart c = true := by
  simp [isNamePart, h]

theorem ne_star_of_isNameStart {c : Char} (h : isNameStart c = true) : c ≠ '*' := by
  rintro rfl
  exact absurd h (by decide +kernel)

/-! ## Names -/

/-- The characters are those of a name. -/
inductive IsName : List Char → Prop
  | mk {c : Char} {rest : List Char} (start : isNameStart c = true)
      (part : ∀ x ∈ rest, isNamePart x = true) : IsName (c :: rest)

theorem IsName.isNamePart {cs : List Char} (h : IsName cs) : ∀ c ∈ cs, isNamePart c = true := by
  obtain ⟨start, part⟩ := h
  intro c hc
  rcases List.mem_cons.1 hc with rfl | hc
  · exact isNamePart_of_isNameStart start
  · exact part c hc

theorem isName_of_takeName {cs name rest : List Char} (h : takeName cs = some (name, rest)) :
    IsName name := by
  unfold takeName at h
  split at h
  · split at h
    · rename_i hstart
      cases h
      exact .mk hstart fun x hx => List.mem_takeWhile_imp hx
    · cases h
  · cases h

theorem IsName.takeName_eq {cs : List Char} (h : IsName cs) : takeName cs = some (cs, []) := by
  obtain ⟨start, part⟩ := h
  rename_i c rest
  have htake : rest.takeWhile TypeRef.isNamePart = rest := List.takeWhile_eq_self_iff.2 part
  have hdrop : rest.dropWhile TypeRef.isNamePart = [] := List.dropWhile_eq_nil_iff.2 part
  simp [takeName, start, htake, hdrop]

theorem isName_of_takeQualified {cs name rest : List Char} {package : Option (List Char)}
    (h : takeQualified cs = some (package, name, rest)) : IsName name := by
  unfold takeQualified at h
  obtain ⟨⟨first, more⟩, hfirst, h⟩ := Option.bind_eq_some_iff.1 h
  dsimp only at h
  split at h
  · obtain ⟨⟨second, rest'⟩, hsecond, heq⟩ := Option.map_eq_some_iff.1 h
    cases heq
    exact isName_of_takeName hsecond
  · cases h
    exact isName_of_takeName hfirst

/-! ## Reading -/

theorem trimEnd_eq_self : ∀ {cs : List Char}, (∀ c ∈ cs, Text.isBlank c = false) → Text.trimEnd cs = cs
  | [], _ => rfl
  | c :: cs, h => by
    have ih : Text.trimEnd cs = cs := trimEnd_eq_self fun x hx => h x (by simp [hx])
    unfold Text.trimEnd
    rw [ih]
    cases cs with
    | nil => simp [h c (by simp)]
    | cons next rest => rfl

theorem IsName.trimStart_eq {cs : List Char} (h : IsName cs) : Text.trimStart cs = cs := by
  obtain ⟨start, -⟩ := h
  simp [Text.trimStart, isBlank_of_isNamePart (isNamePart_of_isNameStart start)]

theorem IsName.trim_eq {cs : List Char} (h : IsName cs) : Text.trim cs = cs := by
  rw [Text.trim, h.trimStart_eq]
  exact trimEnd_eq_self fun c hc => isBlank_of_isNamePart (h.isNamePart c hc)

theorem IsName.dropStars_eq {cs : List Char} (h : IsName cs) : cs.dropWhile (· == '*') = cs := by
  obtain ⟨start, -⟩ := h
  simp [ne_star_of_isNameStart start]

theorem parse?_of_isName {cs : List Char} (h : IsName cs) :
    parse? (String.ofList cs) = some (ofLocal (String.ofList cs)) := by
  have hinside : Text.trimStart ((Text.trim cs).dropWhile (· == '*')) = cs := by
    rw [h.trim_eq, h.dropStars_eq, h.trimStart_eq]
  have htake : takeQualified cs = some (none, cs, []) := by simp [takeQualified, h.takeName_eq]
  simp only [parse?, String.toList_ofList, hinside, htake, Option.bind_some]
  rfl

/-- The name of a reference is read as that name. -/
theorem parse?_name {text : String} {ref : TypeRef} (h : parse? text = some ref) :
    parse? ref.name = some (ofLocal ref.name) := by
  obtain ⟨⟨package, name, rest⟩, htake, h⟩ := Option.bind_eq_some_iff.1 h
  simp only at h
  split at h
  · cases h
    exact parse?_of_isName (isName_of_takeQualified htake)
  · cases h

end GoOutline.TypeRef
