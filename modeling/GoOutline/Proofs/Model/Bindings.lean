import GoOutline.Proofs.Model.Spelling
import Mathlib.Data.List.Induction
import Mathlib.Data.String.Basic

/-!
# What imports bind

A file may import a path several times. Its table has one entry for each path (`Imports.Sorted`), which holds the name of
the last import of the path (`Imports.mem_insertAll_nil`). So a qualifier leads to a path if and only if the last import of
the path binds it, or leaves the name to the package (`mem_importsNamed_iff_last`).
-/
namespace GoOutline

namespace Imports

/-! ## Tables -/

/-- The paths of the table increase, so no path stands in it twice. -/
def Sorted (table : Imports) : Prop := table.Pairwise fun a b => a.1 < b.1

variable {table : Imports} {path name p n : String}

theorem Sorted.ne_of_mem {entry : String × String} {rest : Imports} (h : Sorted (entry :: rest)) (hmem : (p, n) ∈ rest) :
    p ≠ entry.1 :=
  ((List.pairwise_cons.1 h).1 _ hmem).ne'

theorem insert_cons_of_lt {rest : Imports} (h : path < p) :
    insert path name ((p, n) :: rest) = (path, name) :: (p, n) :: rest := by
  simp [insert, h]

theorem insert_cons_self {rest : Imports} : insert path name ((path, n) :: rest) = (path, name) :: rest := by
  simp [insert]

theorem insert_cons_of_gt {rest : Imports} (h : p < path) :
    insert path name ((p, n) :: rest) = (p, n) :: insert path name rest := by
  simp [insert, h.not_gt, h.ne']

/-- The path is bound to the name from now on, and every other path to what it was. -/
theorem mem_insert (h : Sorted table) :
    (p, n) ∈ insert path name table ↔ (p = path ∧ n = name) ∨ (p ≠ path ∧ (p, n) ∈ table) := by
  induction table with
  | nil => simp [insert]
  | cons entry rest ih =>
    obtain ⟨q, m⟩ := entry
    have hrest : ∀ entry ∈ rest, q < entry.1 := (List.pairwise_cons.1 h).1
    rcases lt_trichotomy path q with hlt | rfl | hgt
    · have hother : (p, n) ∈ (q, m) :: rest → p ≠ path := by
        rintro hmem rfl
        rcases List.mem_cons.1 hmem with heq | hmem
        · cases heq
          exact lt_irrefl _ hlt
        · exact lt_asymm hlt (hrest _ hmem)
      rw [insert_cons_of_lt hlt, List.mem_cons, Prod.mk.injEq]
      exact or_congr_right ⟨fun hmem => ⟨hother hmem, hmem⟩, And.right⟩
    · rw [insert_cons_self, List.mem_cons, List.mem_cons, Prod.mk.injEq, Prod.mk.injEq]
      refine or_congr_right ⟨fun hmem => ⟨h.ne_of_mem hmem, .inr hmem⟩, ?_⟩
      rintro ⟨hne, ⟨rfl, -⟩ | hmem⟩
      · exact absurd rfl hne
      · exact hmem
    · rw [insert_cons_of_gt hgt, List.mem_cons, ih (List.pairwise_cons.1 h).2, List.mem_cons, Prod.mk.injEq]
      constructor
      · rintro (⟨rfl, rfl⟩ | hnew | ⟨hne, hmem⟩)
        · exact .inr ⟨hgt.ne, .inl ⟨rfl, rfl⟩⟩
        · exact .inl hnew
        · exact .inr ⟨hne, .inr hmem⟩
      · rintro (hnew | ⟨hne, heq | hmem⟩)
        · exact .inr (.inl hnew)
        · exact .inl heq
        · exact .inr (.inr ⟨hne, hmem⟩)

theorem Sorted.insert (h : Sorted table) (path name : String) : Sorted (insert path name table) := by
  induction table with
  | nil => exact List.pairwise_singleton _ _
  | cons entry rest ih =>
    obtain ⟨q, m⟩ := entry
    obtain ⟨hrest, hsorted⟩ := List.pairwise_cons.1 h
    rcases lt_trichotomy path q with hlt | rfl | hgt
    · rw [insert_cons_of_lt hlt]
      refine List.pairwise_cons.2 ⟨?_, h⟩
      rintro other hother
      rcases List.mem_cons.1 hother with rfl | hother
      · exact hlt
      · exact hlt.trans (hrest other hother)
    · rw [insert_cons_self]
      exact List.pairwise_cons.2 ⟨hrest, hsorted⟩
    · rw [insert_cons_of_gt hgt]
      refine List.pairwise_cons.2 ⟨?_, ih hsorted⟩
      rintro ⟨p, n⟩ hother
      rcases (mem_insert hsorted).1 hother with ⟨rfl, -⟩ | ⟨-, hother⟩
      · exact hgt
      · exact hrest _ hother

/-! ## One import after the other -/

/-- The path is bound to the name, and not bound again later. -/
def IsLast (bindings : List (String × String)) (path name : String) : Prop :=
  ∃ before after, bindings = before ++ (path, name) :: after ∧ ∀ later ∈ after, later.1 ≠ path

theorem isLast_concat {bindings : List (String × String)} :
    IsLast (bindings ++ [(path, name)]) p n ↔ (p = path ∧ n = name) ∨ (p ≠ path ∧ IsLast bindings p n) := by
  constructor
  · rintro ⟨before, after, hbindings, hafter⟩
    rcases List.eq_nil_or_concat after with rfl | ⟨front, last, rfl⟩
    · obtain ⟨-, heq⟩ := List.append_inj' hbindings rfl
      cases heq
      exact .inl ⟨rfl, rfl⟩
    · rw [List.concat_eq_append] at hbindings hafter
      rw [← List.cons_append, ← List.append_assoc] at hbindings
      obtain ⟨rfl, heq⟩ := List.append_inj' hbindings rfl
      cases heq
      exact .inr ⟨(hafter (path, name) (by simp)).symm, before, front, rfl, fun later hlater => hafter later (by simp [hlater])⟩
  · rintro (⟨rfl, rfl⟩ | ⟨hne, before, after, rfl, hafter⟩)
    · exact ⟨bindings, [], rfl, by simp⟩
    · refine ⟨before, after ++ [(path, name)], by simp, ?_⟩
      simpa [or_imp, forall_and, hne.symm] using hafter

/-- The table of imports holds for each path the name of its last import. -/
theorem mem_insertAll_nil (bindings : List (String × String)) :
    Sorted (insertAll [] bindings) ∧ ∀ p n, (p, n) ∈ insertAll [] bindings ↔ IsLast bindings p n := by
  induction bindings using List.reverseRecOn with
  | nil => exact ⟨.nil, by simp [insertAll, IsLast]⟩
  | append_singleton bindings binding ih =>
    obtain ⟨path, name⟩ := binding
    obtain ⟨hsorted, hmem⟩ := ih
    have hstep : insertAll [] (bindings ++ [(path, name)]) = insert path name (insertAll [] bindings) := by
      simp [insertAll]
    rw [hstep]
    refine ⟨hsorted.insert path name, fun p n => ?_⟩
    rw [mem_insert hsorted, hmem, isLast_concat]

end Imports

/-! ## Files -/

/-- The import specs of a tree, those of its import declarations one after the other. -/
def Node.importSpecs (root : Node) : List Node :=
  root.namedChildren.flatMap fun n => if n.kind = .importDeclaration then n.groupSpecs else []

/-- What the imports of a tree bind, in the order of the source. -/
def Node.bindings (source : String) (root : Node) : List (String × String) :=
  root.importSpecs.filterMap (toImport? source)

theorem Node.flatMap_importsOf (source : String) (root : Node) :
    root.namedChildren.flatMap (importsOf source) = root.bindings source := by
  rw [bindings, importSpecs, List.filterMap_flatMap]
  refine List.flatMap_congr fun n _ => ?_
  unfold importsOf
  split <;> rfl

namespace File

variable {location : Path} {source : String} {file : File}

theorem imports_of_ofSource (h : File.ofSource location source = .ok file) :
    ∃ root, parse source = .ok root ∧ file.imports = Imports.insertAll [] (root.bindings source) := by
  unfold File.ofSource at h
  split at h
  · cases h
  · rename_i root hparse
    have hextract : extract source root = root.reading source :=
      Walk.run_topLevels (isTopLevel_of_parse hparse) Walk.start
    split at h
    · cases h
    · cases h
      refine ⟨root, hparse, ?_⟩
      rw [hextract, ← root.flatMap_importsOf]
      rfl

/-- A table entry may bind a qualifier if it has its name, or none and the package has it. -/
theorem mem_importsNamed {path qualifier : String} {required : Option String} (hqualifier : qualifier ≠ "")
    (hblank : qualifier ≠ blankName) (hdot : qualifier ≠ dotName) :
    (path, required) ∈ file.importsNamed qualifier ↔
      ((path, qualifier) ∈ file.imports ∧ required = none) ∨ ((path, "") ∈ file.imports ∧ required = some qualifier) := by
  simp only [importsNamed, List.mem_map, List.mem_filter, Bool.and_eq_true, Bool.or_eq_true, bne_iff_ne, beq_iff_eq,
    String.isEmpty_iff, Prod.mk.injEq, Prod.exists]
  constructor
  · rintro ⟨p, name, ⟨hmem, -, rfl | rfl⟩, rfl, rfl⟩
    · exact .inr ⟨hmem, rfl⟩
    · exact .inl ⟨hmem, if_neg hqualifier⟩
  · rintro (⟨hmem, rfl⟩ | ⟨hmem, rfl⟩)
    · exact ⟨path, qualifier, ⟨hmem, ⟨hblank, hdot⟩, .inr rfl⟩, rfl, if_neg hqualifier⟩
    · exact ⟨path, "", ⟨hmem, by decide, .inl rfl⟩, rfl, rfl⟩

/-- A name that an import of a scanned file binds to a path leads there if and only if the last import of the path binds
it too, or leaves the name to the package. -/
theorem mem_importsNamed_iff_last (h : File.ofSource location source = .ok file) :
    ∃ root, parse source = .ok root ∧ ∀ spec ∈ root.importSpecs, ∀ path name,
      spec.toImport? source = some (path, name) → name ≠ "" → name ≠ blankName → name ≠ dotName →
        ∀ required, (path, required) ∈ file.importsNamed name ↔
          (Imports.IsLast (root.bindings source) path name ∧ required = none) ∨
            (Imports.IsLast (root.bindings source) path "" ∧ required = some name) := by
  obtain ⟨root, hparse, himports⟩ := imports_of_ofSource h
  refine ⟨root, hparse, fun _ _ path name _ hname hblank hdot required => ?_⟩
  obtain ⟨-, hmem⟩ := Imports.mem_insertAll_nil (root.bindings source)
  rw [mem_importsNamed hname hblank hdot, himports, hmem, hmem]

/-- A file that imports one path under two names. -/
def twoNamesSource : String := "package m\n\nimport a \"p\"\nimport b \"p\"\n"

theorem mem_importsNamed_iff_last_twoNamesSource : ∃ file root,
    File.ofSource (.ofString "/m/m.go") twoNamesSource = .ok file ∧ parse twoNamesSource = .ok root ∧
      ∃ spec ∈ root.importSpecs, spec.toImport? twoNamesSource = some ("p", "b") ∧
        ("p", none) ∈ file.importsNamed "b" := by
  obtain ⟨file, hfile, -⟩ := exists_of_any (x := File.ofSource (.ofString "/m/m.go") twoNamesSource)
    (p := fun _ => true) (by decide +kernel)
  obtain ⟨root, hparse, hfacts⟩ := exists_of_any (x := parse twoNamesSource)
    (p := fun root => root.bindings twoNamesSource == [("p", "a"), ("p", "b")] &&
      root.importSpecs.any fun spec => spec.toImport? twoNamesSource == some ("p", "b"))
    (by decide +kernel)
  simp only [Bool.and_eq_true, beq_iff_eq, List.any_eq_true] at hfacts
  obtain ⟨hbindings, spec, hspec, himport⟩ := hfacts
  obtain ⟨root', hparse', hiff⟩ := mem_importsNamed_iff_last hfile
  obtain rfl : root = root' := Except.ok.inj (hparse.symm.trans hparse')
  refine ⟨file, root, hfile, hparse, spec, hspec, himport, ?_⟩
  refine (hiff spec hspec "p" "b" himport (by decide) (by decide) (by decide) none).2 (.inl ⟨?_, rfl⟩)
  rw [hbindings]
  exact ⟨[("p", "a")], [], rfl, by simp⟩

/-- The first of the two names leads nowhere. -/
theorem first_of_two_names_is_lost : ∃ file root,
    File.ofSource (.ofString "/m/m.go") twoNamesSource = .ok file ∧ parse twoNamesSource = .ok root ∧
      (∃ spec ∈ root.importSpecs, spec.toImport? twoNamesSource = some ("p", "a")) ∧ file.importsNamed "a" = [] := by
  obtain ⟨file, hfile, hlost⟩ := exists_of_any (x := File.ofSource (.ofString "/m/m.go") twoNamesSource)
    (p := fun file => file.importsNamed "a" == []) (by decide +kernel)
  obtain ⟨root, hparse, hspec⟩ := exists_of_any (x := parse twoNamesSource)
    (p := fun root => root.importSpecs.any fun spec => spec.toImport? twoNamesSource == some ("p", "a"))
    (by decide +kernel)
  simp only [beq_iff_eq, List.any_eq_true] at hlost hspec
  exact ⟨file, root, hfile, hparse, hspec, hlost⟩

end File

end GoOutline
