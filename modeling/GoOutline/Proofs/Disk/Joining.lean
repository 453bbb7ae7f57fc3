import GoOutline.Proofs.Disk.Packages
import Mathlib.Logic.Relation

/-!
# Joining import paths to a root: `package_dir`

Only the steps of an import path count, its pieces that are not empty. They have no slashes, so none of them is an
absolute path, and what is joined is written behind the root (`bytes_descend`). Two import paths lead to the same
directory if and only if slashes at their ends, or next to other slashes, turn one into the other
(`packageDir_eq_iff`); slashes elsewhere divide steps.
-/
namespace GoOutline

theorem Text.encode_append (a b : String) : Text.encode (a ++ b) = Text.encode a ++ Text.encode b := by
  simp [Text.encode]

namespace Path

/-! ## Steps -/

/-- The piece can stand between two slashes of a path: there is something of it, and no slash in it. -/
structure IsStep (piece : List UInt8) : Prop where
  ne_nil : piece ≠ []
  noSlash : slash ∉ piece

/-- The pieces of a byte string between slashes, empty ones left out. -/
def steps (bytes : List UInt8) : List (List UInt8) :=
  (List.splitOn slash bytes).filter fun piece => !piece.isEmpty

theorem steps_append_slash_append (front back : List UInt8) :
    steps (front ++ slash :: back) = steps front ++ steps back := by
  rw [steps, List.splitOn_append_cons_self, List.filter_append, steps, steps]

theorem steps_nil : steps [] = [] := rfl

theorem isStep_of_mem_steps {bytes piece : List UInt8} (h : piece ∈ steps bytes) : IsStep piece := by
  obtain ⟨hmem, hne⟩ := List.mem_filter.1 h
  refine ⟨?_, slash_not_mem_of_mem_splitOn hmem⟩
  rintro rfl
  simp at hne

theorem steps_intercalate {pieces : List (List UInt8)} (h : ∀ piece ∈ pieces, IsStep piece) :
    steps (List.intercalate [slash] pieces) = pieces := by
  by_cases hpieces : pieces = []
  · rw [hpieces]
    rfl
  · rw [steps, List.splitOn_intercalate slash (fun piece hp => (h piece hp).noSlash) hpieces]
    refine List.filter_eq_self.2 fun piece hp => ?_
    simpa using (h piece hp).ne_nil

/-! ## Going down step by step -/

/-- What divides a path from a relative one that is joined to it. -/
def divider (p : Path) : List UInt8 :=
  if p.bytes.isEmpty || p.bytes.getLast? == some slash then [] else [slash]

theorem bytes_join {p q : Path} (h : q.isAbsolute = false) : (p.join q).bytes = p.bytes ++ p.divider ++ q.bytes := by
  unfold join divider
  rw [h, if_neg Bool.false_ne_true]
  split <;> simp

theorem isAbsolute_of_noSlash {piece : List UInt8} (h : slash ∉ piece) : (Path.mk piece).isAbsolute = false := by
  cases piece with
  | nil => rfl
  | cons b bs =>
    have hb : b ≠ slash := fun hb => h (by simp [hb])
    simp [Path.isAbsolute, hb]

theorem divider_join_of_ne_nil {p q : Path} (hq : q.isAbsolute = false) (hne : q.bytes ≠ []) :
    (p.join q).divider = q.divider := by
  have hlast : (p.join q).bytes.getLast? = q.bytes.getLast? := by
    rw [bytes_join hq, List.getLast?_append_of_ne_nil _ hne]
  have hjoined : (p.join q).bytes ≠ [] := by
    rw [bytes_join hq]
    simp [hne]
  simp [divider, hlast, hne, hjoined]

theorem IsStep.isAbsolute {piece : List UInt8} (h : IsStep piece) : (Path.mk piece).isAbsolute = false :=
  isAbsolute_of_noSlash h.noSlash

theorem IsStep.divider_join (p : Path) {piece : List UInt8} (h : IsStep piece) : (p.join ⟨piece⟩).divider = [slash] := by
  have hlast : piece.getLast? ≠ some slash := fun hs => h.noSlash (List.mem_of_getLast? hs)
  rw [divider_join_of_ne_nil h.isAbsolute h.ne_nil]
  simp [divider, h.ne_nil, hlast]

/-- The path that some steps lead to from another. -/
def descend (p : Path) (pieces : List (List UInt8)) : Path :=
  pieces.foldl (fun dir piece => dir.join ⟨piece⟩) p

theorem packageDir_eq (root : Path) (importPath : String) :
    root.packageDir importPath = root.descend (steps (Text.encode importPath)) := rfl

theorem descend_append (p : Path) (front back : List (List UInt8)) :
    p.descend (front ++ back) = (p.descend front).descend back :=
  List.foldl_append

/-- Steps are written behind the path, with slashes between them. -/
theorem bytes_descend (p : Path) {pieces : List (List UInt8)} (hne : pieces ≠ [])
    (h : ∀ piece ∈ pieces, IsStep piece) :
    (p.descend pieces).bytes = p.bytes ++ p.divider ++ List.intercalate [slash] pieces := by
  induction pieces generalizing p with
  | nil => exact absurd rfl hne
  | cons first rest ih =>
    have hfirst : IsStep first := h first (by simp)
    have hjoin : (p.join ⟨first⟩).bytes = p.bytes ++ p.divider ++ first := bytes_join hfirst.isAbsolute
    by_cases hrest : rest = []
    · subst hrest
      simpa [descend] using hjoin
    · have hdown := ih (p.join ⟨first⟩) hrest fun piece hp => h piece (by simp [hp])
      rw [hjoin, hfirst.divider_join] at hdown
      rw [List.intercalate_cons_of_ne_nil hrest]
      simpa [descend] using hdown

theorem bytes_prefix_descend (p : Path) {pieces : List (List UInt8)} (h : ∀ piece ∈ pieces, IsStep piece) :
    p.bytes <+: (p.descend pieces).bytes := by
  by_cases hpieces : pieces = []
  · rw [hpieces]
    exact List.prefix_refl _
  · rw [bytes_descend p hpieces h, List.append_assoc]
    exact List.prefix_append _ _

theorem isAbsolute_descend (p : Path) {pieces : List (List UInt8)} (h : ∀ piece ∈ pieces, IsStep piece) :
    (p.descend pieces).isAbsolute = p.isAbsolute := by
  by_cases hpieces : pieces = []
  · rw [hpieces]
    rfl
  · have hbytes := bytes_descend p hpieces h
    obtain ⟨first, rest, rfl⟩ := List.exists_cons_of_ne_nil hpieces
    cases hp : p.bytes with
    | cons b bs => simp [isAbsolute, hbytes, hp]
    | nil =>
      -- nothing stands before the first step, which begins with no slash
      have hfirst : IsStep first := h first (by simp)
      obtain ⟨b, bs, rfl⟩ := List.exists_cons_of_ne_nil hfirst.ne_nil
      have hb : b ≠ slash := fun hb => hfirst.noSlash (by simp [hb])
      simp [isAbsolute, hbytes, hp, divider, hb]

/-- From one path different steps lead to different paths. -/
theorem descend_inj (p : Path) {xs ys : List (List UInt8)} (hx : ∀ piece ∈ xs, IsStep piece)
    (hy : ∀ piece ∈ ys, IsStep piece) (h : p.descend xs = p.descend ys) : xs = ys := by
  have hnone : ∀ {zs : List (List UInt8)}, (∀ piece ∈ zs, IsStep piece) → p = p.descend zs → zs = [] := by
    intro zs hz hsame
    by_contra hne
    have hlength := congrArg (fun q => q.bytes.length) hsame
    simp only [bytes_descend p hne hz, List.length_append] at hlength
    have hjoined : List.intercalate [slash] zs = [] := List.length_eq_zero_iff.1 (by omega)
    have hsteps := steps_intercalate hz
    rw [hjoined, steps_nil] at hsteps
    exact hne hsteps.symm
  by_cases hxs : xs = []
  · subst hxs
    exact (hnone hy h).symm
  · by_cases hys : ys = []
    · subst hys
      exact hnone hx h.symm
    · have hbytes := congrArg Path.bytes h
      rw [bytes_descend p hxs hx, bytes_descend p hys hy] at hbytes
      rw [← steps_intercalate hx, ← steps_intercalate hy, List.append_cancel_left hbytes]

/-! ## Idle slashes -/

/-- The left side has a slash more: at one of its ends, or next to another slash. -/
inductive HasSlashMore : List UInt8 → List UInt8 → Prop
  | leading (bytes : List UInt8) : HasSlashMore (slash :: bytes) bytes
  | trailing (bytes : List UInt8) : HasSlashMore (bytes ++ [slash]) bytes
  | repeated (front back : List UInt8) : HasSlashMore (front ++ slash :: slash :: back) (front ++ slash :: back)

/-- Adding and removing such slashes turns one side into the other. -/
def SameUpToSlashes : List UInt8 → List UInt8 → Prop :=
  Relation.EqvGen HasSlashMore

theorem HasSlashMore.steps_eq {a b : List UInt8} (h : HasSlashMore a b) : steps a = steps b := by
  cases h with
  | leading => exact steps_append_slash_append [] b
  | trailing => rw [steps_append_slash_append, steps_nil, List.append_nil]
  | repeated front back =>
    have hinner : steps (slash :: back) = steps back := steps_append_slash_append [] back
    rw [steps_append_slash_append, hinner, steps_append_slash_append]

theorem SameUpToSlashes.steps_eq {a b : List UInt8} (h : SameUpToSlashes a b) : steps a = steps b := by
  induction h with
  | rel _ _ hab => exact hab.steps_eq
  | refl => rfl
  | symm _ _ _ ih => exact ih.symm
  | trans _ _ _ _ _ ihab ihbc => exact ihab.trans ihbc

theorem HasSlashMore.behind {a b : List UInt8} (h : HasSlashMore a b) (front : List UInt8) :
    HasSlashMore (front ++ slash :: a) (front ++ slash :: b) := by
  cases h with
  | leading => exact .repeated front b
  | trailing => simpa using HasSlashMore.trailing (front ++ slash :: b)
  | repeated head back => simpa using HasSlashMore.repeated (front ++ slash :: head) back

theorem SameUpToSlashes.behind {a b : List UInt8} (h : SameUpToSlashes a b) (front : List UInt8) :
    SameUpToSlashes (front ++ slash :: a) (front ++ slash :: b) := by
  induction h with
  | rel _ _ hab => exact .rel _ _ (hab.behind front)
  | refl => exact .refl _
  | symm _ _ _ ih => exact .symm _ _ ih
  | trans _ _ _ _ _ ihab ihbc => exact .trans _ _ _ ihab ihbc

theorem sameUpToSlashes_filter (pieces : List (List UInt8)) :
    SameUpToSlashes (List.intercalate [slash] pieces)
      (List.intercalate [slash] (pieces.filter fun piece => !piece.isEmpty)) := by
  induction pieces with
  | nil => exact .refl _
  | cons first rest ih =>
    by_cases hrest : rest = []
    · subst hrest
      cases first <;> exact .refl _
    · rw [List.intercalate_cons_of_ne_nil hrest, List.append_assoc, List.singleton_append]
      by_cases hfirst : first = []
      · subst hfirst
        exact .trans _ _ _ (.rel _ _ (.leading _)) ih
      · rw [List.filter_cons_of_pos (by simpa using hfirst)]
        refine .trans _ _ _ (ih.behind first) ?_
        by_cases hbusy : rest.filter (fun piece => !piece.isEmpty) = []
        · rw [hbusy]
          exact .rel _ _ (by simpa using HasSlashMore.trailing first)
        · rw [List.intercalate_cons_of_ne_nil hbusy, List.append_assoc, List.singleton_append]
          exact .refl _

theorem sameUpToSlashes_steps (bytes : List UInt8) : SameUpToSlashes bytes (List.intercalate [slash] (steps bytes)) := by
  have h := sameUpToSlashes_filter (List.splitOn slash bytes)
  rwa [List.intercalate_splitOn] at h

theorem sameUpToSlashes_iff {a b : List UInt8} : SameUpToSlashes a b ↔ steps a = steps b := by
  refine ⟨SameUpToSlashes.steps_eq, fun h => ?_⟩
  have hb := sameUpToSlashes_steps b
  rw [← h] at hb
  exact .trans _ _ _ (sameUpToSlashes_steps a) (.symm _ _ hb)

/-! ## Package directories -/

theorem packageDir_packageDir (root : Path) (a b : String) :
    (root.packageDir a).packageDir b = root.packageDir (a ++ "/" ++ b) := by
  have hbytes : Text.encode (a ++ "/" ++ b) = Text.encode a ++ slash :: Text.encode b := by
    rw [Text.encode_append, Text.encode_append, List.append_assoc]
    rfl
  rw [packageDir_eq, packageDir_eq, packageDir_eq, hbytes, steps_append_slash_append, descend_append]

theorem packageDir_eq_iff (root : Path) (a b : String) :
    root.packageDir a = root.packageDir b ↔ SameUpToSlashes (Text.encode a) (Text.encode b) := by
  rw [sameUpToSlashes_iff, packageDir_eq, packageDir_eq]
  constructor
  · intro h
    exact descend_inj root (fun _ hp => isStep_of_mem_steps hp) (fun _ hp => isStep_of_mem_steps hp) h
  · intro h
    rw [h]

theorem bytes_prefix_packageDir (root : Path) (importPath : String) :
    root.bytes <+: (root.packageDir importPath).bytes :=
  bytes_prefix_descend root fun _ hp => isStep_of_mem_steps hp

theorem isAbsolute_packageDir (root : Path) (importPath : String) :
    (root.packageDir importPath).isAbsolute = root.isAbsolute :=
  isAbsolute_descend root fun _ hp => isStep_of_mem_steps hp

end Path

/-- Import paths divided by a slash are joined to a root one after the other. Slashes at the ends of an import path and
repeated ones make no difference, and nothing else is without effect. The root stays where it is, before all that is
joined to it, so every directory that is searched for a package begins with one of the roots. -/
theorem packages_below_root (root : Path) (a b : String) :
    (root.packageDir a).packageDir b = root.packageDir (a ++ "/" ++ b) ∧
    (root.packageDir a = root.packageDir b ↔ Path.SameUpToSlashes (Text.encode a) (Text.encode b)) ∧
    root.bytes <+: (root.packageDir a).bytes ∧ (root.packageDir a).isAbsolute = root.isAbsolute ∧
    ∀ (s : SearchPaths) (d : Disk) (fileDir : Path), ∀ dir ∈ s.candidates d fileDir a,
      ∃ searched ∈ s.roots d fileDir, searched.bytes <+: dir.bytes := by
  refine ⟨Path.packageDir_packageDir root a b, Path.packageDir_eq_iff root a b, Path.bytes_prefix_packageDir root a,
    Path.isAbsolute_packageDir root a, ?_⟩
  intro s d fileDir dir hdir
  rw [SearchPaths.candidates_eq] at hdir
  obtain ⟨searched, hsearched, rfl⟩ := List.mem_map.1 hdir
  exact ⟨searched, hsearched, Path.bytes_prefix_packageDir searched a⟩

-- The slash at the start does not lead to the root of the disk, and dots are steps like any other.
example : (Path.ofString "/go/src").packageDir "/a//../b/" = .ofString "/go/src/a/../b" ∧
    (Path.ofString "").packageDir "/a" = .ofString "a" := by decide

end GoOutline
