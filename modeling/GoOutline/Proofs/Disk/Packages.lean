import GoOutline.Disk.Search
import GoOutline.Proofs.Disk.Pieces

/-!
# Where packages are found: `find_vendor_dir`, `candidates` and `SearchPaths::package_dir`

A path has only so many paths above it, since each is shorter than the one before (`Path.length_parent?_lt`); so the
list of ancestors holds all of them (`Path.getElem?_ancestors`). The search for a vendor directory goes up along
them, passes what is no vendor directory, and ends at the first that is one or cannot be told (`vendorDir?_eq_some_iff`,
`vendorDir?_eq_none_iff`). A package is then in the first of three roots that has a directory for it
(`packageDir?_eq_some_iff`), and nothing above the nearest vendor directory is looked at (`ClearUpTo.vendorDir?_congr`).
-/
namespace GoOutline

namespace Path

/-! ## Paths above a path -/

theorem length_intercalate_append_le (pieces more : List (List UInt8)) :
    (List.intercalate [slash] pieces).length ≤ (List.intercalate [slash] (pieces ++ more)).length := by
  induction pieces with
  | nil => simp
  | cons piece pieces ih =>
    by_cases hpieces : pieces = []
    · subst hpieces
      cases more <;> simp
    · have hmore : pieces ++ more ≠ [] := by simp [hpieces]
      rw [List.cons_append, List.intercalate_cons_of_ne_nil hpieces, List.intercalate_cons_of_ne_nil hmore]
      simp only [List.length_append, List.length_cons]
      omega

/-- A piece behind others that is not empty makes what is joined longer. -/
theorem length_intercalate_lt_concat (pieces : List (List UInt8)) {last : List UInt8} (h : last ≠ []) :
    (List.intercalate [slash] pieces).length < (List.intercalate [slash] (pieces ++ [last])).length := by
  induction pieces with
  | nil =>
    have hlast := List.length_pos_iff.2 h
    simpa using hlast
  | cons piece pieces ih =>
    have hmore : pieces ++ [last] ≠ [] := by simp
    rw [List.cons_append, List.intercalate_cons_of_ne_nil hmore]
    by_cases hpieces : pieces = []
    · subst hpieces
      simp
    · rw [List.intercalate_cons_of_ne_nil hpieces]
      simp only [List.length_append, List.length_cons]
      omega

theorem bytes_eq (p : Path) : p.bytes = p.lead ++ List.intercalate [slash] p.body := by
  rw [body, List.intercalate_splitOn]
  unfold lead
  split
  · cases p.bytes <;> simp
  · simp

/-- The pieces of a path up to its last part, and that part. -/
theorem dropIdleEnd_cases (pieces : List (List UInt8)) :
    dropIdleEnd pieces = [] ∨
      ∃ front last after, dropIdleEnd pieces = front ++ [last] ∧ last ≠ [] ∧ pieces = front ++ [last] ++ after := by
  by_cases hnone : dropIdleEnd pieces = []
  · exact .inl hnone
  · right
    have hbusy : ¬ isIdle ((dropIdleEnd pieces).getLast hnone) = true := List.rdropWhile_last_not isIdle pieces hnone
    obtain ⟨after, hafter⟩ := List.rdropWhile_prefix isIdle (l := pieces)
    have hsplit := List.dropLast_append_getLast hnone
    refine ⟨(dropIdleEnd pieces).dropLast, (dropIdleEnd pieces).getLast hnone, after, hsplit.symm, ?_, ?_⟩
    · intro hempty
      exact hbusy (by simp [hempty, isIdle])
    · rw [hsplit]
      exact hafter.symm

/-- A path is longer than the one above it. -/
theorem length_parent?_lt {p above : Path} (h : p.parent? = some above) : above.bytes.length < p.bytes.length := by
  have hbytes := congrArg List.length p.bytes_eq
  rw [List.length_append] at hbytes
  rcases dropIdleEnd_cases p.body with hnone | ⟨front, last, after, hdrop, hlast, hbody⟩
  · -- only the leading dot is left of the path
    have hdot : p.startsAtDot = true ∧ above = ⟨[]⟩ := by
      simp only [parent?, hnone, List.isEmpty_nil] at h
      split at h
      · rename_i hdot
        exact ⟨hdot, (Option.some.inj h).symm⟩
      · cases h
    have hne : p.bytes ≠ [] := by
      intro hempty
      simp [startsAtDot, hempty] at hdot
    rw [hdot.2]
    exact List.length_pos_iff.2 hne
  · have habove : above = ⟨p.lead ++ List.intercalate [slash] (dropIdleEnd front)⟩ := by
      have hne : (front ++ [last]).isEmpty = false := by simp
      simp only [parent?, hdrop, List.dropLast_concat, hne] at h
      exact (Option.some.inj h).symm
    obtain ⟨idle, hidle⟩ := List.rdropWhile_prefix isIdle (l := front)
    have hfront : (List.intercalate [slash] (dropIdleEnd front)).length ≤ (List.intercalate [slash] front).length := by
      have hle := length_intercalate_append_le (dropIdleEnd front) idle
      rwa [dropIdleEnd_eq_rdropWhile, hidle, ← dropIdleEnd_eq_rdropWhile] at hle
    have hpart := length_intercalate_lt_concat front hlast
    have hall := length_intercalate_append_le (front ++ [last]) after
    rw [← hbody] at hall
    rw [habove, List.length_append]
    omega

/-- The path that many levels above a path, if there are so many. -/
def above : Nat → Path → Option Path
  | 0, p => some p
  | levels + 1, p => p.parent?.bind (above levels)

theorem getElem?_ancestorsWithin {fuel : Nat} {p : Path} (h : p.bytes.length < fuel) (levels : Nat) :
    (p.ancestorsWithin fuel)[levels]? = p.above levels := by
  induction fuel generalizing p levels with
  | zero => omega
  | succ fuel ih =>
    cases levels with
    | zero => simp [ancestorsWithin, above]
    | succ levels =>
      cases hparent : p.parent? with
      | none => simp [ancestorsWithin, above, hparent]
      | some q =>
        have hlt := length_parent?_lt hparent
        have hrest := ih (p := q) (by omega) levels
        simpa [ancestorsWithin, above, hparent] using hrest

/-- The ancestors of a path are the path and all that are above it. -/
theorem getElem?_ancestors (p : Path) (levels : Nat) : p.ancestors[levels]? = p.above levels :=
  getElem?_ancestorsWithin (Nat.lt_succ_self _) levels

end Path

/-! ## Vendor directories -/

namespace Disk

variable {d : Disk} {dir start v : Path} {dirs : List Path}

/-- The vendor entry of the directory is a directory. -/
def HasVendor (d : Disk) (dir : Path) : Prop :=
  d.entryAt (dir.join vendorName) = .ok .directory

/-- The directory has no vendor entry, or one that is no directory. -/
def LacksVendor (d : Disk) (dir : Path) : Prop :=
  d.entryAt (dir.join vendorName) = .error .notFound ∨
    ∃ entry, entry ≠ .directory ∧ d.entryAt (dir.join vendorName) = .ok entry

/-- The vendor entry of the directory cannot be inspected, for a reason other than that it is not there. -/
def HidesVendor (d : Disk) (dir : Path) : Prop :=
  ∃ cause, cause ≠ .notFound ∧ d.entryAt (dir.join vendorName) = .error cause

theorem vendor_cases (d : Disk) (dir : Path) : d.HasVendor dir ∨ d.LacksVendor dir ∨ d.HidesVendor dir := by
  cases hentry : d.entryAt (dir.join vendorName) with
  | ok entry =>
    by_cases hdir : entry = .directory
    · exact .inl (by rw [HasVendor, hentry, hdir])
    · exact .inr (.inl (.inr ⟨entry, hdir, hentry⟩))
  | error cause =>
    by_cases habsent : cause = .notFound
    · exact .inr (.inl (.inl (by rw [hentry, habsent])))
    · exact .inr (.inr ⟨cause, habsent, hentry⟩)

theorem HasVendor.vendorAmong (h : d.HasVendor dir) (dirs : List Path) :
    d.vendorAmong (dir :: dirs) = some (dir.join vendorName) := by
  rw [Disk.vendorAmong, h]

theorem LacksVendor.vendorAmong (h : d.LacksVendor dir) (dirs : List Path) :
    d.vendorAmong (dir :: dirs) = d.vendorAmong dirs := by
  rw [Disk.vendorAmong]
  rcases h with h | ⟨entry, hne, h⟩
  · rw [h]
  · rw [h]
    cases entry with
    | directory => exact absurd rfl hne
    | file text => rfl
    | link target => rfl

theorem HidesVendor.vendorAmong (h : d.HidesVendor dir) (dirs : List Path) : d.vendorAmong (dir :: dirs) = none := by
  obtain ⟨cause, hne, h⟩ := h
  rw [Disk.vendorAmong, h]
  cases cause with
  | notFound => exact absurd rfl hne
  | _ => rfl

/-- Directories that lack a vendor directory, up to the first that does not. -/
theorem exists_first_or_all (d : Disk) (dirs : List Path) :
    (∀ dir ∈ dirs, d.LacksVendor dir) ∨
      ∃ before dir after, dirs = before ++ dir :: after ∧ (d.HasVendor dir ∨ d.HidesVendor dir) ∧
        ∀ nearer ∈ before, d.LacksVendor nearer := by
  induction dirs with
  | nil => exact .inl (by simp)
  | cons dir dirs ih =>
    by_cases hlacks : d.LacksVendor dir
    · rcases ih with hall | ⟨before, found, after, rfl, hfound, hbefore⟩
      · exact .inl (List.forall_mem_cons.2 ⟨hlacks, hall⟩)
      · exact .inr ⟨dir :: before, found, after, rfl, hfound, List.forall_mem_cons.2 ⟨hlacks, hbefore⟩⟩
    · refine .inr ⟨[], dir, dirs, rfl, ?_, by simp⟩
      rcases d.vendor_cases dir with hhas | hnone | hhides
      · exact .inl hhas
      · exact absurd hnone hlacks
      · exact .inr hhides

theorem vendorAmong_append (h : ∀ dir ∈ dirs, d.LacksVendor dir) (rest : List Path) :
    d.vendorAmong (dirs ++ rest) = d.vendorAmong rest := by
  induction dirs with
  | nil => rfl
  | cons dir dirs ih =>
    rw [List.forall_mem_cons] at h
    rw [List.cons_append, h.1.vendorAmong, ih h.2]

/-- The directory is so many levels above a path, and the nearer ones lack a vendor directory. -/
structure ClearUpTo (d : Disk) (start : Path) (levels : Nat) (dir : Path) : Prop where
  reached : start.above levels = some dir
  nearer : ∀ fewer < levels, ∀ nearer, start.above fewer = some nearer → d.LacksVendor nearer

theorem ClearUpTo.exists_split {levels : Nat} (h : d.ClearUpTo start levels dir) :
    ∃ before after, start.ancestors = before ++ dir :: after ∧ ∀ nearer ∈ before, d.LacksVendor nearer := by
  have hdir := h.reached
  rw [← start.getElem?_ancestors] at hdir
  obtain ⟨hlt, hget⟩ := List.getElem?_eq_some_iff.1 hdir
  refine ⟨start.ancestors.take levels, start.ancestors.drop (levels + 1), ?_, ?_⟩
  · rw [← hget, List.getElem_cons_drop, List.take_append_drop]
  · intro nearer hmem
    obtain ⟨fewer, hfewer, rfl⟩ := List.mem_take_iff_getElem.1 hmem
    refine h.nearer fewer (by omega) _ ?_
    rw [← start.getElem?_ancestors]
    exact List.getElem?_eq_getElem _

theorem clearUpTo_of_split {before after : List Path} (hancestors : start.ancestors = before ++ dir :: after)
    (hbefore : ∀ nearer ∈ before, d.LacksVendor nearer) : d.ClearUpTo start before.length dir := by
  refine ⟨?_, fun fewer hfewer nearer hnearer => hbefore nearer ?_⟩
  · rw [← start.getElem?_ancestors, hancestors]
    simp
  · rw [← start.getElem?_ancestors, hancestors, List.getElem?_append_left hfewer] at hnearer
    exact List.mem_of_getElem? hnearer

/-- What the search comes to once it has gone up a clear way. -/
theorem ClearUpTo.vendorDir?_eq {levels : Nat} (h : d.ClearUpTo start levels dir) :
    ∃ after, d.vendorDir? start = d.vendorAmong (dir :: after) := by
  obtain ⟨before, after, hancestors, hbefore⟩ := h.exists_split
  exact ⟨after, by rw [vendorDir?, hancestors, vendorAmong_append hbefore]⟩

theorem ClearUpTo.vendorDir?_of_has {levels : Nat} (h : d.ClearUpTo start levels dir) (hhas : d.HasVendor dir) :
    d.vendorDir? start = some (dir.join vendorName) := by
  obtain ⟨after, hsearch⟩ := h.vendorDir?_eq
  rw [hsearch, hhas.vendorAmong]

theorem ClearUpTo.vendorDir?_of_hides {levels : Nat} (h : d.ClearUpTo start levels dir) (hhides : d.HidesVendor dir) :
    d.vendorDir? start = none := by
  obtain ⟨after, hsearch⟩ := h.vendorDir?_eq
  rw [hsearch, hhides.vendorAmong]

theorem vendorDir?_of_lacks (h : ∀ levels dir, start.above levels = some dir → d.LacksVendor dir) :
    d.vendorDir? start = none := by
  have hall : ∀ dir ∈ start.ancestors, d.LacksVendor dir := by
    intro dir hdir
    obtain ⟨levels, hlevels⟩ := List.getElem?_of_mem hdir
    exact h levels dir (by rw [← start.getElem?_ancestors, hlevels])
  have hnone := vendorAmong_append hall []
  rwa [List.append_nil] at hnone

/-- The way up is clear to its end, or up to a directory that has a vendor directory or hides its entry. -/
theorem way_up_cases (d : Disk) (start : Path) :
    (∀ levels dir, start.above levels = some dir → d.LacksVendor dir) ∨
      ∃ levels dir, d.ClearUpTo start levels dir ∧ (d.HasVendor dir ∨ d.HidesVendor dir) := by
  rcases d.exists_first_or_all start.ancestors with hall | ⟨before, dir, after, hancestors, hdir, hbefore⟩
  · refine .inl fun levels dir hdir => hall dir ?_
    rw [← start.getElem?_ancestors] at hdir
    exact List.mem_of_getElem? hdir
  · exact .inr ⟨before.length, dir, clearUpTo_of_split hancestors hbefore, hdir⟩

/-- The vendor directory that is found is that of the nearest directory which has one. -/
theorem vendorDir?_eq_some_iff : d.vendorDir? start = some v ↔
    ∃ levels dir, d.ClearUpTo start levels dir ∧ d.HasVendor dir ∧ v = dir.join vendorName := by
  constructor
  · intro h
    rcases d.way_up_cases start with hlacks | ⟨levels, dir, hclear, hhas | hhides⟩
    · rw [vendorDir?_of_lacks hlacks] at h
      cases h
    · rw [hclear.vendorDir?_of_has hhas] at h
      exact ⟨levels, dir, hclear, hhas, (Option.some.inj h).symm⟩
    · rw [hclear.vendorDir?_of_hides hhides] at h
      cases h
  · rintro ⟨levels, dir, hclear, hhas, rfl⟩
    exact hclear.vendorDir?_of_has hhas

/-- None is found if there is none, or if an entry cannot be inspected before one is found. -/
theorem vendorDir?_eq_none_iff : d.vendorDir? start = none ↔
    (∀ levels dir, start.above levels = some dir → d.LacksVendor dir) ∨
      ∃ levels dir, d.ClearUpTo start levels dir ∧ d.HidesVendor dir := by
  constructor
  · intro h
    rcases d.way_up_cases start with hlacks | ⟨levels, dir, hclear, hhas | hhides⟩
    · exact .inl hlacks
    · rw [hclear.vendorDir?_of_has hhas] at h
      cases h
    · exact .inr ⟨levels, dir, hclear, hhides⟩
  · rintro (hlacks | ⟨levels, dir, hclear, hhides⟩)
    · exact vendorDir?_of_lacks hlacks
    · exact hclear.vendorDir?_of_hides hhides

/-- The vendor entries of the directories from a path up to so many levels above it are the same on both disks. -/
def AgreeUpTo (d e : Disk) (start : Path) (levels : Nat) : Prop :=
  ∀ upTo ≤ levels, ∀ dir, start.above upTo = some dir →
    e.entryAt (dir.join vendorName) = d.entryAt (dir.join vendorName)

/-- What lies above the nearest vendor directory makes no difference. -/
theorem ClearUpTo.vendorDir?_congr {e : Disk} {levels : Nat} (h : d.ClearUpTo start levels dir)
    (hhas : d.HasVendor dir) (hagree : d.AgreeUpTo e start levels) : e.vendorDir? start = d.vendorDir? start := by
  have hclear : e.ClearUpTo start levels dir := by
    refine ⟨h.reached, fun fewer hfewer nearer hnearer => ?_⟩
    have hlacks := h.nearer fewer hfewer nearer hnearer
    rwa [LacksVendor, ← hagree fewer (Nat.le_of_lt hfewer) nearer hnearer] at hlacks
  have hhas' : e.HasVendor dir := by
    rw [HasVendor, hagree levels (Nat.le_refl _) dir h.reached]
    exact hhas
  rw [h.vendorDir?_of_has hhas, hclear.vendorDir?_of_has hhas']

end Disk

/-! ## Package directories -/

namespace SearchPaths

variable {s : SearchPaths} {d : Disk} {fileDir dir : Path} {importPath : String}

/-- The roots below which a package is looked for, in order of priority: the nearest vendor directory, if such are
searched, then that of dependencies, then that of the standard library. -/
def roots (s : SearchPaths) (d : Disk) (fileDir : Path) : List Path :=
  (if s.vendor then d.vendorDir? fileDir else none).toList ++ s.moduleRoot.toList ++ s.stdRoot.toList

theorem candidates_eq (s : SearchPaths) (d : Disk) (fileDir : Path) (importPath : String) :
    s.candidates d fileDir importPath = (s.roots d fileDir).map fun root => root.packageDir importPath := by
  unfold candidates roots
  generalize (if s.vendor then d.vendorDir? fileDir else none) = vendor
  cases vendor <;> cases s.moduleRoot <;> cases s.stdRoot <;> rfl

/-- The package is in the first root that has a directory for it. -/
theorem packageDir?_eq_some_iff : s.packageDir? d fileDir importPath = some dir ↔
    ∃ before root after, s.roots d fileDir = before ++ root :: after ∧ dir = root.packageDir importPath ∧
      d.isDirectory dir = true ∧ ∀ higher ∈ before, d.isDirectory (higher.packageDir importPath) = false := by
  rw [packageDir?, candidates_eq, List.find?_eq_some_iff_append]
  constructor
  · rintro ⟨hdir, before, after, hsplit, hbefore⟩
    obtain ⟨front, back, hroots, rfl, hback⟩ := List.map_eq_append_iff.1 hsplit
    obtain ⟨root, rest, rfl, rfl, -⟩ := List.map_eq_cons_iff.1 hback
    refine ⟨front, root, rest, hroots, rfl, hdir, fun higher hhigher => ?_⟩
    simpa using hbefore _ (List.mem_map_of_mem hhigher)
  · rintro ⟨before, root, after, hroots, rfl, hdir, hbefore⟩
    refine ⟨hdir, before.map fun root => root.packageDir importPath, after.map fun root => root.packageDir importPath,
      by simp [hroots], ?_⟩
    simpa using hbefore

theorem packageDir?_eq_none_iff : s.packageDir? d fileDir importPath = none ↔
    ∀ root ∈ s.roots d fileDir, d.isDirectory (root.packageDir importPath) = false := by
  rw [packageDir?, candidates_eq, List.find?_eq_none]
  simp

/-- The search looks at its roots and at nothing above the nearest vendor directory. -/
theorem packageDir?_congr {e : Disk} (hvendor : e.vendorDir? fileDir = d.vendorDir? fileDir)
    (hroots : ∀ root ∈ s.roots d fileDir,
      e.isDirectory (root.packageDir importPath) = d.isDirectory (root.packageDir importPath)) :
    s.packageDir? e fileDir importPath = s.packageDir? d fileDir importPath := by
  have hsame : s.roots e fileDir = s.roots d fileDir := by rw [roots, hvendor, ← roots]
  rw [packageDir?, packageDir?, candidates_eq, candidates_eq, hsame]
  rw [← List.head?_filter, ← List.head?_filter]
  congr 1
  refine List.filter_congr fun candidate hcandidate => ?_
  obtain ⟨root, hroot, rfl⟩ := List.mem_map.1 hcandidate
  exact hroots root hroot

/-- The vendor directory of a file is that of the nearest directory, from its own upwards, that has one, and there is none
if there is no such directory or an entry on the way cannot be inspected. A package is in the first of the vendor
directory, the root of dependencies and that of the standard library that has a directory for it. What lies above the
nearest vendor directory makes no difference. -/
theorem package_in_first_root (s : SearchPaths) (d : Disk) (fileDir : Path) (importPath : String) :
    (∀ v, d.vendorDir? fileDir = some v ↔
      ∃ levels dir, d.ClearUpTo fileDir levels dir ∧ d.HasVendor dir ∧ v = dir.join vendorName) ∧
    (d.vendorDir? fileDir = none ↔ (∀ levels dir, fileDir.above levels = some dir → d.LacksVendor dir) ∨
      ∃ levels dir, d.ClearUpTo fileDir levels dir ∧ d.HidesVendor dir) ∧
    (∀ dir, s.packageDir? d fileDir importPath = some dir ↔
      ∃ before root after, s.roots d fileDir = before ++ root :: after ∧ dir = root.packageDir importPath ∧
        d.isDirectory dir = true ∧ ∀ higher ∈ before, d.isDirectory (higher.packageDir importPath) = false) ∧
    (s.packageDir? d fileDir importPath = none ↔
      ∀ root ∈ s.roots d fileDir, d.isDirectory (root.packageDir importPath) = false) ∧
    ∀ e levels dir, d.ClearUpTo fileDir levels dir → d.HasVendor dir → d.AgreeUpTo e fileDir levels →
      (∀ root ∈ s.roots d fileDir,
        e.isDirectory (root.packageDir importPath) = d.isDirectory (root.packageDir importPath)) →
      s.packageDir? e fileDir importPath = s.packageDir? d fileDir importPath := by
  refine ⟨fun v => Disk.vendorDir?_eq_some_iff, Disk.vendorDir?_eq_none_iff, fun dir => packageDir?_eq_some_iff,
    packageDir?_eq_none_iff, ?_⟩
  intro e levels dir hclear hhas hagree hroots
  exact packageDir?_congr (hclear.vendorDir?_congr hhas hagree) hroots

/-- A disk with a vendor directory in a module, one in a directory of it, and a vendor file below that. -/
def nestedVendors : Disk :=
  let names (path : String) : List Name := List.splitOn Path.slash (Text.encode path)
  { entries := ["g", "g/p", "m", "m/vendor", "m/vendor/p", "m/a", "m/a/vendor", "m/a/b"].map (fun path =>
      (names path, .directory)) ++ [(names "m/a/b/vendor", .file none)]
    cwd := [] }

-- The file is passed over, and the vendor directory of the module is not reached.
example : nestedVendors.vendorDir? (.ofString "m/a/b") = some (.ofString "m/a/vendor") ∧
    (SearchPaths.mk true (some (.ofString "/g")) none).packageDir? nestedVendors (.ofString "m/a/b") "p" =
      some (.ofString "/g/p") := by decide +kernel

end SearchPaths

end GoOutline
