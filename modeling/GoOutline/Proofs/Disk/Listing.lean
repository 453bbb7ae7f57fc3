import GoOutline.Proofs.Disk.Canonical

/-!
# Listed sources and their homes

A source that some directory lists leads to a file. The directory of its canonical path, its home, is one of
the directories of the disk, so a disk has only so many homes (`isCoveredBy_directories`). A location that names
the same place as a listed source has the same home.
-/
namespace GoOutline

theorem Path.same_iff {p q : Path} : p.same q = true ↔ p.parts = q.parts := by
  simp [Path.same]

namespace Disk

variable {d : Disk}

/-! ## Listings -/

/-- The bytes of a path come before those of another or are the same. -/
def isBefore (p q : Path) : Bool :=
  decide (p.bytes ≤ q.bytes)

theorem isBefore_trans (p q r : Path) (hpq : isBefore p q = true) (hqr : isBefore q r = true) : isBefore p r = true := by
  rw [isBefore, decide_eq_true_iff] at *
  exact List.le_trans hpq hqr

theorem isBefore_total (p q : Path) : (isBefore p q || isBefore q p) = true := by
  rw [Bool.or_eq_true, isBefore, isBefore, decide_eq_true_iff, decide_eq_true_iff]
  exact List.le_total p.bytes q.bytes

theorem insertPath_append {p : Path} {front : List Path} (h : ∀ q ∈ front, q.bytes < p.bytes) (back : List Path) :
    insertPath p (front ++ back) = front ++ insertPath p back := by
  induction front with
  | nil => rfl
  | cons q front ih =>
    rw [List.cons_append, insertPath, if_pos (h q (by simp)), ih fun other hother => h other (by simp [hother]),
      List.cons_append]

theorem insertPath_of_le {p : Path} {paths : List Path} (h : ∀ q ∈ paths, p.bytes ≤ q.bytes) :
    insertPath p paths = p :: paths := by
  cases paths with
  | nil => rfl
  | cons q rest => rw [insertPath, if_neg (h q (by simp))]

/-- Paths are sorted as by the library's sort, but by recursion on the list, so that listings of a given disk can be
evaluated. -/
theorem sortPaths_eq_mergeSort (paths : List Path) : sortPaths paths = paths.mergeSort isBefore := by
  induction paths with
  | nil => simp [sortPaths]
  | cons p rest ih =>
    obtain ⟨front, back, hall, hrest, hfront⟩ := List.mergeSort_cons isBefore_trans isBefore_total p rest
    have hsorted := List.pairwise_mergeSort isBefore_trans isBefore_total (p :: rest)
    rw [hall, List.pairwise_append, List.pairwise_cons] at hsorted
    have hback : ∀ q ∈ back, p.bytes ≤ q.bytes := fun q hq => of_decide_eq_true (hsorted.2.1.1 q hq)
    have hsmall : ∀ q ∈ front, q.bytes < p.bytes := by
      intro q hq
      simpa [isBefore] using hfront q hq
    rw [sortPaths, ih, hrest, hall, insertPath_append hsmall, insertPath_of_le hback]

theorem mem_sortPaths {q : Path} {paths : List Path} : q ∈ sortPaths paths ↔ q ∈ paths := by
  rw [sortPaths_eq_mergeSort]
  exact List.mem_mergeSort

theorem isFile_of_mem_sourceFiles {dir source : Path} {tests : Bool} {sources : List Path}
    (h : d.sourceFiles? dir tests = some sources) (hs : source ∈ sources) : d.isFile source = true := by
  obtain ⟨text, -, rfl⟩ := Option.map_eq_some_iff.1 h
  split at hs
  · simp at hs
  · split at hs
    · simp at hs
    · rw [mem_sortPaths, List.mem_filter, Bool.and_eq_true] at hs
      exact hs.2.1

theorem resolve_of_isFile {p : Path} (h : d.isFile p = true) :
    ∃ names text, d.resolve p = .ok names ∧ d.entry? names = some (.file text) := by
  unfold isFile at h
  split at h
  · rename_i names hresolve
    split at h
    · rename_i text hentry
      exact ⟨names, text, hresolve, hentry⟩
    · cases h
  · cases h

/-- Some directory lists the source, tests left out. -/
def IsListed (d : Disk) (source : Path) : Prop :=
  ∃ dir sources, d.sourceFiles? dir false = some sources ∧ source ∈ sources

theorem isListed_of_mem_filter {dir : Path} {sources : List Path} (h : d.sourceFiles? dir false = some sources)
    {p : Path → Bool} : ∀ source ∈ sources.filter p, d.IsListed source := by
  intro source hsource
  exact ⟨dir, sources, h, (List.mem_filter.1 hsource).1⟩

theorem IsListed.isCanonical {source : Path} (h : d.IsListed source) :
    d.IsCanonical (d.canonicalOrSelf source) := by
  obtain ⟨dir, sources, hlist, hmem⟩ := h
  obtain ⟨names, text, hres, -⟩ := resolve_of_isFile (isFile_of_mem_sourceFiles hlist hmem)
  exact isCanonical_of_resolve hres

theorem mem_directories {names : List Name} (h : d.entry? names = some .directory) :
    names ∈ d.directories := by
  unfold entry? at h
  split at h
  · rename_i hroot
    simp [directories, List.isEmpty_iff.1 hroot]
  · obtain ⟨before, behind, hentries, -⟩ := List.lookup_eq_some_iff.1 h
    refine List.mem_cons_of_mem _ (List.mem_map.2 ⟨(names, .directory), ?_, rfl⟩)
    simp [hentries]

/-- The canonical path of a listed source is a name in a directory of the disk. -/
theorem IsListed.parts_location {source : Path} (h : d.IsListed source) :
    ∃ here name, d.Reached here ∧ here ∈ d.directories ∧
      (d.canonicalOrSelf source).parts = [Path.slash] :: (here ++ [name]) := by
  obtain ⟨dir, sources, hlist, hmem⟩ := h
  obtain ⟨names, text, hres, hfile⟩ := resolve_of_isFile (isFile_of_mem_sourceFiles hlist hmem)
  have hreach := resolve_reached hres
  have hparts := parts_of_reached hreach
  rw [canonicalOrSelf_of_resolve hres]
  cases hreach with
  | root => simp [ entry?] at hfile
  | child above inside => exact ⟨_, _, above, mem_directories inside, hparts⟩

/-- The directory is that of the canonical path of a listed source. -/
def IsSourceHome (d : Disk) (dir : Path) : Prop :=
  ∃ source, d.IsListed source ∧ dir.same (d.canonicalOrSelf source).directory = true

theorem IsListed.isSourceHome {source location : Path} (h : d.IsListed source)
    (hloc : location.same (d.canonicalOrSelf source) = true) : d.IsSourceHome location.directory := by
  obtain ⟨here, name, -, -, hparts⟩ := h.parts_location
  refine ⟨source, h, Path.same_iff.2 ?_⟩
  rw [Path.parts_directory hparts, Path.parts_directory ((Path.same_iff.1 hloc).trans hparts)]

theorem IsSourceHome.exists_directory {dir : Path} (h : d.IsSourceHome dir) :
    ∃ names ∈ d.directories, dir.same (pathOf names) = true := by
  obtain ⟨source, hlisted, hsame⟩ := h
  obtain ⟨here, name, hreach, hdir, hparts⟩ := hlisted.parts_location
  refine ⟨here, hdir, Path.same_iff.2 ?_⟩
  rw [Path.same_iff.1 hsame, Path.parts_directory hparts, parts_of_reached hreach]

/-- Every home of a listed source is among the directories. -/
def IsCoveredBy (d : Disk) (homes : List Path) : Prop :=
  ∀ dir, d.IsSourceHome dir → ∃ home ∈ homes, dir.same home = true

/-- The directories of a disk are finitely many, and no listed source is at home elsewhere. -/
theorem isCoveredBy_directories (d : Disk) : d.IsCoveredBy (d.directories.map pathOf) := by
  intro dir hdir
  obtain ⟨names, hnames, hsame⟩ := hdir.exists_directory
  exact ⟨pathOf names, List.mem_map.2 ⟨names, hnames, rfl⟩, hsame⟩

end Disk

end GoOutline
