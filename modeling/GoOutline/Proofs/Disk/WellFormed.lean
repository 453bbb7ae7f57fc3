import GoOutline.Proofs.Disk.Canonical
import Mathlib.Data.List.Nodup

/-!
# Disks as a system keeps them

On a disk as a system keeps it no two entries stand at the same place, and no name holds a slash. Every change
keeps a disk so (`WellFormed.write`, `WellFormed.remove`). What is found on it does not depend
on the order in which its entries are enumerated (`Enumerates.isFile_eq`).
-/
namespace GoOutline.Disk

variable {d e : Disk}

/-- No two entries stand at the same place, and no name holds a slash. -/
structure WellFormed (d : Disk) : Prop where
  distinct : (d.entries.map (·.1)).Nodup
  noSlash : ∀ e ∈ d.entries, ∀ name ∈ e.1, Path.slash ∉ name

/-! ## Changes -/

theorem WellFormed.put (h : d.WellFormed) {names : List Name} (hnames : ∀ name ∈ names, Path.slash ∉ name)
    (entry : Entry) : (d.put names entry).WellFormed := by
  constructor
  · have hkept : ((d.entries.filter fun e => e.1 != names).map (·.1)).Nodup :=
      h.distinct.sublist (List.filter_sublist.map _)
    have hgone : names ∉ (d.entries.filter fun e => e.1 != names).map (·.1) := by
      intro hmem
      obtain ⟨e, he, heq⟩ := List.mem_map.1 hmem
      have hne := (List.mem_filter.1 he).2
      simp [heq] at hne
    simp only [Disk.put, List.map_append, List.map_cons, List.map_nil]
    exact hkept.append (List.nodup_singleton names) (List.disjoint_singleton.2 hgone)
  · intro e he
    rcases List.mem_append.1 he with he | he
    · exact h.noSlash e (List.mem_filter.1 he).1
    · rw [List.mem_singleton.1 he]
      exact hnames

theorem WellFormed.erase (h : d.WellFormed) (names : List Name) : (d.erase names).WellFormed where
  distinct := h.distinct.sublist (List.filter_sublist.map _)
  noSlash e he := h.noSlash e (List.mem_filter.1 he).1

theorem noSlash_of_reach {p : Path} {names : List Name} (h : d.reach p = .ok names) :
    ∀ name ∈ names, Path.slash ∉ name :=
  fun name hname => ((reach_reached h).isName name hname).noSlash

theorem noSlash_of_fileName? {p : Path} {name : List UInt8} (h : p.fileName? = some name) : Path.slash ∉ name := by
  unfold Path.fileName? at h
  split at h
  · rename_i piece hlast
    split at h
    · cases h
    · cases h
      exact Path.slash_not_mem_of_mem_body (Path.mem_of_mem_dropIdleEnd (List.mem_of_getLast? hlast))
  · cases h

theorem noSlash_of_place? {p : Path} {names : List Name} (h : d.place? p = some names) :
    ∀ name ∈ names, Path.slash ∉ name := by
  unfold place? at h
  split at h
  · rename_i above name hparent hname
    split at h
    · rename_i there hthere
      cases h
      intro part hpart
      rcases List.mem_append.1 hpart with hpart | hpart
      · exact noSlash_of_reach hthere part hpart
      · rw [List.mem_singleton.1 hpart]
        exact noSlash_of_fileName? hname
    · cases h
  · cases h

theorem WellFormed.create (h : d.WellFormed) (p : Path) (entry : Entry) : (d.create p entry).WellFormed := by
  unfold Disk.create
  split
  · rename_i names hplace
    exact h.put (noSlash_of_place? hplace) entry
  · exact h

theorem WellFormed.makeDirectories (h : d.WellFormed) (p : Path) : (d.makeDirectories p).WellFormed := by
  unfold Disk.makeDirectories
  induction p.ancestors.reverse generalizing d with
  | nil => exact h
  | cons q rest ih =>
    rw [List.foldl_cons]
    refine ih ?_
    split
    · exact h
    · exact h.create q .directory

/-- Writing keeps a disk in order. -/
theorem WellFormed.write (h : d.WellFormed) (p : Path) (entry : Entry) : (d.write p entry).WellFormed := by
  unfold Disk.write
  split
  · rename_i names hreach
    exact h.put (noSlash_of_reach hreach) entry
  · exact (h.makeDirectories p.directory).create p entry

/-- Removing keeps a disk in order. -/
theorem WellFormed.remove (h : d.WellFormed) (p : Path) : (d.remove p).WellFormed := by
  unfold Disk.remove
  split
  · exact h.erase _
  · exact h

/-! ## Looking up entries -/

theorem WellFormed.lookup_eq_some_iff (h : d.WellFormed) {names : List Name} {entry : Entry} :
    d.entries.lookup names = some entry ↔ (names, entry) ∈ d.entries := by
  constructor
  · intro hlookup
    obtain ⟨before, behind, hentries, -⟩ := List.lookup_eq_some_iff.1 hlookup
    simp [hentries]
  · intro hmem
    obtain ⟨before, behind, hentries⟩ := List.append_of_mem hmem
    refine List.lookup_eq_some_iff.2 ⟨before, behind, hentries, fun other hother => ?_⟩
    have hdistinct := h.distinct
    rw [hentries, List.map_append, List.nodup_append'] at hdistinct
    have hne : other.1 ≠ names := by
      intro heq
      exact hdistinct.2.2 (List.mem_map.2 ⟨other, hother, rfl⟩) (by simp [heq])
    simpa using Ne.symm hne

theorem WellFormed.entry?_eq_some_iff (h : d.WellFormed) {names : List Name} (hne : names ≠ []) {entry : Entry} :
    d.entry? names = some entry ↔ (names, entry) ∈ d.entries := by
  have hlookup : d.entry? names = d.entries.lookup names := by
    unfold entry?
    simp [hne]
  rw [hlookup, h.lookup_eq_some_iff]

/-! ## Names in a directory -/

/-- The name of a place in a directory, if the place is directly in it. -/
def nameIn (names place : List Name) : Option Name :=
  match place.getLast? with
  | some name => if place.dropLast == names then some name else none
  | none => none

theorem nameIn_eq_some_iff {names place : List Name} {name : Name} :
    nameIn names place = some name ↔ place = names ++ [name] := by
  constructor
  · intro h
    obtain rfl | ⟨above, last, rfl⟩ := List.eq_nil_or_concat place
    · cases h
    · simp only [nameIn, List.concat_eq_append, List.getLast?_concat, List.dropLast_concat] at h
      split at h
      · rename_i habove
        rw [← eq_of_beq habove, ← Option.some.inj h, List.concat_eq_append]
      · cases h
  · rintro rfl
    simp [nameIn]

theorem namesIn_eq (d : Disk) (names : List Name) : d.namesIn names = (d.entries.map (·.1)).filterMap (nameIn names) := by
  rw [List.filterMap_map]
  rfl

theorem mem_namesIn {names : List Name} {name : Name} :
    name ∈ d.namesIn names ↔ ∃ entry, (names ++ [name], entry) ∈ d.entries := by
  simp [namesIn_eq, nameIn_eq_some_iff]

theorem WellFormed.nodup_namesIn (h : d.WellFormed) (names : List Name) : (d.namesIn names).Nodup := by
  rw [namesIn_eq]
  refine h.distinct.filterMap fun a b name ha hb => ?_
  rw [nameIn_eq_some_iff.1 ha, nameIn_eq_some_iff.1 hb]

theorem WellFormed.noSlash_of_mem_namesIn (h : d.WellFormed) {names : List Name} {name : Name}
    (hname : name ∈ d.namesIn names) : Path.slash ∉ name := by
  obtain ⟨entry, hmem⟩ := mem_namesIn.1 hname
  exact h.noSlash _ hmem name (by simp)

/-! ## Order of the entries -/

/-- Both disks hold the same entries, in any order, and have the same working directory. -/
structure Enumerates (d e : Disk) : Prop where
  perm : e.entries.Perm d.entries
  cwd : e.cwd = d.cwd

theorem Enumerates.wellFormed (h : d.Enumerates e) (hd : d.WellFormed) : e.WellFormed where
  distinct := ((h.perm.map (·.1)).nodup_iff).2 hd.distinct
  noSlash x hx := hd.noSlash x (h.perm.mem_iff.1 hx)

theorem Enumerates.entry?_eq (h : d.Enumerates e) (hd : d.WellFormed) : e.entry? = d.entry? := by
  funext names
  by_cases hnames : names = []
  · subst hnames
    rfl
  · refine Option.ext fun entry => ?_
    rw [(h.wellFormed hd).entry?_eq_some_iff hnames, hd.entry?_eq_some_iff hnames, h.perm.mem_iff]

theorem follow_congr (h : e.entry? = d.entry?) : e.follow = d.follow := by
  funext onLink here pieces
  induction pieces generalizing here with
  | nil => rfl
  | cons piece rest ih => simp only [follow, h, ih]

theorem followLinks_congr (h : e.entry? = d.entry?) (links : Nat) : e.followLinks links = d.followLinks links := by
  induction links with
  | zero => simp only [followLinks, follow_congr h]
  | succ links ih => simp only [followLinks, follow_congr h, ih]

theorem Enumerates.reach_eq (h : d.Enumerates e) (hd : d.WellFormed) : e.reach = d.reach := by
  funext p
  simp only [reach, cwdPath, h.cwd, followLinks_congr (h.entry?_eq hd)]

theorem Enumerates.resolve_eq (h : d.Enumerates e) (hd : d.WellFormed) : e.resolve = d.resolve := by
  funext p
  simp only [resolve, h.reach_eq hd]

theorem Enumerates.isFile_eq (h : d.Enumerates e) (hd : d.WellFormed) : e.isFile = d.isFile := by
  funext p
  simp only [isFile, h.resolve_eq hd, h.entry?_eq hd]

theorem Enumerates.leadsOn_eq (h : d.Enumerates e) (hd : d.WellFormed) : e.leadsOn = d.leadsOn := by
  funext path next piece
  simp only [leadsOn, h.reach_eq hd, h.entry?_eq hd]

theorem Enumerates.listingBase?_eq (h : d.Enumerates e) (hd : d.WellFormed) : e.listingBase? = d.listingBase? := by
  have hstep : e.listingStep = d.listingStep := by
    funext base piece
    rw [listingStep, listingStep, h.leadsOn_eq hd]
  funext dir
  rw [listingBase?, listingBase?, hstep]

end GoOutline.Disk
