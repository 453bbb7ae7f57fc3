import GoOutline.Disk.Search
import GoOutline.Proofs.Disk.Ways
import GoOutline.Scan

/-!
# Canonical paths: `canonical_or_original`

Following a path ends at names that lead from the root to it through directories only (`Reached`), so the
path made of these names is followed to the same place again: a canonical path is its own canonical
path (`resolve_pathOf`), and a file scanned through any path is the file scanned at its location
(`holds_of_scan`). The location is the path itself if that has no canonical path; no such location names the same
place as a canonical path (`Holds.location_eq`).
-/
namespace GoOutline.Disk

variable {d : Disk}

/-! ## Following paths -/

/-- The name can stand in a directory. -/
structure IsName (name : Name) : Prop where
  busy : Path.isIdle name = false
  notUp : (name == Path.dotDot) = false
  noSlash : Path.slash ∉ name
  short : name.length ≤ longestName
  noNul : nul ∉ name

/-- The names lead from the root to an entry through directories only. -/
inductive Reached (d : Disk) : List Name → Prop
  | root : Reached d []
  | child {here : List Name} {name : Name} {entry : Entry} (above : Reached d here)
      (inside : d.entry? here = some .directory) (isName : IsName name)
      (found : d.entry? (here ++ [name]) = some entry) (notLink : ∀ target, entry ≠ .link target) :
      Reached d (here ++ [name])

theorem Reached.dropLast {names : List Name} (h : d.Reached names) : d.Reached names.dropLast := by
  cases h with
  | root => exact .root
  | child above => simpa using above

theorem Reached.isName {names : List Name} (h : d.Reached names) : ∀ name ∈ names, IsName name := by
  induction h with
  | root => simp
  | child _ _ isName _ _ ih =>
    intro name hname
    rcases List.mem_append.1 hname with hname | hname
    · exact ih name hname
    · rw [List.mem_singleton.1 hname]; exact isName

theorem follow_reached {onLink : List Name → List Name → Except DiskError (List Name)}
    (hlink : ∀ here pieces names, d.Reached here → (∀ piece ∈ pieces, Path.slash ∉ piece) →
      onLink here pieces = .ok names → d.Reached names) :
    ∀ (pieces here : List Name) {names : List Name}, d.Reached here →
      (∀ piece ∈ pieces, Path.slash ∉ piece) → d.follow onLink here pieces = .ok names → d.Reached names
  | [], here, names, hhere, _, h => by
    cases h; exact hhere
  | piece :: rest, here, names, hhere, hslash, h => by
    have ih : ∀ there, d.Reached there → d.follow onLink there rest = .ok names → d.Reached names :=
      fun there hthere => follow_reached hlink rest there hthere fun p hp => hslash p (by simp [hp])
    unfold follow at h
    split at h
    · cases h
    · rename_i hdir
      have hdir : d.entry? here = some .directory := by simpa using hdir
      split at h
      · exact ih here hhere h
      · rename_i hbusy
        split at h
        · exact ih _ hhere.dropLast h
        · rename_i hup
          split at h
          · cases h
          · rename_i hshort
            split at h
            · cases h
            · rename_i hnul
              split at h
              · cases h
              · refine hlink _ _ _ ?_ ?_ h
                · split
                  · exact .root
                  · exact hhere
                · intro p hp
                  rcases List.mem_append.1 hp with hp | hp
                  · exact Path.slash_not_mem_of_mem_splitOn hp
                  · exact hslash p (by simp [hp])
              · rename_i entry hnotLink hentry
                refine ih _ (.child hhere hdir ⟨?_, ?_, hslash piece (by simp), ?_, ?_⟩ hentry hnotLink) h
                · simpa using hbusy
                · simpa using hup
                · simpa using hshort
                · simpa using hnul

theorem followLinks_reached : ∀ (links : Nat) (here pieces names : List Name), d.Reached here →
    (∀ piece ∈ pieces, Path.slash ∉ piece) → d.followLinks links here pieces = .ok names → d.Reached names
  | 0, here, pieces, _, hhere, hslash, h =>
    follow_reached (fun _ _ _ _ _ h => by cases h) pieces here hhere hslash h
  | links + 1, here, pieces, _, hhere, hslash, h =>
    follow_reached (followLinks_reached links) pieces here hhere hslash h

/-- Names that lead to an entry are followed one by one, whatever comes behind them. -/
theorem Reached.follow_append (onLink : List Name → List Name → Except DiskError (List Name))
    {names : List Name} (h : d.Reached names) (rest : List Name) :
    d.follow onLink [] (names ++ rest) = d.follow onLink names rest := by
  induction h generalizing rest with
  | root => rfl
  | @child here name entry above inside isName found notLink ih =>
    rw [List.append_assoc, ih]
    simp only [List.cons_append, List.nil_append]
    rw [follow]
    have hnul : name.contains nul = false := by simpa using isName.noNul
    simp only [inside, bne_self_eq_false, Bool.false_eq_true, ite_false, isName.busy, isName.notUp,
      Nat.not_lt.2 isName.short, hnul, found]

/-! ## Canonical paths -/

theorem reach_reached {p : Path} {names : List Name} (h : d.reach p = .ok names) : d.Reached names := by
  unfold reach at h
  split at h
  · cases h
  · split at h
    · cases h
    · split at h
      · cases h
      · exact followLinks_reached _ _ _ _ .root (fun _ hp => Path.slash_not_mem_of_mem_splitOn hp) h

theorem resolve_ok {p : Path} {names : List Name} (h : d.resolve p = .ok names) :
    d.reach p = .ok names ∧ (pathOf names).bytes.length < pathLimit := by
  unfold resolve at h
  cases hreach : d.reach p with
  | error e => simp [hreach, Except.bind] at h
  | ok found =>
    simp only [hreach, Except.bind] at h
    split at h
    · cases h
    · rename_i hshort
      cases h
      exact ⟨rfl, by omega⟩

theorem resolve_of_reach {p : Path} {names : List Name} (h : d.reach p = .ok names)
    (hshort : (pathOf names).bytes.length < pathLimit) : d.resolve p = .ok names := by
  simp [resolve, h, Except.bind, Nat.not_le.2 hshort]

theorem resolve_reached {p : Path} {names : List Name} (h : d.resolve p = .ok names) : d.Reached names :=
  reach_reached (resolve_ok h).1

theorem splitOn_pathOf {names : List Name} (h : ∀ name ∈ names, Path.slash ∉ name) :
    List.splitOn Path.slash (pathOf names).bytes = [] :: (if names.isEmpty then [[]] else names) := by
  rw [pathOf, Path.splitOn_slash_cons]
  cases names with
  | nil => simp [List.splitOn_nil]
  | cons name rest => simp [List.splitOn_intercalate Path.slash h]

theorem Reached.nul_not_mem_pathOf {names : List Name} (h : d.Reached names) : nul ∉ (pathOf names).bytes := by
  rw [Path.mem_iff_exists_mem_splitOn (by decide), splitOn_pathOf fun name hname => (h.isName name hname).noSlash]
  rintro ⟨piece, hpiece, hnul⟩
  split at hpiece
  · simp_all
  · rcases List.mem_cons.1 hpiece with rfl | hname
    · cases hnul
    · exact (h.isName piece hname).noNul hnul

/-- A path from the root leads to an entry if its pieces that are not idle are the names of the entry, unless
it asks for a directory at the end. -/
theorem Reached.followLinks_of_busy {names pieces : List Name} (h : d.Reached names) (hbusy : busy pieces = names)
    {there : List Name} (hthere : d.followLinks linkLimit [] pieces = .ok there) : there = names := by
  obtain ⟨onLink, hlinks⟩ : ∃ onLink, d.followLinks linkLimit = d.follow onLink := ⟨_, rfl⟩
  rw [← followLinks_settled, settled, hbusy, hlinks, h.follow_append] at hthere
  split at hthere
  · rw [follow_cons] at hthere
    by_cases hdir : d.entry? names = some .directory
    · rw [turn_idle rfl hdir] at hthere
      exact (Except.ok.inj hthere).symm
    · rw [turn_of_not_directory hdir] at hthere
      cases hthere
  · exact (Except.ok.inj hthere).symm

/-- A canonical path leads where its names do. -/
theorem Reached.resolve_pathOf {names : List Name} (h : d.Reached names)
    (hshort : (pathOf names).bytes.length < pathLimit) : d.resolve (pathOf names) = .ok names := by
  have habs : (pathOf names).isAbsolute = true := by simp [pathOf, Path.isAbsolute]
  have hjoin : d.cwdPath.join (pathOf names) = pathOf names := by simp [Path.join, habs]
  have hroot : d.entry? [] = some .directory := by simp [ entry?]
  have hne : (pathOf names).bytes.isEmpty = false := by simp [pathOf]
  have hnul : (pathOf names).bytes.contains nul = false := by
    simpa using h.nul_not_mem_pathOf
  have hfollow : d.followLinks linkLimit [] (List.splitOn Path.slash (pathOf names).bytes) = .ok names := by
    obtain ⟨onLink, hlinks⟩ : ∃ onLink, d.followLinks linkLimit = d.follow onLink := ⟨_, rfl⟩
    rw [splitOn_pathOf fun name hname => (h.isName name hname).noSlash, hlinks, follow]
    simp only [hroot, bne_self_eq_false, Bool.false_eq_true, ite_false, show Path.isIdle [] = true from rfl,
      ite_true]
    by_cases hnames : names = []
    · subst hnames; simp [follow, hroot, Path.isIdle]
    · have hall := h.follow_append onLink []
      rw [List.append_nil] at hall
      simp only [List.isEmpty_iff, hnames, ite_false]
      exact hall
  refine resolve_of_reach ?_ hshort
  simp only [reach, hnul, hne, Bool.false_eq_true, ite_false, Nat.not_le.2 hshort, hjoin, hfollow]

theorem resolve_pathOf {p : Path} {names : List Name} (h : d.resolve p = .ok names) :
    d.resolve (pathOf names) = .ok names :=
  (resolve_reached h).resolve_pathOf (resolve_ok h).2

/-- The path is the canonical path of what it leads to. -/
def IsCanonical (d : Disk) (p : Path) : Prop :=
  ∃ names, d.resolve p = .ok names ∧ p = pathOf names

theorem parts_of_reached {names : List Name} (h : d.Reached names) :
    (pathOf names).parts = [Path.slash] :: names := by
  have hnames := h.isName
  rw [pathOf, Path.parts_slash_intercalate fun name hname => (hnames name hname).noSlash]
  rw [List.filter_eq_self.2 fun name hname => by simp [(hnames name hname).busy]]

theorem canonicalOrSelf_of_resolve {p : Path} {names : List Name} (h : d.resolve p = .ok names) :
    d.canonicalOrSelf p = pathOf names := by
  simp [canonicalOrSelf, canonical?, h]

theorem isCanonical_of_resolve {p : Path} {names : List Name} (h : d.resolve p = .ok names) :
    d.IsCanonical (d.canonicalOrSelf p) :=
  ⟨names, by rw [canonicalOrSelf_of_resolve h, resolve_pathOf h], canonicalOrSelf_of_resolve h⟩

/-- A path without a canonical one stands for itself. -/
theorem canonicalOrSelf_of_error {p : Path} {cause : DiskError} (h : d.resolve p = .error cause) :
    d.canonicalOrSelf p = p := by
  simp [canonicalOrSelf, canonical?, h]

theorem canonicalOrSelf_canonicalOrSelf (p : Path) : d.canonicalOrSelf (d.canonicalOrSelf p) = d.canonicalOrSelf p := by
  cases hresolve : d.resolve p with
  | error cause => rw [canonicalOrSelf_of_error hresolve, canonicalOrSelf_of_error hresolve]
  | ok names => rw [canonicalOrSelf_of_resolve hresolve, canonicalOrSelf_of_resolve (resolve_pathOf hresolve)]

/-- A path that names the same place as a canonical one and leads somewhere leads there. -/
theorem canonicalOrSelf_of_same {p location : Path} (hlocation : d.IsCanonical location) (h : p.same location = true)
    {there : List Name} (hreach : d.reach p = .ok there) : d.canonicalOrSelf p = location := by
  obtain ⟨names, hresolve, rfl⟩ := hlocation
  have hreached := resolve_reached hresolve
  have hparts : p.parts = [Path.slash] :: names := by
    rw [← parts_of_reached hreached]
    simpa [Path.same] using h
  have habs := Path.isAbsolute_of_parts hparts
  have hbusy : busy (List.splitOn Path.slash p.bytes) = names := by
    obtain ⟨rest, rfl⟩ := Path.exists_of_isAbsolute habs
    have hbody := Path.filter_body_of_parts hparts
    rw [Path.body, Path.lead_of_isAbsolute habs] at hbody
    rw [Path.splitOn_slash_cons]
    exact hbody
  have hthere : there = names := by
    have hjoin : d.cwdPath.join p = p := by simp [Path.join, habs]
    unfold reach at hreach
    rw [hjoin] at hreach
    split at hreach
    · cases hreach
    · split at hreach
      · cases hreach
      · split at hreach
        · cases hreach
        · exact hreached.followLinks_of_busy hbusy hreach
  rw [hthere] at hreach
  exact canonicalOrSelf_of_resolve (resolve_of_reach hreach (resolve_ok hresolve).2)

/-! ## Scanned files -/

theorem location_of_ofSource {location : Path} {source : String} {file : File}
    (h : File.ofSource location source = .ok file) : file.location = location := by
  unfold File.ofSource at h
  split at h
  · cases h
  · split at h
    · cases h
    · cases h; rfl

/-- The file is what a scan of its own location gives, and the location stands for itself. -/
structure Holds (d : Disk) (file : File) : Prop where
  scanned : d.scanLocated file.location = .ok file
  settled : d.canonicalOrSelf file.location = file.location

theorem readText_canonical {p : Path} {names : List Name} (h : d.resolve p = .ok names) :
    d.readText (pathOf names) = d.readText p := by
  simp only [readText, entryAt, (resolve_ok h).1, (resolve_ok (resolve_pathOf h)).1]

theorem readText_canonicalOrSelf (p : Path) : d.readText (d.canonicalOrSelf p) = d.readText p := by
  cases hresolve : d.resolve p with
  | error cause => rw [canonicalOrSelf_of_error hresolve]
  | ok names => rw [canonicalOrSelf_of_resolve hresolve, readText_canonical hresolve]

theorem readText_of_readSource {p : Path} {source : String} (h : d.readSource p = .ok source) :
    d.readText p = .ok source := by
  unfold readSource at h
  split at h
  · rename_i text htext
    cases h
    exact htext
  · cases h

theorem exists_reach_of_readText {p : Path} {source : String} (h : d.readText p = .ok source) :
    ∃ names, d.reach p = .ok names := by
  cases hreach : d.reach p with
  | error e => simp [readText, entryAt, hreach, Except.bind] at h
  | ok names => exact ⟨names, rfl⟩

theorem exists_of_scan {p : Path} {file : File} (h : d.scan p = .ok file) :
    ∃ source, d.readText p = .ok source ∧ File.ofSource (d.canonicalOrSelf p) source = .ok file := by
  cases hread : d.readSource p with
  | error e => simp [scan, hread, bind, Except.bind] at h
  | ok source =>
    simp only [scan, hread, bind, Except.bind] at h
    exact ⟨source, readText_of_readSource hread, h⟩

theorem exists_of_scanLocated {location : Path} {file : File} (h : d.scanLocated location = .ok file) :
    ∃ source, d.readText location = .ok source ∧ File.ofSource location source = .ok file := by
  cases hread : d.readSource location with
  | error e => simp [scanLocated, hread, bind, Except.bind] at h
  | ok source =>
    simp only [scanLocated, hread, bind, Except.bind] at h
    exact ⟨source, readText_of_readSource hread, h⟩

theorem scanLocated_of_readText {location : Path} {source : String} (h : d.readText location = .ok source) :
    d.scanLocated location = File.ofSource location source := by
  rw [scanLocated, readSource, h]
  rfl

theorem location_of_scanLocated {location : Path} {file : File} (h : d.scanLocated location = .ok file) :
    file.location = location := by
  obtain ⟨source, -, hfile⟩ := exists_of_scanLocated h
  exact location_of_ofSource hfile

/-- A location that names the same place as a canonical path is that path. -/
theorem Holds.location_eq {file : File} (h : d.Holds file) {location : Path} (hlocation : d.IsCanonical location)
    (hsame : file.location.same location = true) : file.location = location := by
  obtain ⟨source, hread, -⟩ := exists_of_scanLocated h.scanned
  obtain ⟨there, hreach⟩ := exists_reach_of_readText hread
  rw [← h.settled]
  exact canonicalOrSelf_of_same hlocation hsame hreach

theorem holds_of_scanLocated {p : Path} {file : File} (h : d.scanLocated (d.canonicalOrSelf p) = .ok file) :
    d.Holds file ∧ file.location = d.canonicalOrSelf p := by
  have hlocation := location_of_scanLocated h
  refine ⟨⟨?_, ?_⟩, hlocation⟩
  · rw [hlocation, h]
  · rw [hlocation, canonicalOrSelf_canonicalOrSelf]

/-- A file scanned through any path is the file scanned at its location. -/
theorem holds_of_scan {p : Path} {file : File} (h : d.scan p = .ok file) :
    d.Holds file ∧ file.location = d.canonicalOrSelf p := by
  obtain ⟨source, hread, hfile⟩ := exists_of_scan h
  have hthere : d.readText (d.canonicalOrSelf p) = .ok source := by rw [readText_canonicalOrSelf, hread]
  refine holds_of_scanLocated ?_
  rw [scanLocated_of_readText hthere, hfile]

end GoOutline.Disk
