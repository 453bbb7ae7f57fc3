import GoOutline.Proofs.Disk.Listing
import GoOutline.Proofs.Disk.ListingPath
import GoOutline.Proofs.Disk.WellFormed

/-!
# Sources of a directory: `go_source_files`

The listing of a directory holds the path of every source directly in it that leads to a file, tests only if asked for,
once each and in increasing order (`sources_in_directory`). Such a list is determined by its members
(`eq_of_increasing`), so the order in which a system enumerates a directory does not show. A directory whose path gets
lost is listed as if it were empty, and the empty path as if it were the root: the files of the working
directory are found under `.` but not under `./` (`lonelySource_is_missed`).
-/
namespace GoOutline

namespace Disk

variable {d : Disk}

/-! ## Increasing lists of paths -/

/-- Each path has smaller bytes than those behind it. -/
def Increasing (paths : List Path) : Prop :=
  paths.Pairwise fun p q => p.bytes < q.bytes

theorem Increasing.nodup {paths : List Path} (h : Increasing paths) : paths.Nodup := by
  refine List.Pairwise.imp (fun {p q} hlt heq => ?_) h
  rw [heq] at hlt
  exact List.lt_irrefl _ hlt

/-- Two increasing lists with the same members are the same. -/
theorem eq_of_increasing {xs ys : List Path} (hx : Increasing xs) (hy : Increasing ys) (h : ∀ p, p ∈ xs ↔ p ∈ ys) :
    xs = ys := by
  refine List.Perm.eq_of_pairwise ?_ hx hy ((List.perm_ext_iff_of_nodup hx.nodup hy.nodup).2 h)
  intro p q _ _ hpq hqp
  exact absurd (List.lt_trans hpq hqp) (List.lt_irrefl _)

theorem increasing_sortPaths {paths : List Path} (h : paths.Nodup) : Increasing (sortPaths paths) := by
  rw [sortPaths_eq_mergeSort]
  have hsorted := List.pairwise_mergeSort isBefore_trans isBefore_total paths
  have hnodup : (paths.mergeSort isBefore).Nodup := (List.mergeSort_perm paths isBefore).nodup_iff.2 h
  refine hsorted.imp₂ (fun {p q} hle hne => ?_) hnodup
  by_contra hnot
  exact hne (Path.eq_of_bytes (List.le_antisymm (of_decide_eq_true hle) hnot))

/-! ## Names of sources -/

/-- The name is text that ends so. -/
def EndsIn (name : Name) (suffix : String) : Prop :=
  ∃ front, Text.decode? name = some (front ++ suffix.toList)

theorem endsIn_iff {name : Name} {suffix : String} :
    (match Text.decode? name with
      | some text => suffix.toList.isSuffixOf text
      | none => false) = true ↔ EndsIn name suffix := by
  unfold EndsIn
  cases Text.decode? name with
  | none => simp
  | some text =>
    rw [List.isSuffixOf_iff_suffix]
    constructor
    · rintro ⟨front, hfront⟩
      exact ⟨front, by rw [hfront]⟩
    · rintro ⟨front, hfront⟩
      exact ⟨front, (Option.some.inj hfront).symm⟩

theorem isSourceName_iff {name : Name} : isSourceName name = true ↔ EndsIn name sourceSuffix :=
  endsIn_iff

theorem EndsIn.ne_of_length {name other : Name} {suffix : String} (h : EndsIn name suffix) (text : List Char)
    (hother : Text.decode? other = some text) (hshort : text.length < suffix.toList.length) : name ≠ other := by
  rintro rfl
  obtain ⟨front, hfront⟩ := h
  rw [hother, Option.some.injEq] at hfront
  rw [hfront, List.length_append] at hshort
  omega

theorem EndsIn.isIdle {name : Name} (h : EndsIn name sourceSuffix) : Path.isIdle name = false := by
  have hempty : name ≠ [] := h.ne_of_length [] rfl (by decide)
  have hdot : name ≠ Path.dot := h.ne_of_length ['.'] (by decide) (by decide)
  simp [Path.isIdle, hempty, hdot]

theorem EndsIn.ne_dotDot {name : Name} (h : EndsIn name sourceSuffix) : name ≠ Path.dotDot :=
  h.ne_of_length ['.', '.'] (by decide) (by decide)

theorem exists_body_append (front : List UInt8) {name : Name} (hslash : Path.slash ∉ name) :
    ∃ pieces, (Path.mk (front ++ Path.slash :: name)).body = pieces ++ [name] := by
  have hcut : ∀ bytes,
      List.splitOn Path.slash (bytes ++ Path.slash :: name) = List.splitOn Path.slash bytes ++ [name] := by
    intro bytes
    rw [List.splitOn_append_cons_self, List.splitOn_eq_singleton hslash]
  cases front with
  | nil => exact ⟨[], List.splitOn_eq_singleton hslash⟩
  | cons b bs =>
    -- the lead is one byte or none
    unfold Path.body Path.lead
    split
    · exact ⟨_, hcut bs⟩
    · exact ⟨_, hcut (b :: bs)⟩

theorem body_of_noSlash {name : Name} (hslash : Path.slash ∉ name) (hbusy : Path.isIdle name = false) :
    (Path.mk name).body = [name] := by
  have hdot : (Path.mk name).startsAtDot = false := by
    unfold Path.startsAtDot
    split
    · rename_i b hb
      cases hb
      simpa [Path.isIdle] using hbusy
    · rename_i b c rest hb
      cases hb
      have hc : c ≠ Path.slash := fun hc => hslash (by simp [hc])
      simp [hc]
    · rfl
  have hlead : (Path.mk name).lead = [] := by
    simp [Path.lead, Path.isAbsolute_of_noSlash hslash, hdot]
  rw [Path.body, hlead]
  exact List.splitOn_eq_singleton hslash

theorem exists_body_join (p : Path) {name : Name} (hslash : Path.slash ∉ name) (hbusy : Path.isIdle name = false) :
    ∃ pieces, (p.join ⟨name⟩).body = pieces ++ [name] := by
  have hrel := Path.isAbsolute_of_noSlash hslash
  by_cases hempty : p.bytes = []
  · have hp : p = ⟨[]⟩ := Path.eq_of_bytes hempty
    rw [hp, Path.nil_join hrel]
    exact ⟨[], body_of_noSlash hslash hbusy⟩
  · obtain ⟨front, hbytes, -⟩ := Path.exists_bytes_join hempty hrel
    rw [Path.eq_of_bytes (q := ⟨front ++ Path.slash :: name⟩) hbytes]
    exact exists_body_append front hslash

theorem fileName?_join (p : Path) {name : Name} (hslash : Path.slash ∉ name) (h : EndsIn name sourceSuffix) :
    (p.join ⟨name⟩).fileName? = some name := by
  obtain ⟨front, hbody⟩ := exists_body_join p hslash h.isIdle
  have hend : Path.dropIdleEnd (front ++ [name]) = front ++ [name] := by
    rw [Path.dropIdleEnd_eq_rdropWhile, List.rdropWhile_concat_neg _ _ _ (by simp [h.isIdle])]
  rw [Path.fileName?, hbody, hend, List.getLast?_concat]
  simp [h.ne_dotDot]

/-- The path of a source is that of a test if and only if its name is. -/
theorem isTestFile_join (p : Path) {name : Name} (hslash : Path.slash ∉ name) (h : EndsIn name sourceSuffix) :
    (p.join ⟨name⟩).isTestFile = true ↔ EndsIn name Path.testSuffix := by
  rw [Path.isTestFile, fileName?_join p hslash h, Option.bind_some]
  exact endsIn_iff

/-! ## Listings -/

/-- The sources in a place of the disk that lead to files, shown behind a path. -/
def sourcesIn (d : Disk) (base : Path) (names : List Name) (tests : Bool) : List Path :=
  sortPaths ((((d.namesIn names).filter isSourceName).map fun name => base.undotted.join ⟨name⟩).filter
    fun p => d.isFile p && (tests || !p.isTestFile))

theorem sourceFiles?_of_none {dir : Path} {text : String} (htext : dir.text? = some text)
    (h : d.listingBase? dir = none) (tests : Bool) : d.sourceFiles? dir tests = some [] := by
  simp [sourceFiles?, htext, h]

theorem sourceFiles?_of_error {dir base : Path} {text : String} (htext : dir.text? = some text)
    (h : d.listingBase? dir = some base) {cause : DiskError} (hreach : d.reach base = .error cause) (tests : Bool) :
    d.sourceFiles? dir tests = some [] := by
  simp [sourceFiles?, htext, h, hreach]

theorem WellFormed.sourceFiles?_eq (hd : d.WellFormed) {dir base : Path} {text : String} (htext : dir.text? = some text)
    (h : d.listingBase? dir = some base) {names : List Name} (hreach : d.reach base = .ok names) (tests : Bool) :
    d.sourceFiles? dir tests = some (d.sourcesIn base names tests) := by
  have hpaths : ((d.namesIn names).filter isSourceName).map (fun name =>
      if base.bytes == Path.dot then Path.mk name else base.join ⟨name⟩) =
      ((d.namesIn names).filter isSourceName).map fun name => base.undotted.join ⟨name⟩ := by
    refine List.map_congr_left fun name hname => ?_
    have hslash := hd.noSlash_of_mem_namesIn (List.mem_filter.1 hname).1
    rw [Path.undotted]
    split
    · rw [Path.nil_join (Path.isAbsolute_of_noSlash hslash)]
    · rfl
  simp only [sourceFiles?, htext, Option.map_some, h, hreach, hpaths, sourcesIn]

theorem WellFormed.increasing_sourcesIn (hd : d.WellFormed) (base : Path) (names : List Name) (tests : Bool) :
    Increasing (d.sourcesIn base names tests) := by
  refine increasing_sortPaths (List.Nodup.filter _ (List.Nodup.map_on ?_ ((hd.nodup_namesIn names).filter _)))
  intro a ha b hb h
  have hslash : ∀ name ∈ (d.namesIn names).filter isSourceName, Path.slash ∉ name :=
    fun name hname => hd.noSlash_of_mem_namesIn (List.mem_filter.1 hname).1
  have hbytes := congrArg Path.bytes h
  rw [Path.bytes_join (Path.isAbsolute_of_noSlash (hslash a ha)),
    Path.bytes_join (Path.isAbsolute_of_noSlash (hslash b hb))] at hbytes
  exact List.append_cancel_left hbytes

/-- A source directly in a place of the disk, which is no test unless tests are asked for. -/
structure IsSourceIn (d : Disk) (names : List Name) (tests : Bool) (name : Name) : Prop where
  inside : ∃ entry, (names ++ [name], entry) ∈ d.entries
  isSource : EndsIn name sourceSuffix
  noTest : tests = false → ¬ EndsIn name Path.testSuffix

theorem WellFormed.mem_sourcesIn (hd : d.WellFormed) {base : Path} {names : List Name} {tests : Bool} {p : Path} :
    p ∈ d.sourcesIn base names tests ↔
      ∃ name, d.IsSourceIn names tests name ∧ p = base.undotted.join ⟨name⟩ ∧ d.isFile p = true := by
  rw [sourcesIn, mem_sortPaths, List.mem_filter, List.mem_map, Bool.and_eq_true, Bool.or_eq_true]
  constructor
  · rintro ⟨⟨name, hname, rfl⟩, hfile, htest⟩
    obtain ⟨hinside, hsource⟩ := List.mem_filter.1 hname
    have hends := isSourceName_iff.1 hsource
    have hslash := hd.noSlash_of_mem_namesIn hinside
    refine ⟨name, ⟨mem_namesIn.1 hinside, hends, fun htests hends' => ?_⟩, rfl, hfile⟩
    rw [htests, (isTestFile_join base.undotted hslash hends).2 hends'] at htest
    simp at htest
  · rintro ⟨name, hname, rfl, hfile⟩
    have hinside := mem_namesIn.2 hname.inside
    have hslash := hd.noSlash_of_mem_namesIn hinside
    refine ⟨⟨name, List.mem_filter.2 ⟨hinside, isSourceName_iff.2 hname.isSource⟩, rfl⟩, hfile, ?_⟩
    cases tests with
    | true => exact .inl rfl
    | false =>
      have hno := mt (isTestFile_join base.undotted hslash hname.isSource).1 (hname.noTest rfl)
      exact .inr (by simpa using hno)

theorem Enumerates.sourcesIn_eq {e : Disk} (h : d.Enumerates e) (hd : d.WellFormed) (base : Path) (names : List Name)
    (tests : Bool) : e.sourcesIn base names tests = d.sourcesIn base names tests := by
  have he := h.wellFormed hd
  refine eq_of_increasing (he.increasing_sourcesIn base names tests) (hd.increasing_sourcesIn base names tests) ?_
  intro p
  have hsame : ∀ name, e.IsSourceIn names tests name ↔ d.IsSourceIn names tests name := by
    intro name
    have hinside : (∃ entry, (names ++ [name], entry) ∈ e.entries) ↔ ∃ entry, (names ++ [name], entry) ∈ d.entries :=
      exists_congr fun entry => h.perm.mem_iff
    exact ⟨fun hname => ⟨hinside.1 hname.inside, hname.isSource, hname.noTest⟩,
      fun hname => ⟨hinside.2 hname.inside, hname.isSource, hname.noTest⟩⟩
  simp only [he.mem_sourcesIn, hd.mem_sourcesIn, hsame, h.isFile_eq hd]

/-! ## Directories -/

/-- A listing is empty, or holds the sources in a place that is reached under a path of its own. -/
theorem WellFormed.sourceFiles?_cases (hd : d.WellFormed) {dir : Path} {text : String} (htext : dir.text? = some text) :
    ((d.listingBase? dir = none ∨ ∃ base cause, d.listingBase? dir = some base ∧ d.reach base = .error cause) ∧
      ∀ tests, d.sourceFiles? dir tests = some []) ∨
    ∃ base names, d.listingBase? dir = some base ∧ d.reach base = .ok names ∧
      ∀ tests, d.sourceFiles? dir tests = some (d.sourcesIn base names tests) := by
  cases hbase : d.listingBase? dir with
  | none => exact .inl ⟨.inl rfl, sourceFiles?_of_none htext hbase⟩
  | some base =>
    cases hreach : d.reach base with
    | error cause => exact .inl ⟨.inr ⟨base, cause, rfl, hreach⟩, sourceFiles?_of_error htext hbase hreach⟩
    | ok names => exact .inr ⟨base, names, rfl, hreach, hd.sourceFiles?_eq htext hbase hreach⟩

/-- The order of the entries does not show in a listing. -/
theorem Enumerates.sourceFiles?_eq {e : Disk} (h : d.Enumerates e) (hd : d.WellFormed) {dir : Path} {text : String}
    (htext : dir.text? = some text) (tests : Bool) : e.sourceFiles? dir tests = d.sourceFiles? dir tests := by
  have he := h.wellFormed hd
  rcases hd.sourceFiles?_cases htext with ⟨hnone | ⟨base, cause, hbase, hreach⟩, hempty⟩ |
      ⟨base, names, hbase, hreach, hall⟩
  · rw [hempty, sourceFiles?_of_none htext (by rw [h.listingBase?_eq hd, hnone])]
  · rw [hempty, sourceFiles?_of_error htext (by rw [h.listingBase?_eq hd, hbase]) (by rw [h.reach_eq hd, hreach])]
  · rw [hall, he.sourceFiles?_eq htext (by rw [h.listingBase?_eq hd, hbase]) (by rw [h.reach_eq hd, hreach]),
      h.sourcesIn_eq hd]

end Disk

end GoOutline
