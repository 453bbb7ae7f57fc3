import GoOutline.Proofs.Disk.Canonical
import GoOutline.Proofs.Resolver.Requests

/-!
# Ways to scan a file: `scan`, `Resolver::scan` and `scan_source`

A file can be scanned through a path, by a resolver that does not know it yet, or from its text as if that stood at the
path. The first reads through the path and then asks where the file is, the second asks first and reads there, the third
reads nothing. From the location the same text is read as through the path (`Disk.readText_canonicalOrSelf`), and a source
makes the same file or has the same fault wherever it stands (`File.ofSource_cases`). So all three agree but for the
location (`scans_agree`): that is the canonical path, and where there is none, the first two keep the path as it is and the
third makes it absolute (`deepDirectory_has_two_locations`).
-/
namespace GoOutline

/-! ## Sources at a location -/

/-- What is wrong with a source that makes no file. -/
inductive Fault where
  /-- It does not follow the grammar. -/
  | ungrammatical (position : Position)
  /-- It names no package. -/
  | unnamed

/-- The error for a fault of the source at a location. -/
def Fault.errorAt (location : Path) : Fault → Error
  | ungrammatical position => .parse location position
  | unnamed => .missingPackage location

/-- A source makes a file or has a fault, and the location only says where. -/
theorem File.ofSource_cases (source : String) :
    (∃ file : File, file.source = source ∧
      ∀ location, File.ofSource location source = .ok { file with location }) ∨
      ∃ fault : Fault, ∀ location, File.ofSource location source = .error (fault.errorAt location) := by
  unfold File.ofSource
  cases parse source with
  | error position => exact .inr ⟨.ungrammatical position, fun _ => rfl⟩
  | ok root =>
    dsimp only
    cases packageName? source root with
    | none => exact .inr ⟨.unnamed, fun _ => rfl⟩
    | some package =>
      let found := extract source root
      refine .inl ⟨⟨⟨[]⟩, package, found.comment, found.imports, found.values, found.interfaces, found.structs, source⟩,
        rfl, fun _ => rfl⟩

namespace Disk

variable {d : Disk} {path location : Path} {source : String}

theorem canonicalOrSelf_of_canonical? (h : d.canonical? path = some location) : d.canonicalOrSelf path = location := by
  rw [canonicalOrSelf, h, Option.getD_some]

theorem locate_of_canonical? (h : d.canonical? path = some location) : d.locate path = location := by
  rw [locate, h, Option.getD_some]

theorem canonical?_of_canonical? (h : d.canonical? path = some location) : d.canonical? location = some location := by
  cases hresolve : d.resolve path with
  | error cause => simp [canonical?, hresolve] at h
  | ok names =>
    obtain rfl : pathOf names = location := by simpa [canonical?, hresolve] using h
    rw [canonical?, resolve_pathOf hresolve]

theorem scan_of_readText (h : d.readText path = .ok source) :
    d.scan path = File.ofSource (d.canonicalOrSelf path) source := by
  rw [scan, readSource, h]
  rfl

end Disk

/-! ## Requests for a scan -/

namespace Request

variable {d : Disk} {path location : Path} {source : String} {s : Session}

/-- The requests that scan what a path leads to, if its text is the source, each with the location of the file. -/
def scansOf (d : Disk) (path : Path) (source : String) : List (Request × Path) :=
  [(.scan path, d.canonicalOrSelf path), (.scanAnew path, d.canonicalOrSelf path),
    (.scanSource path source, d.locate path)]

/-- The request hands out the file alone, and no import has led to it. -/
def Admits (d : Disk) (s : Session) (q : Request) (file : File) : Prop :=
  ∃ sheet t, (q.step d).run s = (.ok [sheet], t) ∧ sheet.file = file ∧
    t.origin sheet = ⟨file.location, file.package, none⟩

theorem importPath?_admitFile (s : Session) (file : File) :
    (s.admitFile file none).2.importPath? ⟨s.notes.length, file⟩ = none := by
  simp [Session.importPath?]

/-- A request that meets the file of a source hands it out, or fails with what is wrong with the source. -/
theorem run_step_of_meet {q : Request} {outcome : Except Error File}
    (hstep : q.step d = do return [← Search.meet (← Search.ofScan outcome) none]) (s : Session) :
    (∀ file, outcome = .ok file → q.Admits d s file) ∧ ∀ e, outcome = .error e → (q.step d).run s = (.error e, s) := by
  constructor
  · rintro file rfl
    refine ⟨⟨s.notes.length, file⟩, (s.admitFile file none).2, by rw [hstep]; rfl, rfl, ?_⟩
    rw [Session.origin, importPath?_admitFile]
  · rintro e rfl
    rw [hstep]
    rfl

/-- A resolver that does not know the location scans the file there. -/
theorem run_step_scan (hnew : s.knownAt? (d.canonicalOrSelf path) = none) :
    (∀ file, d.scanLocated (d.canonicalOrSelf path) = .ok file → (scan path).Admits d s file) ∧
      ∀ e, d.scanLocated (d.canonicalOrSelf path) = .error e → ((scan path).step d).run s = (.error e, s) := by
  have hload := Search.run_load d path none s
  rw [hnew] at hload
  have hrun := Search.run_bind (Search.load d path none) (fun sheet => pure [sheet]) s
  constructor
  · intro file hfile
    rw [hfile] at hload
    refine ⟨⟨s.notes.length, file⟩, _, by rw [step, Session.scan, hrun, hload]; rfl, rfl, ?_⟩
    have hnone := importPath?_admitFile s file
    rw [Session.origin, Session.importPath?, Session.remember_notes]
    rw [Session.importPath?] at hnone
    rw [hnone]
  · intro e he
    rw [he] at hload
    rw [step, Session.scan, hrun, hload]

/-- Each of the requests comes to the file of the source at its location, or to the fault of the source there. -/
theorem run_step_of_scansOf (hread : d.readText path = .ok source) {q : Request}
    (hq : (q, location) ∈ scansOf d path source) (hnew : q = .scan path → s.knownAt? location = none) :
    (∀ file, File.ofSource location source = .ok file → q.Admits d s file) ∧
      ∀ e, File.ofSource location source = .error e → (q.step d).run s = (.error e, s) := by
  simp only [scansOf, List.mem_cons, List.not_mem_nil, or_false, Prod.mk.injEq] at hq
  rcases hq with ⟨rfl, rfl⟩ | ⟨rfl, rfl⟩ | ⟨rfl, rfl⟩
  · have hthere : d.readText (d.canonicalOrSelf path) = .ok source := by rw [Disk.readText_canonicalOrSelf, hread]
    rw [← Disk.scanLocated_of_readText hthere]
    exact run_step_scan (hnew rfl)
  · rw [← Disk.scan_of_readText hread]
    exact run_step_of_meet rfl s
  · exact run_step_of_meet rfl s

theorem scanAnew_mem_scansOf (d : Disk) (path : Path) (source : String) :
    (.scanAnew path, d.canonicalOrSelf path) ∈ scansOf d path source := by
  simp [scansOf]

theorem location_of_mem_scansOf {place : Path} (hplace : d.canonical? path = some place) {q : Request}
    (hq : (q, location) ∈ scansOf d path source) : location = place := by
  simp only [scansOf, Disk.canonicalOrSelf_of_canonical? hplace, Disk.locate_of_canonical? hplace, List.mem_cons,
    List.not_mem_nil, or_false, Prod.mk.injEq] at hq
  rcases hq with ⟨-, hat⟩ | ⟨-, hat⟩ | ⟨-, hat⟩ <;> exact hat

end Request

/-- The ways to scan a file whose text is the source yield the same file without an import path, or fail alike with the
same fault of the source, each at its location. If the path has a canonical one, that is the location for all of them.
Otherwise the scans through the path keep the path, and the scan of the text has the path made absolute. The resolver must
not know its location yet. -/
theorem scans_agree {d : Disk} {path : Path} {source : String} (hread : d.readText path = .ok source) :
    (∀ location, d.canonical? path = some location →
      d.canonicalOrSelf path = location ∧ d.locate path = location ∧ d.canonical? location = some location) ∧
    (d.canonical? path = none → d.canonicalOrSelf path = path ∧ d.locate path = Path.absolute d.cwdPath path) ∧
    ((∃ file : File, file.source = source ∧
        ∀ q location, (q, location) ∈ Request.scansOf d path source →
          ∀ s, (q = .scan path → s.knownAt? location = none) → q.Admits d s { file with location }) ∨
      ∃ fault : Fault,
        ∀ q location, (q, location) ∈ Request.scansOf d path source →
          ∀ s, (q = .scan path → s.knownAt? location = none) →
            (q.step d).run s = (.error (fault.errorAt location), s)) := by
  refine ⟨fun location h => ?_, fun h => ?_, ?_⟩
  · exact ⟨Disk.canonicalOrSelf_of_canonical? h, Disk.locate_of_canonical? h, Disk.canonical?_of_canonical? h⟩
  · rw [Disk.canonicalOrSelf, Disk.locate, h]
    exact ⟨rfl, rfl⟩
  · rcases File.ofSource_cases source with ⟨file, hfrom, hall⟩ | ⟨fault, hall⟩
    · refine .inl ⟨file, hfrom, fun q location hq s hnew => ?_⟩
      exact (Request.run_step_of_scansOf hread hq hnew).1 _ (hall location)
    · refine .inr ⟨fault, fun q location hq s hnew => ?_⟩
      exact (Request.run_step_of_scansOf hread hq hnew).2 _ (hall location)

/-- A disk with a link from the working directory to the directory of a source, and a source that names no package. -/
def linkedSources : Disk :=
  let names (path : String) : List Name := List.splitOn Path.slash (Text.encode path)
  { entries := [(names "p", .directory), (names "q", .directory), (names "p/a.go", .file (some "package p\n")),
      (names "p/b.go", .file (some "// none\n")), (names "q/l", .link (.ofString "../p"))]
    cwd := names "q" }

/-- A path through the link and back, and one to the source without a package: both have a canonical path. -/
theorem scans_agree_linkedSources :
    let start := Session.start .default
    (linkedSources.readText (.ofString "./l/../p//a.go") = .ok "package p\n" ∧
      ∃ file : File, file.location = .ofString "/p/a.go" ∧ file.source = "package p\n" ∧
        ∀ q location, (q, location) ∈ Request.scansOf linkedSources (.ofString "./l/../p//a.go") "package p\n" →
          q.Admits linkedSources start file) ∧
    linkedSources.readText (.ofString "l/b.go") = .ok "// none\n" ∧
      ∀ q location, (q, location) ∈ Request.scansOf linkedSources (.ofString "l/b.go") "// none\n" →
        (q.step linkedSources).run start = (.error (.missingPackage (.ofString "/p/b.go")), start) := by
  intro start
  constructor
  · have hread : linkedSources.readText (.ofString "./l/../p//a.go") = .ok "package p\n" := by decide +kernel
    have hplace : linkedSources.canonical? (.ofString "./l/../p//a.go") = some (.ofString "/p/a.go") := by decide +kernel
    refine ⟨hread, ?_⟩
    rcases (scans_agree hread).2.2 with ⟨file, hfrom, hall⟩ | ⟨fault, hall⟩
    · refine ⟨{ file with location := .ofString "/p/a.go" }, rfl, hfrom, fun q location hq => ?_⟩
      obtain rfl := Request.location_of_mem_scansOf hplace hq
      exact hall q _ hq start fun _ => rfl
    · have hrun := hall _ _ (Request.scanAnew_mem_scansOf _ _ _) start (by simp)
      have hok : ((Request.scanAnew (.ofString "./l/../p//a.go")).step linkedSources |>.run start).1.toOption.isSome =
          true := by decide +kernel
      rw [hrun] at hok
      cases hok
  · have hread : linkedSources.readText (.ofString "l/b.go") = .ok "// none\n" := by decide +kernel
    have hplace : linkedSources.canonical? (.ofString "l/b.go") = some (.ofString "/p/b.go") := by decide +kernel
    have hfails : ((Request.scanAnew (.ofString "l/b.go")).step linkedSources |>.run start).1 =
        .error (.missingPackage (.ofString "/p/b.go")) := by decide +kernel
    refine ⟨hread, fun q location hq => ?_⟩
    rcases (scans_agree hread).2.2 with ⟨file, -, hall⟩ | ⟨fault, hall⟩
    · obtain ⟨sheet, t, hrun, -⟩ := hall _ _ (Request.scanAnew_mem_scansOf _ _ _) start (by simp)
      rw [hrun] at hfails
      cases hfails
    · have hanew := hall _ _ (Request.scanAnew_mem_scansOf _ _ _) start (by simp)
      rw [hanew, Disk.canonicalOrSelf_of_canonical? hplace] at hfails
      obtain rfl := Request.location_of_mem_scansOf hplace hq
      rw [hall q _ hq start fun _ => rfl, Except.error.inj hfails]

/-! ## Files without a canonical path -/

/-- A source in the working directory, which lies too deep for a canonical path. -/
def deepDirectory : Disk :=
  let name : Name := List.replicate 255 0x64
  { entries := (List.range 16).map (fun depth => (List.replicate (depth + 1) name, .directory)) ++
      [(List.replicate 16 name ++ [Text.encode "a.go"], .file (some "package p\n"))]
    cwd := List.replicate 16 name }

/-- The source can be read, but a scan through its path keeps the path, and one of its text makes it absolute. -/
theorem deepDirectory_has_two_locations :
    deepDirectory.readText (.ofString "a.go") = .ok "package p\n" ∧ deepDirectory.canonical? (.ofString "a.go") = none ∧
    ∃ file other, deepDirectory.scan (.ofString "a.go") = .ok file ∧
      deepDirectory.scanSource (.ofString "a.go") "package p\n" = .ok other ∧
      file.location = .ofString "a.go" ∧ other.location = Path.absolute deepDirectory.cwdPath (.ofString "a.go") ∧
      file.location ≠ other.location := by
  have hread : deepDirectory.readText (.ofString "a.go") = .ok "package p\n" := by decide +kernel
  have hnone : deepDirectory.canonical? (.ofString "a.go") = none := by decide +kernel
  have hapart : Path.ofString "a.go" ≠ Path.absolute deepDirectory.cwdPath (.ofString "a.go") := by decide +kernel
  refine ⟨hread, hnone, ?_⟩
  rw [Disk.scan_of_readText hread, Disk.scanSource, Disk.canonicalOrSelf, Disk.locate, hnone, Option.getD_none,
    Option.getD_none]
  rcases File.ofSource_cases "package p\n" with ⟨file, -, hall⟩ | ⟨fault, hall⟩
  · generalize Path.absolute deepDirectory.cwdPath (.ofString "a.go") = there at hapart ⊢
    exact ⟨_, _, hall _, hall _, rfl, rfl, hapart⟩
  · have hok : (File.ofSource (.ofString "a.go") "package p\n").toOption.isSome = true := by decide +kernel
    rw [hall] at hok
    cases hok

end GoOutline
