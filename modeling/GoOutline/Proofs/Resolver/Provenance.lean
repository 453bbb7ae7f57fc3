import GoOutline.Proofs.Resolver.Explorations
import GoOutline.Proofs.Resolver.ImportPaths

/-!
# Where import paths come from

An import path is noted on a file when it is loaded behind an import, and handed on from the file to the siblings that are
collected for it. So every import path that one resolver notes, alone with its files, is one of the import table of a
file that was passed to it or that it knows (`Explores.sourced`, `Alone.sourced`), however many files handed it on. Once
noted, an import path stays (`import_paths_stay_and_have_sources`).
-/
namespace GoOutline

open Session

variable {d : Disk} {given passed : List Sheet} {s t u : Session} {sheet : Sheet}

/-! ## Notes -/

theorem Session.importPath?_assignImportPath_cases {importPath : Option String} {other : Sheet} {path : String}
    (h : (s.assignImportPath sheet importPath).importPath? other = some path) :
    s.importPath? other = some path ∨ importPath = some path := by
  simp only [importPath?, assignImportPath, List.getElem?_modify] at h ⊢
  cases hnotes : s.notes[other.number]? with
  | none => simp [hnotes] at h
  | some notes =>
    by_cases heq : sheet.number = other.number
    · have hor : notes.importPath.or importPath = some path := by simpa [hnotes, heq] using h
      rcases Option.or_eq_some_iff.1 hor with hold | ⟨-, hnew⟩
      · exact .inl hold
      · exact .inr hnew
    · exact .inl (by simpa [hnotes, heq] using h)

theorem Session.importPath?_admitFile_cases {file : File} {importPath : Option String} {other : Sheet} {path : String}
    (h : (s.admitFile file importPath).2.importPath? other = some path) :
    s.importPath? other = some path ∨ importPath = some path := by
  simp only [importPath?, admitFile_notes, List.getElem?_append] at h ⊢
  split at h
  · exact .inl h
  · obtain ⟨notes, hnotes, hpath⟩ := Option.bind_eq_some_iff.1 h
    obtain rfl := List.mem_singleton.1 (List.mem_of_getElem? hnotes)
    exact .inr hpath

/-- A load notes no import path but the one it is made with. -/
theorem Search.importPath?_load {source : Path} {importPath : Option String} {other : Sheet} {path : String}
    (h : ((load d source importPath).run s).2.importPath? other = some path) :
    s.importPath? other = some path ∨ importPath = some path := by
  rw [run_load] at h
  split at h
  · exact importPath?_assignImportPath_cases h
  · split at h
    · exact .inl h
    · rename_i file _
      have hmet : (s.admitFile file importPath).2.importPath? other = some path := by
        simpa [importPath?] using h
      exact importPath?_admitFile_cases hmet

/-! ## Sources of import paths -/

namespace Session

/-- The path is one of the import table of a file that was passed or is known. -/
def HasSource (s : Session) (passed : List Sheet) (path : String) : Prop :=
  ∃ holder, s.Holds passed holder ∧ path ∈ holder.file.imports.map (·.1)

/-- Every import path that is noted has a source. -/
def Sourced (s : Session) (passed : List Sheet) : Prop :=
  ∀ sheet path, s.importPath? sheet = some path → s.HasSource passed path

theorem HasSource.mono {path : String} (h : s.HasSource passed path) (hextends : s.Extends t) :
    t.HasSource passed path := by
  obtain ⟨holder, hheld, hpath⟩ := h
  exact ⟨holder, hheld.mono hextends, hpath⟩

theorem HasSource.more {path : String} (h : s.HasSource passed path) (more : List Sheet) :
    s.HasSource (passed ++ more) path := by
  obtain ⟨holder, hpassed | hknown, hpath⟩ := h
  · exact ⟨holder, .inl (List.mem_append_left more hpassed), hpath⟩
  · exact ⟨holder, .inr hknown, hpath⟩

/-- Where no other import paths are noted than before, the sources are there as before. -/
theorem Sourced.mono (h : s.Sourced passed) (hextends : s.Extends t)
    (hnoted : ∀ sheet path, t.importPath? sheet = some path → s.importPath? sheet = some path) : t.Sourced passed := by
  intro sheet path hpath
  exact (h sheet path (hnoted sheet path hpath)).mono hextends

theorem Sourced.load (h : s.Sourced passed) (source : Path) {importPath : Option String}
    (hsource : ∀ path, importPath = some path → s.HasSource passed path) :
    ((Search.load d source importPath).run s).2.Sourced passed := by
  intro sheet path hpath
  have hextends := (Search.load_moving d source importPath s).extends
  rcases Search.importPath?_load hpath with hold | hnew
  · exact (h sheet path hold).mono hextends
  · exact (hsource path hnew).mono hextends

/-- Siblings take the import path of the file, which has a source. -/
theorem Sourced.siblings (h : s.Sourced passed) (d : Disk) (sheet : Sheet) :
    ((Search.siblings d sheet).run s).2.Sourced passed := by
  cases hnoted : s.siblings? sheet with
  | some found =>
    rw [Search.run_siblings_of_some hnoted]
    exact h
  | none =>
    have hloaded : ((Search.loadSiblings d sheet).run s).2.Sourced passed := by
      refine (Search.loadSiblings_keeps (I := fun t => s.Extends t ∧ t.Sourced passed) ?_ ⟨.refl s, h⟩).1.2
      rintro path t ⟨hextends, ht⟩
      refine ⟨hextends.trans (Search.load_moving d path _ t).extends, ht.load path ?_⟩
      intro importPath hpath
      exact (h sheet importPath hpath).mono hextends
    rw [Search.run_siblings_of_none hnoted]
    cases hload : (Search.loadSiblings d sheet).run s with
    | mk outcome t =>
      rw [hload] at hloaded
      cases outcome with
      | error e => exact hloaded
      | ok found =>
        refine hloaded.mono (extends_assignSiblings t sheet found) fun other path hpath => ?_
        rwa [importPath?_assignSiblings] at hpath

theorem Explores.sourced (h : Explores d given s t) (hgiven : ∀ sheet ∈ given, sheet ∈ passed)
    (hs : s.Sourced passed) : t.Sourced passed := by
  induction h with
  | refl s => exact hs
  | trans _ _ ih ih' => exact ih' (ih hs)
  | scan s path => exact hs.load path (by simp)
  | load held behind path =>
    refine hs.load path fun importPath hpath => ?_
    cases hpath
    exact ⟨_, held.imp (hgiven _) id, behind⟩
  | siblings _ => exact hs.siblings d _
  | within _ _ ih => exact ih hs

end Session

/-! ## One resolver alone with its files -/

/-- One resolver, with which all requests are made, goes on from the session. The list holds the files that were passed
to it. -/
inductive Alone (s : Session) : List Sheet → Session → Prop
  | start : Alone s [] s
  | request {t : Session} {passed : List Sheet} {d : Disk} {q : Request} (alone : Alone s passed t)
      (stays : ∀ search indexer, q ≠ .renew search indexer) (met : ∀ sheet ∈ q.given, t.Has sheet) :
      Alone s (passed ++ q.given) (q.after d t)

theorem Alone.extends (alone : Alone s passed t) : s.Extends t := by
  induction alone with
  | start => exact .refl s
  | @request t passed d q _ stays _ ih => exact ih.trans (q.after_extends d t stays)

theorem Request.after_sourced {q : Request} (stays : ∀ search indexer, q ≠ renew search indexer)
    (hs : s.Sourced passed) : (q.after d s).Sourced (passed ++ q.given) := by
  have hmore : s.Sourced (passed ++ q.given) := fun sheet path hpath => (hs sheet path hpath).more q.given
  have hgiven : ∀ sheet ∈ q.given, sheet ∈ passed ++ q.given := fun sheet hsheet => List.mem_append_right _ hsheet
  rcases after_explores d s stays with ⟨u, rfl | ⟨sheet, -, rfl⟩, hexplores⟩ | hsame | ⟨file, hmet⟩
  · exact hexplores.sourced hgiven hmore
  · refine hexplores.sourced hgiven (hmore.mono (extends_remember s sheet) fun other path hpath => ?_)
    simpa [importPath?] using hpath
  · rw [hsame]
    exact hmore
  · rw [hmet]
    refine hmore.mono (extends_admitFile s file none) fun other path hpath => ?_
    rcases importPath?_admitFile_cases hpath with hold | hnew
    · exact hold
    · cases hnew

theorem Alone.sourced {search : SearchPaths} {indexer : Option Indexer}
    (alone : Alone ((Session.start search).renew search indexer) passed t) : t.Sourced passed := by
  induction alone with
  | start =>
    intro sheet path hpath
    have hlt := number_lt_of_importPath hpath
    simp [renew, Session.start] at hlt
  | request _ stays _ ih => exact Request.after_sourced stays ih

/-- For one resolver alone with its files, an import path that is noted on a file stays, and every struct of the file has
it. Every import path that is noted is one of the import table of a file that was passed to the resolver or that it
knows. -/
theorem import_paths_stay_and_have_sources {search : SearchPaths} {indexer : Option Indexer}
    (alone : Alone ((Session.start search).renew search indexer) passed t) {path : String}
    (noted : t.importPath? sheet = some path) :
    (∀ more u, Alone t more u → u.importPath? sheet = some path ∧
      ∀ found : Found, found.sheet.number = sheet.number → (u.origin found.sheet).importPath = some path) ∧
    ∃ holder : Sheet, (holder ∈ passed ∨ ∃ place, (place, holder) ∈ t.known) ∧
      path ∈ holder.file.imports.map (·.1) := by
  refine ⟨?_, alone.sourced sheet path noted⟩
  intro more u later
  have hstays := later.extends.importPath sheet path noted
  refine ⟨hstays, fun found hfound => ?_⟩
  rw [origin, importPath?, hfound]
  exact hstays

/-- A file takes the import path of a file that was loaded behind an import and whose sibling it is. -/
theorem import_paths_stay_and_have_sources_pairAndUser :
    let user : Sheet := ⟨0, PairAndUser.user.file⟩
    let s := Request.after pairAndUser (.scan (.ofString "/m/m.go")) PairAndUser.start
    let t := Request.after pairAndUser (.extractType user "p.B") s
    s.Has user ∧ ∃ sibling : Sheet, t.Has sibling ∧ sibling.file.location = .ofString "/p/b.go" ∧
      t.importPath? sibling = some "p" ∧
      (∀ more u, Alone t more u → u.importPath? sibling = some "p") ∧
      ∃ holder : Sheet, (holder ∈ [user] ∨ ∃ place, (place, holder) ∈ t.known) ∧
        "p" ∈ holder.file.imports.map (·.1) := by
  intro user s t
  have hmet : s.Has user := by
    unfold Session.Has
    decide +kernel
  have hscanned : Alone (PairAndUser.start.renew ⟨false, some (.ofString "/"), none⟩ none) _ s :=
    Alone.start.request (by simp) (by simp [Request.given])
  have halone : Alone _ [user] t :=
    hscanned.request (q := .extractType user "p.B") (by simp) (by simpa [Request.given] using hmet)
  have hfile : (t.files[2]?).map (·.location) = some (.ofString "/p/b.go") := by decide +kernel
  have hnotes : (t.notes[2]?).bind (·.importPath) = some "p" := by decide +kernel
  obtain ⟨file, hfile, hlocation⟩ := Option.map_eq_some_iff.1 hfile
  have hnoted : t.importPath? ⟨2, file⟩ = some "p" := hnotes
  obtain ⟨hstays, hsource⟩ := import_paths_stay_and_have_sources halone hnoted
  exact ⟨hmet, ⟨2, file⟩, hfile, hlocation, hnoted, fun more u later => (hstays more u later).1, hsource⟩

end GoOutline
