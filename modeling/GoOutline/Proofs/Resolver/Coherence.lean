import GoOutline.Proofs.Disk.Canonical
import GoOutline.Proofs.Resolver.Plain
import GoOutline.Proofs.Resolver.Steps
import Mathlib.Data.List.Forall2

/-!
# Coherent sessions

In a coherent session what has been kept is what would be found anew: files are known by their own locations,
and a list of siblings holds the files known at the other sources of the directory (`Coherent`). Steps only add
to what is kept (`Grows`), and what they add is as the disk has it, so that the file read at a canonical path
stays the same (`Coherent.read_eq`).
-/
namespace GoOutline

namespace Session

variable {d : Disk} {s t u : Session}

/-! ## Files met -/

/-- The files met so far, by number. -/
def files (s : Session) : List File := s.notes.map (·.file)

/-- The session has met the sheet's file under the sheet's number. -/
def Has (s : Session) (sheet : Sheet) : Prop := s.files[sheet.number]? = some sheet.file

theorem map_modify_of_eq {α β : Type} {f : α → β} {g : α → α} (h : ∀ a, f (g a) = f a) (l : List α) (i : Nat) :
    (l.modify i g).map f = l.map f := by
  refine List.ext_getElem? fun j => ?_
  simp only [List.getElem?_map, List.getElem?_modify]
  cases l[j]? with
  | none => rfl
  | some a => by_cases hij : i = j <;> simp [hij, h]

@[simp] theorem assignImportPath_files (s : Session) (sheet : Sheet) (importPath : Option String) :
    (s.assignImportPath sheet importPath).files = s.files := by
  unfold files assignImportPath
  refine map_modify_of_eq ?_ s.notes sheet.number
  exact fun _ => rfl

@[simp] theorem assignSiblings_files (s : Session) (sheet : Sheet) (siblings : List Sheet) :
    (s.assignSiblings sheet siblings).files = s.files := by
  unfold files assignSiblings
  refine map_modify_of_eq ?_ s.notes sheet.number
  exact fun _ => rfl

@[simp] theorem remember_files (s : Session) (sheet : Sheet) : (s.remember sheet).files = s.files := by
  simp [files]

@[simp] theorem admitFile_files (s : Session) (file : File) (importPath : Option String) :
    (s.admitFile file importPath).2.files = s.files ++ [file] := by
  simp [files]

theorem Has.mono {sheet : Sheet} (h : s.Has sheet) (hfiles : s.files <+: t.files) : t.Has sheet := by
  obtain ⟨more, hmore⟩ := hfiles
  obtain ⟨hlt, -⟩ := List.getElem?_eq_some_iff.1 h
  rw [Has, ← hmore, List.getElem?_append_left hlt]
  exact h

theorem Has.number_lt {sheet : Sheet} (h : s.Has sheet) : sheet.number < s.notes.length := by
  obtain ⟨hlt, -⟩ := List.getElem?_eq_some_iff.1 h
  simpa [files] using hlt

/-- Sheets of a session with the same number are the same. -/
theorem Has.eq_of_number {sheet other : Sheet} (h : s.Has sheet) (h' : s.Has other)
    (heq : sheet.number = other.number) : sheet = other := by
  have hfile : sheet.file = other.file := by
    rw [Has, heq, h'] at h
    exact (Option.some.inj h).symm
  cases sheet; cases other; simp_all

theorem has_admitFile (s : Session) (file : File) (importPath : Option String) :
    (s.admitFile file importPath).2.Has ⟨s.notes.length, file⟩ := by
  have hlength : s.files.length = s.notes.length := by simp [files]
  simp [Has, ← hlength]

/-! ## Siblings -/

theorem siblings?_assignImportPath (s : Session) (sheet other : Sheet) (importPath : Option String) :
    (s.assignImportPath sheet importPath).siblings? other = s.siblings? other := by
  simp only [siblings?, assignImportPath, List.getElem?_modify]
  cases s.notes[other.number]? with
  | none => rfl
  | some notes => by_cases h : sheet.number = other.number <;> simp [h]

theorem siblings?_assignSiblings {sheet other : Sheet} {siblings found : List Sheet} (hother : s.Has other)
    (hsheet : s.Has sheet) (h : (s.assignSiblings sheet siblings).siblings? other = some found) :
    s.siblings? other = some found ∨ other = sheet ∧ found = siblings := by
  simp only [siblings?, assignSiblings, List.getElem?_modify] at h ⊢
  cases hnotes : s.notes[other.number]? with
  | none => simp [hnotes] at h
  | some notes =>
    by_cases heq : sheet.number = other.number
    · have hsame : other = sheet := hother.eq_of_number hsheet heq.symm
      cases hsiblings : notes.siblings with
      | some l => exact .inl (by simpa [hnotes, heq, hsiblings] using h)
      | none => exact .inr ⟨hsame, by simpa [hnotes, heq, hsiblings, eq_comm] using h⟩
    · exact .inl (by simpa [hnotes, heq] using h)

theorem siblings?_admitFile {file : File} {importPath : Option String} {sheet : Sheet} {found : List Sheet}
    (h : (s.admitFile file importPath).2.siblings? sheet = some found) :
    sheet.number < s.notes.length ∧ s.siblings? sheet = some found := by
  simp only [siblings?, admitFile_notes] at h ⊢
  by_cases hlt : sheet.number < s.notes.length
  · rw [List.getElem?_append_left hlt] at h
    exact ⟨hlt, h⟩
  · by_cases heq : sheet.number = s.notes.length
    · simp [heq] at h
    · rw [List.getElem?_eq_none (by simp; omega)] at h
      cases h

theorem siblings?_assignSiblings_of_some {sheet other : Sheet} {siblings found : List Sheet}
    (h : s.siblings? other = some found) : (s.assignSiblings sheet siblings).siblings? other = some found := by
  simp only [siblings?, assignSiblings, List.getElem?_modify] at h ⊢
  cases hnotes : s.notes[other.number]? with
  | none => simp [hnotes] at h
  | some notes =>
    have hfound : notes.siblings = some found := by simpa [hnotes] using h
    by_cases heq : sheet.number = other.number <;> simp [heq, hfound]

theorem number_lt_of_siblings {sheet : Sheet} {found : List Sheet} (h : s.siblings? sheet = some found) :
    sheet.number < s.notes.length := by
  by_contra hge
  rw [siblings?, List.getElem?_eq_none (by omega)] at h
  cases h

/-! ## Import paths -/

theorem importPath?_assignImportPath {sheet : Sheet} (h : s.Has sheet) (importPath : Option String) :
    (s.assignImportPath sheet importPath).importPath? sheet = (s.importPath? sheet).or importPath := by
  have hlt := h.number_lt
  simp [importPath?, assignImportPath, List.getElem?_eq_getElem hlt]

theorem importPath?_assignImportPath_of_ne {sheet other : Sheet} (h : sheet.number ≠ other.number)
    (importPath : Option String) :
    (s.assignImportPath sheet importPath).importPath? other = s.importPath? other := by
  simp only [importPath?, assignImportPath, List.getElem?_modify]
  cases s.notes[other.number]? <;> simp [h]

theorem importPath?_assignImportPath_of_some {sheet other : Sheet} {path : String}
    (h : s.importPath? other = some path) (importPath : Option String) :
    (s.assignImportPath sheet importPath).importPath? other = some path := by
  simp only [importPath?, assignImportPath, List.getElem?_modify] at h ⊢
  cases hnotes : s.notes[other.number]? with
  | none => simp [hnotes] at h
  | some notes =>
    have hpath : notes.importPath = some path := by simpa [hnotes] using h
    by_cases heq : sheet.number = other.number <;> simp [heq, hpath]

theorem importPath?_assignSiblings (s : Session) (sheet other : Sheet) (siblings : List Sheet) :
    (s.assignSiblings sheet siblings).importPath? other = s.importPath? other := by
  simp only [importPath?, assignSiblings, List.getElem?_modify]
  cases s.notes[other.number]? with
  | none => rfl
  | some notes => by_cases h : sheet.number = other.number <;> simp [h]

theorem number_lt_of_importPath {sheet : Sheet} {path : String} (h : s.importPath? sheet = some path) :
    sheet.number < s.notes.length := by
  by_contra hge
  rw [importPath?, List.getElem?_eq_none (by omega)] at h
  cases h

/-! ## Known files -/

theorem knownAt?_congr {p q : Path} (h : p.same q = true) : s.knownAt? p = s.knownAt? q := by
  have hparts : p.parts = q.parts := by simpa [Path.same] using h
  simp [knownAt?, Path.same, hparts]

theorem knownAt?_remember (s : Session) (sheet : Sheet) (location : Path) :
    (s.remember sheet).knownAt? location =
      (s.knownAt? location).or (if sheet.file.location.same location then some sheet else none) := by
  unfold remember
  by_cases hsame : sheet.file.location.same location = true
  · rw [knownAt?_congr hsame]
    cases hknown : s.knownAt? location with
    | some other => simp [hknown]
    | none =>
      have hfind : (s.known.find? fun entry => entry.1.same location) = none := by
        simpa [knownAt?] using hknown
      simp only [Option.isSome_none, Bool.false_eq_true, ite_false, knownAt?, List.find?_append, hfind,
        Option.none_or]
      simp [hsame]
  · split
    · simp
    · simp [knownAt?, List.find?_append, hsame]

/-- The file at a location as the session sees it: the known one, or else as the disk has it. -/
def read (s : Session) (d : Disk) (location : Path) : Except Error File :=
  match s.knownAt? location with
  | some sheet => .ok sheet.file
  | none => d.scanLocated location

/-- What a plain search looks at in a session. -/
def view (s : Session) (d : Disk) : View := ⟨d, s.search, s.read d⟩

/-! ## Coherence -/

/-- The list holds the siblings of a file, as they are known at the other sources of its directory. -/
def Collected (s : Session) (d : Disk) (file : File) (found : List Sheet) : Prop :=
  ∃ paths loaded, d.sourceFiles? file.directory false = some paths ∧
    List.Forall₂ (fun path sheet => s.knownAt? (d.canonicalOrSelf path) = some sheet)
      (paths.filter fun path => !(d.canonicalOrSelf path).same file.location) loaded ∧
    found = loaded.filter fun sibling => sibling.file.package == file.package

/-- What the session has kept is what it would find again. -/
structure Coherent (d : Disk) (s : Session) : Prop where
  keyed : s.Keyed
  known : ∀ entry ∈ s.known, s.Has entry.2
  siblings : ∀ sheet found, s.Has sheet → s.siblings? sheet = some found → s.Collected d sheet.file found

/-- The session goes on from another: nothing is lost, what is new among the known files has been scanned, and
the same names are under search. -/
structure Grows (d : Disk) (s t : Session) : Prop where
  files : s.files <+: t.files
  known : ∀ location sheet, s.knownAt? location = some sheet → t.knownAt? location = some sheet
  scanned : ∀ entry ∈ t.known, entry ∈ s.known ∨ d.Holds entry.2.file
  active : t.active = s.active
  search : t.search = s.search

theorem Grows.refl : Grows d s s :=
  ⟨List.prefix_rfl, fun _ _ h => h, fun _ h => .inl h, rfl, rfl⟩

theorem Grows.trans (h : Grows d s t) (h' : Grows d t u) : Grows d s u := by
  refine ⟨h.files.trans h'.files, fun p sheet hp => h'.known p sheet (h.known p sheet hp), fun entry hentry => ?_,
    h'.active.trans h.active, h'.search.trans h.search⟩
  rcases h'.scanned entry hentry with hentry | hentry
  · exact h.scanned entry hentry
  · exact .inr hentry

theorem Collected.mono {file : File} {found : List Sheet} (h : s.Collected d file found)
    (hknown : ∀ location sheet, s.knownAt? location = some sheet → t.knownAt? location = some sheet) :
    t.Collected d file found := by
  obtain ⟨paths, loaded, hpaths, hloaded, hfound⟩ := h
  exact ⟨paths, loaded, hpaths, hloaded.imp fun path sheet hat => hknown _ sheet hat, hfound⟩

theorem Coherent.has_of_knownAt (h : Coherent d s) {location : Path} {sheet : Sheet}
    (hat : s.knownAt? location = some sheet) : s.Has sheet := by
  obtain ⟨place, hmem, -⟩ := exists_of_knownAt hat
  exact h.known _ hmem

theorem Coherent.assignImportPath (h : Coherent d s) (sheet : Sheet) (importPath : Option String) :
    Coherent d (s.assignImportPath sheet importPath) ∧ Grows d s (s.assignImportPath sheet importPath) := by
  refine ⟨⟨h.keyed, fun entry hentry => ?_, fun other found hother hfound => ?_⟩,
    ⟨by simp, fun _ _ hat => hat, fun _ hentry => .inl hentry, rfl, rfl⟩⟩
  · exact (h.known entry hentry).mono (by simp)
  · rw [siblings?_assignImportPath] at hfound
    exact h.siblings other found (hother.mono (by simp)) hfound

theorem Coherent.assignSiblings (h : Coherent d s) {sheet : Sheet} {found : List Sheet} (hsheet : s.Has sheet)
    (hcollected : s.Collected d sheet.file found) :
    Coherent d (s.assignSiblings sheet found) ∧ Grows d s (s.assignSiblings sheet found) := by
  refine ⟨⟨h.keyed, fun entry hentry => ?_, fun other list hother hlist => ?_⟩,
    ⟨by simp, fun _ _ hat => hat, fun _ hentry => .inl hentry, rfl, rfl⟩⟩
  · exact (h.known entry hentry).mono (by simp)
  · have hother : s.Has other := hother.mono (by simp)
    rcases siblings?_assignSiblings hother hsheet hlist with hlist | ⟨rfl, rfl⟩
    · exact h.siblings other list hother hlist
    · exact hcollected

theorem Coherent.admitFile (h : Coherent d s) (file : File) (importPath : Option String) :
    Coherent d (s.admitFile file importPath).2 ∧ Grows d s (s.admitFile file importPath).2 := by
  have hfiles : s.files <+: (s.admitFile file importPath).2.files := by simp
  refine ⟨⟨h.keyed, fun entry hentry => (h.known entry hentry).mono hfiles, fun sheet found hsheet hfound => ?_⟩,
    ⟨hfiles, fun _ _ hat => hat, fun _ hentry => .inl hentry, rfl, rfl⟩⟩
  obtain ⟨hlt, hfound⟩ := siblings?_admitFile hfound
  have hlength : s.files.length = s.notes.length := by simp [files]
  refine h.siblings sheet found ?_ hfound
  rwa [Has, admitFile_files, List.getElem?_append_left (hlength ▸ hlt)] at hsheet

theorem knownAt?_remember_of_some {sheet found : Sheet} {location : Path}
    (h : s.knownAt? location = some found) : (s.remember sheet).knownAt? location = some found := by
  simp [knownAt?_remember, h]

theorem Coherent.remember (h : Coherent d s) {sheet : Sheet} (hsheet : s.Has sheet) :
    Coherent d (s.remember sheet) := by
  refine ⟨h.keyed.remember sheet, fun entry hentry => ?_, fun other found hother hfound => ?_⟩
  · have hhas : s.Has entry.2 := by
      rcases mem_known_remember hentry with hentry | rfl
      · exact h.known entry hentry
      · exact hsheet
    exact hhas.mono (by simp)
  · have hsiblings : (s.remember sheet).siblings? other = s.siblings? other := by simp [siblings?]
    rw [hsiblings] at hfound
    exact (h.siblings other found (hother.mono (by simp)) hfound).mono fun _ _ => knownAt?_remember_of_some

theorem grows_remember {sheet : Sheet} (hholds : d.Holds sheet.file) : Grows d s (s.remember sheet) := by
  refine ⟨by simp, fun _ _ => knownAt?_remember_of_some, fun entry hentry => ?_, by simp, by simp⟩
  rcases mem_known_remember hentry with hentry | rfl
  · exact .inl hentry
  · exact .inr hholds

/-- What is read at a canonical path does not change while a session grows. -/
theorem Coherent.read_eq (ht : Coherent d t) (hgrows : Grows d s t) {location : Path}
    (hlocation : d.IsCanonical location) : t.read d location = s.read d location := by
  cases hs : s.knownAt? location with
  | some sheet => simp only [read, hs, hgrows.known location sheet hs]
  | none =>
    cases hknown : t.knownAt? location with
    | none => simp only [read, hs, hknown]
    | some sheet =>
      obtain ⟨place, hmem, hsame⟩ := exists_of_knownAt hknown
      have hplace : place = sheet.file.location := ht.keyed _ hmem
      rcases hgrows.scanned _ hmem with hold | hholds
      · have hnone : (s.known.find? fun entry => entry.1.same location) = none := by
          simpa [knownAt?] using hs
        exact absurd hsame (List.find?_eq_none.1 hnone _ hold)
      · have heq : sheet.file.location = location := hholds.location_eq hlocation (hplace ▸ hsame)
        have hscan : d.scanLocated location = .ok sheet.file := heq ▸ hholds.scanned
        simp only [read, hs, hknown, hscan]

end Session

end GoOutline
