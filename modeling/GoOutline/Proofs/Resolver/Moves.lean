import GoOutline.Proofs.Resolver.Coherence
import GoOutline.Proofs.Resolver.Requests

/-!
# Moves of a search

Whatever a search does to a session is made of a few moves: it gives a known file an import path, scans a file at a
location where none is known, notes the siblings of a file, and looks for a name within a directory (`Moves`). What
every move keeps, every search keeps: nothing that was noted or known is lost (`Extends`), files are known by their own
locations, one at each (`Sound`), and what is new among the known files is what was scanned (`Moves.exists_scanned`).
-/
namespace GoOutline

namespace Session

variable {d : Disk} {s t u : Session}

/-- What a search can make of a session, move by move. -/
inductive Moves (d : Disk) : Session → Session → Prop
  | refl (s : Session) : Moves d s s
  | trans {s t u : Session} (first : Moves d s t) (rest : Moves d t u) : Moves d s u
  | assignImportPath (s : Session) (sheet : Sheet) (importPath : Option String) :
      Moves d s (s.assignImportPath sheet importPath)
  | scan {s : Session} {location : Path} {file : File} (unknown : s.knownAt? location = none)
      (scanned : d.scanLocated location = .ok file) (importPath : Option String) :
      Moves d s ((s.admitFile file importPath).2.remember ⟨s.notes.length, file⟩)
  | assignSiblings (s : Session) (sheet : Sheet) (found : List Sheet) : Moves d s (s.assignSiblings sheet found)
  | within {s t : Session} {key : Path × String} (fresh : s.isActive key = false) (inside : Moves d (s.enter key) t) :
      Moves d s (t.leave key)

/-! ## Nothing is lost -/

/-- The session goes on from another: it has met the same files first and knows the same ones first, what was noted
stays, and the same names are under search. -/
structure Extends (s t : Session) : Prop where
  files : s.files <+: t.files
  known : s.known <+: t.known
  importPath : ∀ sheet path, s.importPath? sheet = some path → t.importPath? sheet = some path
  siblings : ∀ sheet found, s.siblings? sheet = some found → t.siblings? sheet = some found
  active : t.active = s.active
  search : t.search = s.search
  indexer : t.indexer = s.indexer

theorem Extends.refl (s : Session) : s.Extends s :=
  ⟨List.prefix_rfl, List.prefix_rfl, fun _ _ h => h, fun _ _ h => h, rfl, rfl, rfl⟩

theorem Extends.trans (h : s.Extends t) (h' : t.Extends u) : s.Extends u := by
  refine ⟨h.files.trans h'.files, h.known.trans h'.known, ?_, ?_, h'.active.trans h.active,
    h'.search.trans h.search, h'.indexer.trans h.indexer⟩
  · intro sheet path hpath
    exact h'.importPath sheet path (h.importPath sheet path hpath)
  · intro sheet found hfound
    exact h'.siblings sheet found (h.siblings sheet found hfound)

theorem Extends.knownAt? (h : s.Extends t) {location : Path} {sheet : Sheet}
    (hat : s.knownAt? location = some sheet) : t.knownAt? location = some sheet := by
  obtain ⟨more, hmore⟩ := h.known
  obtain ⟨entry, hfind, rfl⟩ := Option.map_eq_some_iff.1 hat
  simp [Session.knownAt?, ← hmore, List.find?_append, hfind]

theorem extends_assignImportPath (s : Session) (sheet : Sheet) (importPath : Option String) :
    s.Extends (s.assignImportPath sheet importPath) := by
  refine ⟨by simp, List.prefix_rfl, ?_, ?_, rfl, rfl, rfl⟩
  · intro other path hpath
    exact importPath?_assignImportPath_of_some hpath importPath
  · intro other found hfound
    rw [siblings?_assignImportPath]
    exact hfound

theorem extends_assignSiblings (s : Session) (sheet : Sheet) (found : List Sheet) :
    s.Extends (s.assignSiblings sheet found) := by
  refine ⟨by simp, List.prefix_rfl, ?_, ?_, rfl, rfl, rfl⟩
  · intro other path hpath
    rw [importPath?_assignSiblings]
    exact hpath
  · intro other list hlist
    exact siblings?_assignSiblings_of_some hlist

theorem extends_admitFile (s : Session) (file : File) (importPath : Option String) :
    s.Extends (s.admitFile file importPath).2 := by
  refine ⟨by simp, List.prefix_rfl, ?_, ?_, rfl, rfl, rfl⟩
  · intro sheet path hpath
    rw [importPath?, admitFile_notes, List.getElem?_append_left (number_lt_of_importPath hpath)]
    exact hpath
  · intro sheet found hfound
    rw [siblings?, admitFile_notes, List.getElem?_append_left (number_lt_of_siblings hfound)]
    exact hfound

theorem known_remember (s : Session) (sheet : Sheet) :
    (s.remember sheet).known = s.known ∨ s.knownAt? sheet.file.location = none ∧
      (s.remember sheet).known = s.known ++ [(sheet.file.location, sheet)] := by
  unfold remember
  split
  · exact .inl rfl
  · rename_i hnone
    exact .inr ⟨by simpa using hnone, rfl⟩

theorem extends_remember (s : Session) (sheet : Sheet) : s.Extends (s.remember sheet) := by
  refine ⟨by simp, ?_, ?_, ?_, by simp, by simp, ?_⟩
  · rcases known_remember s sheet with hsame | ⟨-, hmore⟩
    · exact ⟨[], by rw [hsame, List.append_nil]⟩
    · exact ⟨[(sheet.file.location, sheet)], hmore.symm⟩
  · intro other path hpath
    simpa [importPath?] using hpath
  · intro other found hfound
    simpa [siblings?] using hfound
  · unfold remember
    split <;> rfl

/-- The name that was entered is the only one to be left. -/
theorem Extends.leave {key : Path × String} (fresh : s.isActive key = false) (h : (s.enter key).Extends t) :
    s.Extends (t.leave key) :=
  ⟨h.files, h.known, h.importPath, h.siblings, leave_active h.active fresh, h.search, h.indexer⟩

/-- No move loses anything, and the names under search are the same after it. -/
theorem Moves.extends (h : Moves d s t) : s.Extends t := by
  induction h with
  | refl s => exact .refl s
  | trans _ _ ih ih' => exact ih.trans ih'
  | assignImportPath s sheet importPath => exact extends_assignImportPath s sheet importPath
  | scan _ _ importPath => exact (extends_admitFile _ _ importPath).trans (extends_remember _ _)
  | assignSiblings s sheet found => exact extends_assignSiblings s sheet found
  | within fresh _ ih => exact ih.leave fresh

/-! ## Known files -/

/-- Files are known by their own locations, at most one at each, and have been met. -/
structure Sound (s : Session) : Prop where
  keyed : s.Keyed
  known : ∀ entry ∈ s.known, s.Has entry.2
  once : s.known.Pairwise fun a b => a.1.same b.1 = false

theorem same_eq_false_of_knownAt {location : Path} (h : s.knownAt? location = none) :
    ∀ entry ∈ s.known, entry.1.same location = false := by
  intro entry hentry
  have hnone : (s.known.find? fun entry => entry.1.same location) = none := by simpa [knownAt?] using h
  simpa using List.find?_eq_none.1 hnone entry hentry

/-- The file of an entry is the one known at the entry's place. -/
theorem Sound.knownAt? (h : s.Sound) {entry : Path × Sheet} (hentry : entry ∈ s.known) :
    s.knownAt? entry.1 = some entry.2 := by
  obtain ⟨before, after, hsplit⟩ := List.append_of_mem hentry
  have honce := h.once
  rw [hsplit, List.pairwise_append] at honce
  have hbefore : ∀ other ∈ before, ¬ other.1.same entry.1 = true := by
    intro other hother
    rw [honce.2.2 other hother entry (by simp)]
    exact Bool.false_ne_true
  have hfind : before.find? (fun other => other.1.same entry.1) = none := List.find?_eq_none.2 hbefore
  have hself : entry.1.same entry.1 = true := by simp [Path.same]
  simp [Session.knownAt?, hsplit, List.find?_append, hfind, hself]

theorem Sound.has_of_knownAt (h : s.Sound) {location : Path} {sheet : Sheet}
    (hat : s.knownAt? location = some sheet) : s.Has sheet := by
  obtain ⟨place, hmem, -⟩ := exists_of_knownAt hat
  exact h.known _ hmem

theorem Sound.same_of_knownAt (h : s.Sound) {location : Path} {sheet : Sheet}
    (hat : s.knownAt? location = some sheet) : sheet.file.location.same location = true := by
  obtain ⟨place, hmem, hsame⟩ := exists_of_knownAt hat
  have hplace : place = sheet.file.location := h.keyed _ hmem
  rwa [hplace] at hsame

theorem Sound.grow (h : s.Sound) (hextends : s.Extends t) (hknown : t.known = s.known) : t.Sound := by
  refine ⟨?_, ?_, ?_⟩
  · intro entry hentry
    exact h.keyed entry (hknown ▸ hentry)
  · intro entry hentry
    exact (h.known entry (hknown ▸ hentry)).mono hextends.files
  · rw [hknown]
    exact h.once

theorem Sound.enter (h : s.Sound) (key : Path × String) : (s.enter key).Sound :=
  ⟨h.keyed, h.known, h.once⟩

theorem Sound.leave (h : s.Sound) (key : Path × String) : (s.leave key).Sound :=
  ⟨h.keyed, h.known, h.once⟩

theorem Sound.remember (h : s.Sound) {sheet : Sheet} (hsheet : s.Has sheet) : (s.remember sheet).Sound := by
  refine ⟨h.keyed.remember sheet, ?_, ?_⟩
  · intro entry hentry
    rcases mem_known_remember hentry with hold | rfl
    · exact (h.known entry hold).mono (by simp)
    · exact hsheet.mono (by simp)
  · rcases known_remember s sheet with hsame | ⟨hnone, hmore⟩
    · rw [hsame]
      exact h.once
    · rw [hmore, List.pairwise_append]
      refine ⟨h.once, by simp, ?_⟩
      intro entry hentry other hother
      rw [List.mem_singleton.1 hother]
      exact same_eq_false_of_knownAt hnone entry hentry

theorem Moves.sound (h : Moves d s t) (hs : s.Sound) : t.Sound := by
  induction h with
  | refl s => exact hs
  | trans _ _ ih ih' => exact ih' (ih hs)
  | assignImportPath s sheet importPath => exact hs.grow (extends_assignImportPath s sheet importPath) rfl
  | @scan s location file _ _ importPath =>
    have hmet : (s.admitFile file importPath).2.Sound := hs.grow (extends_admitFile s file importPath) rfl
    exact hmet.remember (s.has_admitFile file importPath)
  | assignSiblings s sheet found => exact hs.grow (extends_assignSiblings s sheet found) rfl
  | within _ _ ih => exact (ih (hs.enter _)).leave _

/-- The files that are new to a session after some moves have been scanned, each for a place of its own among the
known ones. -/
theorem Moves.exists_scanned (h : Moves d s t) :
    ∃ scanned : List Sheet, t.files = s.files ++ scanned.map (·.file) ∧
      t.known = s.known ++ scanned.map fun sheet => (sheet.file.location, sheet) := by
  induction h with
  | refl s => exact ⟨[], by simp, by simp⟩
  | trans _ _ ih ih' =>
    obtain ⟨first, hfiles, hknown⟩ := ih
    obtain ⟨rest, hfiles', hknown'⟩ := ih'
    exact ⟨first ++ rest, by simp [hfiles, hfiles'], by simp [hknown, hknown']⟩
  | assignImportPath s sheet importPath => exact ⟨[], by simp, by simp [Session.assignImportPath]⟩
  | @scan s location file unknown scanned importPath =>
    refine ⟨[⟨s.notes.length, file⟩], by simp, ?_⟩
    have hnew : (s.admitFile file importPath).2.knownAt? file.location = none := by
      rw [Disk.location_of_scanLocated scanned]
      exact unknown
    unfold Session.remember
    rw [if_neg (by simp [hnew])]
    rfl
  | assignSiblings s sheet found => exact ⟨[], by simp, by simp [Session.assignSiblings]⟩
  | within _ _ ih => exact ih

end Session

/-! ## Steps of a search -/

namespace Search

open Session

variable {α β : Type} {d : Disk}

/-- From every session the step makes moves of a search only. -/
def Moving (d : Disk) (x : Search α) : Prop :=
  ∀ s, Moves d s (x.run s).2

theorem Moving.pure (a : α) : Moving d (pure a) :=
  fun s => .refl s

theorem Moving.throw (e : Error) : Moving d (throw e : Search α) :=
  fun s => .refl s

theorem Moving.bind {x : Search α} {f : α → Search β} (hx : Moving d x) (hf : ∀ a, Moving d (f a)) :
    Moving d (x >>= f) := by
  intro s
  have hmoves := hx s
  rw [run_bind]
  cases hrun : x.run s with
  | mk outcome t =>
    rw [hrun] at hmoves
    cases outcome with
    | error e => exact hmoves
    | ok a => exact hmoves.trans (hf a t)

theorem Moving.get_bind {f : Session → Search β} (hf : ∀ s, Moving d (f s)) : Moving d (get >>= f) := by
  intro s
  rw [run_get_bind]
  exact hf s s

theorem Moving.mapM {f : α → Search β} (hf : ∀ a, Moving d (f a)) : ∀ items : List α, Moving d (items.mapM f)
  | [] => .pure []
  | a :: rest => by
    rw [List.mapM_cons]
    exact (hf a).bind fun b => (Moving.mapM hf rest).bind fun bs => .pure (b :: bs)

theorem Moving.findSomeM? {f : α → Search (Option β)} (hf : ∀ a, Moving d (f a)) :
    ∀ items : List α, Moving d (items.findSomeM? f)
  | [] => .pure none
  | a :: rest => by
    rw [List.findSomeM?_cons]
    refine (hf a).bind fun found => ?_
    cases found with
    | some b => exact .pure (some b)
    | none => exact Moving.findSomeM? hf rest

theorem load_moving (d : Disk) (path : Path) (importPath : Option String) : Moving d (load d path importPath) := by
  intro s
  rw [run_load]
  split
  · exact .assignImportPath s _ importPath
  · rename_i hunknown
    split
    · exact .refl s
    · rename_i file hscan
      exact .scan hunknown hscan importPath

/-- A load that fails leaves the session as it was. -/
theorem load_of_error {s : Session} {path : Path} {importPath : Option String} {e : Error}
    (h : ((load d path importPath).run s).1 = .error e) : (load d path importPath).run s = (.error e, s) := by
  rw [run_load] at h ⊢
  cases hknown : s.knownAt? (d.canonicalOrSelf path) with
  | some sheet => rw [hknown] at h; cases h
  | none =>
    rw [hknown] at h
    cases hscan : d.scanLocated (d.canonicalOrSelf path) with
    | error e' => rw [hscan] at h; cases h; rfl
    | ok file => rw [hscan] at h; cases h

/-- The file that a load yields is known from then on. -/
theorem knownAt?_of_load {s : Session} {path : Path} {importPath : Option String} {sheet : Sheet}
    (h : ((load d path importPath).run s).1 = .ok sheet) :
    ((load d path importPath).run s).2.knownAt? (d.canonicalOrSelf path) = some sheet := by
  rw [run_load] at h ⊢
  cases hknown : s.knownAt? (d.canonicalOrSelf path) with
  | some known =>
    rw [hknown] at h
    cases h
    exact hknown
  | none =>
    rw [hknown] at h
    cases hscan : d.scanLocated (d.canonicalOrSelf path) with
    | error e => rw [hscan] at h; cases h
    | ok file =>
      rw [hscan] at h
      cases h
      have hlocation := Disk.location_of_scanLocated hscan
      have hnone : (s.admitFile file importPath).2.knownAt? (d.canonicalOrSelf path) = none := hknown
      simp [knownAt?_remember, hnone, hlocation, Path.same]

/-- A load of a known file yields that file. -/
theorem load_of_knownAt {s : Session} {path : Path} {importPath : Option String} {sheet : Sheet}
    (h : s.knownAt? (d.canonicalOrSelf path) = some sheet) : ((load d path importPath).run s).1 = .ok sheet := by
  rw [run_load, h]

theorem sources_moving (d : Disk) (dir : Path) : Moving d (sources d dir) := by
  intro s
  rw [run_sources]
  split <;> exact .refl s

theorem loadSiblings_moving (d : Disk) (sheet : Sheet) : Moving d (loadSiblings d sheet) := by
  refine (sources_moving d _).bind fun paths => Moving.get_bind fun s => ?_
  exact (Moving.mapM (fun path => load_moving d path _) _).bind fun loaded => .pure _

theorem siblings_moving (d : Disk) (sheet : Sheet) : Moving d (siblings d sheet) := by
  refine Moving.get_bind fun s => ?_
  split
  · exact .pure _
  · refine (loadSiblings_moving d sheet).bind fun found => ?_
    refine Moving.bind ?_ fun _ => .pure found
    intro t
    exact .assignSiblings t sheet found

theorem guarded_moving {key : Path × String} {body : Search α} (h : Moving d body) : Moving d (guarded key body) := by
  intro s
  rw [run_guarded]
  by_cases hkey : s.isActive key = true
  · rw [if_pos hkey]
    exact .refl s
  · rw [if_neg hkey]
    exact .within (by simpa using hkey) (h (s.enter key))

section Next

variable {next : Sheet → String → Search (Option Found)}

theorem inSource_moving (path : Path) (importPath : String) (required : Option String) {name : String}
    (hnext : ∀ candidate, Moving d (next candidate name)) :
    Moving d (do
      let candidate ← load d path (some importPath)
      if required.any (· != candidate.file.package) then return none
      else next candidate name) := by
  refine (load_moving d path _).bind fun candidate => ?_
  split
  · exact .pure none
  · exact hnext candidate

theorem inImport_moving (sheet : Sheet) (importPath : String) (required : Option String) (name : String)
    (hnext : ∀ candidate, Moving d (next candidate name)) :
    Moving d (inImport d next sheet importPath required name) := by
  refine Moving.get_bind fun s => ?_
  split
  · exact .pure none
  · refine (sources_moving d _).bind fun paths => Moving.findSomeM? (fun path => ?_) paths
    exact inSource_moving path importPath required hnext

theorem reference_moving (sheet : Sheet) (ref : TypeRef) (hnext : ∀ candidate, Moving d (next candidate ref.name)) :
    Moving d (reference d next sheet ref) := by
  unfold reference
  split
  · unfold bareName
    split
    · exact .pure _
    · refine (siblings_moving d sheet).bind fun found => ?_
      split
      · exact .pure _
      · exact Moving.findSomeM? (fun path => inImport_moving sheet path none ref.name hnext) _
  · unfold qualifiedName
    refine Moving.findSomeM? (fun entry => ?_) _
    exact inImport_moving sheet entry.1 entry.2 ref.name hnext

end Next

/-- A search makes moves of a search only, at every depth. -/
theorem typeTextWithin_moving (d : Disk) :
    ∀ (depth : Nat) (sheet : Sheet) (text : String), Moving d (typeTextWithin d depth sheet text)
  | 0, _, _ => .pure none
  | depth + 1, sheet, text => by
    rw [typeTextWithin, typeText]
    split
    · exact .pure none
    · refine guarded_moving (reference_moving sheet _ fun candidate => ?_)
      exact typeTextWithin_moving d depth candidate _

/-- A request for a type remembers the file and then makes moves of a search. -/
theorem extractType_moves (d : Disk) (sheet : Sheet) (text : String) (s : Session) :
    Moves d (s.remember sheet) ((Session.extractType d sheet text).run s).2 := by
  have hsearch : Moving d (orNotFound text (typeTextWithin d (depthLimit d) sheet text)) := by
    refine (typeTextWithin_moving d _ sheet text).bind fun found => ?_
    cases found with
    | some found => exact .pure found
    | none => exact .throw _
  exact hsearch (s.remember sheet)

end Search

end GoOutline
