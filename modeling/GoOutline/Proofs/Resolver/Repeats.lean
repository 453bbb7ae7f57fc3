import GoOutline.Proofs.Resolver.Courses

/-!
# Requests that are made again

A search that is made again finds what the first one has left: files it scanned are known, import paths it gave are
noted, lists of siblings it completed are kept; a list that it could not complete fails at the same file, since what was
loaded for it has not changed the notes on its own file. So the second search comes the same way to the same
outcome and leaves the session as it is (`Settles`), and so does a request for a type (`extractType_again`).
-/
namespace GoOutline

open Session

variable {d : Disk} {s t u : Session} {sheet : Sheet}

/-! ## Updates without effect -/

namespace Session

theorem modify_eq_self {α : Type} {f : α → α} {l : List α} {i : Nat} (h : ∀ a, l[i]? = some a → f a = a) :
    l.modify i f = l := by
  refine List.ext_getElem? fun j => ?_
  rw [List.getElem?_modify]
  by_cases hij : i = j
  · subst hij
    cases hat : l[i]? with
    | none => rfl
    | some a => simp [h a hat]
  · simp [hij]

/-- A file keeps its import path, and none is given by none. -/
theorem assignImportPath_eq_self {importPath : Option String}
    (h : importPath = none ∨ ∃ path, s.importPath? sheet = some path) : s.assignImportPath sheet importPath = s := by
  have hnotes : s.notes.modify sheet.number (fun n => { n with importPath := n.importPath.or importPath }) =
      s.notes := by
    refine modify_eq_self fun notes hat => ?_
    rcases h with rfl | ⟨path, hpath⟩
    · simp
    · have hnoted : notes.importPath = some path := by simpa [importPath?, hat] using hpath
      simp only [hnoted, Option.some_or]
      rw [← hnoted]
  rw [assignImportPath, hnotes]

theorem siblings?_assignSiblings_self {found : List Sheet} (hsheet : s.Has sheet) (h : s.siblings? sheet = none) :
    (s.assignSiblings sheet found).siblings? sheet = some found := by
  have hlt := hsheet.number_lt
  simp only [siblings?, List.getElem?_eq_getElem hlt, Option.bind_some] at h
  simp [siblings?, assignSiblings, List.getElem?_eq_getElem hlt, h]

theorem leave_enter {key : Path × String} (fresh : s.isActive key = false) : (s.enter key).leave key = s := by
  have hactive : ((s.enter key).leave key).active = s.active := leave_active rfl fresh
  exact congrArg (fun names => { s with active := names }) hactive

theorem enter_leave {key : Path × String} {names : List (Path × String)} (hactive : s.active = key :: names)
    (fresh : names.any (sameKey key) = false) : (s.leave key).enter key = s := by
  have hnames : key :: (s.leave key).active = s.active := by rw [leave_active hactive fresh, hactive]
  exact congrArg (fun names => { s with active := names }) hnames

end Session

/-! ## Steps that settle -/

namespace Search

variable {α β : Type}

/-- Once the step has been made from the session, it can be made again with the same outcome and without effect: after a
result in every session that goes on from there, after a failure at once. -/
structure Settles (s : Session) (x : Search α) : Prop where
  grown : s.Extends (x.run s).2
  sound : (x.run s).2.Sound
  again : ∀ a, (x.run s).1 = .ok a → ∀ u, (x.run s).2.Extends u → x.run u = (.ok a, u)
  failed : ∀ e, (x.run s).1 = .error e → x.run (x.run s).2 = (.error e, (x.run s).2)

theorem Settles.run_again {x : Search α} (h : Settles s x) : x.run (x.run s).2 = x.run s := by
  cases hrun : x.run s with
  | mk outcome t =>
    have hagain := h.again
    have hfailed := h.failed
    rw [hrun] at hagain hfailed
    cases outcome with
    | ok a => exact hagain a rfl t (.refl t)
    | error e => exact hfailed e rfl

theorem Settles.pure (hs : s.Sound) (a : α) : Settles s (pure a) := by
  refine ⟨.refl s, hs, ?_, ?_⟩
  · intro b hb u _
    cases hb
    rfl
  · intro e he
    cases he

theorem Settles.throw (hs : s.Sound) (e : Error) : Settles s (throw e : Search α) := by
  refine ⟨.refl s, hs, ?_, ?_⟩
  · intro b hb
    cases hb
  · intro e' he
    cases he
    rfl

theorem Settles.bind {x : Search α} {f : α → Search β} (hx : Settles s x)
    (hf : ∀ a t, x.run s = (.ok a, t) → t.Sound → Settles t (f a)) : Settles s (x >>= f) := by
  have hrun := run_bind x f s
  obtain ⟨hgrown, hsound, hagain, hfailed⟩ := hx
  cases hfirst : x.run s with
  | mk outcome t =>
    rw [hfirst] at hrun hgrown hsound hagain hfailed
    cases outcome with
    | error e =>
      have hend : (x >>= f).run s = (.error e, t) := hrun
      refine ⟨?_, ?_, ?_, ?_⟩ <;> rw [hend]
      · exact hgrown
      · exact hsound
      · intro b hb
        cases hb
      · intro e' he
        cases he
        rw [run_bind, hfailed e rfl]
    | ok a =>
      have hnext : (x >>= f).run s = (f a).run t := hrun
      obtain ⟨hgrown', hsound', hagain', hfailed'⟩ := hf a t hfirst hsound
      -- the first step is made again from wherever the second one has come to
      have hskip : ∀ u, ((f a).run t).2.Extends u → (x >>= f).run u = (f a).run u := by
        intro u hu
        rw [run_bind, hagain a rfl u (hgrown'.trans hu)]
      refine ⟨?_, ?_, ?_, ?_⟩ <;> rw [hnext]
      · exact hgrown.trans hgrown'
      · exact hsound'
      · intro b hb u hu
        rw [hskip u hu]
        exact hagain' b hb u hu
      · intro e he
        rw [hskip _ (.refl _)]
        exact hfailed' e he

/-- A look at the session settles if it sees the same later on. -/
theorem Settles.get_bind {f : Session → Search β} (hsame : ∀ u, s.Extends u → f u = f s) (h : Settles s (f s)) :
    Settles s (get >>= f) := by
  have hrun : ∀ u, s.Extends u → (get >>= f).run u = (f s).run u := by
    intro u hu
    rw [run_get_bind, hsame u hu]
  obtain ⟨hgrown, hsound, hagain, hfailed⟩ := h
  refine ⟨?_, ?_, ?_, ?_⟩ <;> rw [hrun s (.refl s)]
  · exact hgrown
  · exact hsound
  · intro b hb u hu
    rw [hrun u (hgrown.trans hu)]
    exact hagain b hb u hu
  · intro e he
    rw [hrun _ hgrown]
    exact hfailed e he

theorem Settles.findSomeM? {f : α → Search (Option β)} : ∀ {items : List α} {s : Session}, s.Sound →
    (∀ a ∈ items, ∀ t : Session, t.Sound → s.Extends t → Settles t (f a)) → Settles s (items.findSomeM? f)
  | [], s, hs, _ => .pure hs none
  | a :: rest, s, hs, h => by
    have hfirst := h a (by simp) s hs (.refl s)
    rw [List.findSomeM?_cons]
    refine hfirst.bind fun found t hrun ht => ?_
    have hgrown : s.Extends t := by
      have := hfirst.grown
      rwa [hrun] at this
    cases found with
    | some b => exact .pure ht (some b)
    | none =>
      refine Settles.findSomeM? ht fun b hb u hu hgrown' => ?_
      exact h b (by simp [hb]) u hu (hgrown.trans hgrown')

/-! ## Files -/

/-- A file that is loaded through an import path has one from then on. -/
theorem isSome_importPath_of_load (hs : s.Sound) {path : Path} {importPath : String}
    (h : ((load d path (some importPath)).run s).1 = .ok sheet) :
    (((load d path (some importPath)).run s).2.importPath? sheet).isSome = true := by
  rw [run_load] at h ⊢
  cases hknown : s.knownAt? (d.canonicalOrSelf path) with
  | some known =>
    rw [hknown] at h
    cases h
    have hhas : s.Has sheet := hs.has_of_knownAt hknown
    simp [importPath?_assignImportPath hhas]
  | none =>
    rw [hknown] at h
    cases hscan : d.scanLocated (d.canonicalOrSelf path) with
    | error e => rw [hscan] at h; cases h
    | ok file =>
      rw [hscan] at h
      cases h
      simp [importPath?]

theorem load_settles (hs : s.Sound) (path : Path) (importPath : Option String) :
    Settles s (load d path importPath) := by
  have hmoves := load_moving d path importPath s
  refine ⟨hmoves.extends, hmoves.sound hs, ?_, ?_⟩
  · intro sheet hsheet u hu
    have hknown := hu.knownAt? (knownAt?_of_load hsheet)
    have hpath : importPath = none ∨ ∃ p, u.importPath? sheet = some p := by
      cases importPath with
      | none => exact .inl rfl
      | some p =>
        obtain ⟨q, hq⟩ := Option.isSome_iff_exists.1 (isSome_importPath_of_load hs hsheet)
        exact .inr ⟨q, hu.importPath sheet q hq⟩
    rw [run_load, hknown]
    simp only [assignImportPath_eq_self hpath]
  · intro e he
    rw [load_of_error he]
    exact load_of_error he

theorem mapM_load_settles (importPath : Option String) : ∀ {paths : List Path} {s : Session}, s.Sound →
    Settles s (paths.mapM fun path => load d path importPath)
  | [], s, hs => .pure hs []
  | path :: rest, s, hs => by
    rw [List.mapM_cons]
    refine (load_settles hs path importPath).bind fun sheet t _ ht => ?_
    exact (mapM_load_settles importPath ht).bind fun sheets u _ hu => .pure hu (sheet :: sheets)

theorem sources_settles (hs : s.Sound) (dir : Path) : Settles s (sources d dir) := by
  unfold sources
  cases d.sourceFiles? dir false with
  | none => exact .throw hs _
  | some paths => exact .pure hs paths

/-! ## Siblings -/

/-- The siblings of a file, loaded through an import path that is known beforehand. -/
def loadSiblingsThrough (d : Disk) (sheet : Sheet) (importPath : Option String) : Search (List Sheet) := do
  let paths ← sources d sheet.file.directory
  let others := paths.filter fun path => !(d.canonicalOrSelf path).same sheet.file.location
  let loaded ← others.mapM fun path => load d path importPath
  return loaded.filter fun sibling => sibling.file.package == sheet.file.package

theorem run_loadSiblings (d : Disk) (sheet : Sheet) (s : Session) :
    (loadSiblings d sheet).run s = (loadSiblingsThrough d sheet (s.importPath? sheet)).run s := by
  unfold loadSiblings loadSiblingsThrough
  rw [run_bind, run_bind, run_sources]
  cases d.sourceFiles? sheet.file.directory false with
  | none => rfl
  | some paths => exact run_get_bind _ s

theorem loadSiblingsThrough_settles (hs : s.Sound) (sheet : Sheet) (importPath : Option String) :
    Settles s (loadSiblingsThrough d sheet importPath) := by
  refine (sources_settles hs _).bind fun paths t _ ht => ?_
  exact (mapM_load_settles importPath ht).bind fun loaded u _ hu => .pure hu _

/-- The session is sound and has the notes on a file of its own. -/
def Noted (sheet : Sheet) (notes : Option Notes) (s : Session) : Prop :=
  s.Sound ∧ s.Has sheet ∧ s.notes[sheet.number]? = notes

/-- The load of another file leaves the notes on a file alone. -/
theorem load_noted {notes : Option Notes} {path : Path}
    (hother : (d.canonicalOrSelf path).same sheet.file.location = false) (importPath : Option String) :
    Agree (Noted sheet notes) (fun _ => True) (load d path importPath) (load d path importPath) := by
  rintro s ⟨hs, hsheet, hnotes⟩
  have hmoves := load_moving d path importPath s
  refine ⟨rfl, ⟨hmoves.sound hs, hsheet.mono hmoves.extends.files, ?_⟩, fun _ _ => trivial⟩
  rw [run_load]
  cases hknown : s.knownAt? (d.canonicalOrSelf path) with
  | some known =>
    -- only the notes on the known file change, and it stands elsewhere
    have hne : known.number ≠ sheet.number := by
      intro heq
      obtain rfl := (hs.has_of_knownAt hknown).eq_of_number hsheet heq
      have hsame := Path.same_iff.1 (hs.same_of_knownAt hknown)
      rw [Path.same_iff.2 hsame.symm] at hother
      cases hother
    simp [assignImportPath, hne, hnotes]
  | none =>
    cases d.scanLocated (d.canonicalOrSelf path) with
    | error e => exact hnotes
    | ok file => simp [List.getElem?_append_left hsheet.number_lt, hnotes]

theorem loadSiblings_noted {notes : Option Notes} :
    Agree (Noted sheet notes) (fun _ => True) (loadSiblings d sheet) (loadSiblings d sheet) := by
  refine Agree.bind (P := fun _ => True) ?_ fun paths _ => Agree.get_bind fun s _ => ?_
  · intro s hs
    rw [run_sources]
    cases d.sourceFiles? sheet.file.directory false with
    | none => exact ⟨rfl, hs, fun _ _ => trivial⟩
    | some paths => exact ⟨rfl, hs, fun _ _ => trivial⟩
  · refine (Agree.mapM fun path hpath => load_noted ?_ _).bind fun loaded _ => Agree.pure trivial
    simpa using (List.mem_filter.1 hpath).2

theorem run_siblings_of_some {found : List Sheet} (h : s.siblings? sheet = some found) :
    (siblings d sheet).run s = (.ok found, s) := by
  unfold siblings
  rw [run_get_bind, h]
  rfl

theorem run_siblings_of_none (h : s.siblings? sheet = none) :
    (siblings d sheet).run s = match (loadSiblings d sheet).run s with
      | (.ok found, t) => (.ok found, t.assignSiblings sheet found)
      | (.error e, t) => (.error e, t) := by
  unfold siblings
  rw [run_get_bind, h]
  simp only [run_bind]
  cases (loadSiblings d sheet).run s with
  | mk outcome t => cases outcome <;> rfl

theorem siblings?_of_loadSiblings (hs : s.Sound) (hsheet : s.Has sheet) (h : s.siblings? sheet = none) :
    ((loadSiblings d sheet).run s).2.siblings? sheet = none := by
  obtain ⟨-, ⟨-, -, hnotes⟩, -⟩ := loadSiblings_noted (d := d) s ⟨hs, hsheet, rfl⟩
  rw [siblings?, hnotes]
  exact h

/-- Siblings that have been collected are noted. -/
theorem siblings?_of_siblings (hs : s.Sound) (hsheet : s.Has sheet) {found : List Sheet}
    (h : ((siblings d sheet).run s).1 = .ok found) :
    ((siblings d sheet).run s).2.siblings? sheet = some found := by
  cases hnoted : s.siblings? sheet with
  | some list =>
    rw [run_siblings_of_some hnoted] at h ⊢
    cases h
    exact hnoted
  | none =>
    have hunnoted := siblings?_of_loadSiblings (d := d) hs hsheet hnoted
    have hmet := hsheet.mono (loadSiblings_moving d sheet s).extends.files
    rw [run_siblings_of_none hnoted] at h ⊢
    cases hload : (loadSiblings d sheet).run s with
    | mk outcome t =>
      rw [hload] at h hunnoted hmet
      cases outcome with
      | error e => cases h
      | ok list =>
        cases h
        exact siblings?_assignSiblings_self hmet hunnoted

/-- A collection of siblings that fails, fails again at the same file. -/
theorem loadSiblings_of_error {e : Error} (hs : s.Sound) (hsheet : s.Has sheet)
    (h : (loadSiblings d sheet).run s = (.error e, t)) : (loadSiblings d sheet).run t = (.error e, t) := by
  obtain ⟨-, ⟨-, -, hnotes⟩, -⟩ := loadSiblings_noted (d := d) s ⟨hs, hsheet, rfl⟩
  have hfailed := (loadSiblingsThrough_settles (d := d) hs sheet (s.importPath? sheet)).failed e
  rw [h] at hnotes
  rw [← run_loadSiblings, h] at hfailed
  -- the files loaded before the failure gave this one no import path, so the others are loaded through the same
  have hpath : t.importPath? sheet = s.importPath? sheet := by rw [importPath?, hnotes, importPath?]
  rw [run_loadSiblings, hpath]
  exact hfailed rfl

theorem siblings_settles (hs : s.Sound) (hsheet : s.Has sheet) : Settles s (siblings d sheet) := by
  have hmoves := siblings_moving d sheet s
  refine ⟨hmoves.extends, hmoves.sound hs, ?_, ?_⟩
  · intro found hfound u hu
    exact run_siblings_of_some (hu.siblings sheet found (siblings?_of_siblings hs hsheet hfound))
  · intro e he
    cases hnoted : s.siblings? sheet with
    | some found =>
      rw [run_siblings_of_some hnoted] at he
      cases he
    | none =>
      have hunnoted := siblings?_of_loadSiblings (d := d) hs hsheet hnoted
      have hrun : (siblings d sheet).run s = _ := run_siblings_of_none hnoted
      cases hload : (loadSiblings d sheet).run s with
      | mk outcome t =>
        rw [hload] at hunnoted hrun
        cases outcome with
        | ok found => rw [hrun] at he; cases he
        | error e' =>
          rw [hrun] at he ⊢
          cases he
          rw [run_siblings_of_none hunnoted, loadSiblings_of_error hs hsheet hload]

/-! ## Names -/

theorem guarded_settles {key : Path × String} {body : Search α} (hs : s.Sound)
    (h : Settles (s.enter key) body) : Settles s (guarded key body) := by
  by_cases hkey : s.isActive key = true
  · have hrun : ∀ u : Session, u.active = s.active →
        (guarded key body).run u = (.error (.cyclicReference key.1 key.2), u) := by
      intro u hu
      rw [run_guarded, if_pos (by rw [isActive, hu]; exact hkey)]
    refine ⟨?_, ?_, ?_, ?_⟩ <;> rw [hrun s rfl]
    · exact .refl s
    · exact hs
    · intro a ha
      cases ha
    · intro e he
      cases he
      exact hrun s rfl
  · have hrun : ∀ u : Session, u.active = s.active → (guarded key body).run u =
        ((body.run (u.enter key)).1, (body.run (u.enter key)).2.leave key) := by
      intro u hu
      rw [run_guarded, if_neg (by rw [isActive, hu]; exact hkey)]
    have hfresh : s.isActive key = false := by simpa using hkey
    obtain ⟨hgrown, hsound, hagain, hfailed⟩ := h
    have hleft := hgrown.leave hfresh
    refine ⟨?_, ?_, ?_, ?_⟩ <;> rw [hrun s rfl]
    · exact hleft
    · exact hsound.leave key
    · intro a ha u hu
      -- the search inside goes on from where it ended, with the same name on top of the same others
      have hactive : u.active = s.active := (hleft.trans hu).active
      have hinside : (body.run (s.enter key)).2.Extends (u.enter key) := by
        refine ⟨hu.files, hu.known, hu.importPath, hu.siblings, ?_, hu.search, hu.indexer⟩
        rw [hgrown.active]
        exact congrArg (key :: ·) hactive
      rw [hrun u hactive, hagain a ha _ hinside, leave_enter]
      rw [isActive, hactive]
      exact hfresh
    · intro e he
      rw [hrun _ hleft.active, enter_leave hgrown.active hfresh, hfailed e he]

section Next

variable {next : Sheet → String → Search (Option Found)}

/-- The search that goes on with a name in other files settles in every session that has met them. -/
def NextSettles (next : Sheet → String → Search (Option Found)) (name : String) : Prop :=
  ∀ (s : Session) (candidate : Sheet), s.Sound → s.Has candidate → Settles s (next candidate name)

theorem inImport_settles (hs : s.Sound) (sheet : Sheet) (importPath : String) (required : Option String)
    {name : String} (hnext : NextSettles next name) :
    Settles s (inImport d next sheet importPath required name) := by
  refine Settles.get_bind ?_ ?_
  · intro u hu
    rw [hu.search]
  · cases s.search.packageDir? d sheet.file.directory importPath with
    | none => exact .pure hs none
    | some dir =>
      refine (sources_settles hs dir).bind fun paths t _ ht => Settles.findSomeM? ht fun path _ u hu _ => ?_
      refine (load_settles hu path (some importPath)).bind fun candidate v hload hv => ?_
      split
      · exact .pure hv none
      · have hknown := knownAt?_of_load (congrArg Prod.fst hload)
        rw [hload] at hknown
        exact hnext v candidate hv (hv.has_of_knownAt hknown)

theorem bareName_settles (hs : s.Sound) (hsheet : s.Has sheet) {name : String} (hnext : NextSettles next name) :
    Settles s (bareName d next sheet name) := by
  unfold bareName
  cases inSheet name sheet with
  | some found => exact .pure hs (some found)
  | none =>
    refine (siblings_settles hs hsheet).bind fun found t _ ht => ?_
    cases found.findSome? (inSheet name) with
    | some found => exact .pure ht (some found)
    | none => exact Settles.findSomeM? ht fun path _ u hu _ => inImport_settles hu sheet path none hnext

theorem reference_settles (hs : s.Sound) (hsheet : s.Has sheet) {ref : TypeRef} (hnext : NextSettles next ref.name) :
    Settles s (reference d next sheet ref) := by
  unfold reference
  cases ref.package with
  | none => exact bareName_settles hs hsheet hnext
  | some qualifier =>
    exact Settles.findSomeM? hs fun entry _ u hu _ => inImport_settles hu sheet entry.1 entry.2 hnext

end Next

/-- A search settles at every depth. -/
theorem typeTextWithin_settles : ∀ {depth : Nat} {s : Session} {sheet : Sheet} {text : String}, s.Sound →
    s.Has sheet → Settles s (typeTextWithin d depth sheet text)
  | 0, s, sheet, text, hs, _ => .pure hs none
  | depth + 1, s, sheet, text, hs, hsheet => by
    rw [typeTextWithin, typeText]
    cases TypeRef.parse? text with
    | none => exact .pure hs none
    | some ref =>
      have hnext : NextSettles (typeTextWithin d depth) ref.name := by
        intro t candidate ht hcandidate
        exact typeTextWithin_settles ht hcandidate
      exact guarded_settles hs (reference_settles (hs.enter _) hsheet hnext)

/-! ## Requests -/

theorem remember_settles (hs : s.Sound) (hsheet : s.Has sheet) :
    Settles s (modify (·.remember sheet) : Search PUnit) := by
  refine ⟨extends_remember s sheet, hs.remember hsheet, ?_, ?_⟩
  · intro _ _ u hu
    have hknown : ∃ known, (s.remember sheet).knownAt? sheet.file.location = some known := by
      rw [knownAt?_remember]
      cases s.knownAt? sheet.file.location with
      | some known => exact ⟨known, rfl⟩
      | none => exact ⟨sheet, by simp [Path.same]⟩
    obtain ⟨known, hat⟩ := hknown
    have hsame : u.remember sheet = u := if_pos (by rw [hu.knownAt? hat]; rfl)
    exact congrArg (Prod.mk (Except.ok PUnit.unit)) hsame
  · intro e he
    cases he

theorem extractType_settles (hs : s.Sound) (hsheet : s.Has sheet) (text : String) :
    Settles s (Session.extractType d sheet text) := by
  refine (remember_settles hs hsheet).bind fun _ t hrun ht => ?_
  have hmet : t.Has sheet := by
    have hfiles := (remember_settles hs hsheet).grown.files
    rw [hrun] at hfiles
    exact hsheet.mono hfiles
  refine (typeTextWithin_settles ht hmet).bind fun found u _ hu => ?_
  cases found with
  | some found => exact .pure hu found
  | none => exact .throw hu _

end Search

/-- Along the course of a resolver, a request for a type that is made again on the same disk has the same outcome, with
the same import path of the struct, and leaves the whole session as it is, also if it fails midway. -/
theorem extractType_again {search : SearchPaths} {indexer : Option Indexer} {log : List Path}
    (course : Course (s.renew search indexer) log t) (hsheet : t.Has sheet) (d : Disk) (text : String) :
    (Session.extractType d sheet text).run ((Session.extractType d sheet text).run t).2 =
      (Session.extractType d sheet text).run t := by
  have hsound : t.Sound := course.sound (s.sound_renew search indexer)
  exact (Search.extractType_settles hsound hsheet text).run_again

/-- A package with a file that cannot be read as one. -/
def spoiltPackage : Disk :=
  { cwd := []
    entries :=
      [([Text.encode "p"], .directory),
       ([Text.encode "p", Text.encode "a.go"], .file (some "package p\n")),
       ([Text.encode "p", Text.encode "b.go"], .file (some "package p\n")),
       ([Text.encode "p", Text.encode "c.go"], .file (some "type"))] }

/-- The request fails after one of the siblings has been loaded. -/
theorem extractType_again_spoiltPackage :
    let root : SearchPaths := ⟨false, some (.ofString "/"), none⟩
    let s := Request.after spoiltPackage (.scan (.ofString "/p/a.go")) (Session.start root)
    let sheet : Sheet := ⟨0, ⟨.ofString "/p/a.go", "p", "", [], [], [], [], "package p\n"⟩⟩
    let first := (Session.extractType spoiltPackage sheet "T").run s
    s.Has sheet ∧ first.1.toOption = none ∧ first.2.scannedCount = 2 ∧
      (Session.extractType spoiltPackage sheet "T").run first.2 = first := by
  intro root s sheet first
  have hcourse : Course ((Session.start root).renew root none) _ s :=
    Course.start.request (by simp) (by simp [Request.given])
  have hsheet : s.Has sheet := by
    unfold Session.Has
    decide +kernel
  exact ⟨hsheet, by decide +kernel, by decide +kernel, extractType_again hcourse hsheet spoiltPackage "T"⟩

end GoOutline
