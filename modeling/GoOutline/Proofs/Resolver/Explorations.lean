import GoOutline.Proofs.Resolver.Repeats

/-!
# Explorations

What a search does, it does for a file that it holds: one that came with the request or that is known. It loads files
behind the imports of such a file and collects the siblings of such a file (`Explores`). So whatever holds of a session
because of where its files came from is shown for one load and one collection, and then holds along every search
(`typeTextWithin_explores`) and every request (`Request.after_explores`). The first such facts: what is read at a canonical
path stays (`Explores.read_eq`), and the files in a list of siblings are of the package of the file that has the list
(`Explores.akin`).
-/
namespace GoOutline

open Session

variable {d : Disk} {given : List Sheet} {s t u : Session} {sheet : Sheet}

/-! ## Lists of siblings -/

namespace Search

/-- No load changes a list of siblings. -/
theorem siblings?_load (d : Disk) (path : Path) (importPath : Option String) (s : Session) (other : Sheet) :
    ((load d path importPath).run s).2.siblings? other = s.siblings? other := by
  rw [run_load]
  split
  · exact siblings?_assignImportPath s _ other importPath
  · split
    · rfl
    · rename_i file _
      rw [siblings?, siblings?, remember_notes, admitFile_notes, List.getElem?_append]
      split
      · rfl
      · rename_i hge
        rw [List.getElem?_eq_none (by omega : s.notes.length ≤ other.number)]
        cases hnew : [Notes.mk file importPath none][other.number - s.notes.length]? with
        | none => rfl
        | some notes =>
          obtain rfl := List.mem_singleton.1 (List.mem_of_getElem? hnew)
          rfl

theorem sources_agree_self (I : Session → Prop) (dir : Path) :
    Agree I (fun _ => True) (sources d dir) (sources d dir) := by
  unfold sources
  cases d.sourceFiles? dir false with
  | none => exact Agree.throw
  | some paths => exact Agree.pure trivial

/-- The collection of siblings keeps what loads with the import path of the file keep, and yields files of its package. -/
theorem loadSiblings_keeps {I : Session → Prop}
    (hload : ∀ path t, I t → I ((load d path (s.importPath? sheet)).run t).2) (hs : I s) :
    I ((loadSiblings d sheet).run s).2 ∧
      ∀ found, ((loadSiblings d sheet).run s).1 = .ok found →
        ∀ sibling ∈ found, sibling.file.package = sheet.file.package := by
  have hthrough : Agree I (fun found => ∀ sibling ∈ found, sibling.file.package = sheet.file.package)
      (loadSiblingsThrough d sheet (s.importPath? sheet)) (loadSiblingsThrough d sheet (s.importPath? sheet)) := by
    refine (sources_agree_self I _).bind fun paths _ => ?_
    refine Agree.bind (Agree.mapM fun path _ t ht => ?_) fun loaded _ => Agree.pure ?_
    · exact ⟨rfl, hload path t ht, fun _ _ => trivial⟩
    · intro sibling hsibling
      simpa using (List.mem_filter.1 hsibling).2
  rw [run_loadSiblings]
  exact (hthrough s hs).2

/-- A load does not change what is read at a canonical path. -/
theorem read_load {location : Path} (hlocation : d.IsCanonical location) (path : Path) (importPath : Option String) (s : Session) :
    ((load d path importPath).run s).2.read d location = s.read d location := by
  rw [run_load]
  cases hknown : s.knownAt? (d.canonicalOrSelf path) with
  | some known => rfl
  | none =>
    cases hscan : d.scanLocated (d.canonicalOrSelf path) with
    | error e => rfl
    | ok file =>
      obtain ⟨hholds, hplace⟩ := Disk.holds_of_scanLocated hscan
      simp only [Session.read, knownAt?_remember, hplace]
      have hsame : (s.admitFile file importPath).2.knownAt? location = s.knownAt? location := rfl
      rw [hsame]
      cases hold : s.knownAt? location with
      | some other => rfl
      | none =>
        by_cases hhere : (d.canonicalOrSelf path).same location = true
        · rw [← hholds.location_eq hlocation (by rw [hplace, hhere]), hplace, hscan]
          simp [Path.same]
        · simp [hhere]

/-- A load yields what is read at the source. -/
theorem load_read (d : Disk) (path : Path) (importPath : Option String) (s : Session) :
    ((load d path importPath).run s).1.map (·.file) = s.read d (d.canonicalOrSelf path) := by
  rw [run_load, Session.read]
  cases s.knownAt? (d.canonicalOrSelf path) with
  | some known => rfl
  | none => cases d.scanLocated (d.canonicalOrSelf path) <;> rfl

end Search

/-! ## Explorations -/

namespace Session

/-- The file is known to the session or comes with the request. -/
def Holds (s : Session) (given : List Sheet) (sheet : Sheet) : Prop :=
  sheet ∈ given ∨ ∃ place, (place, sheet) ∈ s.known

theorem Holds.mono (h : s.Holds given sheet) (hextends : s.Extends t) : t.Holds given sheet := by
  rcases h with hgiven | ⟨place, hknown⟩
  · exact .inl hgiven
  · exact .inr ⟨place, hextends.known.subset hknown⟩

theorem Holds.has (h : s.Holds given sheet) (hs : s.Sound) (hgiven : ∀ sheet ∈ given, s.Has sheet) :
    s.Has sheet := by
  rcases h with hmem | ⟨place, hknown⟩
  · exact hgiven sheet hmem
  · exact hs.known _ hknown

theorem holds_given (s : Session) (sheet : Sheet) : s.Holds [sheet] sheet :=
  .inl (List.mem_singleton_self sheet)

/-- A file that was met is still there when it is remembered for a request. -/
theorem Has.remembered (h : s.Has sheet) : ∀ other ∈ [sheet], (s.remember sheet).Has other := by
  intro other hother
  rw [List.mem_singleton.1 hother]
  exact h.mono (by simp)

/-- What a search can make of a session, for files that it holds. -/
inductive Explores (d : Disk) (given : List Sheet) : Session → Session → Prop
  | refl (s : Session) : Explores d given s s
  | trans {s t u : Session} (first : Explores d given s t) (rest : Explores d given t u) : Explores d given s u
  /-- Load a file that nothing leads to. -/
  | scan (s : Session) (path : Path) : Explores d given s ((Search.load d path none).run s).2
  /-- Load a file behind an import. -/
  | load {s : Session} {sheet : Sheet} {importPath : String} (held : s.Holds given sheet)
      (behind : importPath ∈ sheet.file.imports.map (·.1)) (path : Path) :
      Explores d given s ((Search.load d path (some importPath)).run s).2
  | siblings {s : Session} {sheet : Sheet} (held : s.Holds given sheet) :
      Explores d given s ((Search.siblings d sheet).run s).2
  | within {s t : Session} {key : Path × String} (fresh : s.isActive key = false)
      (inside : Explores d given (s.enter key) t) : Explores d given s (t.leave key)

theorem Explores.moves (h : Explores d given s t) : Moves d s t := by
  induction h with
  | refl s => exact .refl s
  | trans _ _ ih ih' => exact ih.trans ih'
  | scan s path => exact Search.load_moving d path none s
  | load _ _ path => exact Search.load_moving d path _ _
  | siblings _ => exact Search.siblings_moving d _ _
  | within fresh _ ih => exact .within fresh ih

theorem Explores.extends (h : Explores d given s t) : s.Extends t :=
  h.moves.extends

theorem Explores.sound (h : Explores d given s t) (hs : s.Sound) : t.Sound :=
  h.moves.sound hs

/-- What is read at a canonical path stays. -/
theorem Explores.read_eq (h : Explores d given s t) {location : Path} (hlocation : d.IsCanonical location) :
    t.read d location = s.read d location := by
  induction h with
  | refl s => rfl
  | trans _ _ ih ih' => rw [ih', ih]
  | scan s path => exact Search.read_load hlocation path none s
  | load _ _ path => exact Search.read_load hlocation path _ _
  | @siblings s sheet _ =>
    cases hnoted : s.siblings? sheet with
    | some found => rw [Search.run_siblings_of_some hnoted]
    | none =>
      have hkept : ((Search.loadSiblings d sheet).run s).2.read d location = s.read d location := by
        refine (Search.loadSiblings_keeps (I := fun t => t.read d location = s.read d location) ?_ rfl).1
        intro path t ht
        rw [Search.read_load hlocation, ht]
      rw [Search.run_siblings_of_none hnoted]
      cases hload : (Search.loadSiblings d sheet).run s with
      | mk outcome t =>
        rw [hload] at hkept
        cases outcome <;> exact hkept
  | within _ _ ih => exact ih

theorem Explores.met (h : Explores d given s t) (hgiven : ∀ sheet ∈ given, s.Has sheet) :
    ∀ sheet ∈ given, t.Has sheet := by
  intro sheet hsheet
  exact (hgiven sheet hsheet).mono h.extends.files

end Session

/-! ## Steps that explore -/

namespace Search

variable {α β : Type}

/-- From the session the step explores only. -/
def Exploring (d : Disk) (given : List Sheet) (s : Session) (x : Search α) : Prop :=
  Explores d given s (x.run s).2

theorem Exploring.pure (a : α) : Exploring d given s (pure a) :=
  .refl s

theorem Exploring.bind {x : Search α} {f : α → Search β} (hx : Exploring d given s x)
    (hf : ∀ a t, x.run s = (.ok a, t) → s.Extends t → Exploring d given t (f a)) : Exploring d given s (x >>= f) := by
  unfold Exploring at hx ⊢
  rw [run_bind]
  cases hrun : x.run s with
  | mk outcome t =>
    rw [hrun] at hx
    cases outcome with
    | error e => exact hx
    | ok a => exact hx.trans (hf a t hrun hx.extends)

theorem Exploring.get_bind {f : Session → Search β} (h : Exploring d given s (f s)) :
    Exploring d given s (get >>= f) := by
  rw [Exploring, run_get_bind]
  exact h

theorem Exploring.findSomeM? {f : α → Search (Option β)} : ∀ {items : List α} {s : Session},
    (∀ a ∈ items, ∀ t, s.Extends t → Exploring d given t (f a)) → Exploring d given s (items.findSomeM? f)
  | [], _, _ => .pure none
  | a :: rest, s, h => by
    rw [List.findSomeM?_cons]
    refine (h a (by simp) s (.refl s)).bind fun found t _ ht => ?_
    cases found with
    | some b => exact .pure (some b)
    | none => exact Exploring.findSomeM? fun b hb u hu => h b (by simp [hb]) u (ht.trans hu)

theorem sources_exploring (dir : Path) : Exploring d given s (sources d dir) := by
  unfold sources
  cases d.sourceFiles? dir false with
  | none => exact .refl s
  | some paths => exact .refl s

theorem guarded_exploring {key : Path × String} {body : Search α} (h : Exploring d given (s.enter key) body) :
    Exploring d given s (guarded key body) := by
  rw [Exploring, run_guarded]
  by_cases hkey : s.isActive key = true
  · rw [if_pos hkey]
    exact .refl s
  · rw [if_neg hkey]
    exact .within (by simpa using hkey) h

theorem mem_imports_of_dotImports {file : File} {path : String} (h : path ∈ file.dotImports) :
    path ∈ file.imports.map (·.1) := by
  obtain ⟨entry, hentry, rfl⟩ := List.mem_map.1 h
  exact List.mem_map.2 ⟨entry, (List.mem_filter.1 hentry).1, rfl⟩

theorem mem_imports_of_importsNamed {file : File} {name : String} {candidate : String × Option String}
    (h : candidate ∈ file.importsNamed name) : candidate.1 ∈ file.imports.map (·.1) := by
  obtain ⟨entry, hentry, rfl⟩ := List.mem_map.1 h
  exact List.mem_map.2 ⟨entry, (List.mem_filter.1 hentry).1, rfl⟩

section Next

variable {next : Sheet → String → Search (Option Found)} {name : String}

/-- Looks for a name in a source behind an import, as the file there sees it. -/
def inSource (d : Disk) (next : Sheet → String → Search (Option Found)) (importPath : String)
    (required : Option String) (name : String) (path : Path) : Search (Option Found) := do
  let candidate ← load d path (some importPath)
  if required.any (· != candidate.file.package) then return none
  else next candidate name

/-- The file that a load yields is held from then on. -/
theorem holds_of_load {path : Path} {importPath : Option String}
    (h : (load d path importPath).run s = (.ok sheet, t)) : t.Holds given sheet := by
  have hknown := knownAt?_of_load (congrArg Prod.fst h)
  rw [h] at hknown
  obtain ⟨place, hmem, -⟩ := exists_of_knownAt hknown
  exact .inr ⟨place, hmem⟩

theorem inSource_exploring (hheld : s.Holds given sheet) {importPath : String}
    (hbehind : importPath ∈ sheet.file.imports.map (·.1)) (required : Option String)
    (hnext : ∀ candidate t, t.Holds given candidate → Exploring d given t (next candidate name)) (path : Path) :
    Exploring d given s (inSource d next importPath required name path) := by
  have hload : Exploring d given s (load d path (some importPath)) := .load hheld hbehind path
  refine hload.bind fun candidate t hrun _ => ?_
  split
  · exact .pure none
  · exact hnext candidate t (holds_of_load hrun)

theorem inImport_exploring (hheld : s.Holds given sheet) {importPath : String}
    (hbehind : importPath ∈ sheet.file.imports.map (·.1)) (required : Option String)
    (hnext : ∀ candidate t, t.Holds given candidate → Exploring d given t (next candidate name)) :
    Exploring d given s (inImport d next sheet importPath required name) := by
  refine Exploring.get_bind ?_
  cases s.search.packageDir? d sheet.file.directory importPath with
  | none => exact .pure none
  | some dir =>
    refine (sources_exploring dir).bind fun paths t _ ht => Exploring.findSomeM? fun path _ u hu => ?_
    exact inSource_exploring (hheld.mono (ht.trans hu)) hbehind required hnext path

theorem reference_exploring (hheld : s.Holds given sheet) (ref : TypeRef)
    (hnext : ∀ candidate t, t.Holds given candidate → Exploring d given t (next candidate ref.name)) :
    Exploring d given s (reference d next sheet ref) := by
  unfold reference
  cases ref.package with
  | none =>
    dsimp only
    unfold bareName
    cases inSheet ref.name sheet with
    | some found => exact .pure _
    | none =>
      have hsiblings : Exploring d given s (siblings d sheet) := .siblings hheld
      refine hsiblings.bind fun found t _ ht => ?_
      cases found.findSome? (inSheet ref.name) with
      | some found => exact .pure _
      | none =>
        refine Exploring.findSomeM? fun path hpath u hu => ?_
        exact inImport_exploring (hheld.mono (ht.trans hu)) (mem_imports_of_dotImports hpath) none hnext
  | some qualifier =>
    refine Exploring.findSomeM? fun entry hentry t ht => ?_
    exact inImport_exploring (hheld.mono ht) (mem_imports_of_importsNamed hentry) entry.2 hnext

end Next

/-- A search in a file that it holds explores only, at every depth. -/
theorem typeTextWithin_explores : ∀ (depth : Nat) {s : Session} {sheet : Sheet} (text : String),
    s.Holds given sheet → Exploring d given s (typeTextWithin d depth sheet text)
  | 0, _, _, _, _ => .pure none
  | depth + 1, s, sheet, text, hheld => by
    rw [typeTextWithin, typeText]
    cases TypeRef.parse? text with
    | none => exact .pure none
    | some ref =>
      have hentered : (s.enter (sheet.file.directory, ref.display)).Holds given sheet := hheld
      refine guarded_exploring (reference_exploring hentered ref fun candidate t hcandidate => ?_)
      exact typeTextWithin_explores depth ref.name hcandidate

theorem extractType_explores (d : Disk) (sheet : Sheet) (text : String) (s : Session) :
    Explores d [sheet] (s.remember sheet) ((Session.extractType d sheet text).run s).2 := by
  have hsearch : Exploring d [sheet] (s.remember sheet)
      (orNotFound text (typeTextWithin d (depthLimit d) sheet text)) := by
    refine (typeTextWithin_explores _ text (holds_given _ sheet)).bind fun found t _ _ => ?_
    cases found with
    | some found => exact .pure found
    | none => exact .refl t
  exact hsearch

end Search

/-- A request to the resolver explores, from where the file that came with it is remembered. One beside the resolver
meets a file or fails. -/
theorem Request.after_explores (d : Disk) (s : Session) {q : Request}
    (stays : ∀ search indexer, q ≠ renew search indexer) :
    (∃ u, (u = s ∨ ∃ sheet ∈ q.given, u = s.remember sheet) ∧ Explores d q.given u (q.after d s)) ∨
    q.after d s = s ∨ ∃ file, q.after d s = (s.admitFile file none).2 := by
  cases q with
  | scan path =>
    have hafter := (after_of_bind (q := scan path) (d := d) (f := ([·])) rfl s).1
    refine .inl ⟨s, .inl rfl, ?_⟩
    rw [hafter]
    exact .scan s path
  | scanAnew path => exact .inr (after_of_meet rfl)
  | scanSource path source => exact .inr (after_of_meet rfl)
  | extractType sheet text =>
    have hafter := (after_of_bind (q := extractType sheet text) (d := d) (f := fun _ => []) rfl s).1
    refine .inl ⟨s.remember sheet, .inr ⟨sheet, by simp [given], rfl⟩, ?_⟩
    rw [hafter]
    exact Search.extractType_explores d sheet text s
  | extractArgType sheet arg =>
    have hafter := (after_of_bind (q := extractArgType sheet arg) (d := d) (f := fun _ => []) rfl s).1
    refine .inl ⟨s.remember sheet, .inr ⟨sheet, by simp [given], rfl⟩, ?_⟩
    rw [hafter]
    exact Search.extractType_explores d sheet _ s
  | renew search indexer => exact absurd rfl (stays search indexer)

/-! ## Packages of siblings -/

namespace Session

/-- The files in a list of siblings are of the package of the file that has the list. -/
def Akin (s : Session) : Prop :=
  ∀ sheet found, s.Has sheet → s.siblings? sheet = some found →
    ∀ sibling ∈ found, sibling.file.package = sheet.file.package

/-- Where every list of siblings was there before, the packages are right as before. -/
theorem Akin.mono (h : s.Akin) (hfiles : s.files <+: t.files)
    (hlists : ∀ sheet, t.siblings? sheet = s.siblings? sheet) : t.Akin := by
  intro sheet found hsheet hfound
  rw [hlists] at hfound
  have hlt : sheet.number < s.files.length := by
    have hlength : s.files.length = s.notes.length := by simp [files]
    rw [hlength]
    exact number_lt_of_siblings hfound
  obtain ⟨more, hmore⟩ := hfiles
  refine h sheet found ?_ hfound
  rw [Has, ← hmore, List.getElem?_append_left hlt] at hsheet
  exact hsheet

theorem Akin.load (h : s.Akin) (d : Disk) (path : Path) (importPath : Option String) :
    ((Search.load d path importPath).run s).2.Akin :=
  h.mono (Search.load_moving d path importPath s).extends.files (Search.siblings?_load d path importPath s)

theorem Akin.siblings (h : s.Akin) (hsheet : s.Has sheet) (d : Disk) :
    ((Search.siblings d sheet).run s).2.Akin := by
  cases hnoted : s.siblings? sheet with
  | some found =>
    rw [Search.run_siblings_of_some hnoted]
    exact h
  | none =>
    obtain ⟨hakin, hpackage⟩ := Search.loadSiblings_keeps (I := Akin) (fun path t ht => ht.load d path _) h
    have hextends := (Search.loadSiblings_moving d sheet s).extends
    rw [Search.run_siblings_of_none hnoted]
    cases hload : (Search.loadSiblings d sheet).run s with
    | mk outcome t =>
      rw [hload] at hextends hakin hpackage
      cases outcome with
      | error e => exact hakin
      | ok found =>
        intro other list hother hlist
        have hother : t.Has other := hother.mono (by simp)
        rcases siblings?_assignSiblings hother (hsheet.mono hextends.files) hlist with hold | ⟨rfl, rfl⟩
        · exact hakin other list hother hold
        · exact hpackage list rfl

theorem Akin.remember (h : s.Akin) (sheet : Sheet) : (s.remember sheet).Akin :=
  h.mono (by simp) fun other => by simp [siblings?]

theorem Explores.akin (h : Explores d given s t) (hs : s.Sound) (hgiven : ∀ sheet ∈ given, s.Has sheet)
    (hakin : s.Akin) : t.Akin := by
  induction h with
  | refl s => exact hakin
  | trans first _ ih ih' => exact ih' (first.sound hs) (first.met hgiven) (ih hs hgiven hakin)
  | scan s path => exact hakin.load d path none
  | load _ _ path => exact hakin.load d path _
  | siblings held => exact hakin.siblings (held.has hs hgiven) d
  | within _ _ ih => exact ih (hs.enter _) hgiven hakin

end Session

theorem Request.after_akin {q : Request} (stays : ∀ search indexer, q ≠ renew search indexer)
    (met : ∀ sheet ∈ q.given, s.Has sheet) (hs : s.Sound) (hakin : s.Akin) : (q.after d s).Akin := by
  rcases after_explores d s stays with ⟨u, rfl | ⟨sheet, hsheet, rfl⟩, hexplores⟩ | hsame | ⟨file, hmet⟩
  · exact hexplores.akin hs met hakin
  · refine hexplores.akin (hs.remember (met sheet hsheet)) ?_ (hakin.remember sheet)
    intro other hother
    exact (met other hother).mono (by simp)
  · rw [hsame]
    exact hakin
  · rw [hmet]
    intro sheet found hsheet hfound
    obtain ⟨hlt, hold⟩ := siblings?_admitFile hfound
    refine hakin sheet found ?_ hold
    have hlength : s.files.length = s.notes.length := by simp [files]
    rwa [Has, admitFile_files, List.getElem?_append_left (hlength ▸ hlt)] at hsheet

end GoOutline
