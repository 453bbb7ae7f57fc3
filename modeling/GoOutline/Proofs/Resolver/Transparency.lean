import GoOutline.Proofs.Resolver.Coherence
import GoOutline.Proofs.Resolver.Requests

/-!
# Sessions and plain searches: `extract_type`

A search in a coherent session does what the plain search says, whatever earlier requests have left behind
(`Follows`): with the same outcome, and in a session that sees the same files. After any requests for files of
one disk, a request for a type therefore has the outcome of a search that keeps nothing and scans every file anew
(`extractType_eq_plain`).
-/
namespace GoOutline

/-- What was found, without the number of its file. -/
def Found.plain (found : Found) : File × Struct := (found.sheet.file, found.struct)

/-! ## Sessions that show a view -/

/-- The session is coherent and sees the files of the view. -/
structure Session.Shows (v : View) (s : Session) : Prop where
  coherent : s.Coherent v.disk
  search : s.search = v.paths
  reads : ∀ location, v.disk.IsCanonical location → s.read v.disk location = v.read location

variable {v : View} {s t : Session}

theorem Session.Coherent.shows {d : Disk} (h : s.Coherent d) : s.Shows (s.view d) :=
  ⟨h, rfl, fun _ _ => rfl⟩

theorem Session.Shows.grow (h : s.Shows v) (ht : t.Coherent v.disk) (hgrows : s.Grows v.disk t) : t.Shows v :=
  ⟨ht, hgrows.search.trans h.search, fun p hp => (ht.read_eq hgrows hp).trans (h.reads p hp)⟩

theorem Session.Shows.enter (h : s.Shows v) (key : Path × String) : (s.enter key).Shows v :=
  ⟨⟨h.coherent.keyed, h.coherent.known, h.coherent.siblings⟩, h.search, h.reads⟩

theorem Session.Shows.leave (h : s.Shows v) (key : Path × String) : (s.leave key).Shows v :=
  ⟨⟨h.coherent.keyed, h.coherent.known, h.coherent.siblings⟩, h.search, h.reads⟩

/-! ## Steps that follow a plain computation -/

/-- Both outcomes are the same failure, or both are results in relation. -/
def Matches {α β : Type} (R : α → β → Prop) : Except Error α → Except Error β → Prop
  | .ok a, .ok b => R a b
  | .error e, .error f => e = f
  | _, _ => False

theorem Matches.map_eq {α β : Type} {f : α → β} : ∀ {x : Except Error α} {y : Except Error β},
    Matches (fun a b => f a = b) x y → x.map f = y
  | .ok _, .ok _, h => congrArg Except.ok h
  | .error _, .error _, h => congrArg Except.error h

theorem Matches.imp {α β : Type} {R R' : α → β → Prop} : ∀ {x : Except Error α} {y : Except Error β},
    Matches R x y → (∀ a b, x = .ok a → y = .ok b → R a b → R' a b) → Matches R' x y
  | .ok _, .ok _, h, himp => himp _ _ rfl rfl h
  | .error _, .error _, h, _ => h

theorem Matches.exists_ok {α β : Type} {R : α → β → Prop} {a : α} : ∀ {y : Except Error β},
    Matches R (.ok a) y → ∃ b, y = .ok b ∧ R a b
  | .ok b, h => ⟨b, rfl, h⟩

namespace Search

variable {α β γ δ : Type}

/-- From the session on, the step has the outcome of the plain computation and leads to a grown session that
shows the same view. -/
structure Follows (v : View) (R : Session → α → β → Prop) (s : Session) (x : Search α) (y : Except Error β) :
    Prop where
  shown : (x.run s).2.Shows v
  grows : s.Grows v.disk (x.run s).2
  outcome : Matches (R (x.run s).2) (x.run s).1 y

variable {R : Session → α → β → Prop}

theorem Follows.pure (hs : s.Shows v) {a : α} {b : β} (h : R s a b) : Follows v R s (pure a) (.ok b) :=
  ⟨hs, .refl, h⟩

theorem Follows.throw (hs : s.Shows v) (e : Error) : Follows v R s (throw e) (.error e) :=
  ⟨hs, .refl, rfl⟩

/-- A step that goes on as another does from a grown session follows what that one follows. -/
theorem Follows.of_run {x x' : Search α} {y : Except Error β} (hrun : x.run s = x'.run t)
    (hgrows : s.Grows v.disk t) (h : Follows v R t x' y) : Follows v R s x y := by
  obtain ⟨hshown, hgrows', houtcome⟩ := h
  refine ⟨?_, ?_, ?_⟩ <;> rw [hrun]
  · exact hshown
  · exact hgrows.trans hgrows'
  · exact houtcome

theorem Follows.bind {R' : Session → γ → δ → Prop} {x : Search α} {y : Except Error β} {f : α → Search γ}
    {g : β → Except Error δ} (hx : Follows v R s x y)
    (hf : ∀ t a b, t.Shows v → s.Grows v.disk t → R t a b → Follows v R' t (f a) (g b)) :
    Follows v R' s (x >>= f) (y >>= g) := by
  obtain ⟨hshown, hgrows, houtcome⟩ := hx
  have hrun := run_bind x f s
  cases hx : x.run s with
  | mk outcome t =>
    rw [hx] at hshown hgrows houtcome hrun
    cases outcome with
    | error e =>
      cases y with
      | ok b => exact houtcome.elim
      | error e' =>
        have hend : (x >>= f).run s = (MonadExcept.throw e : Search γ).run t := hrun
        cases houtcome
        exact .of_run hend hgrows (.throw hshown e)
    | ok a =>
      cases y with
      | error e => exact houtcome.elim
      | ok b => exact .of_run hrun hgrows (hf t a b hshown hgrows houtcome)

theorem Follows.and_eq {x : Search α} {y : Except Error β} (h : Follows v R s x y) :
    Follows v (fun t a b => R t a b ∧ y = .ok b) s x y := by
  obtain ⟨hshown, hgrows, houtcome⟩ := h
  exact ⟨hshown, hgrows, houtcome.imp fun a b _ hy hab => ⟨hab, hy⟩⟩

/-! ## Files -/

theorem load_grows {d : Disk} (h : s.Coherent d) (path : Path) (importPath : Option String) :
    ((load d path importPath).run s).2.Coherent d ∧ s.Grows d ((load d path importPath).run s).2 ∧
      Matches (fun sheet file =>
          ((load d path importPath).run s).2.knownAt? (d.canonicalOrSelf path) = some sheet ∧ sheet.file = file)
        ((load d path importPath).run s).1 (s.read d (d.canonicalOrSelf path)) := by
  rw [run_load]
  cases hknown : s.knownAt? (d.canonicalOrSelf path) with
  | some sheet =>
    obtain ⟨hcoherent, hgrows⟩ := h.assignImportPath sheet importPath
    simp only [Session.read, hknown]
    exact ⟨hcoherent, hgrows, hknown, rfl⟩
  | none =>
    cases hscan : d.scanLocated (d.canonicalOrSelf path) with
    | error e =>
      simp only [Session.read, hknown, hscan]
      exact ⟨h, .refl, rfl⟩
    | ok file =>
      obtain ⟨hholds, hlocation⟩ := Disk.holds_of_scanLocated hscan
      obtain ⟨hcoherent, hgrows⟩ := h.admitFile file importPath
      simp only [Session.read, hknown, hscan]
      refine ⟨hcoherent.remember (s.has_admitFile file importPath), hgrows.trans (Session.grows_remember hholds), ?_, rfl⟩
      have hnone : (s.admitFile file importPath).2.knownAt? (d.canonicalOrSelf path) = none := hknown
      simp [Session.knownAt?_remember, hnone, hlocation, Path.same]

theorem load_follows (hs : s.Shows v) {path : Path} (hpath : v.disk.IsListed path) (importPath : Option String) :
    Follows v (fun t sheet file => t.knownAt? (v.disk.canonicalOrSelf path) = some sheet ∧ sheet.file = file) s
      (load v.disk path importPath) (v.load path) := by
  obtain ⟨hcoherent, hgrows, houtcome⟩ := load_grows hs.coherent path importPath
  rw [hs.reads _ hpath.isCanonical] at houtcome
  exact ⟨hs.grow hcoherent hgrows, hgrows, houtcome⟩

theorem sources_follows (hs : s.Shows v) (dir : Path) :
    Follows v (fun _ paths paths' => paths = paths' ∧ v.disk.sourceFiles? dir false = some paths) s
      (sources v.disk dir) (v.sources dir) := by
  unfold sources View.sources
  cases hlist : v.disk.sourceFiles? dir false with
  | none => exact .throw hs _
  | some paths => exact .pure hs ⟨rfl, rfl⟩

/-- The sheets stand at the sources, and the plain files are theirs. -/
def LoadedAt (v : View) (paths : List Path) (t : Session) (loaded : List Sheet) (files : List File) : Prop :=
  List.Forall₂ (fun path sheet => t.knownAt? (v.disk.canonicalOrSelf path) = some sheet) paths loaded ∧
    loaded.map (·.file) = files

theorem mapM_load_follows (importPath : Option String) : ∀ {paths : List Path} {s : Session}, s.Shows v →
    (∀ path ∈ paths, v.disk.IsListed path) →
    Follows v (LoadedAt v paths) s (paths.mapM fun path => load v.disk path importPath) (paths.mapM v.load)
  | [], s, hs, _ => .pure hs ⟨.nil, rfl⟩
  | path :: rest, s, hs, hlisted => by
    rw [List.mapM_cons, List.mapM_cons]
    refine (load_follows hs (hlisted path (by simp)) importPath).bind fun t sheet file ht _ hsheet => ?_
    have hrest : Follows v (LoadedAt v rest) t _ _ :=
      mapM_load_follows importPath ht fun p hp => hlisted p (by simp [hp])
    refine hrest.bind fun u loaded files hu hgrows hloaded => .pure hu ⟨?_, ?_⟩
    · exact .cons (hgrows.known _ _ hsheet.1) hloaded.1
    · rw [List.map_cons, hsheet.2, hloaded.2]

theorem mapM_load_eq (hs : s.Shows v) {paths : List Path} {loaded : List Sheet}
    (hlisted : ∀ path ∈ paths, v.disk.IsListed path)
    (hloaded : List.Forall₂ (fun path sheet => s.knownAt? (v.disk.canonicalOrSelf path) = some sheet) paths loaded) :
    paths.mapM v.load = .ok (loaded.map (·.file)) := by
  induction hloaded with
  | nil => rfl
  | @cons path sheet rest loaded hpath _ ih =>
    have hload : v.load path = .ok sheet.file := by
      rw [View.load, ← hs.reads _ (hlisted path (by simp)).isCanonical, Session.read, hpath]
    rw [List.mapM_cons, hload, ih fun p hp => hlisted p (by simp [hp])]
    rfl

/-! ## Siblings -/

theorem siblings_of_collected (hs : s.Shows v) {file : File} {found : List Sheet}
    (h : s.Collected v.disk file found) : v.siblings file = .ok (found.map (·.file)) := by
  obtain ⟨paths, loaded, hpaths, hloaded, rfl⟩ := h
  have hload := mapM_load_eq hs (Disk.isListed_of_mem_filter hpaths) hloaded
  simp only [View.siblings, View.sources, hpaths, bind, Except.bind, hload]
  rw [List.filter_map]
  rfl

theorem loadSiblings_follows (hs : s.Shows v) (sheet : Sheet) :
    Follows v (fun t found files => t.Collected v.disk sheet.file found ∧ found.map (·.file) = files) s
      (loadSiblings v.disk sheet) (v.siblings sheet.file) := by
  refine (sources_follows hs _).bind fun t paths _ ht _ hpaths => ?_
  obtain ⟨rfl, hpaths⟩ := hpaths
  refine .of_run (run_get_bind _ t) .refl ?_
  refine (mapM_load_follows (t.importPath? sheet) ht (Disk.isListed_of_mem_filter hpaths)).bind
    fun u loaded files hu _ hloaded => ?_
  refine .pure hu ⟨⟨paths, loaded, hpaths, hloaded.1, rfl⟩, ?_⟩
  rw [← hloaded.2, List.filter_map]
  rfl

theorem siblings_follows (hs : s.Shows v) {sheet : Sheet} (hsheet : s.Has sheet) :
    Follows v (fun _ found files => found.map (·.file) = files) s (siblings v.disk sheet)
      (v.siblings sheet.file) := by
  refine .of_run (run_get_bind _ s) .refl ?_
  cases hcached : s.siblings? sheet with
  | some found =>
    rw [siblings_of_collected hs (hs.coherent.siblings sheet found hsheet hcached)]
    exact .pure hs rfl
  | none =>
    rw [← bind_pure (v.siblings sheet.file)]
    refine (loadSiblings_follows hs sheet).bind fun t found files ht hgrows hfound => ?_
    obtain ⟨hcoherent, hassign⟩ := ht.coherent.assignSiblings (hsheet.mono hgrows.files) hfound.1
    have hdone : Follows v (fun _ found files => found.map (·.file) = files) (t.assignSiblings sheet found)
        (Pure.pure found) (Pure.pure files) := .pure (ht.grow hcoherent hassign) hfound.2
    exact .of_run (t := t.assignSiblings sheet found) rfl hassign hdone

/-! ## Names -/

/-- The same struct is found, or none in both. -/
def SameFound (_ : Session) (found : Option Found) (plain : Option (File × Struct)) : Prop :=
  found.map Found.plain = plain

theorem inSheet_plain (name : String) (sheet : Sheet) :
    (inSheet name sheet).map Found.plain = View.inFile name sheet.file := by
  simp only [inSheet, View.inFile, Option.map_map]
  rfl

theorem findSome?_inSheet_plain (name : String) : ∀ sheets : List Sheet,
    (sheets.findSome? (inSheet name)).map Found.plain = (sheets.map (·.file)).findSome? (View.inFile name)
  | [] => rfl
  | sheet :: rest => by
    have hhead := inSheet_plain name sheet
    rw [List.map_cons, List.findSome?_cons, List.findSome?_cons, ← hhead]
    cases inSheet name sheet with
    | some found => rfl
    | none => exact findSome?_inSheet_plain name rest

theorem Follows.findSomeM? {ι : Type} {f : ι → Search (Option Found)}
    {g : ι → Except Error (Option (File × Struct))} : ∀ {items : List ι} {s : Session}, s.Shows v →
    (∀ a ∈ items, ∀ t : Session, t.Shows v → s.Grows v.disk t → Follows v SameFound t (f a) (g a)) →
      Follows v SameFound s (items.findSomeM? f) (items.findSomeM? g)
  | [], s, hs, _ => .pure hs rfl
  | a :: rest, s, hs, h => by
    rw [List.findSomeM?_cons, List.findSomeM?_cons]
    refine (h a (by simp) s hs .refl).bind fun t found plain ht hgrows hfound => ?_
    cases hfound
    cases found with
    | some found => exact .pure ht rfl
    | none => exact .findSomeM? ht fun b hb u hu hgrows' => h b (by simp [hb]) u hu (hgrows.trans hgrows')

section Next

variable {next : Sheet → String → Search (Option Found)} {plain : File → String → Except Error (Option (File × Struct))}
  {name : String}

theorem inImport_follows (hs : s.Shows v) (sheet : Sheet) (importPath : String) (required : Option String)
    (hnext : ∀ (t : Session) (candidate : Sheet), t.Shows v → s.Grows v.disk t → t.Has candidate →
      Follows v SameFound t (next candidate name) (plain candidate.file name)) :
    Follows v SameFound s (inImport v.disk next sheet importPath required name)
      (v.inImport plain sheet.file importPath required name) := by
  refine .of_run (run_get_bind _ s) .refl ?_
  rw [View.inImport, hs.search]
  cases v.paths.packageDir? v.disk sheet.file.directory importPath with
  | none => exact .pure hs rfl
  | some dir =>
    refine (sources_follows hs dir).bind fun t paths _ ht hgrows hpaths => ?_
    obtain ⟨rfl, hpaths⟩ := hpaths
    refine .findSomeM? ht fun path hpath u hu hgrows' => ?_
    refine (load_follows hu ⟨dir, paths, hpaths, hpath⟩ _).bind fun w candidate file hw hgrows'' hat => ?_
    obtain ⟨hat, rfl⟩ := hat
    by_cases hrequired : required.any (· != candidate.file.package) = true
    · simp only [hrequired, ite_true]
      exact .pure hw rfl
    · simp only [hrequired, Bool.false_eq_true, ite_false]
      exact hnext w candidate hw ((hgrows.trans hgrows').trans hgrows'') (hw.coherent.has_of_knownAt hat)

theorem bareName_follows (hs : s.Shows v) {sheet : Sheet} (hsheet : s.Has sheet)
    (hnext : ∀ (t : Session) (candidate : Sheet), t.Shows v → s.Grows v.disk t → t.Has candidate →
      Follows v SameFound t (next candidate name) (plain candidate.file name)) :
    Follows v SameFound s (bareName v.disk next sheet name) (v.bareName plain sheet.file name) := by
  have hown := inSheet_plain name sheet
  rw [bareName, View.bareName, ← hown]
  cases inSheet name sheet with
  | some found => exact .pure hs rfl
  | none =>
    refine (siblings_follows hs hsheet).bind fun t found _ ht hgrows hfound => ?_
    rw [← hfound, ← findSome?_inSheet_plain]
    cases found.findSome? (inSheet name) with
    | some found => exact .pure ht rfl
    | none =>
      refine .findSomeM? ht fun path _ u hu hgrows' => ?_
      exact inImport_follows hu sheet path none fun w candidate hw hgrows'' =>
        hnext w candidate hw ((hgrows.trans hgrows').trans hgrows'')

theorem reference_follows (hs : s.Shows v) {sheet : Sheet} (hsheet : s.Has sheet) (ref : TypeRef)
    (hnext : ∀ (t : Session) (candidate : Sheet), t.Shows v → s.Grows v.disk t → t.Has candidate →
      Follows v SameFound t (next candidate ref.name) (plain candidate.file ref.name)) :
    Follows v SameFound s (reference v.disk next sheet ref) (v.reference plain sheet.file ref) := by
  unfold reference View.reference
  cases ref.package with
  | none => exact bareName_follows hs hsheet hnext
  | some qualifier =>
    refine .findSomeM? hs fun entry _ t ht hgrows => ?_
    exact inImport_follows ht sheet entry.1 entry.2 fun u candidate hu hgrows' =>
      hnext u candidate hu (hgrows.trans hgrows')

end Next

theorem guarded_follows (hs : s.Shows v) {key : Path × String} (hleave : ∀ t a b, R t a b → R (t.leave key) a b)
    {body : Search α} {y : Except Error β} (h : Follows v R (s.enter key) body y) :
    Follows v R s (guarded key body)
      (if s.active.any (Session.sameKey key) then .error (.cyclicReference key.1 key.2) else y) := by
  have hrun := run_guarded key body s
  obtain ⟨hshown, hgrows, houtcome⟩ := h
  by_cases hkey : s.active.any (Session.sameKey key) = true
  · rw [if_pos (show s.isActive key = true from hkey)] at hrun
    rw [if_pos hkey]
    refine ⟨?_, ?_, ?_⟩ <;> rw [hrun]
    · exact hs
    · exact .refl
    · rfl
  · rw [if_neg (show ¬ s.isActive key = true from hkey)] at hrun
    rw [if_neg hkey]
    refine ⟨?_, ?_, ?_⟩ <;> rw [hrun]
    · exact hshown.leave key
    · refine ⟨hgrows.files, hgrows.known, hgrows.scanned, ?_, hgrows.search⟩
      exact Session.leave_active hgrows.active (by simpa using hkey)
    · exact houtcome.imp fun a b _ _ hab => hleave _ a b hab

/-- The plain answer beyond the depth of a search, as a step. -/
def ofPlain (beyond : Except Error (Option (File × Struct))) : Search (Option Found) :=
  ofScan (beyond.map (Option.map fun found => ⟨⟨0, found.1⟩, found.2⟩))

theorem ofPlain_follows (hs : s.Shows v) (beyond : Except Error (Option (File × Struct))) :
    Follows v SameFound s (ofPlain beyond) beyond := by
  cases beyond with
  | error e => exact .throw hs e
  | ok found =>
    refine .pure hs ?_
    cases found <;> rfl

/-- A search does what the plain search says. -/
theorem watchedWithin_follows (beyond : Except Error (Option (File × Struct))) :
    ∀ (depth : Nat) {s : Session} {sheet : Sheet} (text : String), s.Shows v → s.Has sheet →
      Follows v SameFound s (watchedWithin v.disk (fun _ => true) (ofPlain beyond) depth sheet text)
        (v.typeTextWithin beyond depth s.active sheet.file text)
  | 0, s, sheet, text, hs, _ => ofPlain_follows hs beyond
  | depth + 1, s, sheet, text, hs, hsheet => by
    rw [watchedWithin, View.typeTextWithin]
    cases TypeRef.parse? text with
    | none => exact .pure hs rfl
    | some ref =>
      simp only [watch_true]
      refine guarded_follows hs (fun _ _ _ h => h)
        (reference_follows (hs.enter _) hsheet ref fun t candidate ht hgrows hcandidate => ?_)
      have ih := watchedWithin_follows beyond depth ref.name ht hcandidate
      rw [hgrows.active] at ih
      exact ih

end Search

/-! ## Requests for types -/

open Search

/-- A request for a type has the outcome of the plain search, at every depth from the limit on and whatever
lies beyond. -/
theorem extractType_follows {sheet : Sheet} (hs : (s.remember sheet).Shows v) (hrest : s.At []) (hsheet : s.Has sheet)
    (text : String) (beyond : Except Error (Option (File × Struct))) {depth : Nat}
    (hdepth : depthLimit v.disk ≤ depth) :
    ((Session.extractType v.disk sheet text).run s).2.Shows v ∧
      (s.remember sheet).Grows v.disk ((Session.extractType v.disk sheet text).run s).2 ∧
      ((Session.extractType v.disk sheet text).run s).1.map Found.plain =
        v.extractType beyond depth sheet.file text := by
  have hfollows : Follows v (fun _ found plain => found.plain = plain) (s.remember sheet)
      (orNotFound text (watchedWithin v.disk (fun _ => true) (ofPlain beyond) depth sheet text))
      (v.extractType beyond depth sheet.file text) := by
    have hsearch := watchedWithin_follows beyond depth text hs (hsheet.mono (by simp))
    rw [Session.remember_active, hrest.active] at hsearch
    refine hsearch.bind fun t found plain ht _ hfound => ?_
    cases hfound
    cases found with
    | some found => exact .pure ht rfl
    | none => exact .throw ht _
  obtain ⟨hshown, hgrows, houtcome⟩ := hfollows
  rw [run_extractType hrest (ofPlain beyond) sheet text hdepth]
  exact ⟨hshown, hgrows, houtcome.map_eq⟩

/-! ## What requests keep -/

namespace Request

/-- The request is made to the same resolver, on the given disk. -/
def StaysOn (d e : Disk) (q : Request) : Prop :=
  e = d ∧ ∀ search indexer, q ≠ renew search indexer

/-- The request is made to the same resolver, for files of the given disk. -/
def ScansOn (d e : Disk) (q : Request) : Prop :=
  StaysOn d e q ∧ ∀ path source, q ≠ scanSource path source

/-- What a request makes of a session: what was kept stays, and new are files that were scanned or given. -/
structure Keeps (d : Disk) (q : Request) (s : Session) : Prop where
  coherent : (q.after d s).Coherent d
  files : s.files <+: (q.after d s).files
  search : (q.after d s).search = s.search
  known : ∀ entry ∈ (q.after d s).known, entry ∈ s.known ∨ d.Holds entry.2.file ∨ entry.2 ∈ q.given
  handed : ∀ sheet ∈ q.handed d s, (q.after d s).Has sheet ∧
    ((∃ place, (place, sheet) ∈ (q.after d s).known) ∨ d.Holds sheet.file ∨
      ∃ path source, q = scanSource path source)

variable {d : Disk} {q : Request}

theorem after_of_bind {α : Type} {x : Search α} {f : α → List Sheet}
    (hstep : q.step d = x >>= fun a => pure (f a)) (s : Session) :
    q.after d s = (x.run s).2 ∧ ∀ sheet ∈ q.handed d s, ∃ a, (x.run s).1 = .ok a ∧ sheet ∈ f a := by
  have hrun := run_bind x (fun a => pure (f a)) s
  rw [after, handed, hstep, hrun]
  cases x.run s with
  | mk outcome t =>
    cases outcome with
    | ok a => exact ⟨rfl, fun sheet hsheet => ⟨a, rfl, hsheet⟩⟩
    | error e => exact ⟨rfl, fun sheet hsheet => by cases hsheet⟩

theorem keeps_scan (hs : s.Coherent d) (path : Path) : Keeps d (scan path) s := by
  obtain ⟨hafter, hhanded⟩ := after_of_bind (q := scan path) (x := load d path none) (f := ([·])) rfl s
  obtain ⟨hcoherent, hgrows, houtcome⟩ := load_grows hs path none
  rw [← hafter] at hcoherent hgrows houtcome
  refine ⟨hcoherent, hgrows.files, hgrows.search, fun entry hentry => ?_, fun sheet hsheet => ?_⟩
  · exact (hgrows.scanned entry hentry).imp_right .inl
  · obtain ⟨found, hfound, hmem⟩ := hhanded sheet hsheet
    rw [List.mem_singleton.1 hmem]
    rw [hfound] at houtcome
    obtain ⟨file, -, hat, -⟩ := houtcome.exists_ok
    obtain ⟨place, hplace, -⟩ := Session.exists_of_knownAt hat
    exact ⟨hcoherent.known _ hplace, .inl ⟨place, hplace⟩⟩

theorem keeps_meet (hs : s.Coherent d) {outcome : Except Error File}
    (hstep : q.step d = do return [← meet (← ofScan outcome) none])
    (hfile : ∀ file, outcome = .ok file → d.Holds file ∨ ∃ path source, q = scanSource path source) :
    Keeps d q s := by
  rw [← bind_assoc] at hstep
  obtain ⟨hafter, hhanded⟩ := after_of_bind hstep s
  cases outcome with
  | error e =>
    have hnone : q.after d s = s := hafter
    refine ⟨by rw [hnone]; exact hs, by simp [hnone], by rw [hnone], fun entry hentry => ?_, fun sheet hsheet => ?_⟩
    · rw [hnone] at hentry; exact .inl hentry
    · obtain ⟨found, hfound, -⟩ := hhanded sheet hsheet
      cases hfound
  | ok file =>
    have hmet : q.after d s = (s.admitFile file none).2 := hafter
    obtain ⟨hcoherent, hgrows⟩ := hs.admitFile file none
    rw [← hmet] at hcoherent hgrows
    refine ⟨hcoherent, hgrows.files, hgrows.search, fun entry hentry => ?_, fun sheet hsheet => ?_⟩
    · exact (hgrows.scanned entry hentry).imp_right .inl
    · obtain ⟨found, hfound, hmem⟩ := hhanded sheet hsheet
      cases hfound
      rw [List.mem_singleton.1 hmem, hmet]
      exact ⟨s.has_admitFile file none, .inr (hfile file rfl)⟩

theorem keeps_extractType (hs : s.Coherent d) (hrest : s.At []) {sheet : Sheet} (hsheet : s.Has sheet) {text : String}
    (hstep : q.step d = Session.extractType d sheet text >>= fun _ => pure []) (hgiven : q.given = [sheet]) :
    Keeps d q s := by
  obtain ⟨hafter, hhanded⟩ := after_of_bind hstep s
  have hremember : (s.remember sheet).Coherent d := hs.remember hsheet
  obtain ⟨hshown, hgrows, -⟩ := extractType_follows hremember.shows hrest hsheet text (.ok none) le_rfl
  have hcoherent : ((Session.extractType d sheet text).run s).2.Coherent d := hshown.coherent
  have hgrows : (s.remember sheet).Grows d ((Session.extractType d sheet text).run s).2 := hgrows
  rw [← hafter] at hcoherent hgrows
  refine ⟨hcoherent, ?_, ?_, fun entry hentry => ?_, fun other hother => ?_⟩
  · simpa using hgrows.files
  · simpa using hgrows.search
  · rcases hgrows.scanned entry hentry with hold | hscanned
    · rcases Session.mem_known_remember hold with hold | rfl
      · exact .inl hold
      · exact .inr (.inr (by simp [hgiven]))
    · exact .inr (.inl hscanned)
  · obtain ⟨found, -, hmem⟩ := hhanded other hother
    cases hmem

/-- A request to the same resolver keeps a coherent session coherent. -/
theorem keeps (hs : s.Coherent d) (hrest : s.At []) (hq : StaysOn d d q) (hgiven : ∀ sheet ∈ q.given, s.Has sheet) :
    Keeps d q s := by
  cases q with
  | scan path => exact keeps_scan hs path
  | scanAnew path => exact keeps_meet hs rfl fun file hfile => .inl (Disk.holds_of_scan hfile).1
  | scanSource path source => exact keeps_meet hs rfl fun _ _ => .inr ⟨path, source, rfl⟩
  | extractType sheet text => exact keeps_extractType hs hrest (hgiven sheet (by simp [given])) rfl rfl
  | extractArgType sheet arg => exact keeps_extractType hs hrest (hgiven sheet (by simp [given])) rfl rfl
  | renew search indexer => exact absurd rfl (hq.2 search indexer)

end Request

/-! ## Runs -/

/-- Every run on one disk with one resolver leads to a coherent session that has met the files in hand. -/
theorem Run.coherent {d : Disk} {hand : List Sheet} (run : Run (Request.StaysOn d) hand s) :
    s.Coherent d ∧ ∀ sheet ∈ hand, s.Has sheet := by
  induction run with
  | start search =>
    refine ⟨⟨by simp [Session.Keyed, Session.start], by simp [Session.start], ?_⟩, by simp⟩
    intro sheet found _ hfound
    simp [Session.siblings?, Session.start] at hfound
  | @request hand s e q run hq hgiven ih =>
    obtain ⟨rfl, hrenew⟩ := hq
    have hkeeps := Request.keeps ih.1 run.at_rest ⟨rfl, hrenew⟩ fun sheet hsheet => ih.2 sheet (hgiven sheet hsheet)
    refine ⟨hkeeps.coherent, fun sheet hsheet => ?_⟩
    rcases List.mem_append.1 hsheet with hsheet | hsheet
    · exact (ih.2 sheet hsheet).mono hkeeps.files
    · exact (hkeeps.handed sheet hsheet).1

theorem Run.mono {allowed allowed' : Disk → Request → Prop} (h : ∀ d q, allowed d q → allowed' d q)
    {hand : List Sheet} (run : Run allowed hand s) : Run allowed' hand s := by
  induction run with
  | start search => exact .start search
  | request _ hq hgiven ih => exact .request ih (h _ _ hq) hgiven

/-- If only files of the disk are scanned, what is known and what is in hand is as the disk has it. -/
theorem Run.holds {d : Disk} {hand : List Sheet} (run : Run (Request.ScansOn d) hand s) :
    (∀ entry ∈ s.known, d.Holds entry.2.file) ∧ ∀ sheet ∈ hand, d.Holds sheet.file := by
  induction run with
  | start search => exact ⟨by simp [Session.start], by simp⟩
  | @request hand s e q run hq hgiven ih =>
    obtain ⟨⟨rfl, hrenew⟩, hsource⟩ := hq
    obtain ⟨hcoherent, hhas⟩ := (run.mono fun _ _ h => h.1).coherent
    have hkeeps := Request.keeps hcoherent run.at_rest ⟨rfl, hrenew⟩ fun sheet hsheet => hhas sheet (hgiven sheet hsheet)
    have hknown : ∀ entry ∈ (q.after e s).known, e.Holds entry.2.file := by
      intro entry hentry
      rcases hkeeps.known entry hentry with hold | hscanned | hmem
      · exact ih.1 entry hold
      · exact hscanned
      · exact ih.2 _ (hgiven _ hmem)
    refine ⟨hknown, fun sheet hsheet => ?_⟩
    rcases List.mem_append.1 hsheet with hsheet | hsheet
    · exact ih.2 sheet hsheet
    · rcases (hkeeps.handed sheet hsheet).2 with ⟨place, hplace⟩ | hscanned | ⟨path, source, hq⟩
      · exact hknown _ hplace
      · exact hscanned
      · exact absurd hq (hsource path source)

end GoOutline
