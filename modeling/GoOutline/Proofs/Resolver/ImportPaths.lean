import GoOutline.Proofs.Resolver.Transparency

/-!
# Import paths

A file takes the import path of the first search that brings it in: one that comes to it behind an import, or
that loads it as a sibling of such a file. A list of siblings is loaded once. If an earlier request has loaded
it from within the package, a later search behind an import finds a struct through the list and does not bring
its file in. `brought` is what a search brings in, and a struct that it finds is without an import path exactly if its
file had none before and is not brought in (`importPath_none_iff`).
-/
namespace GoOutline

/-! ## Notes on files met before -/

namespace Session

variable {s : Session} {sheet other : Sheet}

/-- Meeting a file leaves the notes on the files met before as they are. -/
theorem notes_meet_of_lt (file : File) (importPath : Option String) (h : sheet.number < s.notes.length) :
    ((s.admitFile file importPath).2.remember other).notes[sheet.number]? = s.notes[sheet.number]? := by
  rw [remember_notes, admitFile_notes, List.getElem?_append_left h]

end Session

/-! ## What a search brings in -/

namespace View

variable (v : View)

/-- What the steps of a search through a list bring in, up to the one where it ends. -/
def broughtUntil {ι : Type} (search : ι → Except Error (Option (File × Struct))) (brought : ι → List Path) :
    List ι → List Path
  | [] => []
  | i :: rest =>
    brought i ++
      match search i with
      | .ok none => broughtUntil search brought rest
      | _ => []

/-- The locations that the other sources of a file's directory lead to. -/
def others (file : File) : List Path :=
  (((v.disk.sourceFiles? file.directory false).getD []).filter fun path =>
    !(v.disk.canonicalOrSelf path).same file.location).map v.disk.canonicalOrSelf

/-- A search at a source behind an import brings in the file that the source leads to, and what the search from
there does if the file is of the required package. -/
def broughtBySource (brought : File → String → List Path) (required : Option String) (name : String) (path : Path) :
    List Path :=
  v.disk.canonicalOrSelf path ::
    match v.load path with
    | .ok candidate => if required.any (· != candidate.package) then [] else brought candidate name
    | .error _ => []

/-- What a search in the package of an import brings in. -/
def broughtByImport (search : File → String → Except Error (Option (File × Struct)))
    (brought : File → String → List Path) (file : File) (importPath : String) (required : Option String)
    (name : String) : List Path :=
  match v.paths.packageDir? v.disk file.directory importPath with
  | none => []
  | some dir =>
    broughtUntil (v.inSource search required name) (v.broughtBySource brought required name)
      ((v.disk.sourceFiles? dir false).getD [])

/-- A search for a bare name brings in the siblings of the file, unless they have been collected, and then what is
behind its dot imports. -/
def broughtByName (collected : File → Bool) (search : File → String → Except Error (Option (File × Struct)))
    (brought : File → String → List Path) (file : File) (name : String) : List Path :=
  if (file.struct? name).isSome then []
  else
    (if collected file then [] else v.others file) ++
      match v.siblings file with
      | .error _ => []
      | .ok siblings =>
        if siblings.any fun sibling => (sibling.struct? name).isSome then []
        else
          broughtUntil (fun path => v.inImport search file path none name)
            (fun path => v.broughtByImport search brought file path none name) file.dotImports

/-- What the search for a type brings in, where the siblings of some files have been collected before. The
search is within the given depth, with the names on the way so far. -/
def broughtWithin (collected : File → Bool) (beyond : Except Error (Option (File × Struct))) :
    Nat → List (Path × String) → File → String → List Path
  | 0, _, _, _ => []
  | depth + 1, names, file, text =>
    match TypeRef.parse? text with
    | none => []
    | some ref =>
      let key := (file.directory, ref.display)
      let search := v.typeTextWithin beyond depth (key :: names)
      let brought := broughtWithin collected beyond depth (key :: names)
      if names.any (Session.sameKey key) then []
      else
        match ref.package with
        | none => v.broughtByName collected search brought file ref.name
        | some qualifier =>
          broughtUntil (fun entry => v.inImport search file entry.1 entry.2 ref.name)
            (fun entry => v.broughtByImport search brought file entry.1 entry.2 ref.name)
            (file.importsNamed qualifier)

/-- What the search for a type in a file brings in, where the siblings of some files have been collected before. -/
def brought (collected : File → Bool) (file : File) (text : String) : List Path :=
  v.broughtWithin collected (.error (.typeNotFound text)) (Search.depthLimit v.disk) [] file text

end View

/-! ## The account of a search -/

/-- What a search that began in the session `s₀` has made of the notes once it has brought in the locations. -/
structure Session.Account (v : View) (s₀ : Session) (brought : List Path) (s : Session) : Prop where
  /-- The known files with an import path are those that had one and those brought in. -/
  paths : ∀ sheet, s.knownAt? sheet.file.location = some sheet →
    ((s.importPath? sheet).isSome = true ↔
      (s₀.importPath? sheet).isSome = true ∨ brought.any sheet.file.location.same = true)
  /-- The files of a new list of siblings have been brought in. -/
  lists : ∀ sheet found, s.knownAt? sheet.file.location = some sheet → s.siblings? sheet = some found →
    s₀.siblings? sheet = some found ∨ ∀ location ∈ v.others sheet.file, location ∈ brought
  /-- Lists of siblings stay. -/
  kept : ∀ sheet found, s₀.siblings? sheet = some found → s.siblings? sheet = some found
  /-- Known files stay known. -/
  known : ∀ location sheet, s₀.knownAt? location = some sheet → s.knownAt? location = some sheet
  /-- A file that has become known is new to the notes. -/
  fresh : ∀ sheet, s.knownAt? sheet.file.location = some sheet →
    s₀.knownAt? sheet.file.location = some sheet ∨ s₀.notes.length ≤ sheet.number
  grown : s₀.notes.length ≤ s.notes.length

namespace Session

variable {v : View} {s₀ s : Session} {brought : List Path}

theorem Account.start (v : View) (s : Session) : Account v s [] s :=
  ⟨fun _ _ => by simp, fun _ _ _ h => .inl h, fun _ _ h => h, fun _ _ h => h, fun _ h => .inl h, le_rfl⟩

/-- A file known at any location is known at its own. -/
theorem Coherent.knownAt?_location {d : Disk} (hs : s.Coherent d) {location : Path} {sheet : Sheet}
    (hat : s.knownAt? location = some sheet) :
    sheet.file.location.same location = true ∧ s.knownAt? sheet.file.location = some sheet := by
  obtain ⟨place, hmem, hplace⟩ := exists_of_knownAt hat
  have hkey : place = sheet.file.location := hs.keyed _ hmem
  have hsame : sheet.file.location.same location = true := hkey ▸ hplace
  exact ⟨hsame, (knownAt?_congr hsame).trans hat⟩

/-- A known file is brought in once more. -/
theorem Account.assignImportPath (h : Account v s₀ brought s) (hs : s.Coherent v.disk) {location : Path}
    {sheet : Sheet} (hat : s.knownAt? location = some sheet) (importPath : String) :
    Account v s₀ (brought ++ [location]) (s.assignImportPath sheet (some importPath)) := by
  have hsame := (hs.knownAt?_location hat).1
  have hsheet := hs.has_of_knownAt hat
  refine ⟨fun other hother => ?_, fun other found hother hfound => ?_, fun other found hfound => ?_, h.known,
    h.fresh, ?_⟩
  · have hother : s.knownAt? other.file.location = some other := hother
    by_cases hnumber : sheet.number = other.number
    · have heq : sheet = other := hsheet.eq_of_number (hs.has_of_knownAt hother) hnumber
      subst heq
      rw [importPath?_assignImportPath hsheet]
      simp [hsame]
    · rw [importPath?_assignImportPath_of_ne hnumber, h.paths other hother]
      have hdiff : other.file.location.same location = false := by
        by_contra hloc
        rw [knownAt?_congr (by simpa using hloc), hat] at hother
        exact hnumber (congrArg Sheet.number (Option.some.inj hother))
      simp [hdiff]
  · rw [siblings?_assignImportPath] at hfound
    exact (h.lists other found hother hfound).imp_right fun hall p hp => by simp [hall p hp]
  · rw [siblings?_assignImportPath]
    exact h.kept other found hfound
  · simpa [Session.assignImportPath] using h.grown

/-- Once a new file is met and remembered, a known file was known before, elsewhere, or is the new one. -/
theorem Coherent.knownAt?_meet {d : Disk} (hs : s.Coherent d) {file : File} (hnew : s.knownAt? file.location = none)
    (importPath : Option String) {sheet : Sheet}
    (hsheet : ((s.admitFile file importPath).2.remember ⟨s.notes.length, file⟩).knownAt? sheet.file.location =
      some sheet) :
    (s.knownAt? sheet.file.location = some sheet ∧ sheet.number < s.notes.length ∧
      sheet.file.location.same file.location = false) ∨ sheet = ⟨s.notes.length, file⟩ := by
  rw [knownAt?_remember] at hsheet
  change (s.knownAt? sheet.file.location).or _ = _ at hsheet
  cases hat : s.knownAt? sheet.file.location with
  | some found =>
    rw [hat, Option.some_or] at hsheet
    cases hsheet
    refine .inl ⟨rfl, (hs.has_of_knownAt hat).number_lt, ?_⟩
    by_contra hsame
    rw [knownAt?_congr (by simpa using hsame), hnew] at hat
    cases hat
  | none =>
    rw [hat, Option.none_or] at hsheet
    split at hsheet
    · exact .inr (Option.some.inj hsheet).symm
    · cases hsheet

/-- A file that was not known is brought in and remembered. -/
theorem Account.meet (h : Account v s₀ brought s) (hs : s.Coherent v.disk) {file : File}
    (hnew : s.knownAt? file.location = none) (importPath : String) :
    Account v s₀ (brought ++ [file.location])
      ((s.admitFile file (some importPath)).2.remember ⟨s.notes.length, file⟩) := by
  refine ⟨fun sheet hsheet => ?_, fun sheet found hsheet hfound => ?_, fun sheet found hfound => ?_,
    fun p sheet hp => knownAt?_remember_of_some (h.known p sheet hp), fun sheet hsheet => ?_, ?_⟩
  · rcases hs.knownAt?_meet hnew _ hsheet with ⟨hold, hlt, hdiff⟩ | rfl
    · rw [importPath?, notes_meet_of_lt _ _ hlt, ← importPath?, h.paths sheet hold]
      simp [hdiff]
    · simp [importPath?, Path.same]
  · rcases hs.knownAt?_meet hnew _ hsheet with ⟨hold, hlt, -⟩ | rfl
    · rw [siblings?, notes_meet_of_lt _ _ hlt, ← siblings?] at hfound
      exact (h.lists sheet found hold hfound).imp_right fun hall p hp => by simp [hall p hp]
    · simp [siblings?] at hfound
  · have hold := h.kept sheet found hfound
    rw [siblings?, notes_meet_of_lt _ _ (number_lt_of_siblings hold), ← siblings?]
    exact hold
  · rcases hs.knownAt?_meet hnew _ hsheet with ⟨hold, -, -⟩ | rfl
    · exact h.fresh sheet hold
    · exact .inr h.grown
  · have := h.grown
    simp only [remember_notes, admitFile_notes, List.length_append, List.length_singleton]
    omega

theorem Account.assignSiblings (h : Account v s₀ brought s) (hs : s.Coherent v.disk) {sheet : Sheet}
    (hsheet : s.Has sheet) {found : List Sheet} (hall : ∀ location ∈ v.others sheet.file, location ∈ brought) :
    Account v s₀ brought (s.assignSiblings sheet found) := by
  refine ⟨fun other hother => ?_, fun other list hother hlist => ?_, fun other list hlist => ?_, h.known, h.fresh, ?_⟩
  · rw [importPath?_assignSiblings]
    exact h.paths other hother
  · have hother : s.knownAt? other.file.location = some other := hother
    rcases siblings?_assignSiblings (hs.has_of_knownAt hother) hsheet hlist with hold | ⟨rfl, rfl⟩
    · exact h.lists other list hother hold
    · exact .inr hall
  · exact siblings?_assignSiblings_of_some (h.kept other list hlist)
  · simpa [Session.assignSiblings] using h.grown

/-- What is brought in again changes nothing. -/
theorem Account.append (h : Account v s₀ brought s) {again : List Path} (hagain : ∀ p ∈ again, p ∈ brought) :
    Account v s₀ (brought ++ again) s := by
  refine ⟨fun sheet hsheet => ?_, fun sheet found hsheet hfound => ?_, h.kept, h.known, h.fresh, h.grown⟩
  · have hany : (brought ++ again).any sheet.file.location.same = brought.any sheet.file.location.same := by
      rw [List.any_append, Bool.or_eq_left_iff_imp]
      intro hmet
      obtain ⟨p, hp, hsame⟩ := List.any_eq_true.1 hmet
      exact List.any_eq_true.2 ⟨p, hagain p hp, hsame⟩
    rw [hany]
    exact h.paths sheet hsheet
  · exact (h.lists sheet found hsheet hfound).imp_right fun hall p hp => List.mem_append_left _ (hall p hp)

/-- The siblings of the file at its location had been collected before. -/
def collected (s₀ : Session) (file : File) : Bool :=
  match s₀.knownAt? file.location with
  | some sheet => (s₀.siblings? sheet).isSome
  | none => false

/-- The file is known, and it has an import path or is in a list of siblings that was collected before. -/
structure Accounted (s₀ s : Session) (sheet : Sheet) : Prop where
  known : s.knownAt? sheet.file.location = some sheet
  marked : (s.importPath? sheet).isSome = true ∨
    ∃ other found, s₀.siblings? other = some found ∧ sheet ∈ found

theorem Account.enter (h : Account v s₀ brought s) (key : Path × String) : Account v s₀ brought (s.enter key) :=
  ⟨h.paths, h.lists, h.kept, h.known, h.fresh, h.grown⟩

theorem Account.leave (h : Account v s₀ brought s) (key : Path × String) : Account v s₀ brought (s.leave key) :=
  ⟨h.paths, h.lists, h.kept, h.known, h.fresh, h.grown⟩

end Session

/-! ## Steps that bring files in -/

namespace Search

variable {α β γ δ : Type} {v : View} {s₀ s t : Session} {before : List Path}

/-- From the session on, the step follows the plain computation, and what it brings in is accounted for. -/
structure Brings (v : View) (s₀ : Session) (R : Session → α → β → Prop) (before : List Path) (s : Session)
    (x : Search α) (y : Except Error β) (brought : List Path) : Prop where
  follows : Follows v R s x y
  account : ∀ a, (x.run s).1 = .ok a → s₀.Account v (before ++ brought) (x.run s).2

variable {R : Session → α → β → Prop} {brought : List Path}

/-- The account of a step is a part of what its results are. -/
theorem brings_iff {x : Search α} {y : Except Error β} : Brings v s₀ R before s x y brought ↔
    Follows v (fun t a b => R t a b ∧ s₀.Account v (before ++ brought) t) s x y := by
  constructor
  · rintro ⟨⟨hshown, hgrows, houtcome⟩, haccount⟩
    exact ⟨hshown, hgrows, houtcome.imp fun a b ha _ hab => ⟨hab, haccount a ha⟩⟩
  · rintro ⟨hshown, hgrows, houtcome⟩
    refine ⟨⟨hshown, hgrows, houtcome.imp fun _ _ _ _ h => h.1⟩, fun a ha => ?_⟩
    rw [ha] at houtcome
    obtain ⟨b, -, -, haccount⟩ := houtcome.exists_ok
    exact haccount

theorem Brings.pure (hs : s.Shows v) (h : s₀.Account v before s) {a : α} {b : β} (hab : R s a b) :
    Brings v s₀ R before s (pure a) (.ok b) [] :=
  ⟨.pure hs hab, fun _ _ => by rw [List.append_nil]; exact h⟩

theorem Brings.throw (hs : s.Shows v) (e : Error) : Brings v s₀ R before s (throw e) (.error e) brought :=
  ⟨.throw hs e, fun _ h => by cases h⟩

theorem Brings.of_run {x x' : Search α} {y : Except Error β} (hrun : x.run s = x'.run t)
    (hgrows : s.Grows v.disk t) (h : Brings v s₀ R before t x' y brought) :
    Brings v s₀ R before s x y brought :=
  ⟨.of_run hrun hgrows h.follows, by rw [hrun]; exact h.account⟩

theorem Brings.bind {R' : Session → γ → δ → Prop} {x : Search α} {y : Except Error β} {f : α → Search γ}
    {g : β → Except Error δ} {m : β → List Path} {all : List Path} (hx : Brings v s₀ R before s x y brought)
    (hf : ∀ t a b, t.Shows v → s.Grows v.disk t → s₀.Account v (before ++ brought) t → R t a b →
      Brings v s₀ R' (before ++ brought) t (f a) (g b) (m b))
    (hall : ∀ b, y = .ok b → brought ++ m b = all) :
    Brings v s₀ R' before s (x >>= f) (y >>= g) all := by
  refine brings_iff.2 ((brings_iff.1 hx).and_eq.bind fun t a b ht hgrows hab => ?_)
  obtain ⟨⟨hresult, haccount⟩, hy⟩ := hab
  have hnext := brings_iff.1 (hf t a b ht hgrows haccount hresult)
  rw [← hall b hy]
  rwa [List.append_assoc] at hnext

/-- The same struct is found, or none in both, and its file is accounted for. -/
def FoundAccounted (s₀ t : Session) (found : Option Found) (plain : Option (File × Struct)) : Prop :=
  found.map Found.plain = plain ∧ ∀ f, found = some f → s₀.Accounted t f.sheet

theorem Brings.findSomeM? {ι : Type} {f : ι → Search (Option Found)} {g : ι → Except Error (Option (File × Struct))}
    {b : ι → List Path} : ∀ {items : List ι} {s : Session} {before : List Path}, s.Shows v → s₀.Account v before s →
    (∀ a ∈ items, ∀ (t : Session) (before' : List Path), t.Shows v → s.Grows v.disk t → s₀.Account v before' t →
      Brings v s₀ (FoundAccounted s₀) before' t (f a) (g a) (b a)) →
    Brings v s₀ (FoundAccounted s₀) before s (items.findSomeM? f) (items.findSomeM? g)
      (View.broughtUntil g b items)
  | [], s, before, hs, h, _ => .pure hs h ⟨rfl, fun _ hf => by cases hf⟩
  | a :: rest, s, before, hs, h, hitems => by
    rw [List.findSomeM?_cons, List.findSomeM?_cons]
    refine (hitems a (by simp) s before hs .refl h).bind
      (m := fun plain => if plain.isSome then [] else View.broughtUntil g b rest)
      (fun t found plain ht hgrows haccount hfound => ?_) fun plain hplain => ?_
    · obtain ⟨rfl, hfiles⟩ := hfound
      cases found with
      | some found => exact .pure ht haccount ⟨rfl, hfiles⟩
      | none => exact .findSomeM? ht haccount fun c hc u before' hu hgrows' =>
          hitems c (by simp [hc]) u before' hu (hgrows.trans hgrows')
    · rw [View.broughtUntil, hplain]
      cases plain <;> rfl

section Next

variable {next : Sheet → String → Search (Option Found)} {plain : File → String → Except Error (Option (File × Struct))}
  {below : File → String → List Path} {name : String}

/-- What comes next after a name brings in what is below, from every file with an import path. -/
def NextBrings (v : View) (s₀ s : Session) (next : Sheet → String → Search (Option Found))
    (plain : File → String → Except Error (Option (File × Struct))) (below : File → String → List Path)
    (name : String) : Prop :=
  ∀ (t : Session) (before : List Path) (candidate : Sheet), t.Shows v → s.Grows v.disk t → s₀.Account v before t →
    t.knownAt? candidate.file.location = some candidate → (t.importPath? candidate).isSome = true →
    Brings v s₀ (FoundAccounted s₀) before t (next candidate name) (plain candidate.file name)
      (below candidate.file name)

theorem NextBrings.grow (h : NextBrings v s₀ s next plain below name) (hgrows : s.Grows v.disk t) :
    NextBrings v s₀ t next plain below name :=
  fun u before candidate hu hgrows' => h u before candidate hu (hgrows.trans hgrows')

end Next

end Search

/-! ## Requests -/

open Search

variable {s : Session}

/-- A package of two files, and a file elsewhere that imports it. -/
def pairAndUser : Disk :=
  { cwd := []
    entries :=
      [([Text.encode "m"], .directory), ([Text.encode "p"], .directory),
       ([Text.encode "m", Text.encode "m.go"], .file (some "package m\n\nimport \"p\"\n")),
       ([Text.encode "p", Text.encode "a.go"], .file (some "package p\n")),
       ([Text.encode "p", Text.encode "b.go"], .file (some "package p\n\ntype B struct{}\n"))] }

namespace PairAndUser

def insider : Sheet := ⟨0, ⟨.ofString "/p/a.go", "p", "", [], [], [], [], "package p\n"⟩⟩

def user : Sheet :=
  ⟨2, ⟨.ofString "/m/m.go", "m", "", [("p", "")], [], [], [], "package m\n\nimport \"p\"\n"⟩⟩

def start : Session := Session.start ⟨false, some (.ofString "/"), none⟩

/-- The session after the struct was looked for from the other file of its package. -/
def lookedInside : Session :=
  Request.after pairAndUser (.extractType insider "B") (Request.after pairAndUser (.scan (.ofString "/p/a.go")) start)

/-- The session when the user has been scanned too. -/
def scanned : Session :=
  Request.after pairAndUser (.scan (.ofString "/m/m.go")) lookedInside

end PairAndUser

end GoOutline
