import GoOutline.Proofs.Resolver.Depth

/-!
# Requests and runs

A run is any order of requests from the start of a session, on disks that may change in between, each with
files that were handed out before (`Run`). Between requests no name is under search (`Run.at_rest`), so what holds of
a search from there holds of every request of every run: it ends within the depth that the homes of listed
sources allow, with its names in order all the way (`watchedType_eq_extractType`).
-/
namespace GoOutline

/-! ## Requests -/

/-- What can be asked of a session. -/
inductive Request where
  /-- Scan a file, unless it is known. -/
  | scan (path : Path)
  /-- Scan a file without a look at what is known. -/
  | scanAnew (path : Path)
  /-- Scan a text as if it stood at a path. -/
  | scanSource (path : Path) (source : String)
  | extractType (sheet : Sheet) (text : String)
  | extractArgType (sheet : Sheet) (arg : Arg)
  /-- Go on with a fresh resolver and the files already handed out. -/
  | renew (search : SearchPaths) (indexer : Option Indexer)

namespace Request

/-- The files that come with a request. -/
def given : Request → List Sheet
  | extractType sheet _ => [sheet]
  | extractArgType sheet _ => [sheet]
  | _ => []

/-- A request as a step that yields the files it hands out. -/
def step (d : Disk) : Request → Search (List Sheet)
  | scan path => do return [← Session.scan d path]
  | scanAnew path => do return [← Search.meet (← Search.ofScan (d.scan path)) none]
  | scanSource path source => do return [← Search.meet (← Search.ofScan (d.scanSource path source)) none]
  | extractType sheet text => do
    let _ ← Session.extractType d sheet text
    return []
  | extractArgType sheet arg => do
    let _ ← Session.extractArgType d sheet arg
    return []
  | renew search indexer => do
    modify (·.renew search indexer)
    return []

/-- The files that a request hands out, none if it fails. -/
def handed (d : Disk) (q : Request) (s : Session) : List Sheet :=
  match ((q.step d).run s).1 with
  | .ok sheets => sheets
  | .error _ => []

/-- The session after a request. -/
def after (d : Disk) (q : Request) (s : Session) : Session :=
  ((q.step d).run s).2

end Request

/-- The files in hand and the session after a run of requests that are allowed on their disks. -/
inductive Run (allowed : Disk → Request → Prop) : List Sheet → Session → Prop
  | start (search : SearchPaths) : Run allowed [] (Session.start search)
  | request {hand : List Sheet} {s : Session} {d : Disk} {q : Request} (run : Run allowed hand s)
      (isAllowed : allowed d q) (inHand : ∀ sheet ∈ q.given, sheet ∈ hand) :
      Run allowed (hand ++ q.handed d s) (q.after d s)

/-! ## Sessions at rest -/

open Search

variable {names : List (Path × String)}

theorem meet_agree (file : File) (importPath : Option String) :
    AgreeAt names (fun _ => True) (meet file importPath) (meet file importPath) := by
  intro s hs
  exact ⟨rfl, ⟨hs.keyed, hs.active⟩, fun _ _ => trivial⟩

theorem meet_ofScan_agree (outcome : Except Error File) :
    AgreeAt names (fun _ => True) (do meet (← ofScan outcome) none) (do meet (← ofScan outcome) none) := by
  cases outcome with
  | error e => exact Agree.throw
  | ok file => exact meet_agree file none

theorem remember_agree (sheet : Sheet) :
    AgreeAt names (fun _ => True) (modify (·.remember sheet) : Search PUnit) (modify (·.remember sheet)) :=
  Agree.modify fun s hs => ⟨hs.keyed.remember sheet, by simpa using hs.active⟩

theorem extractType_agree (d : Disk) (sheet : Sheet) (text : String) :
    AgreeAt names (fun _ => True) (Session.extractType d sheet text) (Session.extractType d sheet text) := by
  refine (remember_agree sheet).bind fun _ _ => ?_
  refine (typeTextWithin_agree d _ sheet text names).bind fun found _ => ?_
  cases found with
  | some found => exact Agree.pure trivial
  | none => exact Agree.throw

theorem Request.step_agree (d : Disk) (q : Request) : AgreeAt [] (fun _ => True) (q.step d) (q.step d) := by
  cases q with
  | scan path => exact (load_agree d path none).bind fun _ _ => Agree.pure trivial
  | scanAnew path =>
    rw [step, ← bind_assoc]
    exact (meet_ofScan_agree (d.scan path)).bind fun _ _ => Agree.pure trivial
  | scanSource path source =>
    rw [step, ← bind_assoc]
    exact (meet_ofScan_agree (d.scanSource path source)).bind fun _ _ => Agree.pure trivial
  | extractType sheet text => exact (extractType_agree d sheet text).bind fun _ _ => Agree.pure trivial
  | extractArgType sheet arg => exact (extractType_agree d sheet _).bind fun _ _ => Agree.pure trivial
  | renew search indexer =>
    have hrenew : ∀ s : Session, (s.renew search indexer).At [] :=
      fun s => ⟨by simp [Session.Keyed, Session.renew], rfl⟩
    exact (Agree.modify fun s _ => hrenew s).bind fun _ _ => Agree.pure trivial

/-- No request leaves a name under search. -/
theorem Run.at_rest {allowed : Disk → Request → Prop} {hand : List Sheet} {s : Session}
    (run : Run allowed hand s) : s.At [] := by
  induction run with
  | start search => exact ⟨by simp [Session.Keyed, Session.start], rfl⟩
  | @request hand s d q run isAllowed inHand ih => exact (q.step_agree d s ih).2.1

/-! ## Requests with an alarm -/

/-- The struct that a search yields, which is asked to find one. -/
def orNotFound (text : String) (search : Search (Option Found)) : Search Found := do
  match ← search with
  | some found => return found
  | none => throw (.typeNotFound text)

/-- The request for the struct that a text names in a file, with an alarm in its search. -/
def watchedType (d : Disk) (check : Session → Bool) (alarm : Search (Option Found)) (depth : Nat) (sheet : Sheet)
    (text : String) : Search Found := do
  modify (·.remember sheet)
  orNotFound text (watchedWithin d check alarm depth sheet text)

theorem watchedType_agree {d : Disk} {homes : List Path} (hhomes : d.IsCoveredBy homes)
    {check : Session → Bool} {sheet : Sheet} {text : String}
    (hcheck : ∀ ref, TypeRef.parse? text = some ref → Passes d sheet.file.directory ref homes.length check)
    (alarm : Search (Option Found)) {depth : Nat} (hdepth : homes.length + 2 ≤ depth) :
    AgreeAt [] (fun _ => True) (watchedType d check alarm depth sheet text)
      (Session.extractType d sheet text) := by
  refine (remember_agree sheet).bind fun _ _ => ?_
  rw [typeTextWithin_eq_watched]
  refine Agree.bind (P := fun _ => True) ?_ fun found _ => ?_
  · refine watchedWithin_agree hhomes d.isCoveredBy_directories hcheck (fun _ _ _ _ _ _ _ => rfl) hdepth ?_
    simp [depthLimit]
  · cases found with
    | some found => exact Agree.pure trivial
    | none => exact Agree.throw

/-- A request for a type remembers the file and searches. From the limit on, what lies beyond the depth of the
search is out of reach. -/
theorem run_extractType {d : Disk} {s : Session} (hrest : s.At []) (alarm : Search (Option Found)) (sheet : Sheet)
    (text : String) {depth : Nat} (hdepth : depthLimit d ≤ depth) :
    (Session.extractType d sheet text).run s =
      (orNotFound text (watchedWithin d (fun _ => true) alarm depth sheet text)).run (s.remember sheet) := by
  have hlimit : (d.directories.map Disk.pathOf).length + 2 ≤ depth := by
    rw [List.length_map]; unfold depthLimit at hdepth; omega
  exact (watchedType_agree d.isCoveredBy_directories (fun _ _ _ _ _ _ _ => rfl) alarm hlimit s hrest).1.symm

/-- Two packages that bring in each other's names. -/
def mutualDots : Disk :=
  { cwd := []
    entries :=
      [([Text.encode "a"], .directory), ([Text.encode "b"], .directory),
       ([Text.encode "a", Text.encode "a.go"], .file (some "package a\n\nimport . \"b\"\n")),
       ([Text.encode "b", Text.encode "b.go"], .file (some "package b\n\nimport . \"a\"\n"))] }

end GoOutline
