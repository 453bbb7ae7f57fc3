import GoOutline.Proofs.Resolver.Moves
import GoOutline.Proofs.Resolver.Transparency

/-!
# The course of a resolver

A course is the work of one resolver from some moment on: requests to it and scans beside it, on disks that may change
from one to the next, with whatever other resolvers learn about the files in between (`Course`). Every run of requests
ends with the course of its last resolver (`Run.exists_course`). All along a course, no known file is lost or exchanged
for another, and no location is scanned twice (`known_files_stay`).
-/
namespace GoOutline

open Session

variable {d : Disk} {s t u : Session} {log : List Path}

/-! ## Courses -/

namespace Request

/-- The locations that the resolver scans for a request, in order. The files that a request to the resolver is the first
to meet are those it has scanned. -/
def scans (d : Disk) (s : Session) : Request → List Path
  | scanAnew _ => []
  | scanSource _ _ => []
  | renew _ _ => []
  | q => ((q.after d s).files.drop s.files.length).map (·.location)

theorem after_of_meet {q : Request} {outcome : Except Error File}
    (hstep : q.step d = do return [← Search.meet (← Search.ofScan outcome) none]) :
    q.after d s = s ∨ ∃ file, q.after d s = (s.admitFile file none).2 := by
  rw [← bind_assoc] at hstep
  have hafter := (after_of_bind hstep s).1
  cases outcome with
  | error e => exact .inl hafter
  | ok file => exact .inr ⟨file, hafter⟩

/-- A request to the resolver makes moves of a search, from where the file that came with it is remembered. One beside
the resolver meets a file or fails. -/
theorem after_cases (d : Disk) (s : Session) {q : Request} (stays : ∀ search indexer, q ≠ renew search indexer) :
    (q.scans d s = ((q.after d s).files.drop s.files.length).map (·.location) ∧
      ∃ u, (u = s ∨ ∃ sheet ∈ q.given, u = s.remember sheet) ∧ u.Moves d (q.after d s)) ∨
    (q.scans d s = [] ∧ (q.after d s = s ∨ ∃ file, q.after d s = (s.admitFile file none).2)) := by
  cases q with
  | scan path =>
    have hafter := (after_of_bind (q := scan path) (d := d) (f := ([·])) rfl s).1
    refine .inl ⟨rfl, s, .inl rfl, ?_⟩
    rw [hafter]
    exact Search.load_moving d path none s
  | scanAnew path => exact .inr ⟨rfl, after_of_meet rfl⟩
  | scanSource path source => exact .inr ⟨rfl, after_of_meet rfl⟩
  | extractType sheet text =>
    have hafter := (after_of_bind (q := extractType sheet text) (d := d) (f := fun _ => []) rfl s).1
    refine .inl ⟨rfl, s.remember sheet, .inr ⟨sheet, by simp [given], rfl⟩, ?_⟩
    rw [hafter]
    exact Search.extractType_moves d sheet text s
  | extractArgType sheet arg =>
    have hafter := (after_of_bind (q := extractArgType sheet arg) (d := d) (f := fun _ => []) rfl s).1
    refine .inl ⟨rfl, s.remember sheet, .inr ⟨sheet, by simp [given], rfl⟩, ?_⟩
    rw [hafter]
    exact Search.extractType_moves d sheet _ s
  | renew search indexer => exact absurd rfl (stays search indexer)

end Request

/-- One resolver goes on from the session and scans the locations of the log on the way. Its requests come with files
that have been met; in between, other resolvers may meet files and note what they learn. -/
inductive Course (s : Session) : List Path → Session → Prop
  | start : Course s [] s
  | request {t : Session} {log : List Path} {d : Disk} {q : Request} (course : Course s log t)
      (stays : ∀ search indexer, q ≠ .renew search indexer) (met : ∀ sheet ∈ q.given, t.Has sheet) :
      Course s (log ++ q.scans d t) (q.after d t)
  | elsewhere {t u : Session} {log : List Path} (course : Course s log t) (noted : t.Extends u)
      (known : u.known = t.known) : Course s log u

/-! ## What a request keeps -/

namespace Request

variable {q : Request}

theorem after_extends (d : Disk) (s : Session) (stays : ∀ search indexer, q ≠ renew search indexer) :
    s.Extends (q.after d s) := by
  rcases after_cases d s stays with ⟨-, u, hu, hmoves⟩ | ⟨-, hsame | ⟨file, hmet⟩⟩
  · refine Extends.trans ?_ hmoves.extends
    rcases hu with rfl | ⟨sheet, -, rfl⟩
    · exact .refl u
    · exact extends_remember s sheet
  · rw [hsame]
    exact .refl s
  · rw [hmet]
    exact extends_admitFile s file none

theorem after_sound (stays : ∀ search indexer, q ≠ renew search indexer) (met : ∀ sheet ∈ q.given, s.Has sheet)
    (hs : s.Sound) : (q.after d s).Sound := by
  rcases after_cases d s stays with ⟨-, u, hu, hmoves⟩ | ⟨-, hsame | ⟨file, hmet⟩⟩
  · refine hmoves.sound ?_
    rcases hu with rfl | ⟨sheet, hsheet, rfl⟩
    · exact hs
    · exact hs.remember (met sheet hsheet)
  · rw [hsame]
    exact hs
  · rw [hmet]
    exact hs.grow (extends_admitFile s file none) rfl

/-- The locations that are scanned for a request become places of known files, in the same order. -/
theorem scans_sublist (stays : ∀ search indexer, q ≠ renew search indexer)
    (h : log.Sublist (s.known.map (·.1))) :
    (log ++ q.scans d s).Sublist ((q.after d s).known.map (·.1)) := by
  rcases after_cases d s stays with ⟨hscans, u, hu, hmoves⟩ | ⟨hscans, hsame | ⟨file, hmet⟩⟩
  · obtain ⟨scanned, hfiles, hknown⟩ := hmoves.exists_scanned
    have hextends : s.Extends u ∧ u.files = s.files := by
      rcases hu with rfl | ⟨sheet, -, rfl⟩
      · exact ⟨.refl u, rfl⟩
      · exact ⟨extends_remember s sheet, by simp⟩
    have hnew : q.scans d s = scanned.map (·.file.location) := by
      rw [hscans, hfiles, hextends.2, List.drop_left, List.map_map]
      rfl
    have hold : log.Sublist (u.known.map (·.1)) := h.trans (hextends.1.known.sublist.map _)
    rw [hnew, hknown, List.map_append, List.map_map]
    exact hold.append (List.Sublist.refl _)
  · rw [hscans, hsame, List.append_nil]
    exact h
  · rw [hscans, hmet, List.append_nil]
    exact h

end Request

/-! ## What a course keeps -/

theorem Course.extends (course : Course s log t) : s.Extends t := by
  induction course with
  | start => exact .refl s
  | @request t log d q _ stays _ ih => exact ih.trans (q.after_extends d t stays)
  | elsewhere _ noted _ ih => exact ih.trans noted

theorem Course.sound (course : Course s log t) (hs : s.Sound) : t.Sound := by
  induction course with
  | start => exact hs
  | request _ stays met ih => exact Request.after_sound stays met ih
  | elsewhere _ noted known ih => exact ih.grow noted known

theorem Course.scans_sublist (course : Course s log t) : log.Sublist (t.known.map (·.1)) := by
  induction course with
  | start => exact List.nil_sublist _
  | request _ stays _ ih => exact Request.scans_sublist stays ih
  | elsewhere _ _ known ih =>
    rw [known]
    exact ih

theorem Session.renew_notes (s : Session) (search : SearchPaths) (indexer : Option Indexer) :
    (s.renew search indexer).notes = s.notes := rfl

theorem Session.sound_renew (s : Session) (search : SearchPaths) (indexer : Option Indexer) :
    (s.renew search indexer).Sound :=
  ⟨by simp [Keyed, renew], by simp [renew], by simp [renew]⟩

/-- What a session learns about the files is an addition for every resolver that works on the same ones. -/
theorem Session.Extends.noting {other : Session} (h : s.Extends u) (shared : other.notes = s.notes) :
    other.Extends { other with notes := u.notes } := by
  refine ⟨?_, List.prefix_rfl, ?_, ?_, rfl, rfl, rfl⟩
  · have hfiles : other.files = s.files := by rw [Session.files, shared, Session.files]
    rw [hfiles]
    exact h.files
  · intro sheet path hpath
    refine h.importPath sheet path ?_
    rw [importPath?, ← shared]
    exact hpath
  · intro sheet found hfound
    refine h.siblings sheet found ?_
    rw [siblings?, ← shared]
    exact hfound

/-- What is done at another resolver with the same files is a part of the course. -/
theorem Course.other {other : Session} (course : Course s log t) (shared : other.notes = t.notes) (d : Disk)
    {q : Request} (stays : ∀ search indexer, q ≠ .renew search indexer) :
    Course s log { t with notes := (q.after d other).notes } :=
  course.elsewhere ((q.after_extends d other stays).noting shared.symm) rfl

/-! ## Runs -/

/-- All along the course of a resolver, each file is known by its own location; the known files stay, with all they
declare, so that their number does not sink; and no location is scanned twice. A scan that fails changes nothing,
and scans through paths to the same location, however far apart, yield the same file. -/
theorem known_files_stay {search : SearchPaths} {indexer : Option Indexer}
    (course : Course (s.renew search indexer) log t) :
    (∀ entry ∈ t.known, entry.1 = entry.2.file.location) ∧
    (∀ later u, Course t later u → t.scannedCount ≤ u.scannedCount ∧
      ∀ entry ∈ t.known, entry ∈ u.known ∧ u.knownAt? entry.1 = some entry.2 ∧ u.Has entry.2) ∧
    (log.Pairwise fun a b => a.same b = false) ∧
    (∀ d path e, ((Session.scan d path).run t).1 = .error e → ((Session.scan d path).run t).2 = t) ∧
    (∀ d path sheet, ((Session.scan d path).run t).1 = .ok sheet →
      ∀ later u, Course ((Session.scan d path).run t).2 later u →
        ∀ d' path' sheet', ((Session.scan d' path').run u).1 = .ok sheet' →
          (d'.canonicalOrSelf path').same (d.canonicalOrSelf path) = true → sheet' = sheet) := by
  have hsound : t.Sound := course.sound (s.sound_renew search indexer)
  refine ⟨hsound.keyed, ?_, ?_, ?_, ?_⟩
  · intro later u hlater
    have hknown := hlater.extends.known
    refine ⟨hknown.length_le, ?_⟩
    intro entry hentry
    have hstays : entry ∈ u.known := hknown.subset hentry
    have hlate : u.Sound := hlater.sound hsound
    exact ⟨hstays, hlate.knownAt? hstays, hlate.known entry hstays⟩
  · have honce : (t.known.map (·.1)).Pairwise fun a b => a.same b = false := List.pairwise_map.2 hsound.once
    exact honce.sublist course.scans_sublist
  · intro d path e he
    exact congrArg Prod.snd (Search.load_of_error he)
  · intro d path sheet hscan later u hlater d' path' sheet' hscan' hsame
    have hfirst : ((Session.scan d path).run t).2.knownAt? (d.canonicalOrSelf path) = some sheet :=
      Search.knownAt?_of_load hscan
    have hstays : u.knownAt? (d'.canonicalOrSelf path') = some sheet := by
      rw [knownAt?_congr hsame]
      exact hlater.extends.knownAt? hfirst
    have hagain : ((Session.scan d' path').run u).1 = .ok sheet := Search.load_of_knownAt hstays
    rw [hscan'] at hagain
    exact Except.ok.inj hagain

/-- The first of two packages with another text. -/
def rewrittenDots : Disk :=
  mutualDots.write (.ofString "/a/a.go") (.file (some "package z\n"))

/-- A file is scanned, another resolver notes its siblings, its text changes, and it is scanned through another path. -/
theorem known_files_stay_rewrittenDots :
    let root : SearchPaths := ⟨false, some (.ofString "/"), none⟩
    let sheet : Sheet :=
      ⟨0, ⟨.ofString "/a/a.go", "a", "", [("b", ".")], [], [], [], "package a\n\nimport . \"b\"\n"⟩⟩
    let s := ((Session.scan mutualDots (.ofString "/a/a.go")).run (Session.start root)).2
    let t := { s with notes := (Request.after mutualDots (.extractType sheet "T") (s.renew root none)).notes }
    ((Session.scan mutualDots (.ofString "/a/a.go")).run (Session.start root)).1 = .ok sheet ∧
    t.siblings? sheet = some [] ∧
    (rewrittenDots.scan (.ofString "/b/../a/a.go")).toOption.map (·.package) = some "z" ∧
    ((Session.scan rewrittenDots (.ofString "/b/../a/a.go")).run t).1.toOption.isSome = true ∧
    ∀ found, ((Session.scan rewrittenDots (.ofString "/b/../a/a.go")).run t).1 = .ok found → found = sheet := by
  intro root sheet s t
  have hfirst : ((Session.scan mutualDots (.ofString "/a/a.go")).run (Session.start root)).1 = .ok sheet := by
    decide +kernel
  refine ⟨hfirst, by decide +kernel, by decide +kernel, by decide +kernel, ?_⟩
  have hcourse : Course ((Session.start root).renew root none) [] (Session.start root) := .start
  have hother : Course s [] t :=
    Course.start.other (s.renew_notes root none) mutualDots (q := .extractType sheet "T") (by simp)
  obtain ⟨-, -, -, -, hsame⟩ := known_files_stay hcourse
  intro found hfound
  exact hsame mutualDots _ sheet hfirst [] t hother rewrittenDots _ found hfound (by decide +kernel)

end GoOutline
