import GoOutline.Proofs.Disk.Listing
import GoOutline.Proofs.Resolver.Steps
import GoOutline.Proofs.TypeRef
import Mathlib.Data.List.Perm.Subperm

/-!
# Depth of a search

Below the name it starts with, a search looks for one bare name in homes of listed sources, in each at most
once (`InOrder`). A disk has only so many homes, so a search is never deeper than their number allows:
`watchedWithin` is the search with a check around every name it enters and leaves and an alarm at the end of its
depth, and the alarm is never raised (`watchedWithin_agree`).
-/
namespace GoOutline

/-! ## Sessions between two names -/

/-- Files are known by their own locations, and just these names are under search. -/
structure Session.At (names : List (Path × String)) (s : Session) : Prop where
  keyed : s.Keyed
  active : s.active = names

namespace Search

variable {α : Type} {d : Disk} {names : List (Path × String)}

/-- The steps do the same while just these names are under search, and none else stays under search. -/
abbrev AgreeAt (names : List (Path × String)) (Q : α → Prop) (x y : Search α) : Prop :=
  Agree (Session.At names) Q x y

theorem load_agree (d : Disk) (path : Path) (importPath : Option String) :
    AgreeAt names (fun sheet => sheet.file.location.same (d.canonicalOrSelf path) = true)
      (load d path importPath) (load d path importPath) := by
  intro s hs
  refine ⟨rfl, ?_⟩
  rw [run_load]
  split
  · rename_i sheet hknown
    refine ⟨⟨hs.keyed, hs.active⟩, fun found hfound => ?_⟩
    cases hfound
    obtain ⟨place, hmem, hsame⟩ := Session.exists_of_knownAt hknown
    have hplace : place = sheet.file.location := hs.keyed _ hmem
    rw [← hplace]
    exact hsame
  · split
    · exact ⟨hs, fun found hfound => by cases hfound⟩
    · rename_i file hscan
      have hnoted : (s.admitFile file importPath).2.Keyed := hs.keyed
      refine ⟨⟨hnoted.remember _, by simpa using hs.active⟩, fun found hfound => ?_⟩
      cases hfound
      exact Path.same_iff.2 (congrArg Path.parts (Disk.holds_of_scanLocated hscan).2)

theorem sources_agree (d : Disk) (dir : Path) :
    AgreeAt names (fun paths => ∀ path ∈ paths, d.IsListed path) (sources d dir) (sources d dir) := by
  intro s hs
  refine ⟨rfl, ?_⟩
  rw [run_sources]
  cases hlist : d.sourceFiles? dir false with
  | none => exact ⟨hs, fun paths hpaths => by cases hpaths⟩
  | some listed =>
    refine ⟨hs, fun paths hpaths path hpath => ?_⟩
    cases hpaths
    exact ⟨dir, listed, hlist, hpath⟩

theorem siblings_agree (d : Disk) (sheet : Sheet) :
    AgreeAt names (fun _ => True) (siblings d sheet) (siblings d sheet) := by
  refine Agree.get_bind fun s _ => ?_
  cases s.siblings? sheet with
  | some found => exact Agree.pure trivial
  | none =>
    have hload : AgreeAt names (fun _ => True) (loadSiblings d sheet) (loadSiblings d sheet) := by
      refine (sources_agree d _).bind fun paths _ => Agree.get_bind fun s _ => ?_
      refine Agree.bind (Agree.mapM fun path _ => ?_) fun loaded _ => Agree.pure trivial
      exact (load_agree d path _).weaken fun _ _ => trivial
    refine hload.bind fun found _ => ?_
    refine Agree.bind (Agree.modify fun s hs => ?_) fun _ _ => Agree.pure trivial
    exact ⟨hs.keyed, hs.active⟩

/-! ## One name of a search -/

variable {next next' : Sheet → String → Search (Option Found)}

theorem inImport_agree (sheet : Sheet) (importPath : String) (required : Option String) (name : String)
    (hnext : ∀ candidate : Sheet, d.IsSourceHome candidate.file.directory →
      AgreeAt names (fun _ => True) (next candidate name) (next' candidate name)) :
    AgreeAt names (fun _ => True) (inImport d next sheet importPath required name)
      (inImport d next' sheet importPath required name) := by
  refine Agree.get_bind fun s _ => ?_
  split
  · exact Agree.pure trivial
  · refine (sources_agree d _).bind fun paths hlisted => ?_
    refine Agree.findSomeM? fun path hpath => ?_
    refine (load_agree d path _).bind fun candidate hsame => ?_
    split
    · exact Agree.pure trivial
    · exact hnext candidate ((hlisted path hpath).isSourceHome hsame)

/-- The search behind a name does the same as another if what comes after it does, in homes of listed
sources. -/
theorem reference_agree (sheet : Sheet) (ref : TypeRef)
    (hnext : ∀ candidate : Sheet, d.IsSourceHome candidate.file.directory →
      AgreeAt names (fun _ => True) (next candidate ref.name) (next' candidate ref.name)) :
    AgreeAt names (fun _ => True) (reference d next sheet ref) (reference d next' sheet ref) := by
  unfold reference
  split
  · unfold bareName
    split
    · exact Agree.pure trivial
    · refine (siblings_agree d sheet).bind fun found _ => ?_
      split
      · exact Agree.pure trivial
      · exact Agree.findSomeM? fun path _ => inImport_agree sheet path none ref.name hnext
  · exact Agree.findSomeM? fun entry _ => inImport_agree sheet entry.1 entry.2 ref.name hnext

theorem guarded_agree {Q : α → Prop} {key : Path × String} {x y : Search α}
    (h : names.any (Session.sameKey key) = false → AgreeAt (key :: names) Q x y) :
    AgreeAt names Q (guarded key x) (guarded key y) := by
  intro s hs
  rw [run_guarded, run_guarded]
  by_cases hkey : s.isActive key = true
  · simp only [hkey, ite_true]
    exact ⟨trivial, hs, fun a ha => by cases ha⟩
  · have hnew : names.any (Session.sameKey key) = false := by
      rw [← hs.active]; simpa [Session.isActive] using hkey
    have hentered : Session.At (key :: names) (s.enter key) := ⟨hs.keyed, by simp [Session.enter, hs.active]⟩
    obtain ⟨heq, hkept, hQ⟩ := h hnew _ hentered
    simp only [hkey, Bool.false_eq_true, ite_false, heq]
    exact ⟨trivial, ⟨hkept.keyed, Session.leave_active hkept.active hnew⟩, hQ⟩

/-- A search leaves the names under search as they were. -/
theorem typeTextWithin_agree (d : Disk) : ∀ (depth : Nat) (sheet : Sheet) (text : String)
    (names : List (Path × String)), AgreeAt names (fun _ => True) (typeTextWithin d depth sheet text)
      (typeTextWithin d depth sheet text)
  | 0, _, _, _ => Agree.pure trivial
  | depth + 1, sheet, text, names => by
    rw [typeTextWithin, typeText]
    split
    · exact Agree.pure trivial
    · exact guarded_agree fun _ => reference_agree sheet _ fun candidate _ =>
        typeTextWithin_agree d depth candidate _ _

/-! ## Names in order -/

/-- The names under search when a reference is looked for from the directory `home` and the search has come
through the directories `dirs`, the latest first. -/
def namesThrough (home : Path) (ref : TypeRef) (dirs : List Path) : List (Path × String) :=
  dirs.map (·, ref.name) ++ [(home, ref.display)]

/-- The search comes through homes of listed sources, no two of them the same, and with a bare name not
through `home` again. -/
structure InOrder (d : Disk) (home : Path) (ref : TypeRef) (dirs : List Path) : Prop where
  isSourceHome : ∀ dir ∈ dirs, d.IsSourceHome dir
  distinct : dirs.Pairwise fun a b => a.same b = false
  apart : ref.isLocal = true → ∀ dir ∈ dirs, dir.same home = false

variable {home : Path} {ref : TypeRef} {dirs homes : List Path}

theorem InOrder.nil : InOrder d home ref [] :=
  ⟨by simp, .nil, by simp⟩

theorem InOrder.cons (h : InOrder d home ref dirs) {dir : Path} (hdir : d.IsSourceHome dir)
    (hnew : (namesThrough home ref dirs).any (Session.sameKey (dir, ref.name)) = false) :
    InOrder d home ref (dir :: dirs) := by
  have hfresh : ∀ key ∈ namesThrough home ref dirs, key.2 = ref.name → dir.same key.1 = false := by
    intro key hkey hname
    have hdiff := List.any_eq_false.1 hnew key hkey
    simpa [Session.sameKey, hname] using hdiff
  have hdirs : ∀ other ∈ dirs, dir.same other = false := by
    intro other hother
    exact hfresh (other, ref.name) (by simp [namesThrough, hother]) rfl
  refine ⟨?_, .cons hdirs h.distinct, fun hlocal => ?_⟩
  · simpa [hdir] using h.isSourceHome
  · have hdisplay : ref.display = ref.name := by
      rw [TypeRef.display, Option.isNone_iff_eq_none.1 hlocal]
    have hhome : dir.same home = false :=
      hfresh (home, ref.display) (by simp [namesThrough]) hdisplay
    simpa [hhome] using h.apart hlocal

/-- There are no more directories in order than homes of listed sources. -/
theorem InOrder.length_le (h : InOrder d home ref dirs) (hhomes : d.IsCoveredBy homes) :
    dirs.length ≤ homes.length := by
  have hnodup : (dirs.map Path.parts).Nodup := by
    rw [List.Nodup, List.pairwise_map]
    refine h.distinct.imp fun hdiff heq => ?_
    simp [Path.same, heq] at hdiff
  have hsubset : dirs.map Path.parts ⊆ homes.map Path.parts := by
    intro parts hparts
    obtain ⟨dir, hdir, rfl⟩ := List.mem_map.1 hparts
    obtain ⟨covering, hmem, hsame⟩ := hhomes dir (h.isSourceHome dir hdir)
    exact List.mem_map.2 ⟨covering, hmem, (Path.same_iff.1 hsame).symm⟩
  simpa using (hnodup.subperm hsubset).length_le

/-! ## Searches with an alarm -/

/-- The step between two checks of the session. Where a check fails, the alarm is raised. -/
def watch (check : Session → Bool) (alarm body : Search α) : Search α :=
  ExceptT.mk fun s =>
    if check s then
      let (outcome, s) := body.run s
      if check s then (outcome, s) else alarm.run s
    else alarm.run s

/-- The search for a type, with a check whenever a name has been or will be entered or left. Where the check
fails, and at the end of its depth, the search raises the alarm. -/
def watchedWithin (d : Disk) (check : Session → Bool) (alarm : Search (Option Found)) :
    Nat → Sheet → String → Search (Option Found)
  | 0, _, _ => alarm
  | depth + 1, sheet, text =>
    match TypeRef.parse? text with
    | none => return none
    | some ref =>
      guarded (sheet.file.directory, ref.display) (watch check alarm
        (reference d (fun candidate name => watch check alarm (watchedWithin d check alarm depth candidate name))
          sheet ref))

/-- The check passes every session whose names under search are in order, if they are at most `most` behind the first. -/
def Passes (d : Disk) (home : Path) (ref : TypeRef) (most : Nat) (check : Session → Bool) : Prop :=
  ∀ s dirs, InOrder d home ref dirs → dirs.length ≤ most → s.active = namesThrough home ref dirs →
    check s = true

variable {check check' : Session → Bool} {alarm alarm' : Search (Option Found)}

theorem watch_true (alarm body : Search α) : watch (fun _ => true) alarm body = body := rfl

theorem run_watch {alarm body : Search α} {s : Session} (hbefore : check s = true)
    (hafter : check (body.run s).2 = true) : (watch check alarm body).run s = body.run s := by
  change (if check s then (if check (body.run s).2 then body.run s else alarm.run (body.run s).2)
    else alarm.run s) = _
  rw [if_pos hbefore, if_pos hafter]

theorem watch_agree {Q : α → Prop} {alarm alarm' x y : Search α}
    (hcheck : ∀ s, Session.At names s → check s = true) (hcheck' : ∀ s, Session.At names s → check' s = true)
    (h : AgreeAt names Q x y) : AgreeAt names Q (watch check alarm x) (watch check' alarm' y) := by
  intro s hs
  obtain ⟨heq, hkept, hQ⟩ := h s hs
  rw [run_watch (hcheck s hs) (heq ▸ hcheck _ hkept), run_watch (hcheck' s hs) (hcheck' _ hkept)]
  exact ⟨heq, hkept, hQ⟩

theorem typeTextWithin_eq_watched (d : Disk) :
    ∀ depth, typeTextWithin d depth = watchedWithin d (fun _ => true) (return none) depth
  | 0 => rfl
  | depth + 1 => by
    funext sheet text
    rw [typeTextWithin, typeText, typeTextWithin_eq_watched d depth, watchedWithin]
    cases TypeRef.parse? text with
    | none => rfl
    | some ref => simp only [watch_true]

/-- Below the first name, searches that are deep enough for the homes still to come do the same. -/
theorem watchedWithin_below {homes homes' : List Path} (hhomes : d.IsCoveredBy homes)
    (hhomes' : d.IsCoveredBy homes') (hname : TypeRef.parse? ref.name = some (.ofLocal ref.name))
    (hcheck : Passes d home ref homes.length check) (hcheck' : Passes d home ref homes'.length check') :
    ∀ {depth depth' : Nat} {dirs : List Path} {sheet : Sheet}, InOrder d home ref dirs →
      d.IsSourceHome sheet.file.directory →
      homes.length < dirs.length + depth → homes'.length < dirs.length + depth' →
      AgreeAt (namesThrough home ref dirs) (fun _ => True)
        (watchedWithin d check alarm depth sheet ref.name)
        (watchedWithin d check' alarm' depth' sheet ref.name)
  | 0, _, dirs, _, horder, _, hdepth, _ => by
    have := horder.length_le hhomes
    omega
  | _, 0, dirs, _, horder, _, _, hdepth' => by
    have := horder.length_le hhomes'
    omega
  | depth + 1, depth' + 1, dirs, sheet, horder, hsheet, hdepth, hdepth' => by
    simp only [watchedWithin, hname]
    refine guarded_agree fun hnew => ?_
    have hnext : InOrder d home ref (sheet.file.directory :: dirs) := horder.cons hsheet hnew
    have hpass := fun s hs => hcheck s _ hnext (hnext.length_le hhomes) (Session.At.active hs)
    have hpass' := fun s hs => hcheck' s _ hnext (hnext.length_le hhomes') (Session.At.active hs)
    refine watch_agree hpass hpass' (reference_agree sheet _ fun candidate hcandidate => ?_)
    refine watch_agree hpass hpass' (watchedWithin_below hhomes hhomes' hname hcheck hcheck' hnext hcandidate ?_ ?_)
    · simp only [List.length_cons]; omega
    · simp only [List.length_cons]; omega

/-- A search that is deep enough for the homes of listed sources never raises the alarm: it does the same
with any other. -/
theorem watchedWithin_agree {homes homes' : List Path} (hhomes : d.IsCoveredBy homes)
    (hhomes' : d.IsCoveredBy homes') {sheet : Sheet} {text : String}
    (hcheck : ∀ ref, TypeRef.parse? text = some ref → Passes d sheet.file.directory ref homes.length check)
    (hcheck' : ∀ ref, TypeRef.parse? text = some ref →
      Passes d sheet.file.directory ref homes'.length check')
    {depth depth' : Nat} (hdepth : homes.length + 2 ≤ depth) (hdepth' : homes'.length + 2 ≤ depth') :
    AgreeAt [] (fun _ => True) (watchedWithin d check alarm depth sheet text)
      (watchedWithin d check' alarm' depth' sheet text) := by
  obtain ⟨depth, rfl⟩ : ∃ k, depth = k + 1 := ⟨depth - 1, by omega⟩
  obtain ⟨depth', rfl⟩ : ∃ k, depth' = k + 1 := ⟨depth' - 1, by omega⟩
  rw [watchedWithin, watchedWithin]
  cases hparse : TypeRef.parse? text with
  | none => exact Agree.pure trivial
  | some ref =>
    refine guarded_agree fun _ => ?_
    have hfirst : InOrder d sheet.file.directory ref [] := .nil
    have hpass := fun s hs => hcheck ref hparse s [] hfirst (Nat.zero_le _) (Session.At.active hs)
    have hpass' := fun s hs => hcheck' ref hparse s [] hfirst (Nat.zero_le _) (Session.At.active hs)
    refine watch_agree hpass hpass' (reference_agree sheet _ fun candidate hcandidate => ?_)
    refine watch_agree hpass hpass' (watchedWithin_below hhomes hhomes' (TypeRef.parse?_name hparse)
      (hcheck ref hparse) (hcheck' ref hparse) hfirst hcandidate ?_ ?_)
    · simp only [List.length_nil]; omega
    · simp only [List.length_nil]; omega

end Search

end GoOutline
