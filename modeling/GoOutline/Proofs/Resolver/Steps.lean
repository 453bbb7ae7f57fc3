import GoOutline.Resolver.Resolve

/-!
# Steps of a session

What a step does, written out for each operation of a search: its outcome and the session it leaves.
Two steps that agree wherever an invariant holds can stand for each other in a search (`Agree`); a step
that agrees with itself keeps the invariant.
-/
namespace GoOutline

namespace Session

/-! ## What the updates of a session change and leave alone -/

@[simp] theorem admitFile_notes (s : Session) (file : File) (importPath : Option String) :
    (s.admitFile file importPath).2.notes = s.notes ++ [⟨file, importPath, none⟩] := rfl

@[simp] theorem admitFile_active (s : Session) (file : File) (importPath : Option String) :
    (s.admitFile file importPath).2.active = s.active := rfl

@[simp] theorem remember_notes (s : Session) (sheet : Sheet) : (s.remember sheet).notes = s.notes := by
  unfold remember; split <;> rfl

@[simp] theorem remember_active (s : Session) (sheet : Sheet) : (s.remember sheet).active = s.active := by
  unfold remember; split <;> rfl

@[simp] theorem remember_search (s : Session) (sheet : Sheet) : (s.remember sheet).search = s.search := by
  unfold remember; split <;> rfl

/-! ## Known files -/

theorem exists_of_knownAt {s : Session} {location : Path} {sheet : Sheet}
    (h : s.knownAt? location = some sheet) :
    ∃ place, (place, sheet) ∈ s.known ∧ place.same location = true := by
  obtain ⟨⟨place, found⟩, hfind, rfl⟩ := Option.map_eq_some_iff.1 h
  exact ⟨place, List.mem_of_find?_eq_some hfind, by simpa using List.find?_some hfind⟩

theorem mem_known_remember {s : Session} {sheet : Sheet} {entry : Path × Sheet}
    (h : entry ∈ (s.remember sheet).known) :
    entry ∈ s.known ∨ entry = (sheet.file.location, sheet) := by
  unfold remember at h
  split at h
  · exact .inl h
  · simpa using h

/-- Every file is known by its own location. -/
def Keyed (s : Session) : Prop :=
  ∀ entry ∈ s.known, entry.1 = entry.2.file.location

theorem Keyed.remember {s : Session} (h : s.Keyed) (sheet : Sheet) : (s.remember sheet).Keyed := by
  intro entry hentry
  rcases mem_known_remember hentry with hentry | rfl
  · exact h entry hentry
  · rfl

/-! ## Names under search -/

theorem sameKey_self (key : Path × String) : sameKey key key = true := by
  simp [sameKey, Path.same]

/-- Leaving a name that has just been entered goes back to the names before. -/
theorem leave_active {s : Session} {key : Path × String} {names : List (Path × String)}
    (hactive : s.active = key :: names) (hnew : names.any (sameKey key) = false) :
    (s.leave key).active = names := by
  simp only [leave, hactive, List.filter_cons, sameKey_self, Bool.not_true, Bool.false_eq_true, ite_false]
  refine List.filter_eq_self.2 fun other hother => ?_
  have := List.any_eq_false.1 hnew other hother
  simpa using this

end Session

namespace Search

variable {α β : Type}

/-! ## Outcomes of steps -/

theorem run_bind (x : Search α) (f : α → Search β) (s : Session) :
    (x >>= f).run s = match x.run s with
      | (.ok a, t) => (f a).run t
      | (.error e, t) => (.error e, t) := by
  change (ExceptT.bind x f).run s = _
  simp only [ExceptT.bind, ExceptT.run, ExceptT.mk, ExceptT.bindCont, bind, StateT.bind]
  cases h : x s with
  | mk outcome t => cases outcome <;> rfl

theorem run_get_bind (f : Session → Search β) (s : Session) : (get >>= f).run s = (f s).run s := by
  rw [run_bind]; rfl

theorem run_load (d : Disk) (path : Path) (importPath : Option String) (s : Session) :
    (load d path importPath).run s =
      match s.knownAt? (d.canonicalOrSelf path) with
      | some sheet => (.ok sheet, s.assignImportPath sheet importPath)
      | none =>
        match d.scanLocated (d.canonicalOrSelf path) with
        | .error e => (.error e, s)
        | .ok file =>
          (.ok ⟨s.notes.length, file⟩, (s.admitFile file importPath).2.remember ⟨s.notes.length, file⟩) := by
  unfold load
  rw [run_get_bind]
  cases s.knownAt? (d.canonicalOrSelf path) with
  | some sheet => rfl
  | none =>
    simp only [run_bind, ofScan]
    cases d.scanLocated (d.canonicalOrSelf path) <;> rfl

theorem run_sources (d : Disk) (dir : Path) (s : Session) :
    (sources d dir).run s =
      match d.sourceFiles? dir false with
      | some paths => (.ok paths, s)
      | none => (.error (.unlistable dir), s) := by
  unfold sources
  cases d.sourceFiles? dir false <;> rfl

theorem run_guarded (key : Path × String) (body : Search α) (s : Session) :
    (guarded key body).run s =
      if s.isActive key then (.error (.cyclicReference key.1 key.2), s)
      else ((body.run (s.enter key)).1, (body.run (s.enter key)).2.leave key) := rfl

/-! ## Steps that agree -/

/-- The steps do the same in every session with the invariant, keep it, and have results with `Q`. -/
def Agree (I : Session → Prop) (Q : α → Prop) (x y : Search α) : Prop :=
  ∀ s, I s → x.run s = y.run s ∧ I (y.run s).2 ∧ ∀ a, (y.run s).1 = .ok a → Q a

variable {I : Session → Prop}

theorem Agree.pure {Q : α → Prop} {a : α} (h : Q a) : Agree I Q (pure a) (pure a) := by
  intro s hs
  refine ⟨rfl, hs, fun b hb => ?_⟩
  cases hb; exact h

theorem Agree.weaken {P Q : α → Prop} {x y : Search α} (h : Agree I P x y) (hPQ : ∀ a, P a → Q a) :
    Agree I Q x y := by
  intro s hs
  obtain ⟨heq, hkept, hP⟩ := h s hs
  exact ⟨heq, hkept, fun a ha => hPQ a (hP a ha)⟩

theorem Agree.throw {Q : α → Prop} {e : Error} : Agree I Q (throw e : Search α) (throw e) := by
  intro s hs
  exact ⟨rfl, hs, fun b hb => by cases hb⟩

theorem Agree.bind {P : α → Prop} {Q : β → Prop} {x y : Search α} {f g : α → Search β}
    (hx : Agree I P x y) (hf : ∀ a, P a → Agree I Q (f a) (g a)) : Agree I Q (x >>= f) (y >>= g) := by
  intro s hs
  obtain ⟨heq, hkept, hP⟩ := hx s hs
  rw [run_bind, run_bind, heq]
  cases hy : y.run s with
  | mk outcome t =>
    rw [hy] at hkept hP
    cases outcome with
    | error e => exact ⟨rfl, hkept, fun b hb => by cases hb⟩
    | ok a => exact hf a (hP a rfl) t hkept

theorem Agree.get_bind {Q : β → Prop} {f g : Session → Search β}
    (h : ∀ s, I s → Agree I Q (f s) (g s)) : Agree I Q (get >>= f) (get >>= g) := by
  intro s hs
  rw [run_get_bind, run_get_bind]
  exact h s hs s hs

theorem Agree.modify {f : Session → Session} (h : ∀ s, I s → I (f s)) :
    Agree I (fun _ => True) (modify f : Search PUnit) (modify f) := by
  intro s hs
  exact ⟨rfl, h s hs, fun _ _ => trivial⟩

theorem Agree.mapM {f g : α → Search β} : ∀ {items : List α},
    (∀ a ∈ items, Agree I (fun _ => True) (f a) (g a)) →
      Agree I (fun _ => True) (items.mapM f) (items.mapM g)
  | [], _ => Agree.pure trivial
  | a :: rest, h => by
    rw [List.mapM_cons, List.mapM_cons]
    refine (h a (by simp)).bind fun b _ => ?_
    exact (Agree.mapM fun c hc => h c (by simp [hc])).bind fun bs _ => Agree.pure trivial

theorem Agree.findSomeM? {f g : α → Search (Option β)} : ∀ {items : List α},
    (∀ a ∈ items, Agree I (fun _ => True) (f a) (g a)) →
      Agree I (fun _ => True) (items.findSomeM? f) (items.findSomeM? g)
  | [], _ => Agree.pure trivial
  | a :: rest, h => by
    rw [List.findSomeM?_cons, List.findSomeM?_cons]
    refine (h a (by simp)).bind fun found _ => ?_
    cases found with
    | some b => exact Agree.pure trivial
    | none => exact Agree.findSomeM? fun c hc => h c (by simp [hc])

end Search

end GoOutline
