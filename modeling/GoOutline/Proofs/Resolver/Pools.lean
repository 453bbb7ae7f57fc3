import GoOutline.Proofs.Resolver.Explorations

/-!
# Resolvers that share files

A pool is any number of resolvers that work on the same files: what one of them notes on a file is there for all the
others. New resolvers join, and each in its turn answers a request, on disks that may change in between (`Pool.Step`).
All along, nothing is lost for any resolver (`Pool.Reaches.extends`), each knows files by their own locations, has no
name under search between its requests, and every list of siblings is of one package (`Pool.Reaches.orderly`).
-/
namespace GoOutline

open Session

variable {d : Disk} {s t u : Session}

/-- Resolvers at work on the same files. The notes on the files are those of the pool. -/
structure Pool where
  notes : List Notes
  resolvers : List Session

namespace Pool

variable {p p' : Pool} {i j : Nat}

/-- A pool without resolvers and files. -/
def start : Pool := ⟨[], []⟩

/-- The pool with one more resolver, which knows no file yet. -/
def join (p : Pool) (search : SearchPaths) (indexer : Option Indexer) : Pool :=
  { p with resolvers := p.resolvers ++ [(Session.start search).renew search indexer] }

/-- The session in which a resolver takes its turn. -/
def turn? (p : Pool) (i : Nat) : Option Session :=
  p.resolvers[i]?.map fun r => { r with notes := p.notes }

/-- The pool after the turn of a resolver, from the session that it has left. -/
def put (p : Pool) (i : Nat) (s : Session) : Pool :=
  ⟨s.notes, p.resolvers.set i s⟩

/-- The pool after one of the resolvers has answered a request. -/
def serve (p : Pool) (i : Nat) (d : Disk) (q : Request) : Pool :=
  match p.turn? i with
  | some s => p.put i (q.after d s)
  | none => p

/-- A resolver joins, or one of them answers a request. The files that come with a request have been met. -/
inductive Step : Pool → Pool → Prop
  | join (p : Pool) (search : SearchPaths) (indexer : Option Indexer) : Step p (p.join search indexer)
  | request {p : Pool} {i : Nat} {s : Session} {q : Request} (turn : p.turn? i = some s) (d : Disk)
      (stays : ∀ search indexer, q ≠ .renew search indexer) (met : ∀ sheet ∈ q.given, s.Has sheet) :
      Step p (p.serve i d q)

/-- The second pool comes from the first, step by step. -/
abbrev Reaches : Pool → Pool → Prop := Relation.ReflTransGen Step

/-! ## Turns -/

@[simp] theorem join_notes (p : Pool) (search : SearchPaths) (indexer : Option Indexer) :
    (p.join search indexer).notes = p.notes := rfl

theorem serve_eq_put (turn : p.turn? i = some s) (d : Disk) (q : Request) :
    p.serve i d q = p.put i (q.after d s) := by
  rw [serve, turn]

theorem notes_of_turn (h : p.turn? i = some s) : s.notes = p.notes := by
  obtain ⟨r, -, rfl⟩ := Option.map_eq_some_iff.1 h
  rfl

theorem turn?_put_self (h : p.turn? i = some s) (t : Session) : (p.put i t).turn? i = some t := by
  obtain ⟨r, hr, -⟩ := Option.map_eq_some_iff.1 h
  obtain ⟨hlt, -⟩ := List.getElem?_eq_some_iff.1 hr
  simp [turn?, put, hlt]

/-- After the turn of one resolver, another goes on with the notes that it finds. -/
theorem turn?_put_of_ne (hne : i ≠ j) (s : Session) :
    (p.put i s).turn? j = (p.turn? j).map fun r => { r with notes := s.notes } := by
  simp [turn?, put, List.getElem?_set_ne hne, Option.map_map, Function.comp_def]

/-! ## Nothing is lost -/

theorem Step.extends (h : p.Step p') (hs : s.notes = p.notes) : s.Extends { s with notes := p'.notes } := by
  cases h with
  | join search indexer =>
    rw [join_notes, ← hs]
    exact .refl s
  | @request i r q turn d stays met =>
    rw [serve_eq_put turn]
    exact (q.after_extends d r stays).noting (hs.trans (notes_of_turn turn).symm)

theorem Reaches.extends (h : p.Reaches p') (hs : s.notes = p.notes) : s.Extends { s with notes := p'.notes } := by
  induction h with
  | refl =>
    rw [← hs]
    exact .refl s
  | tail _ hstep ih => exact ih.trans (hstep.extends rfl)

/-- A list of siblings stays, whichever resolver looks at it later. -/
theorem Reaches.siblings {sheet : Sheet} {found : List Sheet} (h : p.Reaches p') (hs : s.notes = p.notes)
    (ht : t.notes = p'.notes) (hfound : s.siblings? sheet = some found) : t.siblings? sheet = some found := by
  have hstays := (h.extends hs).siblings sheet found hfound
  rw [siblings?, ht]
  exact hstays

/-! ## Order -/

/-- Every resolver knows files by their own locations and has no name under search; lists of siblings are of one
package. -/
structure Orderly (p : Pool) : Prop where
  sound : ∀ i s, p.turn? i = some s → s.Sound
  atRest : ∀ i s, p.turn? i = some s → s.active = []
  akin : ∀ s : Session, s.notes = p.notes → s.Akin

theorem orderly_start : start.Orderly := by
  refine ⟨by simp [turn?, start], by simp [turn?, start], ?_⟩
  intro s hs sheet found hsheet
  have hlt := hsheet.number_lt
  simp [hs, start] at hlt

theorem orderly_join (h : p.Orderly) (search : SearchPaths) (indexer : Option Indexer) :
    (p.join search indexer).Orderly := by
  -- the turn of an old resolver is as before, and the new one knows nothing
  have hturn : ∀ i s, (p.join search indexer).turn? i = some s →
      p.turn? i = some s ∨ ∃ t : Session, s = t.renew search indexer := by
    intro i s hs
    obtain ⟨r, hr, rfl⟩ := Option.map_eq_some_iff.1 hs
    rw [join, List.getElem?_append] at hr
    split at hr
    · exact .inl (by simp [turn?, hr])
    · obtain rfl := List.mem_singleton.1 (List.mem_of_getElem? hr)
      exact .inr ⟨{ notes := p.notes, search, known := [], active := [], indexer }, rfl⟩
  refine ⟨?_, ?_, h.akin⟩
  · intro i s hs
    rcases hturn i s hs with hold | ⟨t, rfl⟩
    · exact h.sound i s hold
    · exact t.sound_renew search indexer
  · intro i s hs
    rcases hturn i s hs with hold | ⟨t, rfl⟩
    · exact h.atRest i s hold
    · rfl

theorem orderly_request (h : p.Orderly) {q : Request} (turn : p.turn? i = some s)
    (stays : ∀ search indexer, q ≠ .renew search indexer) (met : ∀ sheet ∈ q.given, s.Has sheet) :
    (p.serve i d q).Orderly := by
  rw [serve_eq_put turn]
  have hextends := q.after_extends d s stays
  have hsound := h.sound i s turn
  have hakin := Request.after_akin (d := d) stays met hsound (h.akin s (notes_of_turn turn))
  refine ⟨?_, ?_, ?_⟩
  · intro j t ht
    by_cases hij : i = j
    · subst hij
      rw [turn?_put_self turn] at ht
      cases ht
      exact Request.after_sound stays met hsound
    · rw [turn?_put_of_ne hij] at ht
      obtain ⟨r, hr, rfl⟩ := Option.map_eq_some_iff.1 ht
      have hshared : r.notes = s.notes := by rw [notes_of_turn hr, notes_of_turn turn]
      exact (h.sound j r hr).grow (hextends.noting hshared) rfl
  · intro j t ht
    by_cases hij : i = j
    · subst hij
      rw [turn?_put_self turn] at ht
      cases ht
      rw [hextends.active]
      exact h.atRest i s turn
    · rw [turn?_put_of_ne hij] at ht
      obtain ⟨r, hr, rfl⟩ := Option.map_eq_some_iff.1 ht
      exact h.atRest j r hr
  · intro t ht sheet found hsheet hfound
    rw [Has, files, ht] at hsheet
    rw [siblings?, ht] at hfound
    exact hakin sheet found hsheet hfound

theorem Reaches.orderly (h : start.Reaches p) : p.Orderly := by
  induction h with
  | refl => exact orderly_start
  | tail _ hstep ih =>
    cases hstep with
    | join search indexer => exact orderly_join ih search indexer
    | request turn d stays met => exact orderly_request ih turn stays met

/-- The resolver takes its turn, and the files that come with the request have been met. -/
def allows (p : Pool) (i : Nat) (q : Request) : Bool :=
  (p.turn? i).any fun s => q.given.all fun sheet => s.files[sheet.number]? == some sheet.file

theorem step_of_allows {q : Request} (h : p.allows i q = true) (d : Disk)
    (stays : ∀ search indexer, q ≠ .renew search indexer) : p.Step (p.serve i d q) := by
  obtain ⟨s, turn, hmet⟩ := (Option.any_eq_true _ _).1 h
  refine .request turn d stays fun sheet hsheet => ?_
  simpa [Has] using List.all_eq_true.1 hmet sheet hsheet

end Pool

/-! ## In the middle of a request -/

/-- The session is one that a request may come through: a file is remembered, moves of a search are made, and names are
entered and left. -/
inductive Session.Midway (d : Disk) (s : Session) : Session → Prop
  | start : Midway d s s
  | remember {t : Session} {sheet : Sheet} (midway : Midway d s t) (met : t.Has sheet) : Midway d s (t.remember sheet)
  | moves {t u : Session} (midway : Midway d s t) (moves : Moves d t u) : Midway d s u
  | enter {t : Session} (midway : Midway d s t) (key : Path × String) : Midway d s (t.enter key)
  | leave {t : Session} (midway : Midway d s t) (key : Path × String) : Midway d s (t.leave key)

theorem Session.Midway.sound (h : s.Midway d t) (hs : s.Sound) : t.Sound := by
  induction h with
  | start => exact hs
  | remember _ met ih => exact ih.remember met
  | moves _ hmoves ih => exact hmoves.sound ih
  | enter _ key ih => exact ih.enter key
  | leave _ key ih => exact ih.leave key

end GoOutline
