import GoOutline.Proofs.Grammar.Sharing
import Mathlib.Data.List.TakeWhile

/-!
# Comments among siblings

Which sibling a comment belongs to can be said of the places of the siblings (`Belongs`), without a walk over them. The
comments that recursion gives to a sibling are those that belong to it (`mem_given`), in the order of the siblings
(`exists_given_eq`).
-/
namespace GoOutline

/-! ## Siblings -/

/-- A sibling that comments may belong to stands at the place. -/
def HostAt (siblings : List Node) (k : Nat) (host : Node) : Prop :=
  siblings[k]? = some host ∧ host.takesComments = true

def CommentAt (siblings : List Node) (i : Nat) (comment : Node) : Prop :=
  siblings[i]? = some comment ∧ comment.isComment = true

/-- Between the places there are only comments and bare tokens. -/
def NoHostBetween (siblings : List Node) (i k : Nat) : Prop :=
  ∀ j host, i < j → j < k → ¬ HostAt siblings j host

/-- The last host before the place `i` stands at the place `k`. -/
structure LastBefore (siblings : List Node) (i k : Nat) (host : Node) : Prop where
  before : k < i
  isHost : HostAt siblings k host
  last : NoHostBetween siblings k i

/-- The next host behind the place `i` stands at the place `k`. -/
structure NextAfter (siblings : List Node) (i k : Nat) (host : Node) : Prop where
  behind : i < k
  isHost : HostAt siblings k host
  next : NoHostBetween siblings i k

/-- The comments from the host at the place `k` up to the place `i` all start on the row where the host stops. -/
structure Trails (siblings : List Node) (i k : Nat) (host : Node) : Prop where
  lastBefore : LastBefore siblings i k host
  onRow : ∀ j comment, k < j → j ≤ i → CommentAt siblings j comment → comment.start.row = host.stop.row

/-- The comment at the place `i` belongs to the host at the place `k`. -/
def Belongs (siblings : List Node) (i k : Nat) : Prop :=
  ∃ host, Trails siblings i k host ∨ NextAfter siblings i k host ∧ ∀ l last, ¬ Trails siblings i l last

section

variable {siblings : List Node} {i j k l p : Nat} {host other comment n : Node}

theorem HostAt.eq (h : HostAt siblings k host) (h' : HostAt siblings k other) : host = other :=
  Option.some.inj (h.1.symm.trans h'.1)

theorem HostAt.not_commentAt (h : HostAt siblings k host) : ¬ CommentAt siblings k comment := by
  rintro ⟨hcomment, his⟩
  obtain rfl : host = comment := Option.some.inj (h.1.symm.trans hcomment)
  have htakes := h.2
  simp [Node.takesComments, his] at htakes

/-- A sibling is a comment, a host or a bare token. -/
theorem kindAt_cases (h : siblings[p]? = some n) :
    CommentAt siblings p n ∨ HostAt siblings p n ∨
      n.isNamed = false ∧ (∀ host, ¬ HostAt siblings p host) ∧ ∀ comment, ¬ CommentAt siblings p comment := by
  cases hcomment : n.isComment with
  | true => exact .inl ⟨h, hcomment⟩
  | false =>
    cases hnamed : n.isNamed with
    | true => exact .inr (.inl ⟨h, by simp [Node.takesComments, hnamed, hcomment]⟩)
    | false =>
      refine .inr (.inr ⟨rfl, ?_, ?_⟩)
      · rintro host ⟨hat, htakes⟩
        obtain rfl := Option.some.inj (h.symm.trans hat)
        simp [Node.takesComments, hnamed] at htakes
      · rintro comment ⟨hat, his⟩
        obtain rfl := Option.some.inj (h.symm.trans hat)
        rw [hcomment] at his
        cases his

theorem LastBefore.unique (h : LastBefore siblings i k host) (h' : LastBefore siblings i l other) : k = l := by
  rcases Nat.lt_trichotomy k l with hlt | heq | hlt
  · exact absurd h'.isHost (h.last l other hlt h'.before)
  · exact heq
  · exact absurd h.isHost (h'.last k host hlt h.before)

theorem NextAfter.unique (h : NextAfter siblings i k host) (h' : NextAfter siblings i l other) : k = l := by
  rcases Nat.lt_trichotomy k l with hlt | heq | hlt
  · exact absurd h.isHost (h'.next k host h.behind hlt)
  · exact heq
  · exact absurd h'.isHost (h.next l other h'.behind hlt)

theorem LastBefore.earlier (h : LastBefore siblings i k host) (hk : k < j) (hj : j ≤ i) :
    LastBefore siblings j k host :=
  ⟨hk, h.isHost, fun m other hm hlt => h.last m other hm (by omega)⟩

theorem Trails.earlier (h : Trails siblings i k host) (hk : k < j) (hj : j ≤ i) : Trails siblings j k host :=
  ⟨h.lastBefore.earlier hk hj, fun m comment hm hle => h.onRow m comment hm (by omega)⟩

/-- The last host before a place is also the last before the next place, unless one stands between. -/
theorem lastBefore_succ (h : ∀ host, ¬ HostAt siblings p host) :
    LastBefore siblings (p + 1) k host ↔ LastBefore siblings p k host := by
  constructor
  · intro hlast
    refine hlast.earlier ?_ (Nat.le_succ p)
    have hbefore := hlast.before
    have hne : k ≠ p := by
      rintro rfl
      exact h host hlast.isHost
    omega
  · intro hlast
    refine ⟨by have := hlast.before; omega, hlast.isHost, fun j other hj hlt => ?_⟩
    rcases Nat.lt_succ_iff_lt_or_eq.1 hlt with hlt | rfl
    · exact hlast.last j other hj hlt
    · exact h other

theorem exists_nextAfter (hi : i < k) (h : HostAt siblings k host) : ∃ l other, NextAfter siblings i l other := by
  induction k using Nat.strongRecOn generalizing host with
  | ind k ih =>
    by_cases hnone : NoHostBetween siblings i k
    · exact ⟨k, host, hi, h, hnone⟩
    · simp only [NoHostBetween, not_forall, not_not] at hnone
      obtain ⟨j, other, hij, hjk, hother⟩ := hnone
      exact ih j hjk hij hother

/-- A comment belongs to one sibling at most. -/
theorem Belongs.unique (h : Belongs siblings i k) (h' : Belongs siblings i l) : k = l := by
  obtain ⟨host, htrails | ⟨hnext, hnone⟩⟩ := h
  · obtain ⟨other, htrails' | ⟨-, hnone'⟩⟩ := h'
    · exact htrails.lastBefore.unique htrails'.lastBefore
    · exact absurd htrails (hnone' k host)
  · obtain ⟨other, htrails' | ⟨hnext', -⟩⟩ := h'
    · exact absurd htrails' (hnone l other)
    · exact hnext.unique hnext'

theorem Belongs.exists_host (h : Belongs siblings i k) : ∃ host, HostAt siblings k host := by
  obtain ⟨host, htrails | ⟨hnext, -⟩⟩ := h
  · exact ⟨host, htrails.lastBefore.isHost⟩
  · exact ⟨host, hnext.isHost⟩

theorem LastBefore.belongs_iff (h : LastBefore siblings i k host) :
    Belongs siblings i k ↔ Trails siblings i k host := by
  constructor
  · rintro ⟨other, htrails | ⟨hnext, -⟩⟩
    · rwa [h.isHost.eq htrails.lastBefore.isHost]
    · have := h.before
      have := hnext.behind
      omega
  · intro htrails
    exact ⟨host, .inl htrails⟩

theorem NextAfter.belongs_iff (h : NextAfter siblings i k host) :
    Belongs siblings i k ↔ ∀ l last, ¬ Trails siblings i l last := by
  constructor
  · rintro ⟨other, htrails | ⟨-, hnone⟩⟩
    · have := h.behind
      have := htrails.lastBefore.before
      omega
    · exact hnone
  · intro hnone
    exact ⟨host, .inr ⟨h, hnone⟩⟩

/-- A comment trails the last host if it starts on its row and so do the comments between them. -/
theorem LastBefore.trails_iff (h : LastBefore siblings i k host) (hcomment : CommentAt siblings i comment) :
    Trails siblings i k host ↔ comment.start.row = host.stop.row ∧
      ∀ j c, k < j → j < i → CommentAt siblings j c → Trails siblings j k host := by
  constructor
  · intro htrails
    exact ⟨htrails.onRow i comment h.before (Nat.le_refl i) hcomment,
      fun j c hk hj _ => htrails.earlier hk (Nat.le_of_lt hj)⟩
  · rintro ⟨hrow, hbetween⟩
    refine ⟨h, fun j c hk hj hc => ?_⟩
    rcases Nat.lt_or_eq_of_le hj with hlt | rfl
    · exact (hbetween j c hk hlt hc).onRow j c hk (Nat.le_refl j) hc
    · obtain rfl : c = comment := Option.some.inj (hc.1.symm.trans hcomment.1)
      exact hrow

/-! ## What waits before a place -/

theorem getElem?_of_drop {α : Type} {xs ys : List α} {x : α} {p : Nat} (h : xs.drop p = x :: ys) :
    xs[p]? = some x ∧ xs.drop (p + 1) = ys := by
  constructor
  · rw [← List.head?_drop, h, List.head?_cons]
  · rw [← List.tail_drop, h, List.tail_cons]

/-- The comment at the place `i` belongs to no host before the place `p`. -/
structure Waits (siblings : List Node) (i p : Nat) : Prop where
  before : i < p
  noHost : NoHostBetween siblings i p
  noTrail : ∀ k host, ¬ Trails siblings i k host

/-- What waits before a place still waits before the next place, unless a host stands between. -/
theorem waits_succ (h : ∀ host, ¬ HostAt siblings p host) (hi : i ≠ p) :
    Waits siblings i (p + 1) ↔ Waits siblings i p := by
  constructor
  · rintro ⟨hlt, hnone, hnot⟩
    exact ⟨by omega, fun j host hij hj => hnone j host hij (by omega), hnot⟩
  · rintro ⟨hlt, hnone, hnot⟩
    refine ⟨by omega, fun j host hij hj => ?_, hnot⟩
    rcases Nat.lt_succ_iff_lt_or_eq.1 hj with hj | rfl
    · exact hnone j host hij hj
    · exact h host

theorem waits_self : Waits siblings p (p + 1) ↔ ∀ k host, ¬ Trails siblings p k host := by
  constructor
  · exact fun h => h.noTrail
  · exact fun h => ⟨Nat.lt_succ_self p, fun j _ hj hlt => by omega, h⟩

/-- What is known before a place is known of the siblings before it. -/
structure Waiting.Knows (siblings : List Node) (p : Nat) (w : Waiting) : Prop where
  row : ∀ r, w.row = some r ↔ ∃ k host, LastBefore siblings p k host ∧ host.stop.row = r
  pending : ∀ span, span ∈ w.pending ↔ ∃ i comment, CommentAt siblings i comment ∧ comment.span = span ∧
    Waits siblings i p

namespace Waiting

variable {w : Waiting}

theorem knows_start (siblings : List Node) : Knows siblings 0 ⟨none, []⟩ := by
  refine ⟨fun r => ?_, fun span => ?_⟩
  · constructor
    · intro h
      cases h
    · rintro ⟨k, host, hlast, -⟩
      exact absurd hlast.before (Nat.not_lt_zero k)
  · constructor
    · intro h
      cases h
    · rintro ⟨i, comment, -, -, hwaits⟩
      exact absurd hwaits.before (Nat.not_lt_zero i)

/-- The test of the walk says whether a comment trails the last host. -/
theorem Knows.trails_iff (h : Knows siblings p w) (hn : CommentAt siblings p n) :
    w.pending = [] ∧ w.row = some n.start.row ↔ ∃ k host, Trails siblings p k host := by
  constructor
  · rintro ⟨hpending, hrow⟩
    obtain ⟨k, host, hlast, hstop⟩ := (h.row _).1 hrow
    refine ⟨k, host, (hlast.trails_iff hn).2 ⟨hstop.symm, fun j c hk hj hc => ?_⟩⟩
    -- A comment in between that does not trail the host would be waiting.
    by_contra hnot
    have hwaits : c.span ∈ w.pending := by
      refine (h.pending _).2 ⟨j, c, hc, rfl, hj, fun m other hm => hlast.last m other (by omega), ?_⟩
      intro l other htrails
      have hlast' := hlast.earlier hk (Nat.le_of_lt hj)
      obtain rfl := hlast'.unique htrails.lastBefore
      rw [hlast'.isHost.eq htrails.lastBefore.isHost] at hnot
      exact hnot htrails
    rw [hpending] at hwaits
    cases hwaits
  · rintro ⟨k, host, htrails⟩
    have hlast := htrails.lastBefore
    refine ⟨?_, (h.row _).2 ⟨k, host, hlast, (htrails.onRow p n hlast.before (Nat.le_refl p) hn).symm⟩⟩
    rw [List.eq_nil_iff_forall_not_mem]
    intro span hspan
    obtain ⟨i, comment, hcomment, -, hwaits⟩ := (h.pending span).1 hspan
    rcases Nat.lt_trichotomy i k with hik | rfl | hik
    · exact hwaits.noHost k host hik hlast.before hlast.isHost
    · exact hlast.isHost.not_commentAt hcomment
    · exact hwaits.noTrail k host (htrails.earlier hik (Nat.le_of_lt hwaits.before))

theorem Knows.next_host (h : HostAt siblings p n) : Knows siblings (p + 1) ⟨some n.stop.row, []⟩ := by
  refine ⟨fun r => ?_, fun span => ?_⟩
  · constructor
    · rintro ⟨⟩
      exact ⟨p, n, ⟨Nat.lt_succ_self p, h, fun j _ hj hlt => by omega⟩, rfl⟩
    · rintro ⟨k, host, hlast, rfl⟩
      have hself : LastBefore siblings (p + 1) p n := ⟨Nat.lt_succ_self p, h, fun j _ hj hlt => by omega⟩
      obtain rfl := hself.unique hlast
      rw [h.eq hlast.isHost]
  · constructor
    · intro hspan
      cases hspan
    · rintro ⟨i, comment, hcomment, -, hwaits⟩
      rcases Nat.lt_succ_iff_lt_or_eq.1 hwaits.before with hi | rfl
      · exact absurd h (hwaits.noHost p n hi (Nat.lt_succ_self p))
      · exact absurd hcomment h.not_commentAt

theorem Knows.next_bare (h : Knows siblings p w) (hhost : ∀ host, ¬ HostAt siblings p host)
    (hcomment : ∀ comment, ¬ CommentAt siblings p comment) : Knows siblings (p + 1) w := by
  refine ⟨fun r => ?_, fun span => ?_⟩
  · simp only [h.row, lastBefore_succ hhost]
  · rw [h.pending]
    refine exists_congr fun i => exists_congr fun comment => and_congr_right fun hi => and_congr_right fun _ => ?_
    refine (waits_succ hhost ?_).symm
    rintro rfl
    exact hcomment comment hi

theorem Knows.next_comment (h : Knows siblings p w) (hn : CommentAt siblings p n) :
    Knows siblings (p + 1)
      (if w.pending = [] ∧ w.row = some n.start.row then w else { w with pending := w.pending ++ [n.span] }) := by
  have hhost : ∀ host, ¬ HostAt siblings p host := fun host hhost => hhost.not_commentAt hn
  have hself {span : Span} :
      (∃ i comment, CommentAt siblings i comment ∧ comment.span = span ∧ Waits siblings i (p + 1)) ↔
        span ∈ w.pending ∨ n.span = span ∧ ∀ k host, ¬ Trails siblings p k host := by
    rw [h.pending, ← waits_self]
    constructor
    · rintro ⟨i, comment, hi, rfl, hwaits⟩
      by_cases hip : i = p
      · subst hip
        obtain rfl : comment = n := Option.some.inj (hi.1.symm.trans hn.1)
        exact .inr ⟨rfl, hwaits⟩
      · exact .inl ⟨i, comment, hi, rfl, (waits_succ hhost hip).1 hwaits⟩
    · rintro (⟨i, comment, hi, rfl, hwaits⟩ | ⟨rfl, hwaits⟩)
      · exact ⟨i, comment, hi, rfl, (waits_succ hhost (Nat.ne_of_lt hwaits.before)).2 hwaits⟩
      · exact ⟨p, n, hn, rfl, hwaits⟩
  split
  · rename_i htest
    obtain ⟨k, host, htrails⟩ := (h.trails_iff hn).1 htest
    refine ⟨fun r => by simp only [h.row, lastBefore_succ hhost], fun span => ?_⟩
    rw [hself]
    constructor
    · exact .inl
    · rintro (hspan | ⟨-, hnot⟩)
      · exact hspan
      · exact absurd htrails (hnot k host)
  · rename_i htest
    have hnot : ∀ k host, ¬ Trails siblings p k host := fun k host htrails =>
      htest ((h.trails_iff hn).2 ⟨k, host, htrails⟩)
    refine ⟨fun r => by simp only [h.row, lastBefore_succ hhost], fun span => ?_⟩
    rw [hself, List.mem_append, List.mem_singleton]
    constructor
    · rintro (hspan | rfl)
      · exact .inl hspan
      · exact .inr ⟨rfl, hnot⟩
    · rintro (hspan | ⟨rfl, -⟩)
      · exact .inl hspan
      · exact .inr rfl

/-- What is known stays true from sibling to sibling. -/
theorem Knows.next (h : Knows siblings p w) (hn : siblings[p]? = some n) : Knows siblings (p + 1) (w.next n) := by
  rcases kindAt_cases hn with hcomment | hhost | ⟨hnamed, hnohost, hnocomment⟩
  · rw [Waiting.next, if_pos hcomment.2]
    exact h.next_comment hcomment
  · have htakes := hhost.2
    simp only [Node.takesComments, Bool.and_eq_true, Bool.not_eq_true'] at htakes
    rw [Waiting.next, if_neg (by simp [htakes.2]), if_pos htakes.1]
    exact .next_host hhost
  · rw [Waiting.next, if_neg (by simp [Node.isComment_of_bare hnamed]), if_neg (by simp [hnamed])]
    exact h.next_bare hnohost hnocomment

end Waiting

/-! ## The comments of a sibling -/

/-- The comments from a place on are the one at that place, if there is one, and those behind it. -/
theorem exists_comment_from {P : Nat → Node → Prop} :
    (∃ i c, p ≤ i ∧ CommentAt siblings i c ∧ P i c) ↔
      (∃ c, CommentAt siblings p c ∧ P p c) ∨ ∃ i c, p + 1 ≤ i ∧ CommentAt siblings i c ∧ P i c := by
  constructor
  · rintro ⟨i, c, hi, hc⟩
    rcases Nat.lt_or_eq_of_le hi with hi | rfl
    · exact .inr ⟨i, c, hi, hc⟩
    · exact .inl ⟨c, hc⟩
  · rintro (⟨c, hc⟩ | ⟨i, c, hi, hc⟩)
    · exact ⟨p, c, Nat.le_refl p, hc⟩
    · exact ⟨i, c, Nat.le_of_succ_le hi, hc⟩

/-- If all comments between a host and a place trail the host, those that trail it from there on are the run that
starts on its row. -/
theorem mem_trailing_drop {span : Span} {ns : List Node} (hlast : LastBefore siblings p k host)
    (hrun : ∀ j c, k < j → j < p → CommentAt siblings j c → Trails siblings j k host) (hns : siblings.drop p = ns) :
    span ∈ Node.trailing host.stop.row ns ↔
      ∃ i c, p ≤ i ∧ CommentAt siblings i c ∧ c.span = span ∧ Trails siblings i k host := by
  induction ns generalizing p with
  | nil =>
    refine iff_of_false List.not_mem_nil ?_
    rintro ⟨i, c, hi, hc, -⟩
    have hlength := List.drop_eq_nil_iff.1 hns
    obtain ⟨hlt, -⟩ := List.getElem?_eq_some_iff.1 hc.1
    omega
  | cons n ns ih =>
    obtain ⟨hn, hrest⟩ := getElem?_of_drop hns
    have hlater (hhost : ∀ other, ¬ HostAt siblings p other)
        (hhere : ∀ c, CommentAt siblings p c → Trails siblings p k host) :=
      ih ((lastBefore_succ hhost).2 hlast) (fun j c hk hj hc => by
        rcases Nat.lt_succ_iff_lt_or_eq.1 hj with hj | rfl
        · exact hrun j c hk hj hc
        · exact hhere c hc) hrest
    rcases kindAt_cases hn with hcomment | hhost | ⟨hnamed, hnohost, hnocomment⟩
    · rw [Node.trailing_comment ns _ hcomment.2]
      split
      · rename_i hrow
        have htrails := (hlast.trails_iff hcomment).2 ⟨hrow, hrun⟩
        rw [List.mem_cons, hlater (fun _ hother => hother.not_commentAt hcomment) (fun _ _ => htrails),
          exists_comment_from (p := p)]
        refine or_congr ⟨?_, ?_⟩ Iff.rfl
        · rintro rfl
          exact ⟨n, hcomment, rfl, htrails⟩
        · rintro ⟨c, hc, rfl, -⟩
          rw [Option.some.inj (hc.1.symm.trans hn)]
      · rename_i hrow
        refine iff_of_false List.not_mem_nil ?_
        rintro ⟨i, c, hi, -, -, htrails⟩
        exact hrow (htrails.onRow p n hlast.before hi hcomment)
    · rw [Node.trailing_host ns _ hhost.2]
      refine iff_of_false List.not_mem_nil ?_
      rintro ⟨i, c, hi, hc, -, htrails⟩
      rcases Nat.lt_or_eq_of_le hi with hi | rfl
      · exact htrails.lastBefore.last p n hlast.before hi hhost
      · exact hhost.not_commentAt hc
    · rw [Node.trailing_bare ns _ hnamed, hlater hnohost (fun c hc => absurd hc (hnocomment c)),
        exists_comment_from (p := p)]
      refine (or_iff_right ?_).symm
      rintro ⟨c, hc, -⟩
      exact hnocomment c hc

theorem mem_given_drop {w : Waiting} {span : Span} {ns : List Node} (h : w.Knows siblings p)
    (hns : siblings.drop p = ns) : span ∈ Node.given w ns k ↔
      ∃ i comment, CommentAt siblings i comment ∧ comment.span = span ∧ Belongs siblings i (p + k) := by
  induction ns generalizing p w k with
  | nil =>
    constructor
    · intro hspan
      cases hspan
    · rintro ⟨i, comment, -, -, hbelongs⟩
      obtain ⟨host, hhost⟩ := hbelongs.exists_host
      have hlength := List.drop_eq_nil_iff.1 hns
      obtain ⟨hlt, -⟩ := List.getElem?_eq_some_iff.1 hhost.1
      omega
  | cons n ns ih =>
    obtain ⟨hn, hrest⟩ := getElem?_of_drop hns
    cases k with
    | succ k =>
      rw [Node.given, ih (h.next hn) hrest, Nat.add_right_comm, Nat.add_assoc]
    | zero =>
      rw [Node.given, Nat.add_zero]
      split
      · rename_i htakes
        have hhost : HostAt siblings p n := ⟨hn, htakes⟩
        have hlast : LastBefore siblings (p + 1) p n := ⟨Nat.lt_succ_self p, hhost, fun j _ hj hlt => by omega⟩
        rw [List.mem_append, h.pending, mem_trailing_drop hlast (fun j _ hj hlt => by omega) hrest]
        constructor
        · rintro (⟨i, c, hc, hspan, hwaits⟩ | ⟨i, c, -, hc, hspan, htrails⟩)
          · exact ⟨i, c, hc, hspan, n, .inr ⟨⟨hwaits.before, hhost, hwaits.noHost⟩, hwaits.noTrail⟩⟩
          · exact ⟨i, c, hc, hspan, n, .inl htrails⟩
        · rintro ⟨i, c, hc, hspan, host, htrails | ⟨hnext, hnot⟩⟩
          · obtain rfl := hhost.eq htrails.lastBefore.isHost
            exact .inr ⟨i, c, htrails.lastBefore.before, hc, hspan, htrails⟩
          · exact .inl ⟨i, c, hc, hspan, hnext.behind, hnext.next, hnot⟩
      · rename_i htakes
        constructor
        · intro hspan
          cases hspan
        · rintro ⟨i, comment, -, -, hbelongs⟩
          obtain ⟨host, hhost⟩ := hbelongs.exists_host
          obtain rfl := Option.some.inj (hn.symm.trans hhost.1)
          exact absurd hhost.2 htakes

theorem mem_given {span : Span} : span ∈ Node.given ⟨none, []⟩ siblings k ↔
    ∃ i comment, CommentAt siblings i comment ∧ comment.span = span ∧ Belongs siblings i k := by
  rw [mem_given_drop (Waiting.knows_start siblings) List.drop_zero, Nat.zero_add]

end

/-! ## The order of the comments of a sibling -/

namespace Node

/-- The spans of the comments among siblings. -/
def commentSpans (ns : List Node) : List Span := (ns.filter isComment).map span

theorem commentSpans_append (ns ms : List Node) : commentSpans (ns ++ ms) = commentSpans ns ++ commentSpans ms := by
  simp [commentSpans]

theorem trailing_sublist (row : Nat) (ns : List Node) : (trailing row ns).Sublist (commentSpans ns) := by
  have hcomments : ∀ n ∈ (ns.filter isNamed).takeWhile (fun n => n.isComment && n.start.row == row),
      n.isComment = true := by
    intro n hn
    have hstarts := List.mem_takeWhile_imp hn
    simp only [Bool.and_eq_true] at hstarts
    exact hstarts.1
  have hsub := (List.takeWhile_sublist (fun n => n.isComment && n.start.row == row) (l := ns.filter isNamed)).trans
    List.filter_sublist
  have hkept := hsub.filter isComment
  rw [List.filter_eq_self.2 hcomments] at hkept
  exact hkept.map span

/-- The comments of a sibling are some of those before it and some of those behind it. -/
theorem exists_given_eq {w : Waiting} {before : List Node} (hw : w.pending.Sublist (commentSpans before))
    (ns : List Node) (k : Nat) : ∃ lead trail, given w ns k = lead ++ trail ∧
      lead.Sublist (commentSpans (before ++ ns.take k)) ∧ trail.Sublist (commentSpans (ns.drop (k + 1))) := by
  induction ns generalizing w before k with
  | nil => exact ⟨[], [], rfl, List.nil_sublist _, List.nil_sublist _⟩
  | cons n ns ih =>
    cases k with
    | zero =>
      rw [given]
      split
      · exact ⟨w.pending, trailing n.stop.row ns, rfl, by simpa using hw, by simpa using trailing_sublist _ ns⟩
      · exact ⟨[], [], rfl, List.nil_sublist _, List.nil_sublist _⟩
    | succ k =>
      have hnext : (w.next n).pending.Sublist (commentSpans (before ++ [n])) := by
        rw [commentSpans_append]
        unfold Waiting.next
        split
        · rename_i hn
          split
          · exact hw.trans (List.sublist_append_left _ _)
          · have hself : commentSpans [n] = [n.span] := by simp [commentSpans, hn]
            rw [hself]
            exact hw.append (List.Sublist.refl _)
        · split
          · exact List.nil_sublist _
          · exact hw.trans (List.sublist_append_left _ _)
      obtain ⟨lead, trail, hgiven, hlead, htrail⟩ := ih hnext k
      rw [List.append_assoc] at hlead
      exact ⟨lead, trail, hgiven, hlead, htrail⟩

end Node

end GoOutline
