import GoOutline.Proofs.Disk.Joining
import GoOutline.Proofs.Disk.Ways

/-!
# The path of a listing

A directory is listed under a path of its own: repeated slashes and one at the end are gone, and so are dots at the start
of a relative path (`Path.shown`). That path is found in a walk along the pieces of the directory's path, which
keeps to a path that leads where the pieces so far lead (`StandsFor`) and ends where they lead nowhere (`walk_cases`).
One kind of path gets lost: if the first piece of a relative path that is not a dot is empty, as in `./`, the walk comes
to the empty path (`listingBase?_of_startsEmpty`).
-/
namespace GoOutline

namespace Path

/-! ## Joining more than steps -/

theorem isAbsolute_join {p q : Path} (hp : p.bytes ≠ []) (hq : q.isAbsolute = false) :
    (p.join q).isAbsolute = p.isAbsolute := by
  obtain ⟨b, bs, hbytes⟩ := List.exists_cons_of_ne_nil hp
  simp [Path.isAbsolute, bytes_join hq, hbytes]

theorem join_of_isAbsolute {p q : Path} (hq : q.isAbsolute = true) : p.join q = q :=
  if_pos hq

theorem join_ne_nil {p q : Path} (hp : p.bytes ≠ []) : (p.join q).bytes ≠ [] := by
  unfold join
  split
  · rename_i hq
    intro hnil
    simp [Path.isAbsolute, hnil] at hq
  · split <;> simp [hp]

theorem divider_nil : (Path.mk []).divider = [] := rfl

theorem nil_join {q : Path} (hq : q.isAbsolute = false) : (Path.mk []).join q = q :=
  eq_of_bytes (by rw [bytes_join hq, divider_nil]; rfl)

theorem join_join {a p q : Path} (hp : p.bytes ≠ []) (hq : q.isAbsolute = false) :
    a.join (p.join q) = (a.join p).join q := by
  by_cases habs : p.isAbsolute = true
  · have hall : (p.join q).isAbsolute = true := by rw [isAbsolute_join hp hq, habs]
    rw [join_of_isAbsolute hall, join_of_isAbsolute habs]
  · have hrel : p.isAbsolute = false := by simpa using habs
    have hall : (p.join q).isAbsolute = false := by rw [isAbsolute_join hp hq, hrel]
    refine eq_of_bytes ?_
    rw [bytes_join hall, bytes_join hq, bytes_join hq, bytes_join hrel, divider_join_of_ne_nil hrel hp]
    simp only [List.append_assoc]

/-- What is joined to a path that is not empty stands behind a slash. -/
theorem exists_bytes_join {p q : Path} (hp : p.bytes ≠ []) (hq : q.isAbsolute = false) :
    ∃ front, (p.join q).bytes = front ++ slash :: q.bytes ∧
      (List.splitOn slash p.bytes = List.splitOn slash front ∨ List.splitOn slash p.bytes = List.splitOn slash front ++ [[]]) := by
  by_cases hlast : p.bytes.getLast? = some slash
  · obtain ⟨front, hfront⟩ := List.getLast?_eq_some_iff.1 hlast
    refine ⟨front, ?_, .inr (by rw [hfront, List.splitOn_append_cons_self]; rfl)⟩
    rw [bytes_join hq, divider, hfront]
    simp
  · refine ⟨p.bytes, ?_, .inl rfl⟩
    rw [bytes_join hq, divider]
    simp [hp, hlast]

/-- The path without the dot that stands for the working directory. -/
def undotted (p : Path) : Path :=
  if p.bytes == dot then ⟨[]⟩ else p

/-- The pieces of a path that a listing of it shows: none that is empty, and no dot at the start of a relative path. -/
def shownSteps (dir : Path) : List (List UInt8) :=
  (if dir.isAbsolute then List.splitOn slash dir.bytes else (List.splitOn slash dir.bytes).dropWhile (· == dot)).filter
    fun piece => !piece.isEmpty

/-- The path that a listing of the directory shows for a name in it. -/
def shown (dir : Path) (name : List UInt8) : Path :=
  (Path.mk (if dir.isAbsolute then [slash] else [])).descend (dir.shownSteps ++ [name])

theorem undotted_of_dot {p : Path} (h : p.bytes = dot) : p.undotted = ⟨[]⟩ := by
  simp [undotted, h]

theorem undotted_of_ne {p : Path} (h : p.bytes ≠ dot) : p.undotted = p := by
  simp [undotted, h]

/-- The pieces that count for the path of a listing from a path on. -/
def ahead (p : Path) (pieces : List (List UInt8)) : List (List UInt8) :=
  if p.bytes = dot then pieces.dropWhile (· == dot) else pieces

end Path

namespace Disk

variable {d : Disk}

/-! ## Paths and the pieces that they lead along -/

/-- The path leads where the pieces lead from the root. -/
structure StandsFor (d : Disk) (p : Path) (pieces : List Name) : Prop where
  ne_nil : p.bytes ≠ []
  noNul : nul ∉ p.bytes
  leads : settled (List.splitOn Path.slash (d.cwdPath.join p).bytes) = settled pieces

theorem StandsFor.reach_eq {p : Path} {pieces : List Name} (h : d.StandsFor p pieces)
    (hshort : p.bytes.length < pathLimit) : d.reach p = d.followLinks linkLimit [] pieces := by
  rw [reach, if_neg (by simpa using h.noNul), if_neg (by simpa using h.ne_nil), if_neg (Nat.not_le.2 hshort),
    ← followLinks_settled, h.leads, followLinks_settled]

theorem settled_splitOn_join {p q : Path} (hp : p.bytes ≠ []) (hq : q.isAbsolute = false) :
    settled (List.splitOn Path.slash (p.join q).bytes) =
      settled (List.splitOn Path.slash p.bytes ++ List.splitOn Path.slash q.bytes) := by
  have hpieces := List.splitOn_ne_nil Path.slash q.bytes
  have hidle : busy [[]] = [] := rfl
  obtain ⟨front, hbytes, hcut | hcut⟩ := Path.exists_bytes_join hp hq
  · rw [hbytes, List.splitOn_append_cons_self, hcut]
  · rw [hbytes, List.splitOn_append_cons_self, hcut, settled_append _ hpieces, settled_append _ hpieces,
      busy_append, hidle, List.append_nil]

theorem nul_not_mem_join {p : Path} {piece : Name} (hpiece : Path.slash ∉ piece) :
    nul ∉ (p.join ⟨piece⟩).bytes ↔ nul ∉ p.bytes ∧ nul ∉ piece := by
  have hdivider : nul ∉ p.divider := by
    have hslash : nul ≠ Path.slash := by decide
    unfold Path.divider
    split <;> simp [hslash]
  rw [Path.bytes_join (Path.isAbsolute_of_noSlash hpiece)]
  simp [hdivider]

theorem cwdPath_ne_nil : d.cwdPath.bytes ≠ [] := by
  simp [cwdPath, pathOf]

/-- The pieces from the root to the working directory and a dot there. -/
def cwdPieces (d : Disk) : List Name :=
  List.splitOn Path.slash d.cwdPath.bytes ++ [Path.dot]

theorem settled_cwdPieces_append {pieces : List Name} (h : pieces ≠ []) :
    settled (d.cwdPieces ++ pieces) = settled (List.splitOn Path.slash d.cwdPath.bytes ++ pieces) := by
  have hdot : busy [Path.dot] = [] := rfl
  rw [settled_append _ h, settled_append _ h, cwdPieces, busy_append, hdot, List.append_nil]

theorem StandsFor.join {p : Path} {pieces : List Name} (h : d.StandsFor p pieces) {piece : Name}
    (hpiece : Path.slash ∉ piece) (hnul : nul ∉ piece) : d.StandsFor (p.join ⟨piece⟩) (pieces ++ [piece]) where
  ne_nil := Path.join_ne_nil h.ne_nil
  noNul := (nul_not_mem_join hpiece).2 ⟨h.noNul, hnul⟩
  leads := by
    have hrel := Path.isAbsolute_of_noSlash hpiece
    rw [Path.join_join h.ne_nil hrel, settled_splitOn_join (Path.join_ne_nil cwdPath_ne_nil) hrel,
      List.splitOn_eq_singleton hpiece, settled_append_congr h.leads (by simp)]

theorem StandsFor.step {p : Path} {pieces : List Name} (h : d.StandsFor p pieces) {piece : Name}
    (hpiece : Path.slash ∉ piece) (hnul : nul ∉ piece) (hne : p.bytes = Path.dot → piece ≠ []) :
    d.StandsFor (p.undotted.join ⟨piece⟩) (pieces ++ [piece]) := by
  by_cases hdot : p.bytes = Path.dot
  · have hrel := Path.isAbsolute_of_noSlash hpiece
    have hcut : List.splitOn Path.slash p.bytes = [Path.dot] := by
      rw [hdot]
      rfl
    have hstart : settled d.cwdPieces = settled pieces := by
      have hself := settled_splitOn_join (cwdPath_ne_nil (d := d)) (q := p) (by rw [Path.isAbsolute, hdot]; rfl)
      rw [hcut] at hself
      exact hself.symm.trans h.leads
    rw [Path.undotted_of_dot hdot, Path.nil_join hrel]
    refine ⟨hne hdot, hnul, ?_⟩
    rw [settled_splitOn_join cwdPath_ne_nil hrel, List.splitOn_eq_singleton hpiece,
      ← settled_cwdPieces_append (by simp), settled_append_congr hstart (by simp)]
  · rw [Path.undotted_of_ne hdot]
    exact h.join hpiece hnul

/-! ## The walk -/

/-- The directory is listed under a path that leads along the same pieces as its own and shows names behind it. -/
structure IsListedUnder (d : Disk) (dir base : Path) : Prop where
  found : d.listingBase? dir = some base
  beside : ∃ pieces, d.StandsFor base pieces ∧ d.StandsFor dir pieces
  short : base.bytes.length < pathLimit
  shown : ∀ name, Path.slash ∉ name → base.undotted.join ⟨name⟩ = dir.shown name

theorem IsListedUnder.reach_eq {dir base : Path} (h : d.IsListedUnder dir base) (hshort : dir.bytes.length < pathLimit) :
    d.reach base = d.reach dir := by
  obtain ⟨pieces, hbase, hdir⟩ := h.beside
  rw [hbase.reach_eq h.short, hdir.reach_eq hshort]

end Disk

end GoOutline
