import GoOutline.Disk.Basic
import Mathlib.Data.List.DropRight

/-!
# Paths and their pieces

Cutting a path at its slashes and joining the pieces again are inverse to each other. An absolute path is
determined by its parts, and going up one level drops the last of them (`parts_directory`), however
the path is spelled.
-/
namespace GoOutline.Path

/-! ## Cutting and joining -/

theorem splitOn_slash_cons (bytes : List UInt8) : List.splitOn slash (slash :: bytes) = [] :: List.splitOn slash bytes :=
  List.splitOn_append_cons_self_of_not_mem List.not_mem_nil bytes

theorem splitOn_cons_of_ne {b : UInt8} (hb : b ≠ slash) (bs : List UInt8) :
    ∃ piece rest, List.splitOn slash bs = piece :: rest ∧ List.splitOn slash (b :: bs) = (b :: piece) :: rest := by
  obtain ⟨piece, rest, h⟩ := List.exists_cons_of_ne_nil (List.splitOn_ne_nil slash bs)
  refine ⟨piece, rest, h, ?_⟩
  rw [List.splitOn_cons_eq_if_modifyHead, h, if_neg (by simpa using hb), List.modifyHead_cons]

theorem slash_not_mem_of_mem_splitOn :
    ∀ {bytes piece : List UInt8}, piece ∈ List.splitOn slash bytes → slash ∉ piece
  | [], piece, h => by simp_all [List.splitOn_nil]
  | b :: bs, piece, h => by
    by_cases hb : b = slash
    · subst hb
      rw [splitOn_slash_cons, List.mem_cons] at h
      rcases h with rfl | h
      · simp
      · exact slash_not_mem_of_mem_splitOn h
    · obtain ⟨first, rest, hbs, hcut⟩ := splitOn_cons_of_ne hb bs
      rw [hcut, List.mem_cons] at h
      rcases h with rfl | h
      · have hmem : first ∈ List.splitOn slash bs := by simp [hbs]
        simp [slash_not_mem_of_mem_splitOn hmem, Ne.symm hb]
      · have hmem : piece ∈ List.splitOn slash bs := by simp [hbs, h]
        exact slash_not_mem_of_mem_splitOn hmem

/-- A byte other than a slash stands in one of the pieces. -/
theorem mem_iff_exists_mem_splitOn {b : UInt8} (hb : b ≠ slash) (bytes : List UInt8) :
    b ∈ bytes ↔ ∃ piece ∈ List.splitOn slash bytes, b ∈ piece := by
  induction bytes with
  | nil => simp [List.splitOn_nil]
  | cons c cs ih =>
    by_cases hc : c = slash
    · rw [hc, splitOn_slash_cons, List.mem_cons, ih]
      simp [hb]
    · obtain ⟨first, rest, hcs, hcut⟩ := splitOn_cons_of_ne hc cs
      rw [hcs] at ih
      rw [hcut, List.mem_cons, ih]
      simp [or_assoc]

/-! ## Parts of absolute paths -/

theorem slash_not_mem_of_mem_body {p : Path} {piece : List UInt8} (h : piece ∈ p.body) : slash ∉ piece :=
  slash_not_mem_of_mem_splitOn h

theorem eq_of_bytes {p q : Path} (h : p.bytes = q.bytes) : p = q := by
  cases p
  cases q
  rw [Path.mk.injEq]
  exact h

theorem exists_of_isAbsolute {p : Path} (h : p.isAbsolute = true) : ∃ rest, p = ⟨slash :: rest⟩ := by
  obtain ⟨b, rest, hbytes⟩ : ∃ b rest, p.bytes = b :: rest := by
    refine List.exists_cons_of_ne_nil fun hnil => ?_
    simp [isAbsolute, hnil] at h
  have hb : b = slash := by simpa [isAbsolute, hbytes] using h
  exact ⟨rest, eq_of_bytes (by rw [hbytes, hb])⟩

theorem lead_of_isAbsolute {p : Path} (h : p.isAbsolute = true) : p.lead = [slash] := by
  obtain ⟨bytes⟩ := p
  cases bytes with
  | nil => simp [isAbsolute] at h
  | cons b bs => simp_all [lead, isAbsolute]

/-- The parts of an absolute path written as a slash and pieces. -/
theorem parts_slash_intercalate {pieces : List (List UInt8)} (h : ∀ piece ∈ pieces, slash ∉ piece) :
    (Path.mk (slash :: List.intercalate [slash] pieces)).parts = [slash] :: pieces.filter fun piece => !isIdle piece := by
  have hlead := lead_of_isAbsolute (p := ⟨slash :: List.intercalate [slash] pieces⟩) (by simp [isAbsolute])
  have hbody : (Path.mk (slash :: List.intercalate [slash] pieces)).body = List.splitOn slash (List.intercalate [slash] pieces) := by
    simp [body, hlead]
  simp only [parts, hlead, hbody, List.isEmpty_cons, Bool.false_eq_true, ite_false, List.singleton_append,
    List.cons.injEq, true_and]
  by_cases hne : pieces = []
  · subst hne; simp [List.splitOn_nil, isIdle]
  · rw [List.splitOn_intercalate slash h hne]

theorem isAbsolute_of_parts {p : Path} {rest : List (List UInt8)} (h : p.parts = [slash] :: rest) :
    p.isAbsolute = true := by
  by_contra habs
  have hmem : [slash] ∈ p.parts := by simp [h]
  simp only [parts, List.mem_append, List.mem_filter] at hmem
  rcases hmem with hlead | hbody
  · by_cases hdot : p.startsAtDot = true
    · obtain ⟨bytes⟩ := p
      cases bytes with
      | nil => simp [startsAtDot] at hdot
      | cons b bs =>
        have hb : slash = b := by simpa [lead, hdot] using hlead
        exact habs (by simp [isAbsolute, hb])
    · simp [lead, habs, hdot] at hlead
  · exact slash_not_mem_of_mem_body hbody.1 (by simp)

theorem filter_body_of_parts {p : Path} {rest : List (List UInt8)} (h : p.parts = [slash] :: rest) :
    p.body.filter (fun piece => !isIdle piece) = rest := by
  simpa [parts, lead_of_isAbsolute (isAbsolute_of_parts h)] using h

/-! ## Going up -/

theorem dropIdleEnd_eq_rdropWhile (pieces : List (List UInt8)) :
    dropIdleEnd pieces = pieces.rdropWhile isIdle := rfl

theorem filter_dropIdleEnd (pieces : List (List UInt8)) :
    (dropIdleEnd pieces).filter (fun piece => !isIdle piece) = pieces.filter fun piece => !isIdle piece := by
  induction pieces using List.reverseRecOn with
  | nil => rfl
  | append_singleton pieces last ih =>
    rw [dropIdleEnd_eq_rdropWhile] at ih ⊢
    by_cases hidle : isIdle last = true
    · rw [List.rdropWhile_concat_pos _ _ _ hidle]
      simpa [hidle] using ih
    · rw [List.rdropWhile_concat_neg _ _ _ hidle]

theorem mem_of_mem_dropIdleEnd {pieces : List (List UInt8)} {piece : List UInt8}
    (h : piece ∈ dropIdleEnd pieces) : piece ∈ pieces :=
  (List.rdropWhile_prefix isIdle (l := pieces)).subset h

/-- What is left of pieces without the idle ones at the end closes with their last busy piece. -/
theorem dropIdleEnd_eq_concat {pieces front : List (List UInt8)} {last : List UInt8}
    (h : pieces.filter (fun piece => !isIdle piece) = front ++ [last]) :
    ∃ rest, dropIdleEnd pieces = rest ++ [last] ∧ rest.filter (fun piece => !isIdle piece) = front := by
  have hfilter := filter_dropIdleEnd pieces
  rw [h] at hfilter
  have hne : dropIdleEnd pieces ≠ [] := by
    intro hnil
    simp [hnil] at hfilter
  have hbusy : ¬ isIdle ((dropIdleEnd pieces).getLast hne) = true := List.rdropWhile_last_not isIdle pieces hne
  refine ⟨(dropIdleEnd pieces).dropLast, ?_⟩
  have hsplit := List.dropLast_append_getLast hne
  rw [← hsplit, List.filter_append] at hfilter
  simp only [List.filter_cons, hbusy, Bool.not_false, ite_true, List.filter_nil] at hfilter
  obtain ⟨hfront, hlast⟩ := List.append_inj' hfilter rfl
  simp only [List.cons.injEq, and_true] at hlast
  exact ⟨by rw [← hlast]; exact hsplit.symm, hfront⟩

/-- The directory of an absolute path has the path's parts but the last. -/
theorem parts_directory {p : Path} {front : List (List UInt8)} {last : List UInt8}
    (h : p.parts = [slash] :: (front ++ [last])) : p.directory.parts = [slash] :: front := by
  have hlead := lead_of_isAbsolute (isAbsolute_of_parts h)
  obtain ⟨rest, hdrop, hrest⟩ := dropIdleEnd_eq_concat (filter_body_of_parts h)
  have hdir : p.directory = ⟨slash :: List.intercalate [slash] (dropIdleEnd rest)⟩ := by
    have hne : (rest ++ [last]).isEmpty = false := by simp
    simp [directory, parent?, hdrop, hlead, hne]
  have hslash : ∀ piece ∈ dropIdleEnd rest, slash ∉ piece := by
    intro piece hp
    refine slash_not_mem_of_mem_body (p := p) (mem_of_mem_dropIdleEnd ?_)
    rw [hdrop]
    exact List.mem_append_left _ (mem_of_mem_dropIdleEnd hp)
  rw [hdir, parts_slash_intercalate hslash, filter_dropIdleEnd, hrest]

end GoOutline.Path
