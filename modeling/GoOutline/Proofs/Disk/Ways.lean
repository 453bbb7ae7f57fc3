import GoOutline.Proofs.Disk.Pieces

/-!
# Following a path in parts

One piece of a path can do three things in a directory: end the walk, lead on to a place, or hand over to a link
(`follow_cons`). So what is behind a part of a path is followed from where that part leads, with the links that are left
(`followLinks_append`). Empty pieces and the piece `.` only ask for a directory, which every later piece asks for too;
but for one at the end they make no difference (`followLinks_settled`).
-/
namespace GoOutline.Disk

variable {d : Disk}

/-! ## One piece -/

/-- What a piece of a path does in a directory. A link goes on somewhere, with pieces of its own put before the rest. -/
inductive Turn where
  | stop (cause : DiskError)
  | on (there : List Name)
  | link (there : List Name) (pieces : List Name)

/-- What the piece does there. -/
def turn (d : Disk) (here : List Name) (piece : Name) : Turn :=
  if d.entry? here != some .directory then .stop .notDirectory
  else if Path.isIdle piece then .on here
  else if piece == Path.dotDot then .on here.dropLast
  else if longestName < piece.length then .stop .nameTooLong
  else if piece.contains nul then .stop .nulByte
  else
    match d.entry? (here ++ [piece]) with
    | none => .stop .notFound
    | some (.link target) => .link (if target.isAbsolute then [] else here) (List.splitOn Path.slash target.bytes)
    | some _ => .on (here ++ [piece])

theorem follow_cons (onLink : List Name → List Name → Except DiskError (List Name)) (here : List Name) (piece : Name)
    (rest : List Name) : d.follow onLink here (piece :: rest) =
      match d.turn here piece with
      | .stop cause => .error cause
      | .on there => d.follow onLink there rest
      | .link there pieces => onLink there (pieces ++ rest) := by
  rw [follow, turn]
  split
  · rfl
  · split
    · rfl
    · split
      · rfl
      · split
        · rfl
        · split
          · rfl
          · cases hentry : d.entry? (here ++ [piece]) with
            | none => rfl
            | some entry => cases entry <;> rfl

theorem turn_of_not_directory {here : List Name} (h : d.entry? here ≠ some .directory) (piece : Name) :
    d.turn here piece = .stop .notDirectory := by
  simp [turn, h]

theorem turn_idle {here : List Name} {piece : Name} (hidle : Path.isIdle piece = true)
    (h : d.entry? here = some .directory) : d.turn here piece = .on here := by
  simp [turn, h, hidle]

theorem followLinks_cons (links : Nat) (here : List Name) (piece : Name) (rest : List Name) :
    d.followLinks links here (piece :: rest) =
      match d.turn here piece with
      | .stop cause => .error cause
      | .on there => d.followLinks links there rest
      | .link there pieces =>
        match links with
        | 0 => .error .tooManyLinks
        | left + 1 => d.followLinks left there (pieces ++ rest) := by
  cases links with
  | zero => exact follow_cons _ here piece rest
  | succ left => exact follow_cons _ here piece rest

/-- The pieces that are not idle. -/
def busy (pieces : List Name) : List Name :=
  pieces.filter fun piece => !Path.isIdle piece

/-- Pieces without the idle ones, but with an empty piece at the end if the last one is idle. -/
def settled (pieces : List Name) : List Name :=
  busy pieces ++ if pieces.getLast?.any Path.isIdle then [[]] else []

theorem busy_append (front back : List Name) : busy (front ++ back) = busy front ++ busy back :=
  List.filter_append front back

theorem busy_busy (pieces : List Name) : busy (busy pieces) = busy pieces := by
  simp [busy]

theorem settled_append (front : List Name) {back : List Name} (h : back ≠ []) :
    settled (front ++ back) = busy front ++ settled back := by
  rw [settled, settled, busy_append, List.getLast?_append_of_ne_nil _ h, List.append_assoc]

theorem settled_of_idle {piece : Name} (h : Path.isIdle piece = true) : settled [piece] = [[]] := by
  simp [settled, busy, h]

theorem settled_of_busy {piece : Name} (h : Path.isIdle piece = false) : settled [piece] = [piece] := by
  simp [settled, busy, h]

theorem settled_single_ne_nil (piece : Name) : settled [piece] ≠ [] := by
  by_cases hidle : Path.isIdle piece = true
  · simp [settled_of_idle hidle]
  · simp [settled_of_busy (by simpa using hidle)]

theorem settled_settled_single (piece : Name) : settled (settled [piece]) = settled [piece] := by
  by_cases hidle : Path.isIdle piece = true
  · rw [settled_of_idle hidle, settled_of_idle rfl]
  · rw [settled_of_busy (by simpa using hidle), settled_of_busy (by simpa using hidle)]

theorem settled_ne_nil {pieces : List Name} (h : pieces ≠ []) : settled pieces ≠ [] := by
  obtain ⟨front, last, rfl⟩ := (List.eq_nil_or_concat pieces).resolve_left h
  rw [List.concat_eq_append, settled_append _ (by simp)]
  simp [settled_single_ne_nil last]

theorem settled_settled (pieces : List Name) : settled (settled pieces) = settled pieces := by
  obtain rfl | ⟨front, last, rfl⟩ := List.eq_nil_or_concat pieces
  · rfl
  · rw [List.concat_eq_append, settled_append _ (by simp), settled_append _ (settled_single_ne_nil last), busy_busy,
      settled_settled_single]

theorem busy_settled (pieces : List Name) : busy (settled pieces) = busy pieces := by
  rw [settled, busy_append, busy_busy]
  split <;> simp [busy, Path.isIdle]

theorem settled_append_congr {front front' : List Name} (h : settled front = settled front') {back : List Name}
    (hback : back ≠ []) : settled (front ++ back) = settled (front' ++ back) := by
  have hfront := congrArg busy h
  rw [busy_settled, busy_settled] at hfront
  rw [settled_append _ hback, settled_append _ hback, hfront]

theorem settled_append_settled (front back : List Name) : settled (front ++ settled back) = settled (front ++ back) := by
  by_cases hback : back = []
  · subst hback
    rfl
  · rw [settled_append _ (settled_ne_nil hback), settled_append _ hback, settled_settled]

/-- An idle piece before others asks for nothing that they do not ask for. -/
theorem followLinks_cons_idle {piece : Name} (hidle : Path.isIdle piece = true) {rest : List Name} (hrest : rest ≠ [])
    (links : Nat) (here : List Name) : d.followLinks links here (piece :: rest) = d.followLinks links here rest := by
  obtain ⟨next, others, rfl⟩ := List.exists_cons_of_ne_nil hrest
  by_cases hdir : d.entry? here = some .directory
  · rw [followLinks_cons, turn_idle hidle hdir]
  · rw [followLinks_cons, turn_of_not_directory hdir, followLinks_cons, turn_of_not_directory hdir]

theorem settled_cons_idle {piece : Name} (hidle : Path.isIdle piece = true) {rest : List Name} (hrest : rest ≠ []) :
    settled (piece :: rest) = settled rest := by
  have hnone : busy [piece] = [] := by simp [busy, hidle]
  rw [← List.singleton_append, settled_append _ hrest, hnone, List.nil_append]

theorem settled_cons_busy {piece : Name} (hbusy : Path.isIdle piece = false) (rest : List Name) :
    settled (piece :: rest) = piece :: settled rest := by
  have hself : busy [piece] = [piece] := by simp [busy, hbusy]
  by_cases hrest : rest = []
  · subst hrest
    exact settled_of_busy hbusy
  · rw [← List.singleton_append, settled_append _ hrest, hself, List.singleton_append]

theorem followLinks_settled_single (links : Nat) (here : List Name) (piece : Name) :
    d.followLinks links here (settled [piece]) = d.followLinks links here [piece] := by
  by_cases hidle : Path.isIdle piece = true
  · rw [settled_of_idle hidle, followLinks_cons, followLinks_cons]
    by_cases hdir : d.entry? here = some .directory
    · rw [turn_idle rfl hdir, turn_idle hidle hdir]
    · rw [turn_of_not_directory hdir, turn_of_not_directory hdir]
  · rw [settled_of_busy (by simpa using hidle)]

theorem followLinks_settled (links : Nat) (here pieces : List Name) :
    d.followLinks links here (settled pieces) = d.followLinks links here pieces := by
  induction links using Nat.strong_induction_on generalizing here pieces with
  | _ links ihlinks =>
    induction pieces generalizing here with
    | nil => rfl
    | cons piece rest ih =>
      by_cases hrest : rest = []
      · subst hrest
        exact followLinks_settled_single links here piece
      · by_cases hidle : Path.isIdle piece = true
        · rw [settled_cons_idle hidle hrest, ih, followLinks_cons_idle hidle hrest]
        · rw [settled_cons_busy (by simpa using hidle), followLinks_cons, followLinks_cons]
          cases d.turn here piece with
          | stop cause => rfl
          | on there => exact ih there
          | link there pieces =>
            cases links with
            | zero => rfl
            | succ left =>
              -- the pieces of the link come before the rest, so they are settled with it
              have hleft := ihlinks left (Nat.lt_succ_self left) there
              show d.followLinks left there (pieces ++ settled rest) = d.followLinks left there (pieces ++ rest)
              rw [← hleft (pieces ++ settled rest), settled_append_settled, hleft]

end GoOutline.Disk
