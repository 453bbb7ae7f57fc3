/-!
# Import tables: `File::imports`

An import table maps import paths to the names they are bound to, in the order of the paths. The empty
name stands for the package's own, a dot for an import of all names and a low line for none.
-/
namespace GoOutline

/-- Import paths with their bound names, in increasing order of paths. -/
abbrev Imports := List (String × String)

/-- Bound name of an import that binds nothing. -/
def blankName : String := "_"

/-- Bound name of an import that brings in all names. -/
def dotName : String := "."

namespace Imports

/-- The table with a path bound to a name, whatever it was bound to before. -/
def insert (path name : String) : Imports → Imports
  | [] => [(path, name)]
  | (p, n) :: rest =>
    if path < p then (path, name) :: (p, n) :: rest
    else if path == p then (path, name) :: rest
    else (p, n) :: insert path name rest

/-- The table with a path, under the package's own name if it is new. -/
def ensure (path : String) (table : Imports) : Imports :=
  if table.any (·.1 == path) then table else insert path "" table

/-- The table with more paths, each under its package's own name if it is new. -/
def extend (table : Imports) (paths : List String) : Imports :=
  paths.foldl (fun t path => ensure path t) table

end Imports

end GoOutline
