import GoOutline.Disk.Basic
import GoOutline.Grammar.Parse

/-!
# Errors: `ModelError`

Why a file cannot be scanned or a type cannot be found.
-/
namespace GoOutline

/-- What can go wrong in scanning a file and in looking for a type (`ModelError`). -/
inductive Error where
  /-- The file cannot be read. -/
  | read (path : Path) (cause : DiskError)
  /-- The source does not follow the grammar. -/
  | parse (path : Path) (position : Position)
  /-- The source names no package. -/
  | missingPackage (path : Path)
  /-- No declaration answers the request, which is kept as it was made. -/
  | typeNotFound (name : String)
  /-- The search came back to a name in a directory while it was looking for it there. -/
  | cyclicReference (dir : Path) (name : String)
  /-- The files of the directory cannot be listed, because its path is no text. -/
  | unlistable (dir : Path)
deriving DecidableEq, Repr

namespace Error

/-- The words for a parse error without its position. -/
def syntaxErrorAt (path : Path) : String :=
  "parse " ++ path.display ++ ": syntax error"

/-- The words for an error. -/
def message : Error → String
  | read path cause => "read " ++ path.display ++ ": " ++ cause.message
  | parse path position =>
    syntaxErrorAt path ++ " at " ++ toString position.line ++ ":" ++ toString position.column
  | missingPackage path => "parse " ++ path.display ++ ": missing package clause"
  | typeNotFound name => "type " ++ name ++ " can't be extracted"
  | cyclicReference dir name => "cyclic reference while resolving " ++ name ++ " in " ++ dir.display
  | unlistable _ => "Path contains invalid UTF-8"

/-- The words for an error, without the position of a parse error. -/
def brief : Error → String
  | parse path _ => syntaxErrorAt path
  | e => e.message

/-- The search went well, but there is no such type (`is_not_found`). -/
def isNotFound : Error → Bool
  | typeNotFound _ => true
  | _ => false

end Error

end GoOutline
