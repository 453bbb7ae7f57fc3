import GoOutline.Resolver.Resolve

/-!
# Plain searches

The search for a type as a function of the disk alone. It keeps nothing: a file is read whenever it is looked at,
siblings are collected whenever they are needed, and the names under search are those on the way from the
first name to the present one.
-/
namespace GoOutline

/-- What a plain search looks at: a disk, the search paths, and the files as they are read at their
locations. -/
structure View where
  disk : Disk
  paths : SearchPaths
  read : Path → Except Error File

namespace View

variable (v : View)

/-- The file that a path leads to. -/
def load (path : Path) : Except Error File :=
  v.read (v.disk.canonicalOrSelf path)

/-- The sources of a directory, tests left out. -/
def sources (dir : Path) : Except Error (List Path) :=
  match v.disk.sourceFiles? dir false with
  | some paths => .ok paths
  | none => .error (.unlistable dir)

/-- The other files of a file's package in its directory. -/
def siblings (file : File) : Except Error (List File) := do
  let paths ← v.sources file.directory
  let others := paths.filter fun path => !(v.disk.canonicalOrSelf path).same file.location
  let loaded ← others.mapM v.load
  return loaded.filter fun sibling => sibling.package == file.package

/-- The struct of a name in a file itself. -/
def inFile (name : String) (file : File) : Option (File × Struct) :=
  (file.struct? name).map (file, ·)

/-- Looks for a name as the file sees it that a source leads to, unless the file is of another package than the
required one. -/
def inSource (next : File → String → Except Error (Option (File × Struct))) (required : Option String)
    (name : String) (path : Path) : Except Error (Option (File × Struct)) := do
  let candidate ← v.load path
  if required.any (· != candidate.package) then return none
  else next candidate name

/-- Looks for a name in the package of an import, as each of its files in turn sees it. -/
def inImport (next : File → String → Except Error (Option (File × Struct))) (file : File)
    (importPath : String) (required : Option String) (name : String) :
    Except Error (Option (File × Struct)) :=
  match v.paths.packageDir? v.disk file.directory importPath with
  | none => return none
  | some dir => do (← v.sources dir).findSomeM? (v.inSource next required name)

/-- Looks for a bare name in the file, then in its siblings, then behind its dot imports. -/
def bareName (next : File → String → Except Error (Option (File × Struct))) (file : File)
    (name : String) : Except Error (Option (File × Struct)) :=
  match inFile name file with
  | some found => return some found
  | none => do
    match (← v.siblings file).findSome? (inFile name) with
    | some found => return some found
    | none => file.dotImports.findSomeM? fun path => v.inImport next file path none name

/-- Looks for what a reference names. -/
def reference (next : File → String → Except Error (Option (File × Struct))) (file : File)
    (ref : TypeRef) : Except Error (Option (File × Struct)) :=
  match ref.package with
  | none => v.bareName next file ref.name
  | some qualifier =>
    (file.importsNamed qualifier).findSomeM? fun (path, required) =>
      v.inImport next file path required ref.name

/-- Looks for the type that a text names in a file, with the names on the way so far. What lies beyond the
given depth is answered by `beyond`. -/
def typeTextWithin (beyond : Except Error (Option (File × Struct))) :
    Nat → List (Path × String) → File → String → Except Error (Option (File × Struct))
  | 0, _, _, _ => beyond
  | depth + 1, names, file, text =>
    match TypeRef.parse? text with
    | none => return none
    | some ref =>
      let key := (file.directory, ref.display)
      if names.any (Session.sameKey key) then .error (.cyclicReference key.1 key.2)
      else v.reference (typeTextWithin beyond depth (key :: names)) file ref

/-- The struct that a text names in a file, with the file that declares it. -/
def extractType (beyond : Except Error (Option (File × Struct))) (depth : Nat) (file : File) (text : String) :
    Except Error (File × Struct) := do
  match ← v.typeTextWithin beyond depth [] file text with
  | some found => return found
  | none => .error (.typeNotFound text)

end View

end GoOutline
