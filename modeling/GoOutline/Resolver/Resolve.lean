import GoOutline.Resolver.Session
import GoOutline.TypeRef

/-!
# Resolving type names: `extract_type`

A type name as written in a file leads to the struct that declares it. A bare name is looked for in
the file, then in its siblings, then in the packages whose names it imports; a qualified name in the
packages that its imports may bind to the qualifier. What a failing search has learned stays learned.
-/
namespace GoOutline

/-- A step of a session that may fail. The session goes on from where a failure left it. -/
abbrev Search := ExceptT Error (StateM Session)

/-- A struct with the file that declares it. -/
structure Found where
  sheet : Sheet
  struct : Struct
deriving DecidableEq, Repr

namespace Search

/-! ## Files -/

/-- A scan's outcome as a step. -/
def ofScan {α : Type} (outcome : Except Error α) : Search α :=
  ExceptT.mk (pure outcome)

/-- Meets a file for the first time. -/
def meet (file : File) (importPath : Option String) : Search Sheet :=
  ExceptT.mk fun s =>
    let (sheet, s) := s.admitFile file importPath
    (.ok sheet, s)

/-- The file that a path leads to: the known one, which takes the import path if it has none, or else
the one scanned now (`load`). -/
def load (d : Disk) (path : Path) (importPath : Option String) : Search Sheet := do
  let location := d.canonicalOrSelf path
  match (← get).knownAt? location with
  | some sheet =>
    modify (·.assignImportPath sheet importPath)
    return sheet
  | none =>
    let file ← ofScan (d.scanLocated location)
    let sheet ← meet file importPath
    modify (·.remember sheet)
    return sheet

/-- The sources of a directory, tests left out. -/
def sources (d : Disk) (dir : Path) : Search (List Path) :=
  match d.sourceFiles? dir false with
  | some paths => return paths
  | none => throw (.unlistable dir)

/-- Loads the other files of a file's package in its directory (`scan_siblings`). -/
def loadSiblings (d : Disk) (sheet : Sheet) : Search (List Sheet) := do
  let paths ← sources d sheet.file.directory
  let importPath := (← get).importPath? sheet
  let others := paths.filter fun path => !(d.canonicalOrSelf path).same sheet.file.location
  let loaded ← others.mapM fun path => load d path importPath
  return loaded.filter fun sibling => sibling.file.package == sheet.file.package

/-- The siblings of a file, collected at the first request (`siblings`). -/
def siblings (d : Disk) (sheet : Sheet) : Search (List Sheet) := do
  match (← get).siblings? sheet with
  | some found => return found
  | none =>
    let found ← loadSiblings d sheet
    modify (·.assignSiblings sheet found)
    return found

/-! ## Names

The functions here leave the resolution of names in other packages to `next`. -/

/-- Runs a search for a name in a directory. A search that is already under way there is a cycle. -/
def guarded {α : Type} (key : Path × String) (body : Search α) : Search α :=
  ExceptT.mk fun s =>
    if s.isActive key then (.error (.cyclicReference key.1 key.2), s)
    else
      let (outcome, s) := body.run (s.enter key)
      (outcome, s.leave key)

/-- The struct of a name in a file itself. -/
def inSheet (name : String) (sheet : Sheet) : Option Found :=
  (sheet.file.struct? name).map fun struct => ⟨sheet, struct⟩

/-- Looks for a name in the package of an import, as each of its files in turn sees it. Files of a
package other than the required one are passed over (`search_import`). -/
def inImport (d : Disk) (next : Sheet → String → Search (Option Found)) (sheet : Sheet)
    (importPath : String) (required : Option String) (name : String) : Search (Option Found) := do
  match (← get).search.packageDir? d sheet.file.directory importPath with
  | none => return none
  | some dir =>
    (← sources d dir).findSomeM? fun path => do
      let candidate ← load d path (some importPath)
      if required.any (· != candidate.file.package) then return none
      else next candidate name

/-- Looks for a bare name (`resolve_local`). -/
def bareName (d : Disk) (next : Sheet → String → Search (Option Found)) (sheet : Sheet)
    (name : String) : Search (Option Found) := do
  match inSheet name sheet with
  | some found => return some found
  | none =>
    match (← siblings d sheet).findSome? (inSheet name) with
    | some found => return some found
    | none => sheet.file.dotImports.findSomeM? fun path => inImport d next sheet path none name

/-- Looks for a name behind a qualifier (`resolve_qualified`). -/
def qualifiedName (d : Disk) (next : Sheet → String → Search (Option Found)) (sheet : Sheet)
    (qualifier name : String) : Search (Option Found) :=
  (sheet.file.importsNamed qualifier).findSomeM? fun (path, required) =>
    inImport d next sheet path required name

/-- Looks for what a reference names. -/
def reference (d : Disk) (next : Sheet → String → Search (Option Found)) (sheet : Sheet)
    (ref : TypeRef) : Search (Option Found) :=
  match ref.package with
  | none => bareName d next sheet ref.name
  | some qualifier => qualifiedName d next sheet qualifier ref.name

/-- Looks for the type that a text names in a file (`resolve`). -/
def typeText (d : Disk) (next : Sheet → String → Search (Option Found)) (sheet : Sheet)
    (text : String) : Search (Option Found) :=
  match TypeRef.parse? text with
  | none => return none
  | some ref => guarded (sheet.file.directory, ref.display) (reference d next sheet ref)

/-- Looks for the type that a text names in a file, through at most the given number of packages one
behind the other. -/
def typeTextWithin (d : Disk) : Nat → Sheet → String → Search (Option Found)
  | 0 => fun _ _ => return none
  | depth + 1 => typeText d (typeTextWithin d depth)

/-- Greatest number of packages that can stand one behind the other in a search: below the first, each
is searched for one bare name in a directory of its own, and the last may repeat one. -/
def depthLimit (d : Disk) : Nat :=
  d.directories.length + 3

end Search

/-! ## Requests -/

namespace Session

/-- Scans a file, unless it is known (`Resolver::scan`). -/
def scan (d : Disk) (path : Path) : Search Sheet :=
  Search.load d path none

/-- The struct that a text names in a file (`extract_type`). -/
def extractType (d : Disk) (sheet : Sheet) (text : String) : Search Found := do
  modify (·.remember sheet)
  match ← Search.typeTextWithin d (Search.depthLimit d) sheet text with
  | some found => return found
  | none => throw (.typeNotFound text)

/-- The struct that the type of a field or parameter of a file names (`extract_arg_type`). -/
def extractArgType (d : Disk) (sheet : Sheet) (arg : Arg) : Search Found :=
  extractType d sheet (arg.typeText sheet.file.source)

/-- The full name of a type text by the attached indexer (`qualified_name`). -/
def fullName? (s : Session) (sheet : Sheet) (text : String) : Option String :=
  s.indexer.bind fun index => index text sheet.file

end Session

end GoOutline
