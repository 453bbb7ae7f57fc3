import GoOutline.Disk.Basic

/-!
# Searching a disk: `find_vendor_dir`, `SearchPaths` and `go_source_files`

Where the sources of a package are: the vendor directory above a file, the directories that may hold
an import path, and the source files of a directory.

Two limits of a disk show in a listing. A directory that is there can always be enumerated, so
`go_source_files` fails here for a directory whose path is no text only. And the files listed are those with a
canonical path; one that lies too deep for that can be read, but is left out.
-/
namespace GoOutline

/-! ## Vendor directories -/

/-- Name of the directories of vendored packages. -/
def vendorName : Path := .ofString "vendor"

namespace Disk

/-- The first vendor directory in one of the directories. What is no directory is passed over; an entry
that cannot be inspected ends the search, unless it is just not there. -/
def vendorAmong (d : Disk) : List Path → Option Path
  | [] => none
  | dir :: rest =>
    match d.entryAt (dir.join vendorName) with
    | .ok .directory => some (dir.join vendorName)
    | .ok _ => vendorAmong d rest
    | .error .notFound => vendorAmong d rest
    | .error _ => none

/-- The nearest vendor directory in a directory or above it (`find_vendor_dir`). -/
def vendorDir? (d : Disk) (start : Path) : Option Path :=
  d.vendorAmong start.ancestors

end Disk

/-! ## Search paths -/

/-- Where packages are searched: vendor directories first, then the root of dependencies, then that of
the standard library. -/
structure SearchPaths where
  vendor : Bool
  moduleRoot : Option Path
  stdRoot : Option Path
deriving DecidableEq, Repr

namespace SearchPaths

/-- Vendor directories only. -/
def default : SearchPaths := ⟨true, none, none⟩

/-- Name of the directory of sources below a workspace. -/
def sourceName : Path := .ofString "src"

/-- The byte between the entries of a path list. -/
def colon : UInt8 := 0x3a

/-- Search paths from the values of the environment variables for the workspaces, of which only the
first counts, and for the toolchain (`from_vars`). Empty values count as none. -/
def ofVariables (workspaces toolchain : Option (List UInt8)) : SearchPaths :=
  let sources (bytes : List UInt8) : Option Path :=
    if bytes.isEmpty then none else some (Path.join ⟨bytes⟩ sourceName)
  { vendor := true
    moduleRoot := workspaces.bind fun list => sources (list.takeWhile (· != colon))
    stdRoot := toolchain.bind sources }

/-- The directories that may hold an import path, for a file in a directory (`candidates`). -/
def candidates (s : SearchPaths) (d : Disk) (fileDir : Path) (importPath : String) : List Path :=
  let vendor := if s.vendor then d.vendorDir? fileDir else none
  ([vendor, s.moduleRoot, s.stdRoot].filterMap id).map fun root => root.packageDir importPath

/-- The first of the candidate directories that exists (`SearchPaths::package_dir`). -/
def packageDir? (s : SearchPaths) (d : Disk) (fileDir : Path) (importPath : String) :
    Option Path :=
  (s.candidates d fileDir importPath).find? d.isDirectory

end SearchPaths

/-! ## Source files -/

/-- End of the names of source files. -/
def sourceSuffix : String := ".go"

namespace Disk

/-- The piece of a path leads on from what stands before it: a step to the directory itself or the one above
needs a directory, any other step a place to go to. -/
def leadsOn (d : Disk) (path next : Path) (piece : Name) : Bool :=
  if piece == Path.dot || piece == Path.dotDot then
    match d.reach path with
    | .ok names => d.entry? names == some .directory
    | .error _ => false
  else
    match d.reach next with
    | .ok _ => true
    | .error _ => false

/-- The path under which the files of a directory are listed: one step of it. From the working
directory itself a piece starts a new path. -/
def listingStep (d : Disk) (base : Option Path) (piece : Name) : Option Path :=
  base.bind fun path =>
    let next : Path := if path.bytes == Path.dot then ⟨piece⟩ else path.join ⟨piece⟩
    if d.leadsOn path next piece then some next else none

/-- The path under which the files of a directory are listed: repeated slashes and one at the end
go, and so does a leading `.`. None if the path leads nowhere. -/
def listingBase? (d : Disk) (dir : Path) : Option Path :=
  if dir.bytes.isEmpty then some (.ofString "/")
  else if dir.isAbsolute then
    (List.splitOn Path.slash (dir.bytes.drop 1)).foldl d.listingStep (some (.ofString "/"))
  else (List.splitOn Path.slash dir.bytes).foldl d.listingStep (some ⟨Path.dot⟩)

/-- A path into a list of paths in increasing order of their bytes. -/
def insertPath (p : Path) : List Path → List Path
  | [] => [p]
  | q :: rest => if q.bytes < p.bytes then q :: insertPath p rest else p :: q :: rest

/-- The paths in increasing order of their bytes, by insertion. -/
def sortPaths : List Path → List Path
  | [] => []
  | p :: rest => insertPath p (sortPaths rest)

/-- The name is text and that of a source file. -/
def isSourceName (name : Name) : Bool :=
  match Text.decode? name with
  | some cs => sourceSuffix.toList.isSuffixOf cs
  | none => false

/-- The source files directly in a directory, in order, with or without tests (`go_source_files`). A directory that is
not there has none; one whose path is no text cannot be listed. -/
def sourceFiles? (d : Disk) (dir : Path) (tests : Bool) : Option (List Path) :=
  dir.text?.map fun _ =>
    match d.listingBase? dir with
    | none => []
    | some base =>
      match d.reach base with
      | .error _ => []
      | .ok names =>
        let paths := ((d.namesIn names).filter isSourceName).map fun name =>
          if base.bytes == Path.dot then Path.mk name else base.join ⟨name⟩
        sortPaths (paths.filter fun p => d.isFile p && (tests || !p.isTestFile))

end Disk

end GoOutline
