import GoOutline.Disk.Search
import GoOutline.Scan

/-!
# Sessions: the state of a `Resolver`

A session is one resolver at work. It numbers the files it meets, keeps notes on each of them that are
written at most once, and knows by location which files have been scanned, so that no file is
scanned twice. The names under search are kept to notice a search that comes back to itself.
-/
namespace GoOutline

/-- A scanned file with its number. -/
structure Sheet where
  number : Nat
  file : File
deriving DecidableEq, Repr

/-- A file that was met, with what is learned about it after it is scanned. -/
structure Notes where
  file : File
  /-- The import path through which the file was first reached. -/
  importPath : Option String
  /-- The other files of the package in the same directory. -/
  siblings : Option (List Sheet)
deriving DecidableEq, Repr

/-- Finds the full name of a type text in a file, without any scan (`SymbolIndexer`). -/
abbrev Indexer := String → File → Option String

/-- The state of a resolver (`Resolver`). The notes on a file stand at its number. -/
structure Session where
  notes : List Notes
  search : SearchPaths
  /-- Scanned files by location. -/
  known : List (Path × Sheet)
  /-- Directories with the names that are being looked for in them. -/
  active : List (Path × String)
  indexer : Option Indexer

namespace Session

/-- A session that has met no file yet. -/
def start (search : SearchPaths) : Session :=
  { notes := [], search, known := [], active := [], indexer := none }

/-- A fresh resolver that keeps the notes on files already met. -/
def renew (s : Session) (search : SearchPaths) (indexer : Option Indexer) : Session :=
  { notes := s.notes, search, known := [], active := [], indexer }

/-- Number of files known by location (`scanned_count`). -/
def scannedCount (s : Session) : Nat := s.known.length

/-! ## Notes -/

/-- The import path through which a file was first reached. -/
def importPath? (s : Session) (sheet : Sheet) : Option String :=
  s.notes[sheet.number]?.bind (·.importPath)

/-- The siblings of a file, once they have been collected. -/
def siblings? (s : Session) (sheet : Sheet) : Option (List Sheet) :=
  s.notes[sheet.number]?.bind (·.siblings)

/-- Where the declarations of a file come from, as far as is known. -/
def origin (s : Session) (sheet : Sheet) : Origin :=
  ⟨sheet.file.location, sheet.file.package, s.importPath? sheet⟩

/-- The session after a file is met for the first time, through an import path if it was. -/
def admitFile (s : Session) (file : File) (importPath : Option String) : Sheet × Session :=
  (⟨s.notes.length, file⟩, { s with notes := s.notes ++ [⟨file, importPath, none⟩] })

/-- The import path of a file, if one is given and the file has none yet. -/
def assignImportPath (s : Session) (sheet : Sheet) (importPath : Option String) : Session :=
  { s with notes := s.notes.modify sheet.number fun n =>
      { n with importPath := n.importPath.or importPath } }

/-- The siblings of a file, if it has none noted yet. -/
def assignSiblings (s : Session) (sheet : Sheet) (siblings : List Sheet) : Session :=
  { s with notes := s.notes.modify sheet.number fun n =>
      { n with siblings := n.siblings.or (some siblings) } }

/-! ## Known files -/

/-- The file known at a location. -/
def knownAt? (s : Session) (location : Path) : Option Sheet :=
  (s.known.find? fun entry => entry.1.same location).map (·.2)

/-- Knows a file by its location, unless another is known there already (`remember`). -/
def remember (s : Session) (sheet : Sheet) : Session :=
  if (s.knownAt? sheet.file.location).isSome then s
  else { s with known := s.known ++ [(sheet.file.location, sheet)] }

/-! ## Names under search -/

/-- Two names are looked for in the same directory and are the same. -/
def sameKey (a b : Path × String) : Bool :=
  a.1.same b.1 && a.2 == b.2

/-- The name is being looked for in the directory. -/
def isActive (s : Session) (key : Path × String) : Bool :=
  s.active.any (sameKey key)

def enter (s : Session) (key : Path × String) : Session :=
  { s with active := key :: s.active }

def leave (s : Session) (key : Path × String) : Session :=
  { s with active := s.active.filter fun other => !sameKey key other }

end Session

end GoOutline
