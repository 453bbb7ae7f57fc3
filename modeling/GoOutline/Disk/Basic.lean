import GoOutline.Disk.Path

/-!
# Disks: `canonical_or_original` and `absolute_location`

A disk is a finite tree of directories, files and symbolic links, kept as a list of entries under the
names that lead to them from the root, together with a working directory. Paths are followed part
by part; a link sends the rest of the walk elsewhere, at most forty times.

A path that is short itself may lead so deep that the canonical path of the place would be too long. The
place can be read and written all the same (`reach`), but it has no canonical path (`resolve`); then
`canonical_or_original` keeps the path as it is, and `absolute_location` makes it absolute. There are no
permissions: whatever is on a disk can be read and enumerated.
-/
namespace GoOutline

/-- A name in a directory. -/
abbrev Name := List UInt8

/-- What a name stands for. A file has a text if its bytes are UTF-8. -/
inductive Entry where
  | directory
  | file (text : Option String)
  | link (target : Path)
deriving DecidableEq, Repr

/-- The file with the given bytes. -/
def Entry.ofBytes (bytes : List UInt8) : Entry :=
  .file ((Text.decode? bytes).map String.ofList)

/-- Why something on a disk cannot be reached or read. -/
inductive DiskError where
  | notFound
  | notDirectory
  | isDirectory
  | nameTooLong
  | tooManyLinks
  | nulByte
  | notText
deriving DecidableEq, Repr

/-- The words for a disk error. -/
def DiskError.message : DiskError → String
  | notFound => "No such file or directory (os error 2)"
  | notDirectory => "Not a directory (os error 20)"
  | isDirectory => "Is a directory (os error 21)"
  | nameTooLong => "File name too long (os error 36)"
  | tooManyLinks => "Too many levels of symbolic links (os error 40)"
  | nulByte => "file name contained an unexpected NUL byte"
  | notText => "stream did not contain valid UTF-8"

/-- Entries under the names that lead to them from the root, and the working directory. -/
structure Disk where
  entries : List (List Name × Entry)
  cwd : List Name
deriving Repr

namespace Disk

/-- The path of a list of names from the root. -/
def pathOf (names : List Name) : Path :=
  ⟨Path.slash :: List.intercalate [Path.slash] names⟩

/-- The working directory as a path. -/
def cwdPath (d : Disk) : Path := pathOf d.cwd

/-- The entry under a list of names. The root is always a directory. -/
def entry? (d : Disk) (names : List Name) : Option Entry :=
  if names.isEmpty then some .directory else d.entries.lookup names

/-- Directories of the disk, the root included. -/
def directories (d : Disk) : List (List Name) :=
  [] :: (d.entries.filter fun e => e.2 == .directory).map (·.1)

/-! ## Following paths -/

/-- Longest name that a directory holds. -/
def longestName : Nat := 255

/-- The byte that no name holds. -/
def nul : UInt8 := 0

/-- Paths of this length and longer ones are refused. -/
def pathLimit : Nat := 4096

/-- Links followed on the way to one entry. -/
def linkLimit : Nat := 40

/-- Follows pieces of a path from a directory. At a link, `onLink` takes over with the directory where
to go on and the pieces to follow from there. -/
def follow (d : Disk) (onLink : List Name → List Name → Except DiskError (List Name)) :
    List Name → List Name → Except DiskError (List Name)
  | here, [] => .ok here
  | here, piece :: rest =>
    if d.entry? here != some .directory then .error .notDirectory
    else if Path.isIdle piece then follow d onLink here rest
    else if piece == Path.dotDot then follow d onLink here.dropLast rest
    else if longestName < piece.length then .error .nameTooLong
    else if piece.contains nul then .error .nulByte
    else
      match d.entry? (here ++ [piece]) with
      | none => .error .notFound
      | some (.link target) =>
        onLink (if target.isAbsolute then [] else here) (List.splitOn Path.slash target.bytes ++ rest)
      | some _ => follow d onLink (here ++ [piece]) rest

/-- Follows pieces of a path through at most the given number of links. -/
def followLinks (d : Disk) : Nat → List Name → List Name → Except DiskError (List Name)
  | 0 => d.follow fun _ _ => .error .tooManyLinks
  | links + 1 => d.follow (followLinks d links)

/-- The names from the root of what a path leads to, all links followed, however deep that lies. A relative
path is followed behind the working directory. -/
def reach (d : Disk) (p : Path) : Except DiskError (List Name) :=
  if p.bytes.contains nul then .error .nulByte
  else if p.bytes.isEmpty then .error .notFound
  else if pathLimit ≤ p.bytes.length then .error .nameTooLong
  else d.followLinks linkLimit [] (List.splitOn Path.slash (d.cwdPath.join p).bytes)

/-- The names from the root of what a path leads to, if they make a path that can be followed again. -/
def resolve (d : Disk) (p : Path) : Except DiskError (List Name) :=
  (d.reach p).bind fun names =>
    if pathLimit ≤ (pathOf names).bytes.length then .error .nameTooLong else .ok names

/-- What a path leads to. -/
def entryAt (d : Disk) (p : Path) : Except DiskError Entry :=
  (d.reach p).bind fun names =>
    match d.entry? names with
    | some entry => .ok entry
    | none => .error .notFound

/-- The path leads to something. -/
def holds (d : Disk) (p : Path) : Bool :=
  match d.entryAt p with
  | .ok _ => true
  | .error _ => false

/-- The path leads to a directory. -/
def isDirectory (d : Disk) (p : Path) : Bool :=
  match d.entryAt p with
  | .ok .directory => true
  | _ => false

/-- The text of the file that a path leads to (`read_to_string`). -/
def readText (d : Disk) (p : Path) : Except DiskError String :=
  (d.entryAt p).bind fun
    | .file (some text) => .ok text
    | .file none => .error .notText
    | .directory => .error .isDirectory
    | .link _ => .error .tooManyLinks

/-- The path leads to a file, and that has a canonical path. -/
def isFile (d : Disk) (p : Path) : Bool :=
  match d.resolve p with
  | .ok names =>
    match d.entry? names with
    | some (.file _) => true
    | _ => false
  | .error _ => false

/-- The canonical path of what a path leads to: absolute, without links and idle or upward parts (`canonicalize`). -/
def canonical? (d : Disk) (p : Path) : Option Path :=
  match d.resolve p with
  | .ok names => some (pathOf names)
  | .error _ => none

/-- The canonical path, or the path itself if it has none (`canonical_or_original`). -/
def canonicalOrSelf (d : Disk) (p : Path) : Path :=
  (d.canonical? p).getD p

/-- The canonical path, or the path made absolute if it has none (`absolute_location`). -/
def locate (d : Disk) (p : Path) : Path :=
  (d.canonical? p).getD (Path.absolute d.cwdPath p)

/-- The names in a directory. -/
def namesIn (d : Disk) (names : List Name) : List Name :=
  d.entries.filterMap fun e =>
    match e.1.getLast? with
    | some name => if e.1.dropLast == names then some name else none
    | none => none

/-! ## Changing a disk -/

/-- The disk with an entry under a list of names, in place of what was there. -/
def put (d : Disk) (names : List Name) (entry : Entry) : Disk :=
  { d with entries := d.entries.filter (fun e => e.1 != names) ++ [(names, entry)] }

/-- The disk without what is under a list of names and below it. -/
def erase (d : Disk) (names : List Name) : Disk :=
  { d with entries := d.entries.filter fun e => !names.isPrefixOf e.1 }

/-- The names from the root of the last part of a path, which is not followed if it is a link. -/
def place? (d : Disk) (p : Path) : Option (List Name) :=
  match p.parent?, p.fileName? with
  | some above, some name =>
    match d.reach (if above.bytes.isEmpty then ⟨Path.dot⟩ else above) with
    | .ok names => some (names ++ [name])
    | .error _ => none
  | _, _ => none

/-- The disk with a new entry at a path whose parent leads to a directory. -/
def create (d : Disk) (p : Path) (entry : Entry) : Disk :=
  match d.place? p with
  | some names => d.put names entry
  | none => d

/-- The disk with a directory at the end of a path and all that lead to it, where there is nothing
yet. -/
def makeDirectories (d : Disk) (p : Path) : Disk :=
  p.ancestors.reverse.foldl (fun d q => if d.holds q then d else d.create q .directory) d

/-- The disk with an entry at a path, in place of what the path leads to or with the directories it
needs. -/
def write (d : Disk) (p : Path) (entry : Entry) : Disk :=
  match d.reach p with
  | .ok names => d.put names entry
  | .error _ => (d.makeDirectories p.directory).create p entry

/-- The disk without what stands at a path. -/
def remove (d : Disk) (p : Path) : Disk :=
  match d.place? p with
  | some names => d.erase names
  | none => d

end Disk

end GoOutline
