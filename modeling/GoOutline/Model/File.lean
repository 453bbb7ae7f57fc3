import GoOutline.Disk.Path
import GoOutline.Model.Extract

/-!
# Files: `File` and `Origin`

A file is what its source declares, together with the source and the place it has on a disk. It does
not change once it is scanned.
-/
namespace GoOutline

/-- A scanned source file. -/
structure File where
  location : Path
  package : String
  comment : String
  imports : Imports
  values : List Value
  interfaces : List Interface
  structs : List Struct
  source : String
deriving DecidableEq, Repr

namespace File

/-- The directory that holds the file. -/
def directory (f : File) : Path := f.location.directory

def struct? (f : File) (name : String) : Option Struct :=
  f.structs.find? (·.name == name)

def interface? (f : File) (name : String) : Option Interface :=
  f.interfaces.find? (·.name == name)

def value? (f : File) (name : String) : Option Value :=
  f.values.find? (·.name == name)

/-- The import table with more paths, for code that needs more packages than the file does (`with_imports`). -/
def importsWith (f : File) (paths : List String) : Imports :=
  f.imports.extend paths

/-- The import paths whose names are all brought into the file, which `resolve_local` goes through. -/
def dotImports (f : File) : List String :=
  (f.imports.filter fun entry => entry.2 == dotName).map (·.1)

/-- The imports that may bind a package name, in the order of their paths, which `resolve_qualified` goes through. With
an import that leaves the name to the package comes the name the package has to have. -/
def importsNamed (f : File) (name : String) : List (String × Option String) :=
  (f.imports.filter fun entry =>
      entry.2 != blankName && entry.2 != dotName && (entry.2.isEmpty || entry.2 == name)).map
    fun entry => (entry.1, if entry.2.isEmpty then some name else none)

end File

/-- Where a declaration comes from. -/
structure Origin where
  location : Path
  package : String
  /-- The import path through which the file was first reached. -/
  importPath : Option String
deriving DecidableEq, Repr

/-- The directory of the file that holds the declaration. -/
def Origin.directory (o : Origin) : Path := o.location.directory

end GoOutline
