import GoOutline.Error
import GoOutline.Model.File

/-!
# Scanning: `scan`, `scan_source` and `scan_located`

A source becomes a file when it follows the grammar and names a package; otherwise nothing of it is
kept. Sources are read from a disk or given as text.
-/
namespace GoOutline

/-- The file of a source at a location (`build_file`). -/
def File.ofSource (location : Path) (source : String) : Except Error File :=
  match parse source with
  | .error position => .error (.parse location position)
  | .ok root =>
    match packageName? source root with
    | none => .error (.missingPackage location)
    | some package =>
      let found := extract source root
      .ok { location, package, source
            comment := found.comment
            imports := found.imports
            values := found.values
            interfaces := found.interfaces
            structs := found.structs }

namespace Disk

/-- The source that a path leads to (`read_source`). -/
def readSource (d : Disk) (path : Path) : Except Error String :=
  match d.readText path with
  | .ok source => .ok source
  | .error cause => .error (.read path cause)

/-- Scans the file that a path leads to (`scan`). -/
def scan (d : Disk) (path : Path) : Except Error File := do
  let source ← d.readSource path
  File.ofSource (d.canonicalOrSelf path) source

/-- Scans a text as if it stood at a path (`scan_source`). -/
def scanSource (d : Disk) (path : Path) (source : String) : Except Error File :=
  File.ofSource (d.locate path) source

/-- Scans the file at a location (`scan_located`). -/
def scanLocated (d : Disk) (location : Path) : Except Error File := do
  let source ← d.readSource location
  File.ofSource location source

end Disk

end GoOutline
