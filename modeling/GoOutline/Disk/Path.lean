import GoOutline.Text.Utf8

/-!
# Paths: `package_dir`, `is_test_file` and what they use of the library

A path is a byte string with slashes; it need not be UTF-8. Its parts are what stands between the
slashes, where repeated slashes count once and the part `.` counts only at the start of a relative
path. Two paths name the same place when they have the same parts and are both absolute or both
relative.
-/
namespace GoOutline

/-- A file system path. -/
structure Path where
  bytes : List UInt8
deriving DecidableEq, Repr

namespace Path

/-- The byte of a slash. -/
def slash : UInt8 := 0x2f

/-- The part that names the directory itself. -/
def dot : List UInt8 := [0x2e]

/-- The part that names the directory above. -/
def dotDot : List UInt8 := [0x2e, 0x2e]

def ofString (s : String) : Path := ⟨Text.encode s⟩

/-- The path as text, if it is UTF-8. -/
def text? (p : Path) : Option String :=
  (Text.decode? p.bytes).map String.ofList

/-- The path for a reader, with replacement characters for bytes that are no text. -/
def display (p : Path) : String :=
  String.ofList (Text.decodeLossy p.bytes)

/-! ## Pieces -/

def isAbsolute (p : Path) : Bool :=
  p.bytes.head? == some slash

/-- The path begins with the part `.`. -/
def startsAtDot (p : Path) : Bool :=
  match p.bytes with
  | [b] => [b] == dot
  | b :: c :: _ => [b] == dot && c == slash
  | [] => false

/-- The piece adds nothing to a path: it is empty or `.`. -/
def isIdle (piece : List UInt8) : Bool :=
  piece.isEmpty || piece == dot

/-- The root slash or the leading `.`, if the path has one. -/
def lead (p : Path) : List UInt8 :=
  if p.isAbsolute || p.startsAtDot then p.bytes.take 1 else []

/-- The pieces behind the lead. -/
def body (p : Path) : List (List UInt8) :=
  List.splitOn slash (p.bytes.drop p.lead.length)

/-- The parts of a path, its lead first (`components`). -/
def parts (p : Path) : List (List UInt8) :=
  (if p.lead.isEmpty then [] else [p.lead]) ++ p.body.filter fun piece => !isIdle piece

/-- Both paths name the same place. -/
def same (p q : Path) : Bool :=
  p.parts == q.parts

/-! ## Parents and names -/

/-- Pieces without the idle ones at the end. -/
def dropIdleEnd (pieces : List (List UInt8)) : List (List UInt8) :=
  (pieces.reverse.dropWhile isIdle).reverse

/-- The path without its last part (`parent`). The root and the empty path have no parent. -/
def parent? (p : Path) : Option Path :=
  match (dropIdleEnd p.body).dropLast, (dropIdleEnd p.body).isEmpty with
  | rest, false => some ⟨p.lead ++ List.intercalate [slash] (dropIdleEnd rest)⟩
  | _, true => if p.startsAtDot then some ⟨[]⟩ else none

/-- The last part, unless it leads upwards or there is none (`file_name`). -/
def fileName? (p : Path) : Option (List UInt8) :=
  match (dropIdleEnd p.body).getLast? with
  | some piece => if piece == dotDot then none else some piece
  | none => none

/-- The directory of a file: the path without its last part, or `.` where nothing is left (`Origin::directory`). -/
def directory (p : Path) : Path :=
  match p.parent? with
  | some above => if above.bytes.isEmpty then ⟨dot⟩ else above
  | none => ⟨dot⟩

/-- A path and the paths above it, as many as `fuel` allows. -/
def ancestorsWithin : Nat → Path → List Path
  | 0, _ => []
  | fuel + 1, p =>
    p :: match p.parent? with
      | some above => ancestorsWithin fuel above
      | none => []

/-- A path and all paths above it, nearest first. Each is shorter than the one before. -/
def ancestors (p : Path) : List Path :=
  p.ancestorsWithin (p.bytes.length + 1)

/-! ## Joining -/

/-- One path behind another (`join`). An absolute path replaces what stands before it; otherwise one slash
divides the two, unless the left side is empty or ends in one. -/
def join (p q : Path) : Path :=
  if q.isAbsolute then q
  else if p.bytes.isEmpty || p.bytes.getLast? == some slash then ⟨p.bytes ++ q.bytes⟩
  else ⟨p.bytes ++ slash :: q.bytes⟩

/-- The directory of an import path below a root: the path's pieces, empty ones left out, joined to
the root one by one (`package_dir`). -/
def packageDir (root : Path) (importPath : String) : Path :=
  ((List.splitOn slash (Text.encode importPath)).filter fun piece => !piece.isEmpty).foldl
    (fun dir piece => dir.join ⟨piece⟩) root

/-- The path from the root, for a given working directory. Idle pieces go; upward parts, a slash at
the end and exactly two slashes at the start stay. The empty path stays empty. -/
def absolute (cwd p : Path) : Path :=
  if p.bytes.isEmpty then p
  else
    let twoSlashes := p.bytes.take 2 == [slash, slash] && (p.bytes.drop 2).head? != some slash
    let base : Path :=
      if !p.isAbsolute then cwd else if twoSlashes then ⟨[slash, slash]⟩ else ⟨[slash]⟩
    let whole := (p.body.filter fun piece => !isIdle piece).foldl
      (fun dir piece => dir.join ⟨piece⟩) base
    if p.bytes.getLast? == some slash then whole.join ⟨[]⟩ else whole

/-! ## Source files -/

/-- End of the names of test files. -/
def testSuffix : String := "_test.go"

/-- The path names a test file (`is_test_file`). -/
def isTestFile (p : Path) : Bool :=
  match p.fileName?.bind Text.decode? with
  | some name => testSuffix.toList.isSuffixOf name
  | none => false

end Path

end GoOutline
