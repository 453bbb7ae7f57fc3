import GoOutline.Grammar.CommentMap
import GoOutline.Grammar.Statements
import GoOutline.Grammar.Stray

/-!
# From a source to its syntax tree: `parse_go`

A source is read by the rule of whole files and has to be used up by it. Its tree is that of the
items read, with the comments at the end of the source as the last children of the root. A source
that cannot be read is faulty where its first stray token stands or, if all tokens are fine, where
the declaration or statement begins that cannot be read.
-/
namespace GoOutline

/-- A line and a column for a reader, both counted from one. Columns count bytes. -/
structure Position where
  line : Nat
  column : Nat
deriving DecidableEq, Repr

/-- The position of a place in a source: its row, and its distance from the last line feed. -/
def Position.ofMark (source : List Char) (m : Mark) : Position :=
  let before := (Text.takeBytes m.byte source).getD source
  ⟨m.row + 1, Text.byteLength (before.reverse.takeWhile (· != '\n')) + 1⟩

/-- Fuel for reading a source. Between two tokens a reader goes through far fewer parts of phrases
than the factor allows. -/
def readingFuel (source : List Char) : Nat :=
  500 * (source.length + 10)

/-- The place of the fault in a source that cannot be read beyond a place. -/
def faultBeyond (stop : Place) : Place :=
  stop.stray?.getD stop

/-- The syntax tree of a source, or the position of its fault. -/
def parseChars (source : List Char) : Except Position Node :=
  let start := Cursor.ofSource source
  let (items, stop) :=
    (Phrase.read Grammar.phrase (readingFuel source) (.rule .sourceFile) start).getD ([], start)
  if stop.atEnd then
    let children := items.flatMap (fun item => item.lead ++ [item.node]) ++ stop.far.comments
    .ok (.mk .sourceFile none ⟨0, 0⟩ stop.far.place.mark [] children)
  else .error (.ofMark source (faultBeyond stop.far.place).mark)

/-- The syntax tree of a source text (`parse_go`), its comments shared out among the nodes (`associate_comments`). -/
def parse (source : String) : Except Position Node :=
  (parseChars source.toList).map Node.shareComments

end GoOutline
