import GoOutline.Text.Blank
import GoOutline.Grammar.Node

/-!
# Comment texts: `comment_text`, `comment_lines` and `normalize_blank_lines`

The text of a node's comments is free of comment marks and compiler directives, its lines do not end
in white space, and blank lines stand only between other lines, one at a time.
-/
namespace GoOutline.Comment

/-- Lines of a text. A line ends with a line feed, perhaps with a carriage return before it; the last
line may end with the text. -/
def splitLines (cs : List Char) : List (List Char) :=
  go [] cs
where
  /-- The lines of a text of which the characters `line`, in reverse, are already read. -/
  go (line : List Char) : List Char → List (List Char)
    | [] => if line.isEmpty then [] else [line.reverse]
    | '\n' :: cs =>
      (match line with
        | '\r' :: rest => rest.reverse
        | _ => line.reverse) :: go [] cs
    | c :: cs => go (c :: line) cs

/-- The text without something it begins with. -/
def dropLead? (lead : String) (cs : List Char) : Option (List Char) :=
  if lead.toList.isPrefixOf cs then some (cs.drop lead.length) else none

/-- The text without something it ends with. -/
def dropTail? (tail : String) (cs : List Char) : Option (List Char) :=
  if tail.toList.isSuffixOf cs then some (cs.take (cs.length - tail.length)) else none

/-- The row comment with this body speaks to the compiler. -/
def isDirective (body : List Char) : Bool :=
  "go:".toList.isPrefixOf body || "line ".toList.isPrefixOf body

/-- The cleaned lines of a comment: none for a compiler directive, one for another row comment, and
those between the marks of a block comment (`comment_lines`). -/
def lines (raw : List Char) : List (List Char) :=
  match dropLead? "//" raw with
  | some body =>
    if isDirective body then [] else [Text.trimEnd ((dropLead? " " body).getD body)]
  | none =>
    let body := ((dropLead? "/*" raw).bind (dropTail? "*/")).getD raw
    (splitLines body).map Text.trimEnd

/-- The lines without blank ones at the start and with single ones elsewhere; `blank` tells that the
last line kept is blank, or that none is kept yet. -/
def squeeze (blank : Bool) : List (List Char) → List (List Char)
  | [] => []
  | line :: rest =>
    if line.isEmpty then
      if blank then squeeze true rest else line :: squeeze true rest
    else line :: squeeze false rest

/-- The lines without blank ones at the end. -/
def dropBlankEnd : List (List Char) → List (List Char)
  | [] => []
  | line :: rest =>
    match dropBlankEnd rest with
    | [] => if line.isEmpty then [] else [line]
    | kept => line :: kept

/-- Blank lines only between others, one at a time (`normalize_blank_lines`). -/
def normalize (ls : List (List Char)) : List (List Char) :=
  dropBlankEnd (squeeze true ls)

/-- Lines joined by line feeds. -/
def joinLines (ls : List (List Char)) : List Char :=
  List.intercalate ['\n'] ls

/-- The text of comments. -/
def text (source : String) (spans : List Span) : String :=
  String.ofList (joinLines (normalize (spans.flatMap fun s => lines (s.text source).toList)))

end GoOutline.Comment

namespace GoOutline

/-- The text of the comments of a node (`comment_text`). -/
def Node.commentText (source : String) (n : Node) : String :=
  Comment.text source n.comments

end GoOutline
