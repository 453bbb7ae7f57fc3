import GoOutline.Grammar.Lexeme
import GoOutline.Grammar.Node

/-!
# Places, gaps and cursors

Between two tokens of a source lies a gap of white space and comments. A line feed is white space
too, unless the grammar takes it as the end of a phrase, so a cursor knows two gaps: the one on the
same row and the full one. It also knows the word that stands ahead, so that a keyword is told
from an identifier by the whole word.
-/
namespace GoOutline

/-- The place after a character. -/
def Mark.after (m : Mark) (c : Char) : Mark :=
  ⟨m.byte + c.utf8Size, if c == '\n' then m.row + 1 else m.row⟩

/-- A place in a source together with the characters ahead. -/
structure Place where
  mark : Mark
  ahead : List Char

namespace Place

/-- The place `n` characters further. -/
def skip (p : Place) (n : Nat) : Place :=
  ⟨(p.ahead.take n).foldl Mark.after p.mark, p.ahead.drop n⟩

/-- The leaf that takes the next `n` characters. -/
def leaf (kind : Kind) (p : Place) (n : Nat) : Node :=
  .mk kind none p.mark (p.skip n).mark [] []

end Place

/-- White space between tokens: tab, line feed, vertical tab, form feed, carriage return, space. -/
def isSpace (c : Char) : Bool :=
  c == ' ' || (9 ≤ c.toNat && c.toNat ≤ 13)

/-- The comments of a gap and the place where it ends. -/
structure Gap where
  comments : List Node
  place : Place

/-- The gap ahead. With `rows` it runs over line feeds, without it stops before the first. One step
of `fuel` is enough for each character ahead. -/
def Place.gapWithin (rows : Bool) : Nat → Place → Gap
  | 0, p => ⟨[], p⟩
  | fuel + 1, p =>
    match p.ahead with
    | [] => ⟨[], p⟩
    | c :: cs =>
      if isSpace c && (rows || c != '\n') then gapWithin rows fuel ⟨p.mark.after c, cs⟩
      else
        match Lexeme.comment p.ahead with
        | some n =>
          let rest := gapWithin rows fuel (p.skip n)
          ⟨p.leaf .comment n :: rest.comments, rest.place⟩
        | none => ⟨[], p⟩

/-- The gap ahead, on this row or over all rows. -/
def Place.gap (rows : Bool) (p : Place) : Gap :=
  p.gapWithin rows p.ahead.length

/-- Where a parser stands: after a token, before a gap. -/
structure Cursor where
  /-- The gap on the same row. -/
  near : Gap
  /-- The gap up to the next token. -/
  far : Gap
  /-- The word that is the next token, or nothing. -/
  word : List Char
  /-- The end of the source may end the phrase before it. -/
  mayEnd : Bool

namespace Cursor

/-- The cursor after a token that ends at a place. -/
def ofPlace (p : Place) : Cursor :=
  let near := p.gap false
  let beyond := near.place.gap true
  let next := beyond.place
  { near, far := ⟨near.comments ++ beyond.comments, next⟩,
    word := next.ahead.take ((Lexeme.word next.ahead).getD 0), mayEnd := false }

/-- Byte order mark, skipped at the very start of a source. -/
def byteOrderMark : Char := '\uFEFF'

/-- The cursor at the start of a source. -/
def ofSource (source : List Char) : Cursor :=
  let start : Place := ⟨⟨0, 0⟩, source⟩
  match source with
  | c :: _ => .ofPlace (if c == byteOrderMark then start.skip 1 else start)
  | [] => .ofPlace start

/-- Nothing but white space and comments is ahead. -/
def atEnd (c : Cursor) : Bool :=
  c.far.place.ahead.isEmpty

end Cursor

end GoOutline
