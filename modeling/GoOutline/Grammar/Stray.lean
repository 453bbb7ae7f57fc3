import GoOutline.Grammar.Cursor

/-!
# Stray tokens

Where a source cannot be read, the fault shows best at a character that begins no token, or at a
bracket that closes nothing. To find it, tokens are taken one after the other without regard to the
grammar; only their brackets are paired.
-/
namespace GoOutline

/-! ## Tokens without grammar -/

namespace Lexeme

/-- The bracket that closes what a character opens. -/
def closer? : Char → Option Char
  | '(' => some ')'
  | '[' => some ']'
  | '\x7b' => some '\x7d'
  | _ => none

def isCloser (c : Char) : Bool :=
  c == ')' || c == ']' || c == '\x7d'

/-- The characters of all signs other than brackets. -/
def signCharacters : List Char := "+-*/%&|^<>=!:;,.~\x00".toList

/-- A word, a literal or a character of a sign. -/
def anyToken : Shape :=
  Shape.longest
    [word, raw, interpreted, rune, integer, float, imaginary, Shape.one signCharacters.contains]

end Lexeme

/-! ## The first stray token -/

namespace Place

/-- The first stray token ahead, behind brackets that wait for the given ones to close them, the
innermost first. One step of `fuel` is enough for each character ahead. -/
def strayWithin : Nat → List Char → Place → Option Place
  | 0, _, _ => none
  | fuel + 1, waiting, p =>
    let next := (p.gap true).place
    match next.ahead with
    | [] => none
    | c :: _ =>
      match Lexeme.closer? c with
      | some closing => strayWithin fuel (closing :: waiting) (next.skip 1)
      | none =>
        if Lexeme.isCloser c then
          match waiting with
          | closing :: rest => if c == closing then strayWithin fuel rest (next.skip 1) else some next
          | [] => some next
        else
          match Lexeme.anyToken next.ahead with
          | some n => strayWithin fuel waiting (next.skip n)
          | none => some next

/-- The first stray token ahead. -/
def stray? (p : Place) : Option Place :=
  p.strayWithin p.ahead.length []

end Place

end GoOutline
