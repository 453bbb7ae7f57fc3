/-!
# Slices of a text by byte offsets

Offsets count the bytes of the UTF-8 form of a text. A slice exists when both offsets lie inside
the text, in order, and neither cuts a character.
-/
namespace GoOutline.Text

/-- Number of bytes of the UTF-8 form of the text. -/
def byteLength : List Char → Nat
  | [] => 0
  | c :: cs => c.utf8Size + byteLength cs

/-- What is left after the first `n` bytes; none when `n` cuts a character or is past the end. -/
def dropBytes : Nat → List Char → Option (List Char)
  | 0, cs => some cs
  | _ + 1, [] => none
  | n + 1, c :: cs => if c.utf8Size ≤ n + 1 then dropBytes (n + 1 - c.utf8Size) cs else none

/-- The first `n` bytes; none when `n` cuts a character or is past the end. -/
def takeBytes : Nat → List Char → Option (List Char)
  | 0, _ => some []
  | _ + 1, [] => none
  | n + 1, c :: cs =>
    if c.utf8Size ≤ n + 1 then (takeBytes (n + 1 - c.utf8Size) cs).map (c :: ·) else none

/-- The characters between two byte offsets. -/
def sliceBytes (start stop : Nat) (cs : List Char) : Option (List Char) :=
  if start ≤ stop then (dropBytes start cs).bind (takeBytes (stop - start)) else none

end GoOutline.Text
