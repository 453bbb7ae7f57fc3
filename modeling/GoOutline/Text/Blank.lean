/-!
# White space

The 25 characters with the Unicode property White_Space, and the trimming of texts by them.
-/
namespace GoOutline.Text

/-- The character is white space. -/
def isBlank (c : Char) : Bool :=
  let n := c.toNat
  (9 ≤ n && n ≤ 13) || n == 0x20 || n == 0x85 || n == 0xa0 || n == 0x1680 ||
    (0x2000 ≤ n && n ≤ 0x200a) || n == 0x2028 || n == 0x2029 || n == 0x202f || n == 0x205f ||
    n == 0x3000

/-- The text without the white space it begins with. -/
def trimStart (cs : List Char) : List Char :=
  cs.dropWhile isBlank

/-- The text without the white space it ends with. -/
def trimEnd : List Char → List Char
  | [] => []
  | c :: cs =>
    match trimEnd cs with
    | [] => if isBlank c then [] else [c]
    | rest => c :: rest

/-- The text without the white space around it. -/
def trim (cs : List Char) : List Char :=
  trimEnd (trimStart cs)

end GoOutline.Text
