import GoOutline.Disk.Path
import GoOutline.Text.Printable

/-!
# Quoted texts

A text between quotes on which every character can be seen: those with a meaning inside quotes stand
behind a backslash, those that cannot be shown are written by their code point, and bytes that are no
text by their value.
-/
namespace GoOutline.Quoted

/-- A number in hexadecimal digits of lower case. -/
def hexadecimal (n : Nat) : List Char :=
  Nat.toDigits 16 n

/-- A byte in two hexadecimal digits of upper case. -/
def hexByte (b : UInt8) : List Char :=
  [b.toNat / 16, b.toNat % 16].map fun n => (Nat.digitChar n).toUpper

/-- A character between double quotes. -/
def escape (c : Char) : List Char :=
  if c == '\x00' then ['\x5c', '0']
  else if c == '\t' then ['\x5c', 't']
  else if c == '\r' then ['\x5c', 'r']
  else if c == '\n' then ['\x5c', 'n']
  else if c == '\x22' then ['\x5c', '\x22']
  else if c == '\x5c' then ['\x5c', '\x5c']
  else if Text.isPrintable c then [c]
  else ['\x5c', 'u', '\x7b'] ++ hexadecimal c.toNat ++ ['\x7d']

/-- A piece of a path between double quotes. Single quotes are escaped too. -/
def escapePiece : Text.BytePiece → List Char
  | .char c => if c == '\x27' then ['\x5c', '\x27'] else escape c
  | .broken bytes => bytes.flatMap fun b => ['\x5c', 'x'] ++ hexByte b

/-- A text in quotes. -/
def text (s : String) : String :=
  String.ofList ('\x22' :: (s.toList.flatMap escape ++ ['\x22']))

/-- A path in quotes. -/
def path (p : Path) : String :=
  String.ofList ('\x22' :: ((Text.bytePieces p.bytes).flatMap escapePiece ++ ['\x22']))

end GoOutline.Quoted
