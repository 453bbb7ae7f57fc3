/-!
# Reading bytes as text

Bytes that need not be UTF-8 are shown with a replacement character for each maximal piece that
begins no character.
-/
namespace GoOutline.Text

/-- U+FFFD, shown in place of bytes that are no character. -/
def replacementChar : Char := '\uFFFD'

/-- The byte continues a character: its two high bits are one and zero. -/
def isContinuation (b : UInt8) : Bool :=
  0x80 ≤ b && b ≤ 0xbf

/-- The byte may follow the first byte of a character of three or four bytes. Some lead bytes
narrow the range: a shorter form exists, the code point is a surrogate or it is too large. -/
def isSecondByte (lead b : UInt8) : Bool :=
  if lead == 0xe0 then 0xa0 ≤ b && b ≤ 0xbf
  else if lead == 0xed then 0x80 ≤ b && b ≤ 0x9f
  else if lead == 0xf0 then 0x90 ≤ b && b ≤ 0xbf
  else if lead == 0xf4 then 0x80 ≤ b && b ≤ 0x8f
  else isContinuation b

/-- Payload of a continuation byte. -/
def lowSix (b : UInt8) : Nat :=
  b.toNat % 64

/-- A piece of a byte string: a character, or bytes that are none. -/
inductive BytePiece where
  | char (c : Char)
  | broken (bytes : List UInt8)
deriving DecidableEq, Repr

/-- The character that the bytes begin, or the longest piece of them that could begin one. -/
def leadPiece (a : UInt8) (rest : List UInt8) : BytePiece :=
  if a < 0x80 then .char (Char.ofNat a.toNat)
  else if 0xc2 ≤ a && a ≤ 0xdf then
    match rest with
    | b :: _ =>
      if isContinuation b then .char (Char.ofNat (a.toNat % 32 * 64 + lowSix b)) else .broken [a]
    | [] => .broken [a]
  else if 0xe0 ≤ a && a ≤ 0xef then
    match rest with
    | b :: c :: _ =>
      if !isSecondByte a b then .broken [a]
      else if isContinuation c then
        .char (Char.ofNat ((a.toNat % 16 * 64 + lowSix b) * 64 + lowSix c))
      else .broken [a, b]
    | [b] => if isSecondByte a b then .broken [a, b] else .broken [a]
    | [] => .broken [a]
  else if 0xf0 ≤ a && a ≤ 0xf4 then
    match rest with
    | b :: c :: d :: _ =>
      if !isSecondByte a b then .broken [a]
      else if !isContinuation c then .broken [a, b]
      else if isContinuation d then
        .char (Char.ofNat (((a.toNat % 8 * 64 + lowSix b) * 64 + lowSix c) * 64 + lowSix d))
      else .broken [a, b, c]
    | [b, c] =>
      if !isSecondByte a b then .broken [a]
      else if isContinuation c then .broken [a, b, c] else .broken [a, b]
    | [b] => if isSecondByte a b then .broken [a, b] else .broken [a]
    | [] => .broken [a]
  else .broken [a]

/-- Number of bytes of a piece. -/
def BytePiece.size : BytePiece → Nat
  | .char c => c.utf8Size
  | .broken bytes => bytes.length

/-- The pieces of a byte string after its first `n` bytes. -/
def bytePiecesFrom : Nat → List UInt8 → List BytePiece
  | _, [] => []
  | n + 1, _ :: rest => bytePiecesFrom n rest
  | 0, a :: rest =>
    let piece := leadPiece a rest
    piece :: bytePiecesFrom (piece.size - 1) rest

/-- The byte string as characters and maximal broken pieces. -/
def bytePieces (bytes : List UInt8) : List BytePiece :=
  bytePiecesFrom 0 bytes

/-- The text of the bytes, if every piece of them is a character. -/
def decode? (bytes : List UInt8) : Option (List Char) :=
  (bytePieces bytes).mapM fun
    | .char c => some c
    | .broken _ => none

/-- The text of the bytes, with a replacement character for each broken piece. -/
def decodeLossy (bytes : List UInt8) : List Char :=
  (bytePieces bytes).map fun
    | .char c => c
    | .broken _ => replacementChar

/-- The UTF-8 form of a text. -/
def encode (s : String) : List UInt8 :=
  s.toUTF8.data.toList

end GoOutline.Text
