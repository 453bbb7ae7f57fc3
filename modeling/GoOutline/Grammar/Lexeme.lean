import GoOutline.Text.Identifier

/-!
# Lexemes

The shapes of words, literals and comments. A shape is a function that looks at the characters
ahead and answers how many of them the lexeme takes, or nothing if no lexeme of that shape begins
there. Shapes are put together by concatenation, option and longest choice.
-/
namespace GoOutline

/-- How many of the characters ahead a lexeme takes, if it begins there. -/
abbrev Shape := List Char → Option Nat

namespace Shape

/-- One character of a class. -/
def one (p : Char → Bool) : Shape
  | c :: _ => if p c then some 1 else none
  | [] => none

/-- A fixed text. -/
def exactly (text : String) : Shape := fun cs =>
  if text.toList.isPrefixOf cs then some text.length else none

/-- One shape after the other. -/
def followedBy (a b : Shape) : Shape := fun cs =>
  (a cs).bind fun n => (b (cs.drop n)).map (n + ·)

/-- All shapes of a list, one after the other. -/
def all : List Shape → Shape
  | [] => fun _ => some 0
  | a :: rest => a.followedBy (all rest)

/-- The shape, or nothing. -/
def maybe (a : Shape) : Shape := fun cs =>
  some ((a cs).getD 0)

/-- The longest lexeme among several shapes. -/
def longest : List Shape → Shape
  | [], _ => none
  | a :: rest, cs =>
    match a cs, longest rest cs with
    | some n, some m => some (max n m)
    | some n, none => some n
    | none, r => r

end Shape

namespace Lexeme

open Shape

/-! ## Words and comments -/

/-- An identifier or keyword. -/
def word : Shape
  | c :: cs =>
    if Text.isIdentifierStart c then some (1 + (cs.takeWhile Text.isIdentifierPart).length)
    else none
  | [] => none

/-- Characters up to and with the end of a block comment. -/
def blockRest : Shape
  | '*' :: '/' :: _ => some 2
  | _ :: cs => (blockRest cs).map (· + 1)
  | [] => none

/-- A comment: from two slashes to the end of the row, or between a slash with a star and a star
with a slash. A block comment that is never closed is none. -/
def comment : Shape
  | '/' :: '/' :: cs => some (2 + (cs.takeWhile (· != '\n')).length)
  | '/' :: '*' :: cs => (blockRest cs).map (· + 2)
  | _ => none

/-! ## Numbers -/

def isHexDigit (c : Char) : Bool :=
  c.isDigit || ('a' ≤ c && c ≤ 'f') || ('A' ≤ c && c ≤ 'F')

def isOctalDigit (c : Char) : Bool :=
  '0' ≤ c && c ≤ '7'

def isBinaryDigit (c : Char) : Bool :=
  c == '0' || c == '1'

/-- Further digits of a number; one low line may stand before each. -/
def moreDigits (p : Char → Bool) : List Char → Nat
  | '_' :: d :: cs => if p d then 2 + moreDigits p cs else 0
  | d :: cs => if p d then 1 + moreDigits p cs else 0
  | [] => 0

/-- Digits of a class, with single low lines between them. -/
def digits (p : Char → Bool) : Shape
  | d :: cs => if p d then some (1 + moreDigits p cs) else none
  | [] => none

def decimals : Shape := digits Char.isDigit

def lowLine : Shape := maybe (exactly "_")

/-- The shapes of integers: binary, decimal, octal and hexadecimal. -/
def integers : List Shape :=
  [all [exactly "0", one (fun c => c == 'b' || c == 'B'), lowLine, digits isBinaryDigit],
   exactly "0",
   all [one (fun c => '1' ≤ c && c ≤ '9'), maybe (all [lowLine, decimals])],
   all [exactly "0", maybe (one fun c => c == 'o' || c == 'O'), lowLine, digits isOctalDigit],
   all [exactly "0", one (fun c => c == 'x' || c == 'X'), lowLine, digits isHexDigit]]

def integer : Shape := longest integers

/-- An exponent, after one of two marks. -/
def exponent (lower upper : Char) : Shape :=
  all [one (fun c => c == lower || c == upper), maybe (one fun c => c == '+' || c == '-'), decimals]

def decimalExponent : Shape := exponent 'e' 'E'

/-- The mantissas of hexadecimal floating-point numbers. -/
def hexMantissas : List Shape :=
  [all [lowLine, digits isHexDigit, exactly ".", maybe (digits isHexDigit)],
   all [lowLine, digits isHexDigit],
   all [exactly ".", digits isHexDigit]]

/-- The shapes of floating-point numbers. -/
def floats : List Shape :=
  [all [decimals, exactly ".", maybe decimals, maybe decimalExponent],
   all [decimals, decimalExponent],
   all [exactly ".", decimals, maybe decimalExponent]] ++
  hexMantissas.map fun mantissa =>
    all [exactly "0", one (fun c => c == 'x' || c == 'X'), mantissa, exponent 'p' 'P']

def float : Shape := longest floats

/-- An imaginary number. -/
def imaginary : Shape :=
  longest ((decimals :: integers ++ floats).map fun magnitude =>
    magnitude.followedBy (exactly "i"))

/-! ## Texts -/

def quoteMark : Char := '\x22'

def apostrophe : Char := '\x27'

def backquote : Char := '\x60'

def backslash : Char := '\x5c'

/-- Hexadecimal digits that the mark of an escape asks for. -/
def escapeDigits (mark : Char) : Nat :=
  if mark == 'x' then 2 else if mark == 'u' then 4 else if mark == 'U' then 8 else 0

/-- The rest of an interpreted string, up to its closing quote on the same row; `need` hexadecimal
digits have to come first. -/
def interpretedRest (need : Nat) : Shape
  | [] => none
  | c :: cs =>
    match need with
    | n + 1 => if isHexDigit c then (interpretedRest n cs).map (· + 1) else none
    | 0 =>
      if c == quoteMark then some 1
      else if c == '\n' then none
      else if c == backslash then
        match cs with
        | mark :: rest => (interpretedRest (escapeDigits mark) rest).map (· + 2)
        | [] => none
      else (interpretedRest 0 cs).map (· + 1)

/-- A string with escapes. -/
def interpreted : Shape
  | c :: cs => if c == quoteMark then (interpretedRest 0 cs).map (· + 1) else none
  | [] => none

/-- A string between back quotes, of any characters but these. -/
def raw : Shape
  | c :: cs =>
    let body := (cs.takeWhile (· != backquote)).length
    if c == backquote && body < cs.length then some (body + 2) else none
  | [] => none

/-- `n` characters of a class. -/
def times : Nat → (Char → Bool) → Shape
  | 0, _ => fun _ => some 0
  | n + 1, p => (one p).followedBy (times n p)

/-- What stands after the backslash of an escaped rune. -/
def runeEscapes : List Shape :=
  [all [exactly "x", times 2 isHexDigit], times 3 isOctalDigit,
   all [exactly "u", times 4 isHexDigit], all [exactly "U", times 8 isHexDigit],
   one fun c => ['a', 'b', 'f', 'n', 'r', 't', 'v', backslash, apostrophe, quoteMark].contains c]

/-- A rune: one character or one escape between apostrophes. -/
def rune : Shape :=
  let mark := one (· == apostrophe)
  longest
    [all [mark, one (fun c => c != apostrophe && c != backslash), mark],
     all [mark, one (· == backslash), longest runeEscapes, mark]]

end Lexeme

end GoOutline
