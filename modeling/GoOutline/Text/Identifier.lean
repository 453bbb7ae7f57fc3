import GoOutline.Text.Letter
import GoOutline.Text.Number
import GoOutline.Text.Mark

/-!
# Identifier characters

Which characters may begin an identifier and which may continue one (the Unicode properties
XID_Start and XID_Continue, with the low line allowed in both places). A start character is a
letter or a letterlike number, but for a few exceptions; a continuing character is a start
character, a mark, a decimal digit or a connector, with a few more.
-/
namespace GoOutline.Text

/-- Characters that begin identifiers although they are neither letters nor letterlike numbers. -/
def startExceptions : RangeTable :=
  [(0x1885, 0x1886), (0x2118, 0x2118), (0x212e, 0x212e)]

/-- Letters that begin no identifier, because their compatibility forms would not. -/
def startExclusions : RangeTable :=
  [(0x37a, 0x37a), (0xe33, 0xe33), (0xeb3, 0xeb3), (0x2e2f, 0x2e2f), (0xfc5e, 0xfc63),
   (0xfdfa, 0xfdfb), (0xfe70, 0xfe70), (0xfe72, 0xfe72), (0xfe74, 0xfe74), (0xfe76, 0xfe76),
   (0xfe78, 0xfe78), (0xfe7a, 0xfe7a), (0xfe7c, 0xfe7c), (0xfe7e, 0xfe7e), (0xff9e, 0xff9f)]

/-- Punctuation that connects the words of an identifier, the low line apart. -/
def connectors : RangeTable :=
  [(0x203f, 0x2040), (0x2054, 0x2054), (0xfe33, 0xfe34), (0xfe4d, 0xfe4f), (0xff3f, 0xff3f)]

/-- Further characters that continue identifiers. -/
def continueExceptions : RangeTable :=
  [(0xb7, 0xb7), (0x387, 0x387), (0xe33, 0xe33), (0xeb3, 0xeb3), (0x1369, 0x1371),
   (0x19da, 0x19da), (0x200c, 0x200d), (0x30fb, 0x30fb), (0xff65, 0xff65), (0xff9e, 0xff9f)]

/-- The character begins an identifier. -/
def isIdentifierStart (c : Char) : Bool :=
  if c.toNat < 0x80 then c == '_' || c.isAlpha
  else ((isLetter c || letterNumbers.contains c) && !startExclusions.contains c) ||
    startExceptions.contains c

/-- The character continues an identifier. -/
def isIdentifierPart (c : Char) : Bool :=
  if c.toNat < 0x80 then c == '_' || c.isAlphanum
  else isIdentifierStart c || isDecimalDigit c || isMark c || connectors.contains c ||
    continueExceptions.contains c

end GoOutline.Text
