/-!
# Tables of code point ranges

A class of characters too irregular for a rule is a table of closed code point ranges.
-/
namespace GoOutline.Text

/-- Closed ranges of code points, in increasing order. -/
abbrev RangeTable := List (Nat × Nat)

/-- Some range of the table holds the character. -/
def RangeTable.contains (table : RangeTable) (c : Char) : Bool :=
  table.any fun range => range.1 ≤ c.toNat && c.toNat ≤ range.2

end GoOutline.Text
