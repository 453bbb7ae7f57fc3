/-!
# JSON texts

The part of JSON that outlines are made of, and its text: every item and field on a line of its own,
two spaces for each level, and only quotes, backslashes and control characters escaped.
-/
namespace GoOutline

/-- A JSON value without numbers and nulls. -/
inductive Json where
  | text (value : String)
  | flag (value : Bool)
  | list (items : List Json)
  | record (fields : List (String × Json))
deriving Repr

namespace Json

/-! ## Strings -/

/-- A hexadecimal digit in lower case. -/
def hexDigit (n : Nat) : Char :=
  if n < 10 then Char.ofNat ('0'.toNat + n) else Char.ofNat ('a'.toNat + (n - 10))

/-- A character inside quotes. -/
def escape (c : Char) : List Char :=
  if c == '\x22' then ['\x5c', '\x22']
  else if c == '\x5c' then ['\x5c', '\x5c']
  else if 0x20 ≤ c.toNat then [c]
  else if c == '\n' then ['\x5c', 'n']
  else if c == '\r' then ['\x5c', 'r']
  else if c == '\t' then ['\x5c', 't']
  else if c == '\x08' then ['\x5c', 'b']
  else if c == '\x0c' then ['\x5c', 'f']
  else ['\x5c', 'u', '0', '0', hexDigit (c.toNat / 16), hexDigit (c.toNat % 16)]

/-- A string in quotes. -/
def quote (s : String) : List Char :=
  '\x22' :: (s.toList.flatMap escape ++ ['\x22'])

/-! ## Layout -/

/-- A new line at a level. -/
def newLine (level : Nat) : List Char :=
  '\n' :: List.replicate (2 * level) ' '

mutual

/-- The text of a value that stands at a level. -/
def write (level : Nat) : Json → List Char
  | text value => quote value
  | flag value => (if value then "true" else "false").toList
  | list items =>
    if items.isEmpty then ['[', ']']
    else '[' :: (writeItems (level + 1) items ++ newLine level ++ [']'])
  | record fields =>
    if fields.isEmpty then ['\x7b', '\x7d']
    else '\x7b' :: (writeFields (level + 1) fields ++ newLine level ++ ['\x7d'])

/-- The text of list items at a level, with commas between them. -/
def writeItems (level : Nat) : List Json → List Char
  | [] => []
  | item :: rest =>
    newLine level ++ write level item ++ (if rest.isEmpty then [] else [',']) ++
      writeItems level rest

/-- The text of record fields at a level, with commas between them. -/
def writeFields (level : Nat) : List (String × Json) → List Char
  | [] => []
  | (key, value) :: rest =>
    newLine level ++ quote key ++ [':', ' '] ++ write level value ++
      (if rest.isEmpty then [] else [',']) ++ writeFields level rest

end

/-- The text of a value. -/
def pretty (value : Json) : String :=
  String.ofList (write 0 value)

/-! ## Fields that may be left out -/

/-- A field for a text, left out when the text is empty. -/
def textField (key value : String) : List (String × Json) :=
  if value.isEmpty then [] else [(key, .text value)]

/-- A field for a text that may be missing. -/
def optionField (key : String) (value : Option String) : List (String × Json) :=
  match value with
  | some value => [(key, .text value)]
  | none => []

/-- A field for a list, left out when the list is empty. -/
def listField (key : String) (items : List Json) : List (String × Json) :=
  if items.isEmpty then [] else [(key, .list items)]

end Json

end GoOutline
