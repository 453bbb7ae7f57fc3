import GoOutline.Text.Blank
import GoOutline.Text.Letter
import GoOutline.Text.Number

/-!
# Type references: `TypeRef`

A type text names a type if it is a type name, perhaps of another package, with stars before it and type
arguments behind it. Stars, white space and type arguments are dropped.
-/
namespace GoOutline

/-- A type name, and the name of its package if it is qualified. -/
structure TypeRef where
  package : Option String
  name : String
deriving DecidableEq, Repr

namespace TypeRef

/-- The name of a type of the same package. -/
def ofLocal (name : String) : TypeRef := ⟨none, name⟩

def isLocal (r : TypeRef) : Bool := r.package.isNone

/-- The reference as written in a source. -/
def display (r : TypeRef) : String :=
  match r.package with
  | some package => package ++ "." ++ r.name
  | none => r.name

/-- The character begins a name: a letter or a low line. -/
def isNameStart (c : Char) : Bool := c == '_' || Text.isLetter c

/-- The character continues a name: a letter, a number or a low line. -/
def isNamePart (c : Char) : Bool := isNameStart c || Text.isNumber c

/-- A name at the start of a text, and what follows it. -/
def takeName (cs : List Char) : Option (List Char × List Char) :=
  match cs with
  | c :: rest =>
    if isNameStart c then some (c :: rest.takeWhile isNamePart, rest.dropWhile isNamePart) else none
  | [] => none

/-- A name, perhaps with a package and a dot before it, and what follows. -/
def takeQualified (cs : List Char) : Option (Option (List Char) × List Char × List Char) :=
  (takeName cs).bind fun (first, rest) =>
    match rest with
    | '.' :: more => (takeName more).map fun (second, rest) => (some first, second, rest)
    | _ => some (none, first, rest)

/-- Nothing, or type arguments: brackets around a text without line feeds. -/
def isArguments (cs : List Char) : Bool :=
  match cs with
  | [] => true
  | '[' :: rest => rest.getLast? == some ']' && !rest.dropLast.contains '\n'
  | _ => false

/-- Reads a type text (`TypeRef::parse`). -/
def parse? (text : String) : Option TypeRef :=
  let inside := (Text.trim text.toList).dropWhile (· == '*')
  (takeQualified (Text.trimStart inside)).bind fun (package, name, rest) =>
    if isArguments (Text.trimStart rest) then
      some ⟨package.map String.ofList, String.ofList name⟩
    else none

end TypeRef

end GoOutline
