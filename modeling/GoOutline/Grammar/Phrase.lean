import GoOutline.Grammar.Cursor
import GoOutline.Grammar.Weight

/-!
# Phrases

A grammar is a family of phrases, one for each rule. A phrase is read from left to right; an ordered
choice takes its first alternative that can be read, and a repetition takes as much as it can. Where
two readings have to be compared, the heavier one is taken. The phrases of a left-recursive rule
grow: an operand is read first and then wrapped by whatever follows it.

`Phrase.read` is the only reader. It yields items: the nodes read, each with the comments of the
gap before it. When a node is built, the comments before its first item stay outside of it and
all others become its children, so a comment is a child of the innermost node with tokens on both
sides of it.
-/
namespace GoOutline

/-- A token that a phrase asks for. -/
inductive Token where
  /-- Punctuation, unless the characters ahead begin one of the longer signs. -/
  | sign (text : String) (longer : List String)
  /-- A keyword. -/
  | keyword (text : String)
  /-- An identifier in a role, other than the given words. -/
  | name (kind : Kind) (except : List String)
  /-- A literal in one of the given forms: the longest, and the first of equally long ones. -/
  | literal (forms : List (Kind × Shape))
  /-- The end of a statement or spec: a line feed, a semicolon, a NUL character or, where the
  phrase before it allows that, the end of the source. -/
  | terminator

/-- How often a phrase grows. -/
inductive Growth where
  | maybe
  | once
  | often
deriving DecidableEq, Repr

mutual

/-- A phrase over the rules `ρ`. -/
inductive Phrase (ρ : Type) where
  | token (t : Token)
  /-- The phrase of a rule. -/
  | rule (r : ρ)
  /-- All of them in order. -/
  | sequence (ps : List (Phrase ρ))
  /-- The first of them that can be read. -/
  | choice (ps : List (Phrase ρ))
  /-- The heavier of two readings, the second if they weigh the same. -/
  | heavier (p q : Phrase ρ)
  /-- As often as it can be read. -/
  | many (p : Phrase ρ)
  /-- Reads nothing, and only where the phrase can be read. -/
  | ahead (p : Phrase ρ)
  /-- Reads nothing, and only where the phrase cannot be read. -/
  | unless (p : Phrase ρ)
  /-- The items of the phrase as the children of one node. -/
  | node (kind : Kind) (p : Phrase ρ)
  /-- The items of the phrase in a role. -/
  | field (f : Field) (p : Phrase ρ)
  /-- After the phrase the end of the source counts as a terminator. -/
  | closing (p : Phrase ρ)
  /-- The phrase, wrapped by the first extension that can be read: perhaps, once, or again and again
  as long as there is one. -/
  | grow (growth : Growth) (p : Phrase ρ) (extensions : List (Extension ρ))

/-- How a phrase grows: after a common opening, by the first ending that can be read. -/
inductive Extension (ρ : Type) where
  | mk (opening : Phrase ρ) (endings : List (Ending ρ))

/-- A way to end an extension: the kind of the new node and the phrase to read. With `inner` the
items before the ending first become a node of that kind, in the role `role`. -/
inductive Ending (ρ : Type) where
  | mk (kind : Kind) (inner : Option Kind) (role : Option Field) (p : Phrase ρ)

end

/-- A node that was read, with the comments of the gap before it. -/
structure Item where
  lead : List Node
  node : Node

namespace Item

/-- Children of a node made of items: the comments before the first stay outside. -/
def childrenOf : List Item → List Node
  | [] => []
  | first :: rest => first.node :: rest.flatMap fun item => item.lead ++ [item.node]

/-- The item of a node made of items; no item if there are none. -/
def group (kind : Kind) (items : List Item) : List Item :=
  match items with
  | [] => []
  | first :: rest =>
    let last := rest.getLast?.getD first
    [⟨first.lead, .mk kind none first.node.start last.node.stop [] (childrenOf items)⟩]

/-- The weight of items read. -/
def weight (items : List Item) : Int :=
  items.foldr (fun item total => item.node.weight + total) 0

/-- The items in a role. -/
def inRole (f : Field) (items : List Item) : List Item :=
  items.map fun item => ⟨item.lead, item.node.withField (some f)⟩

/-- The items before an ending, grouped and put in their role as the ending says. -/
def wrapLeft (inner : Option Kind) (role : Option Field) (items : List Item) : List Item :=
  let grouped := match inner with
    | some kind => group kind items
    | none => items
  match role, grouped with
  | some f, first :: rest => ⟨first.lead, first.node.withField (some f)⟩ :: rest
  | _, items => items

end Item

namespace Token

/-- The item of a token of `n` characters after a gap, and the cursor behind it. -/
def take (kind : Kind) (gap : Gap) (n : Nat) : List Item × Cursor :=
  ([⟨gap.comments, gap.place.leaf kind n⟩], .ofPlace (gap.place.skip n))

/-- Reads a terminator on the row of the cursor. -/
def readTerminator (c : Cursor) : Option (List Item × Cursor) :=
  match c.near.place.ahead with
  | ch :: _ =>
    if ch == '\n' || ch == ';' || ch == '\x00' then
      some (take (.token (String.singleton ch)) c.near 1)
    else none
  | [] => if c.mayEnd then some ([], c) else none

/-- The longest literal that the characters begin, and the first of equally long ones. -/
def longestForm (cs : List Char) : List (Kind × Shape) → Option (Kind × Nat)
  | [] => none
  | (kind, shape) :: rest =>
    match shape cs, longestForm cs rest with
    | some n, some (other, m) => if n < m then some (other, m) else some (kind, n)
    | some n, none => some (kind, n)
    | none, best => best

/-- Reads a token at a cursor. -/
def read (c : Cursor) : Token → Option (List Item × Cursor)
  | .sign text longer =>
    let cs := c.far.place.ahead
    if text.toList.isPrefixOf cs && !(longer.any fun l => l.toList.isPrefixOf cs) then
      some (take (.token text) c.far text.length)
    else none
  | .keyword text =>
    if c.word == text.toList then some (take (.token text) c.far c.word.length) else none
  | .name kind except =>
    if c.word.isEmpty || except.any (fun w => c.word == w.toList) then none
    else some (take kind c.far c.word.length)
  | .literal forms =>
    (longestForm c.far.place.ahead forms).map fun (kind, n) => take kind c.far n
  | .terminator => readTerminator c

end Token

namespace Phrase

variable {ρ : Type}

mutual

/-- Reads a phrase at a cursor: the items read and the cursor behind them. Each step into a part of a
phrase, each repetition and each rule costs one unit of fuel. -/
def read (rules : ρ → Phrase ρ) : Nat → Phrase ρ → Cursor → Option (List Item × Cursor)
  | 0, _, _ => none
  | _ + 1, .token t, c => t.read c
  | fuel + 1, .rule r, c => read rules fuel (rules r) c
  | _ + 1, .sequence [], c => some ([], c)
  | fuel + 1, .sequence (p :: ps), c =>
    match read rules fuel p c with
    | none => none
    | some (items, c') =>
      match read rules fuel (.sequence ps) c' with
      | none => none
      | some (more, c'') => some (items ++ more, c'')
  | _ + 1, .choice [], _ => none
  | fuel + 1, .choice (p :: ps), c =>
    match read rules fuel p c with
    | some result => some result
    | none => read rules fuel (.choice ps) c
  | fuel + 1, .heavier p q, c =>
    match read rules fuel p c, read rules fuel q c with
    | some a, some b => if Item.weight b.1 < Item.weight a.1 then some a else some b
    | some a, none => some a
    | none, other => other
  | fuel + 1, .many p, c =>
    match read rules fuel p c with
    | none => some ([], c)
    | some (items, c') =>
      match read rules fuel (.many p) c' with
      | none => some (items, c')
      | some (more, c'') => some (items ++ more, c'')
  | fuel + 1, .ahead p, c => (read rules fuel p c).map fun _ => ([], c)
  | fuel + 1, .unless p, c =>
    match read rules fuel p c with
    | some _ => none
    | none => some ([], c)
  | fuel + 1, .node kind p, c =>
    (read rules fuel p c).map fun (items, c') => (Item.group kind items, c')
  | fuel + 1, .field f p, c =>
    (read rules fuel p c).map fun (items, c') => (Item.inRole f items, c')
  | fuel + 1, .closing p, c =>
    (read rules fuel p c).map fun (items, c') => (items, { c' with mayEnd := true })
  | fuel + 1, .grow growth p extensions, c =>
    match read rules fuel p c with
    | none => none
    | some (items, c') => extend rules fuel growth extensions items c'

/-- Wraps items by the extensions that can be read behind them. -/
def extend (rules : ρ → Phrase ρ) :
    Nat → Growth → List (Extension ρ) → List Item → Cursor → Option (List Item × Cursor)
  | 0, _, _, _, _ => none
  | fuel + 1, growth, extensions, items, c =>
    match firstExtension rules fuel extensions items c with
    | none => if growth = .once then none else some (items, c)
    | some (items', c') =>
      if growth = .often then extend rules fuel growth extensions items' c' else some (items', c')

/-- The first extension that can be read behind the items. -/
def firstExtension (rules : ρ → Phrase ρ) :
    Nat → List (Extension ρ) → List Item → Cursor → Option (List Item × Cursor)
  | 0, _, _, _ => none
  | _ + 1, [], _, _ => none
  | fuel + 1, .mk opening endings :: rest, items, c =>
    match read rules fuel opening c with
    | none => firstExtension rules fuel rest items c
    | some (more, c') =>
      match firstEnding rules fuel endings (items ++ more) c' with
      | some result => some result
      | none => firstExtension rules fuel rest items c

/-- The first ending that can be read behind the items. -/
def firstEnding (rules : ρ → Phrase ρ) :
    Nat → List (Ending ρ) → List Item → Cursor → Option (List Item × Cursor)
  | 0, _, _, _ => none
  | _ + 1, [], _, _ => none
  | fuel + 1, .mk kind inner role p :: rest, items, c =>
    match read rules fuel p c with
    | some (more, c') => some (Item.group kind (Item.wrapLeft inner role items ++ more), c')
    | none => firstEnding rules fuel rest items c

end

end Phrase

end GoOutline
