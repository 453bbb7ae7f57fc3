import GoOutline.Grammar.Phrase

/-!
# The rules of the grammar

The recursive rules of the grammar of Go files, and the small phrases they are built from. Keywords
are contextual: a word is a keyword only where the grammar can take it as one, so every identifier
says which words it leaves to keywords. A line feed ends a phrase exactly where a terminator may
come next, so the phrases that can be last in a statement or spec come in two forms: with `line`
they do not go on behind a line feed.
-/
namespace GoOutline

/-- Where an expression stands. -/
structure Context where
  /-- A terminator may follow, so the expression does not go on behind a line feed. -/
  line : Bool
  /-- A brace behind a type name opens a literal; where a block may follow it opens the block. -/
  braces : Bool
  /-- The expression leads a simple statement, whose operators may follow. -/
  leads : Bool
  /-- A switch may ask for the type of the value, so the word `type` is no type of an assertion. -/
  asks : Bool
deriving DecidableEq, Repr

namespace Context

/-- Between brackets of any kind, or between signs that no block follows. -/
def inner : Context := ⟨false, true, false, false⟩

/-- At the start of a statement. -/
def statement : Context := ⟨true, true, true, false⟩

/-- A value at the end of a statement or spec. -/
def value : Context := ⟨true, true, false, false⟩

/-- Before the block of a statement. -/
def header : Context := ⟨false, false, false, false⟩

/-- At the start of the header of a statement. -/
def headerStart : Context := ⟨false, false, true, false⟩

/-- Before the clauses of a switch. -/
def subject : Context := ⟨false, false, false, true⟩

/-- At the start of the header of a switch. -/
def subjectStart : Context := ⟨false, false, true, true⟩

/-- At the start of a communication clause. -/
def communication : Context := ⟨false, true, true, false⟩

/-- For the expressions behind the first one of a list, which a comma or an operator has to follow. -/
def follower (c : Context) : Context := ⟨c.line, true, false, false⟩

/-- For the operands of an operator, whose type no switch asks for. -/
def operand (c : Context) : Context := { c with asks := false }

/-- The same place for the value whose type a switch may ask for, if it does so elsewhere. -/
def askedLike (c other : Context) : Context := { c with asks := other.asks }

end Context

/-- The recursive rules. -/
inductive Rule where
  | sourceFile
  | type (line : Bool)
  | simpleType (line : Bool)
  | typeElem (line : Bool)
  | typeArguments
  /-- Type parameters; the first name is none of the given words. -/
  | typeParameters (except : List String)
  | parameters
  | fieldList
  | expression (c : Context)
  | binary (level : Nat) (c : Context)
  | unary (c : Context)
  | operand (c : Context)
  | literalValue
  | block
  /-- A statement; with `clause` the words `case` and `default` are keywords. -/
  | statement (clause : Bool)
  | ifStatement
deriving DecidableEq, Repr

namespace Grammar

/-- A phrase of the grammar. -/
abbrev Part := Phrase Rule

/-! ## Small phrases -/

def sign (text : String) : Part := .token (.sign text [])

def signUnless (text : String) (longer : List String) : Part := .token (.sign text longer)

def keyword (text : String) : Part := .token (.keyword text)

def name (kind : Kind) (except : List String) : Part := .token (.name kind except)

def literal (forms : List (Kind × Shape)) : Part := .token (.literal forms)

def terminator : Part := .token .terminator

def openBrace : Part := sign "\x7b"

def closeBrace : Part := sign "\x7d"

/-- Reads nothing. -/
def nothing : Part := .sequence []

def optional (p : Part) : Part := .choice [p, nothing]

/-- One or more phrases with a separator between them. -/
def separated (p separator : Part) : Part :=
  .sequence [p, .many (.sequence [separator, p])]

/-- The phrase as often as it can be read, but no more than the given number of times. -/
def upTo : Nat → Part → Part
  | 0, _ => nothing
  | n + 1, p => optional (.sequence [p, upTo n p])

/-- The phrase, but with `line` only if no terminator comes first. -/
def onRow (line : Bool) (p : Part) : Part :=
  if line then .sequence [.unless terminator, p] else p

/-- A node of phrases in order. -/
def nodeOf (kind : Kind) (ps : List Part) : Part := .node kind (.sequence ps)

/-- One or more phrases with terminators between them, and perhaps one behind the last. -/
def terminated (p : Part) : Part :=
  .sequence [p, .many (.sequence [terminator, p]), optional terminator]

/-- Phrases in parentheses, each with its own terminator. -/
def closedGroup (p : Part) : Part :=
  .sequence [sign "(", .many (.sequence [p, terminator]), sign ")"]

/-! ## Words -/

/-- Words that begin types. -/
def typeWords : List String := ["func", "map", "chan", "struct", "interface"]

/-- Words that begin expressions and no types. -/
def predeclaredWords : List String := ["new", "make", "nil", "true", "false", "iota"]

/-- Words that begin expressions. -/
def valueWords : List String := typeWords ++ predeclaredWords

/-- Words that begin statements other than simple ones. -/
def statementWords : List String :=
  ["const", "type", "var", "return", "go", "defer", "if", "for", "switch", "select",
    "fallthrough", "break", "continue", "goto"]

/-- Words that begin the clauses of a switch or select. -/
def clauseWords : List String := ["case", "default"]

/-- Words that begin declarations found only at the top level. -/
def topLevelWords : List String := ["package", "import"]

/-- Reads nothing, and only where none of the words is next. -/
def noneOf (words : List String) : Part :=
  .unless (.choice (words.map keyword))

/-! ## Rules as phrases -/

def typeAt (line : Bool) : Part := .rule (.type line)

def simpleTypeAt (line : Bool) : Part := .rule (.simpleType line)

def expressionIn (c : Context) : Part := .rule (.expression c)

def parameterList : Part := .rule .parameters

def blockPart : Part := .rule .block

/-- One or more expressions as a node, the first in a place of its own. -/
def expressionListFrom (first rest : Context) : Part :=
  nodeOf .expressionList
    [expressionIn first, .many (.sequence [onRow first.line (sign ","), expressionIn rest])]

/-- One or more expressions as a node. -/
def expressionList (c : Context) : Part := expressionListFrom c c

/-- The result of a function: a parameter list or a type without parentheses. -/
def result (line : Bool) : Part :=
  .field .result (.choice [parameterList, simpleTypeAt line])

/-- The phrase, but with `line` only if no terminator and no clause comes first. -/
def onClauseRow (line : Bool) (p : Part) : Part :=
  onRow line (if line then .sequence [noneOf clauseWords, p] else p)

def stringLiteral : Part :=
  literal [(.rawStringLiteral, Lexeme.raw), (.interpretedStringLiteral, Lexeme.interpreted)]

end Grammar

end GoOutline
