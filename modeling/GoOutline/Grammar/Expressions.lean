import GoOutline.Grammar.Types

/-!
# Expressions

Operands, what may follow an operand, and unary and binary operations in five levels of binding
strength.
-/
namespace GoOutline.Grammar

/-! ## Literals -/

/-- An element of a composite literal: an expression, or a literal that leaves its type out. -/
def literalElement : Part :=
  .node .literalElement (.choice [expressionIn .inner, .rule .literalValue])

/-- An element, or a key with its element. -/
def literalEntry : Part :=
  .grow .maybe literalElement
    [.mk nothing
      [.mk .keyedElement none (some .key) (.sequence [sign ":", .field .value literalElement])]]

def literalValue : Part :=
  nodeOf .literalValue
    [openBrace, optional (separated literalEntry (sign ",")), optional (sign ","), closeBrace]

def literalBody (line : Bool) : Part := onRow line (.field .body (.rule .literalValue))

/-- Literals of a named type. Before a block only a type name of another package or one with type
arguments is read so, and only if the brace cannot be that of the block. -/
def namedLiteral (c : Context) : Part :=
  if c.braces then
    nodeOf .compositeLiteral [.field .type (namedType c.line valueWords), literalBody c.line]
  else
    nodeOf .compositeLiteral
      [.field .type (.choice [genericType false valueWords, qualifiedType false valueWords]),
       literalBody false,
       .unless (.choice [terminator, closeBrace, keyword "else"])]

def basicLiteral : Part :=
  .choice
    [literal
      [(.rawStringLiteral, Lexeme.raw), (.interpretedStringLiteral, Lexeme.interpreted),
       (.runeLiteral, Lexeme.rune), (.intLiteral, Lexeme.integer), (.floatLiteral, Lexeme.float),
       (.imaginaryLiteral, Lexeme.imaginary)],
     nodeOf .nilLiteral [keyword "nil"], nodeOf .trueLiteral [keyword "true"],
     nodeOf .falseLiteral [keyword "false"], nodeOf .iotaLiteral [keyword "iota"]]

def functionLiteral : Part :=
  nodeOf .funcLiteral
    [keyword "func", .field .parameters parameterList, optional (result false),
     .field .body blockPart]

/-! ## Types as operands -/

/-- Conversion of a value to a type. -/
def conversion : Ending Rule :=
  .mk .typeConversionExpression none (some .type)
    (.sequence
      [sign "(", .field .operand (expressionIn .inner), optional (sign ","), sign ")"])

/-- A type applied to other types. -/
def instantiation : Ending Rule :=
  .mk .typeInstantiationExpression none (some .type)
    (.sequence [sign "[", separated (typeAt false) (sign ","), optional (sign ","), sign "]"])

/-- Literal of the type before it. -/
def typedLiteral : Ending Rule :=
  .mk .compositeLiteral none (some .type) (literalBody false)

/-- The phrase, where another could be read. -/
def startingWith (start p : Part) : Part := .sequence [.ahead start, p]

/-- Operands that begin with a type: a literal, conversion or instantiation of it. -/
def typeOperand : Part :=
  .choice
    [nodeOf .compositeLiteral [.field .type implicitLengthArrayType, literalBody false],
     startingWith (.choice [sign "[", keyword "struct", keyword "map"])
      (.grow .once (simpleTypeAt false)
        [.mk nothing [typedLiteral, conversion, instantiation]]),
     startingWith
      (.choice [sign "~", keyword "chan", keyword "func", keyword "interface"])
      (.grow .once (simpleTypeAt false) [.mk nothing [conversion, instantiation]])]

/-! ## Operands -/

/-- Predeclared functions whose first argument is a type. -/
def allocator : Part :=
  .node .identifier (.choice [keyword "new", keyword "make"])

def allocatorCall (line : Bool) : Part :=
  nodeOf .callExpression
    [.field .function allocator,
     onRow line (.field .arguments (nodeOf .argumentList
      [sign "(", optional (.sequence
        [typeAt false, .many (.sequence [sign ",", expressionIn .inner]), optional (sign ",")]),
       sign ")"]))]

/-- An expression or, before a conversion or instantiation, a type in parentheses. -/
def parenthesized : Part :=
  .choice
    [nodeOf .parenthesizedExpression [sign "(", expressionIn .inner, sign ")"],
     .grow .once (nodeOf .parenthesizedType [sign "(", typeAt false, sign ")"])
      [.mk nothing [conversion, instantiation]]]

def operand (c : Context) : Part :=
  .choice
    [namedLiteral c, name .identifier valueWords, basicLiteral, functionLiteral, typeOperand,
     parenthesized, allocatorCall c.line,
     .sequence [allocator, .unless (onRow c.line (sign "("))]]

/-! ## What follows an operand -/

def argument : Part :=
  .grow .maybe (expressionIn .inner)
    [.mk nothing [.mk .variadicArgument none none (sign "...")]]

def argumentList : Part :=
  nodeOf .argumentList
    [sign "(", optional (.sequence [separated argument (sign ","), optional (sign ",")]), sign ")"]

/-- A call. -/
def call (line : Bool) : Extension Rule :=
  .mk nothing
    [.mk .callExpression none (some .function) (onRow line (.field .arguments argumentList))]

/-- A call with type arguments. -/
def genericCall (line : Bool) : Extension Rule :=
  .mk (onRow line (.field .typeArguments (.rule .typeArguments)))
    [.mk .callExpression none (some .function) (onRow line (.field .arguments argumentList))]

/-- A member, or a value taken as one of a type. Where a switch may ask for the type itself the word
`type` does so, which makes no expression. -/
def selection (c : Context) : Extension Rule :=
  .mk (onRow c.line (sign "."))
    [.mk .selectorExpression none (some .operand) (.field .field (name .fieldIdentifier [])),
     .mk .typeAssertionExpression none (some .operand)
      (.sequence
        [sign "(", if c.asks then noneOf ["type"] else nothing, .field .type (typeAt false),
         sign ")"])]

/-- The end of a slice, behind its first colon. -/
def sliceRest : Part :=
  .sequence
    [optional (.sequence
      [.field .stop (expressionIn .inner),
       optional (.sequence [sign ":", .field .capacity (expressionIn .inner)])]),
     sign "]"]

/-- An element, or a slice with a first index. -/
def indexing (line : Bool) : Extension Rule :=
  .mk (.sequence [onRow line (sign "["), .field .index (expressionIn .inner)])
    [.mk .indexExpression none (some .operand) (sign "]"),
     .mk .sliceExpression none (some .operand) (.sequence [sign ":", sliceRest])]

/-- A slice from the start. -/
def slicing (line : Bool) : Extension Rule :=
  .mk (.sequence [onRow line (sign "["), sign ":"])
    [.mk .sliceExpression none (some .operand) sliceRest]

/-- A generic value or type applied to types. -/
def instantiating (line : Bool) : Extension Rule :=
  .mk (onRow line (sign "["))
    [.mk .typeInstantiationExpression none (some .type)
      (.sequence [separated (typeAt false) (sign ","), optional (sign ","), sign "]"])]

/-- An operand and all that follows it. -/
def primary (c : Context) : Part :=
  .grow .often (.rule (.operand c))
    [selection c, indexing c.line, slicing c.line, genericCall c.line, instantiating c.line,
     call c.line]

/-! ## Operations -/

def unaryOperators : List String := ["+", "-", "!", "^", "*", "&", "<-"]

def unary (c : Context) : Part :=
  .choice
    [nodeOf .unaryExpression
      [.field .operator (.choice (unaryOperators.map sign)), .field .operand (.rule (.unary c.operand))],
     primary c]

/-- The operators of each level, from the weakest to the strongest. A sign that begins a longer one is
left to it; the signs of statements count only where an expression leads one. -/
def binaryOperators (leads : Bool) : Nat → List Part
  | 1 => [sign "||"]
  | 2 => [sign "&&"]
  | 3 =>
    [sign "==", sign "!=", sign "<=", sign ">=",
     signUnless "<" (["<<", "<="] ++ if leads then ["<-"] else []), signUnless ">" [">>", ">="]]
  | 4 =>
    [signUnless "+" ("+=" :: if leads then ["++"] else []),
     signUnless "-" ("-=" :: if leads then ["--"] else []), signUnless "|" ["||", "|="],
     signUnless "^" ["^="]]
  | _ =>
    [signUnless "*" ["*="], signUnless "/" ["/="], signUnless "%" ["%="],
     signUnless "<<" ["<<="], signUnless ">>" [">>="], signUnless "&^" ["&^="],
     signUnless "&" ["&&", "&=", "&^"]]

/-- Number of levels of binary operators. -/
def strongestLevel : Nat := 5

/-- Operands of the operators of one level. -/
def binaryOperand (level : Nat) (c : Context) : Part :=
  if level < strongestLevel then .rule (.binary (level + 1) c) else .rule (.unary c)

/-- Operations of one level, grouped to the left. -/
def binary (level : Nat) (c : Context) : Part :=
  .grow .often (binaryOperand level c)
    [.mk (onRow c.line (.field .operator (.choice (binaryOperators c.leads level))))
      [.mk .binaryExpression none (some .left) (.field .right (binaryOperand level c.operand))]]

end GoOutline.Grammar
