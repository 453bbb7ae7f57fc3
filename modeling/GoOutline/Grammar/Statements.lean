import GoOutline.Grammar.Declarations
import GoOutline.Grammar.Expressions

/-!
# Statements

Simple statements, control statements with their clauses, and lists of statements.
-/
namespace GoOutline.Grammar

/-! ## Simple statements -/

def assignmentOperator : Part :=
  .choice
    ((["*=", "/=", "%=", "<<=", ">>=", "&=", "&^=", "+=", "-=", "|=", "^="].map sign) ++
      [signUnless "=" ["=="]])

/-- Values on the right of a statement, the first in a place of its own. The source may end behind
them. -/
def rightSide (first rest : Context) : Part :=
  .closing (.field .right (expressionListFrom first rest))

/-- Sends, increments, assignments, short declarations and bare expressions: where the first
expression stands, and where those on the right do. -/
def simpleStatement (c right : Context) : Part :=
  .grow .once (expressionIn c)
    [.mk nothing
      [.mk .sendStatement none (some .channel)
        (.sequence [onRow c.line (sign "<-"), .closing (.field .value (expressionIn right))]),
       .mk .incStatement none none (onRow c.line (sign "++")),
       .mk .decStatement none none (onRow c.line (sign "--"))],
     .mk (.many (.sequence [onRow c.line (sign ","), expressionIn c.follower]))
      [.mk .shortVarDeclaration (some .expressionList) (some .left)
        (.sequence [onRow c.line (sign ":="), rightSide (right.askedLike c) right]),
       .mk .assignmentStatement (some .expressionList) (some .left)
        (.sequence [onRow c.line (.field .operator assignmentOperator), rightSide right right])],
     .mk nothing [.mk .expressionStatement none none nothing]]

/-! ## Labels and jumps -/

/-- A label with its colon. -/
def label : Part :=
  .sequence [.field .label (name .labelName valueWords), onRow true (signUnless ":" [":="])]

/-- A label that ends a statement list. -/
def emptyLabel (clause : Bool) : Part :=
  nodeOf .labeledStatement
    [noneOf (statementWords ++ if clause then clauseWords else []), label]

def jump (kind : Kind) (word : String) : Part :=
  nodeOf kind [keyword word, optional (onClauseRow true (name .labelName []))]

/-! ## Lists and blocks -/

/-- Statements with terminators between them. -/
def statementList (clause : Bool) : Part :=
  .choice
    [.sequence
      [.rule (.statement clause), .many (.sequence [terminator, .rule (.statement true)]),
       optional (.sequence [terminator, optional (emptyLabel true)])],
     emptyLabel clause]

def block : Part :=
  nodeOf .block [openBrace, optional (statementList false), closeBrace]

/-! ## Conditions and loops -/

def condition (c : Context) : Part := .field .condition (expressionIn c)

/-- A statement at the start of a header, before a semicolon. -/
def initializer (c : Context) : Part :=
  .sequence [.field .initializer (simpleStatement c .inner), sign ";"]

def ifStatement : Part :=
  nodeOf .ifStatement
    [keyword "if",
     .choice
      [.sequence [initializer .headerStart, condition .header], condition .headerStart],
     .field .consequence blockPart,
     optional (onRow true (.sequence
      [keyword "else", .field .alternative (.choice [blockPart, .rule .ifStatement])]))]

/-- The left side of a clause that receives values. -/
def receivers : Part :=
  .sequence
    [.field .left (expressionListFrom .headerStart .inner),
     .choice [signUnless "=" ["=="], sign ":="]]

def rangeClause : Part :=
  nodeOf .rangeClause
    [optional (.sequence [noneOf ["range"], receivers]), keyword "range",
     .field .right (expressionIn .header)]

def forClause : Part :=
  nodeOf .forClause
    [.choice [initializer .headerStart, sign ";"], optional (condition .inner), sign ";",
     optional (.field .update (simpleStatement .headerStart .header))]

def forStatement : Part :=
  nodeOf .forStatement
    [keyword "for",
     optional (.choice
      [rangeClause,
       .sequence [noneOf ["range"], .choice [forClause, expressionIn .headerStart]]]),
     .field .body blockPart]

/-! ## Switches and selections -/

/-- A clause: its head, a colon and its statements. -/
def clause (kind : Kind) (head : Part) : Part :=
  nodeOf kind [head, sign ":", optional (statementList true)]

def defaultCase : Part := clause .defaultCase (keyword "default")

def expressionCase : Part :=
  clause .expressionCase
    (.sequence [keyword "case", .field .value (expressionList .inner)])

def typeCase : Part :=
  clause .typeCase
    (.sequence [keyword "case", separated (.field .type (typeAt false)) (sign ",")])

/-- A value to send, or one to receive. -/
def communicationCase : Part :=
  clause .communicationCase
    (.sequence
      [keyword "case", .field .communication
        (.grow .once (expressionIn .communication)
          [.mk nothing
            [.mk .sendStatement none (some .channel)
              (.sequence [sign "<-", .field .value (expressionIn .inner)])],
           .mk (.many (.sequence [sign ",", expressionIn .inner]))
            [.mk .receiveStatement (some .expressionList) (some .left)
              (.sequence [.choice [signUnless "=" ["=="], sign ":="],
                .field .right (expressionIn .inner)])],
           .mk nothing [.mk .receiveStatement none (some .right) nothing]])])

/-- Clauses in braces. -/
def clauses (first second : Part) : Part :=
  .sequence [openBrace, .many (.choice [first, second]), closeBrace]

/-- What a switch over the type of a value asks for. Operators bind weaker than the question. -/
def typeQuestion (c : Context) : Part :=
  .sequence
    [.choice
      [.sequence
        [.field .alias (expressionListFrom c .inner), sign ":=",
         .field .value (primary (Context.inner.askedLike c))],
       .field .value (primary c)],
     sign ".", sign "(", keyword "type", sign ")"]

/-- The header of a switch: perhaps a statement, and what comes behind it or instead of it. -/
def switchHeader (p : Context → Part) : Part :=
  .choice [.sequence [initializer .subjectStart, p .subject], p .subjectStart]

def typeSwitchStatement : Part :=
  nodeOf .typeSwitchStatement
    [keyword "switch", switchHeader typeQuestion, clauses typeCase defaultCase]

def expressionSwitchStatement : Part :=
  nodeOf .expressionSwitchStatement
    [keyword "switch", switchHeader fun c => optional (.field .value (expressionIn c)),
     clauses expressionCase defaultCase]

def selectStatement : Part :=
  nodeOf .selectStatement [keyword "select", clauses communicationCase defaultCase]

/-! ## All statements -/

/-- Any statement. A word that begins a statement is never an identifier there. -/
def anyStatement (clause : Bool) : Part :=
  .choice
    [declaration,
     nodeOf .returnStatement
      [keyword "return", optional (onClauseRow true (.closing (expressionList .value)))],
     nodeOf .goStatement [keyword "go", .closing (expressionIn .value)],
     nodeOf .deferStatement [keyword "defer", .closing (expressionIn .value)],
     .rule .ifStatement, forStatement, typeSwitchStatement, expressionSwitchStatement,
     selectStatement, nodeOf .fallthroughStatement [keyword "fallthrough"],
     jump .breakStatement "break", jump .continueStatement "continue",
     nodeOf .gotoStatement [keyword "goto", name .labelName []], blockPart,
     nodeOf .emptyStatement [sign ";"],
     .sequence
      [noneOf (statementWords ++ if clause then clauseWords else []),
       .choice
        [nodeOf .labeledStatement [label, .rule (.statement clause)],
         .sequence [.unless label, simpleStatement .statement .value]]]]

/-- The phrase of every rule. -/
def phrase : Rule → Part
  | .sourceFile => sourceFile
  | .type line => anyType line
  | .simpleType line => simpleType line
  | .typeElem line => .node .typeElem (typeAlternatives line)
  | .typeArguments => typeArguments
  | .typeParameters except => typeParameters except
  | .parameters => parameters
  | .fieldList => fieldList
  | .expression c => .rule (.binary 1 c)
  | .binary level c => binary level c
  | .unary c => unary c
  | .operand c => operand c
  | .literalValue => literalValue
  | .block => block
  | .statement clause => anyStatement clause
  | .ifStatement => ifStatement

end GoOutline.Grammar
