import GoOutline.Grammar.Types

/-!
# Declarations

Package clauses, imports, constants, variables, types, functions and methods.
-/
namespace GoOutline.Grammar

/-! ## Package and imports -/

def packageClause : Part :=
  nodeOf .packageClause [keyword "package", name .packageIdentifier []]

def importSpec : Part :=
  nodeOf .importSpec
    [optional (.field .name (.choice
      [nodeOf .dot [sign "."], nodeOf .blankIdentifier [keyword "_"], name .packageIdentifier []])),
     .field .path stringLiteral]

def importDeclaration : Part :=
  nodeOf .importDeclaration
    [keyword "import", .choice
      [importSpec,
       nodeOf .importSpecList [sign "(", optional (terminated importSpec), sign ")"]]]

/-! ## Constants and variables -/

def declaredName : Part := .field .name (name .identifier [])

/-- The values of a spec. The source may end behind them. -/
def assignedValues : Part :=
  .sequence [sign "=", .closing (.field .value (expressionList .value))]

/-- Constants; a type comes only with values. -/
def constSpec : Part :=
  nodeOf .constSpec
    [separated declaredName (onRow true (sign ",")),
     optional (onClauseRow true
      (.sequence [optional (.field .type (typeAt false)), assignedValues]))]

def constDeclaration : Part :=
  nodeOf .constDeclaration [keyword "const", .choice [constSpec, closedGroup constSpec]]

/-- Variables, with a type or values or both. -/
def varSpec : Part :=
  nodeOf .varSpec
    [separated declaredName (sign ","),
     .choice
      [assignedValues,
       .sequence [.field .type (typeAt true), optional (onRow true assignedValues)]]]

def varDeclaration : Part :=
  nodeOf .varDeclaration
    [keyword "var", .choice [varSpec, .node .varSpecList (closedGroup varSpec)]]

/-! ## Types -/

def declaredType : Part := .field .name (name .typeIdentifier [])

/-- A type with a name. -/
def plainTypeSpec : Part := nodeOf .typeSpec [declaredType, .field .type (typeAt true)]

/-- A type with a name and type parameters, the first of which is no word that begins a value. -/
def genericTypeSpec : Part :=
  nodeOf .typeSpec
    [declaredType, .field .typeParameters (.rule (.typeParameters valueWords)),
     .field .type (typeAt true)]

/-- A named type or an alias. A bracket behind the name opens the length of an array or type parameters,
whichever reading is heavier. Of equally heavy ones, a group prefers the array. -/
def typeSpec (grouped : Bool) : Part :=
  .choice
    [nodeOf .typeAlias [declaredType, sign "=", .field .type (typeAt true)],
     if grouped then .heavier genericTypeSpec plainTypeSpec
     else .heavier plainTypeSpec genericTypeSpec]

def typeDeclaration : Part :=
  nodeOf .typeDeclaration [keyword "type", .choice [typeSpec false, closedGroup (typeSpec true)]]

/-! ## Functions -/

/-- Parameters, result and body. -/
def functionRest : Part :=
  .sequence
    [.field .parameters parameterList, optional (onRow true (result true)),
     optional (onRow true (.field .body blockPart))]

def functionDeclaration : Part :=
  nodeOf .functionDeclaration
    [keyword "func", .field .name (name .identifier []),
     optional (.field .typeParameters (.rule (.typeParameters []))), functionRest]

def methodDeclaration : Part :=
  nodeOf .methodDeclaration
    [keyword "func", .field .receiver parameterList,
     .field .name (name .fieldIdentifier typeWords), functionRest]

/-- Declarations found only at the top level. -/
def topLevelDeclaration : Part :=
  .choice [packageClause, importDeclaration, functionDeclaration, methodDeclaration]

/-- Declarations that are statements too. -/
def declaration : Part :=
  .choice [constDeclaration, typeDeclaration, varDeclaration]

/-- A whole file: declarations and statements, each with its terminator. The last declaration of the
top level may stand without one. -/
def sourceFile : Part :=
  .sequence
    [.many (.sequence
      [.choice [topLevelDeclaration, .sequence [noneOf topLevelWords, .rule (.statement false)]],
       terminator]),
     optional topLevelDeclaration]

end GoOutline.Grammar
