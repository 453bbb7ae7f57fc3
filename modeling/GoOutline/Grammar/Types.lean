import GoOutline.Grammar.Rule

/-!
# Types

The phrases of type expressions, of parameter and field lists and of interfaces.
-/
namespace GoOutline.Grammar

/-! ## Named types -/

/-- A type name of another package. -/
def qualifiedType (line : Bool) (except : List String) : Part :=
  nodeOf .qualifiedType
    [.field .package (name .packageIdentifier except), onRow line (sign "."),
     .field .name (name .typeIdentifier [])]

/-- A type name, perhaps of another package. -/
def typeName (line : Bool) (except : List String) : Part :=
  .choice [qualifiedType line except, name .typeIdentifier except]

/-- A type name with type arguments. -/
def genericType (line : Bool) (except : List String) : Part :=
  nodeOf .genericType
    [.field .type (typeName line except),
     onRow line (.field .typeArguments (.rule .typeArguments))]

/-- Type arguments behind a type. -/
def generic (line : Bool) : Extension Rule :=
  .mk nothing
    [.mk .genericType none (some .type)
      (onRow line (.field .typeArguments (.rule .typeArguments)))]

/-- A type name, perhaps with type arguments. -/
def namedType (line : Bool) (except : List String) : Part :=
  .grow .maybe (typeName line except) [generic line]

/-- All types that share the form of a type. -/
def approximation (line : Bool) : Part := nodeOf .negatedType [sign "~", typeAt line]

def typeArguments : Part :=
  nodeOf .typeArguments
    [sign "[", separated (.rule (.typeElem false)) (sign ","), optional (sign ","), sign "]"]

/-- Alternatives of a type set. -/
def typeAlternatives (line : Bool) : Part :=
  separated (typeAt line) (onRow line (sign "|"))

/-! ## Parameters -/

/-- A declaration of type parameters: names, the first of them none of the given words, and what they
stand for. -/
def typeParameter (except : List String) : Part :=
  nodeOf .typeParameterDeclaration
    [.field .name (name .identifier except),
     .many (.sequence [sign ",", .field .name (name .identifier [])]),
     .field .type (.node .typeConstraint (typeAlternatives false))]

def typeParameters (except : List String) : Part :=
  nodeOf .typeParameterList
    [sign "[", typeParameter except, .many (.sequence [sign ",", typeParameter []]),
     optional (sign ","), sign "]"]

/-- A parameter for any number of arguments. -/
def variadicParameter : Part :=
  nodeOf .variadicParameterDeclaration
    [optional (.field .name (name .identifier typeWords)), sign "...", .field .type (typeAt false)]

/-- Greatest number of names that share one type. -/
def namesLimit : Nat := 9

/-- Names that share one type. Behind the first name every word can be a name. -/
def namedParameters : Part :=
  nodeOf .parameterDeclaration
    [.field .name (name .identifier typeWords),
     upTo (namesLimit - 1) (.sequence [sign ",", .field .name (name .identifier [])]),
     .field .type (typeAt false)]

/-- A bracket that opens with a word of a value, so that it holds the length of an array. -/
def valueBracket : Part := .sequence [sign "[", .choice (predeclaredWords.map keyword)]

/-- A type alone. A bracket behind a name might also open the length of an array, so the words that
begin a value are kept for one there. -/
def unnamedParameter : Part :=
  nodeOf .parameterDeclaration
    [.unless (.sequence [name .typeIdentifier typeWords, valueBracket]), .field .type (typeAt false)]

/-- Bare type names up to a type that begins with a word. -/
def typesUpToWord : Part :=
  .sequence
    [upTo (namesLimit - 1)
      (.sequence
        [nodeOf .parameterDeclaration [.field .type (name .typeIdentifier typeWords)], sign ","]),
     .ahead (.choice (typeWords.map keyword)), unnamedParameter]

/-- Reads nothing, and only where a parameter ends. -/
def parameterEnd : Part := .ahead (.choice [sign ",", sign ")"])

/-- One or more parameters. Names come before a type; what no type follows is a type itself. A word
that begins types may be the last of the names or the start of a type, whichever reading is heavier. -/
def parameterGroup : Part :=
  .choice
    [variadicParameter,
     .heavier (.sequence [namedParameters, parameterEnd]) (.sequence [typesUpToWord, parameterEnd]),
     unnamedParameter]

/-- Parameters in parentheses. -/
def parameters : Part :=
  nodeOf .parameterList
    [sign "(", optional (separated parameterGroup (sign ",")), optional (sign ","), sign ")"]

/-! ## Fields and methods -/

def tag : Part := optional (onRow true (.field .tag stringLiteral))

def fieldName : Part := .field .name (name .fieldIdentifier [])

/-- The type of a field that has no other name, read like a type alone among parameters. -/
def embeddedType : Part :=
  .choice
    [.grow .maybe (typeName true [])
      [.mk nothing
        [.mk .genericType none (some .type)
          (onRow true (.sequence
            [.unless valueBracket, .field .typeArguments (.rule .typeArguments)]))]],
     .grow .once (approximation true) [generic true]]

/-- A field known by its type alone, after which the field has to end. -/
def embeddedField : Part :=
  nodeOf .fieldDeclaration
    [optional (sign "*"), .field .type embeddedType, tag,
     .ahead (.choice [terminator, closeBrace])]

/-- Fields of one type. The type of a single field stands on its row, since the name alone would be
a field too. -/
def namedFields : Part :=
  nodeOf .fieldDeclaration
    [.choice
      [.sequence [fieldName, onRow true (sign ","), separated fieldName (sign ","),
        .field .type (typeAt true)],
       .sequence [fieldName, onRow true (.field .type (typeAt true))]],
     tag]

def fieldList : Part :=
  nodeOf .fieldDeclarationList
    [openBrace, optional (terminated (.choice [embeddedField, namedFields])), closeBrace]

/-- A method of an interface. -/
def methodElem : Part :=
  nodeOf .methodElem
    [.field .name (name .fieldIdentifier typeWords),
     onRow true (.field .parameters parameterList), optional (onRow true (result true))]

def interfaceType : Part :=
  nodeOf .interfaceType
    [keyword "interface", openBrace,
     optional (terminated (.choice [methodElem, .rule (.typeElem true)])), closeBrace]

/-! ## All types -/

def structType : Part := nodeOf .structType [keyword "struct", .rule .fieldList]

def mapType (line : Bool) : Part :=
  nodeOf .mapType
    [keyword "map", sign "[", .field .key (typeAt false), sign "]", .field .value (typeAt line)]

/-- A channel for receiving, up to the type of its values. -/
def receivingChannel : Part := .sequence [sign "<-", keyword "chan"]

/-- A channel of values for sending, for receiving or for both. Arrows between channels belong to the
channels behind them, if that leaves none over. -/
def channelType (line : Bool) : Part :=
  nodeOf .channelType
    [.choice
      [.sequence
        [keyword "chan",
         optional (.sequence
          [.unless (.sequence [receivingChannel, .many receivingChannel, .unless (sign "<-")]),
           sign "<-"])],
       receivingChannel],
     .field .value (typeAt line)]

/-- A function. A bracket behind the parameters can only be that of the result. -/
def functionType (line : Bool) : Part :=
  nodeOf .functionType
    [keyword "func", .field .parameters parameterList,
     .choice
      [onClauseRow line (result line),
       .unless (onClauseRow line (.choice [sign "(", sign "["]))]]

def sliceType (line : Bool) : Part :=
  nodeOf .sliceType [sign "[", sign "]", .field .element (typeAt line)]

def arrayType (line : Bool) : Part :=
  nodeOf .arrayType
    [sign "[", .field .length (expressionIn .inner), sign "]", .field .element (typeAt line)]

/-- An array whose length is counted from its literal. -/
def implicitLengthArrayType : Part :=
  nodeOf .implicitLengthArrayType
    [sign "[", sign "...", sign "]", .field .element (typeAt false)]

/-- Types that stand without parentheses. -/
def simpleType (line : Bool) : Part :=
  .choice
    [structType, interfaceType, mapType line, channelType line, functionType line,
     nodeOf .pointerType [sign "*", typeAt line], sliceType line, arrayType line,
     .grow .maybe (approximation line) [generic line], namedType line typeWords]

/-- All types. -/
def anyType (line : Bool) : Part :=
  .choice
    [nodeOf .parenthesizedType [sign "(", typeAt false, sign ")"], simpleTypeAt line]

end GoOutline.Grammar
