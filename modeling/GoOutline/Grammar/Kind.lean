/-!
# Kinds of syntax nodes

Every node of a syntax tree of a Go file has a kind: one of the phrases of the grammar, an
identifier in one of its roles, a literal, a comment, or a bare token (punctuation or a keyword).
Bare tokens are the only nodes without a name of their own.
-/
namespace GoOutline

/-- The kind of a syntax node. -/
inductive Kind where
  | sourceFile | packageClause | importDeclaration | importSpec | importSpecList | dot
  | blankIdentifier | constDeclaration | constSpec | varDeclaration | varSpec | varSpecList
  | functionDeclaration | methodDeclaration | typeParameterList | typeParameterDeclaration
  | typeConstraint | parameterList | parameterDeclaration | variadicParameterDeclaration
  | typeAlias | typeDeclaration | typeSpec | expressionList | parenthesizedType | genericType
  | typeArguments | pointerType | arrayType | implicitLengthArrayType | sliceType | structType
  | negatedType | fieldDeclarationList | fieldDeclaration | interfaceType | methodElem
  | typeElem | mapType | channelType | functionType | qualifiedType | block | emptyStatement
  | expressionStatement | sendStatement | receiveStatement | incStatement | decStatement
  | assignmentStatement | shortVarDeclaration | labeledStatement | fallthroughStatement
  | breakStatement | continueStatement | gotoStatement | returnStatement | goStatement
  | deferStatement | ifStatement | forStatement | forClause | rangeClause
  | expressionSwitchStatement | expressionCase | defaultCase | typeSwitchStatement | typeCase
  | selectStatement | communicationCase | unaryExpression | binaryExpression
  | selectorExpression | indexExpression | sliceExpression | callExpression
  | typeAssertionExpression | typeConversionExpression | typeInstantiationExpression
  | compositeLiteral | funcLiteral | literalValue | literalElement | keyedElement
  | argumentList | variadicArgument | parenthesizedExpression | identifier | typeIdentifier
  | fieldIdentifier | packageIdentifier | labelName | rawStringLiteral
  | interpretedStringLiteral | intLiteral | floatLiteral | imaginaryLiteral | runeLiteral
  | nilLiteral | trueLiteral | falseLiteral | iotaLiteral | comment
  | token (text : String)
deriving DecidableEq, Repr

namespace Kind

/-- The name of a kind; that of a bare token is its text. -/
def name : Kind → String
  | .sourceFile => "source_file"
  | .packageClause => "package_clause"
  | .importDeclaration => "import_declaration"
  | .importSpec => "import_spec"
  | .importSpecList => "import_spec_list"
  | .dot => "dot"
  | .blankIdentifier => "blank_identifier"
  | .constDeclaration => "const_declaration"
  | .constSpec => "const_spec"
  | .varDeclaration => "var_declaration"
  | .varSpec => "var_spec"
  | .varSpecList => "var_spec_list"
  | .functionDeclaration => "function_declaration"
  | .methodDeclaration => "method_declaration"
  | .typeParameterList => "type_parameter_list"
  | .typeParameterDeclaration => "type_parameter_declaration"
  | .typeConstraint => "type_constraint"
  | .parameterList => "parameter_list"
  | .parameterDeclaration => "parameter_declaration"
  | .variadicParameterDeclaration => "variadic_parameter_declaration"
  | .typeAlias => "type_alias"
  | .typeDeclaration => "type_declaration"
  | .typeSpec => "type_spec"
  | .expressionList => "expression_list"
  | .parenthesizedType => "parenthesized_type"
  | .genericType => "generic_type"
  | .typeArguments => "type_arguments"
  | .pointerType => "pointer_type"
  | .arrayType => "array_type"
  | .implicitLengthArrayType => "implicit_length_array_type"
  | .sliceType => "slice_type"
  | .structType => "struct_type"
  | .negatedType => "negated_type"
  | .fieldDeclarationList => "field_declaration_list"
  | .fieldDeclaration => "field_declaration"
  | .interfaceType => "interface_type"
  | .methodElem => "method_elem"
  | .typeElem => "type_elem"
  | .mapType => "map_type"
  | .channelType => "channel_type"
  | .functionType => "function_type"
  | .qualifiedType => "qualified_type"
  | .block => "block"
  | .emptyStatement => "empty_statement"
  | .expressionStatement => "expression_statement"
  | .sendStatement => "send_statement"
  | .receiveStatement => "receive_statement"
  | .incStatement => "inc_statement"
  | .decStatement => "dec_statement"
  | .assignmentStatement => "assignment_statement"
  | .shortVarDeclaration => "short_var_declaration"
  | .labeledStatement => "labeled_statement"
  | .fallthroughStatement => "fallthrough_statement"
  | .breakStatement => "break_statement"
  | .continueStatement => "continue_statement"
  | .gotoStatement => "goto_statement"
  | .returnStatement => "return_statement"
  | .goStatement => "go_statement"
  | .deferStatement => "defer_statement"
  | .ifStatement => "if_statement"
  | .forStatement => "for_statement"
  | .forClause => "for_clause"
  | .rangeClause => "range_clause"
  | .expressionSwitchStatement => "expression_switch_statement"
  | .expressionCase => "expression_case"
  | .defaultCase => "default_case"
  | .typeSwitchStatement => "type_switch_statement"
  | .typeCase => "type_case"
  | .selectStatement => "select_statement"
  | .communicationCase => "communication_case"
  | .unaryExpression => "unary_expression"
  | .binaryExpression => "binary_expression"
  | .selectorExpression => "selector_expression"
  | .indexExpression => "index_expression"
  | .sliceExpression => "slice_expression"
  | .callExpression => "call_expression"
  | .typeAssertionExpression => "type_assertion_expression"
  | .typeConversionExpression => "type_conversion_expression"
  | .typeInstantiationExpression => "type_instantiation_expression"
  | .compositeLiteral => "composite_literal"
  | .funcLiteral => "func_literal"
  | .literalValue => "literal_value"
  | .literalElement => "literal_element"
  | .keyedElement => "keyed_element"
  | .argumentList => "argument_list"
  | .variadicArgument => "variadic_argument"
  | .parenthesizedExpression => "parenthesized_expression"
  | .identifier => "identifier"
  | .typeIdentifier => "type_identifier"
  | .fieldIdentifier => "field_identifier"
  | .packageIdentifier => "package_identifier"
  | .labelName => "label_name"
  | .rawStringLiteral => "raw_string_literal"
  | .interpretedStringLiteral => "interpreted_string_literal"
  | .intLiteral => "int_literal"
  | .floatLiteral => "float_literal"
  | .imaginaryLiteral => "imaginary_literal"
  | .runeLiteral => "rune_literal"
  | .nilLiteral => "nil"
  | .trueLiteral => "true"
  | .falseLiteral => "false"
  | .iotaLiteral => "iota"
  | .comment => "comment"
  | .token text => text

/-- Every kind but the bare tokens is named. -/
def isNamed : Kind → Bool
  | .token _ => false
  | _ => true

/-- The kind holds the specs of a parenthesized declaration. -/
def isSpecList : Kind → Bool
  | .importSpecList | .varSpecList => true
  | _ => false

end Kind

/-- The role that a child plays in its parent. -/
inductive Field where
  | name | path | alias | package | type | typeParameters | typeArguments | parameters | result
  | receiver | body | tag | element | length | key | value | operator | operand | left | right
  | field | function | arguments | index | start | stop | capacity | label | initializer
  | condition | consequence | alternative | update | channel | communication
deriving DecidableEq, Repr

end GoOutline
