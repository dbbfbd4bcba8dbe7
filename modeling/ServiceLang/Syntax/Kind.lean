/-!
# Kinds of syntax node

The closed list of node kinds. A kind has two spellings: the `name` under which it is stored, in
lower case with underscores, and the `label` under which messages and log entries mention it. The
classes at the end overlap nowhere except that every literal kind is also an expression kind.
-/

namespace ServiceLang.Syntax

inductive Kind where
  | compilationUnit
  | serviceDefinition
  | resourceDefinition
  | annotation
  | annotationAttribute
  | functionBody
  | variableDeclaration
  | typeName
  | statement
  | assignmentStatement
  | returnStatement
  | replyStatement
  | functionInvocationStatement
  | ifElseStatement
  | whileStatement
  | block
  | binaryExpression
  | unaryExpression
  | parenthesizedExpression
  | functionInvocation
  | argumentList
  | variableReference
  | arrayElementReference
  | identifier
  | operator
  | integerLiteral
  | floatLiteral
  | stringLiteral
  | booleanLiteral
  | nullLiteral
  | semicolon
  | comment
  | error
  deriving DecidableEq, Inhabited

namespace Kind

/-- All kinds, in the order in which they are listed when a name is not one of them. -/
def all : List Kind :=
  [.compilationUnit, .serviceDefinition, .resourceDefinition, Kind.annotation, .annotationAttribute,
   .functionBody, .variableDeclaration, .typeName, .statement, .assignmentStatement,
   .returnStatement, .replyStatement, .functionInvocationStatement, .ifElseStatement,
   .whileStatement, .block, .binaryExpression, .unaryExpression, .parenthesizedExpression,
   .functionInvocation, .argumentList, .variableReference, .arrayElementReference, .identifier,
   .operator, .integerLiteral, .floatLiteral, .stringLiteral, .booleanLiteral, .nullLiteral,
   .semicolon, .comment, .error]

def label : Kind → String
  | .compilationUnit => "CompilationUnit"
  | .serviceDefinition => "ServiceDefinition"
  | .resourceDefinition => "ResourceDefinition"
  | Kind.annotation => "Annotation"
  | .annotationAttribute => "AnnotationAttribute"
  | .functionBody => "FunctionBody"
  | .variableDeclaration => "VariableDeclaration"
  | .typeName => "TypeName"
  | .statement => "Statement"
  | .assignmentStatement => "AssignmentStatement"
  | .returnStatement => "ReturnStatement"
  | .replyStatement => "ReplyStatement"
  | .functionInvocationStatement => "FunctionInvocationStatement"
  | .ifElseStatement => "IfElseStatement"
  | .whileStatement => "WhileStatement"
  | .block => "Block"
  | .binaryExpression => "BinaryExpression"
  | .unaryExpression => "UnaryExpression"
  | .parenthesizedExpression => "ParenthesizedExpression"
  | .functionInvocation => "FunctionInvocation"
  | .argumentList => "ArgumentList"
  | .variableReference => "VariableReference"
  | .arrayElementReference => "ArrayElementReference"
  | .identifier => "Identifier"
  | .operator => "Operator"
  | .integerLiteral => "IntegerLiteral"
  | .floatLiteral => "FloatLiteral"
  | .stringLiteral => "StringLiteral"
  | .booleanLiteral => "BooleanLiteral"
  | .nullLiteral => "NullLiteral"
  | .semicolon => "Semicolon"
  | .comment => "Comment"
  | .error => "Error"

def name : Kind → String
  | .compilationUnit => "compilation_unit"
  | .serviceDefinition => "service_definition"
  | .resourceDefinition => "resource_definition"
  | Kind.annotation => "annotation"
  | .annotationAttribute => "annotation_attribute"
  | .functionBody => "function_body"
  | .variableDeclaration => "variable_declaration"
  | .typeName => "type_name"
  | .statement => "statement"
  | .assignmentStatement => "assignment_statement"
  | .returnStatement => "return_statement"
  | .replyStatement => "reply_statement"
  | .functionInvocationStatement => "function_invocation_statement"
  | .ifElseStatement => "if_else_statement"
  | .whileStatement => "while_statement"
  | .block => "block"
  | .binaryExpression => "binary_expression"
  | .unaryExpression => "unary_expression"
  | .parenthesizedExpression => "parenthesized_expression"
  | .functionInvocation => "function_invocation"
  | .argumentList => "argument_list"
  | .variableReference => "variable_reference"
  | .arrayElementReference => "array_element_reference"
  | .identifier => "identifier"
  | .operator => "operator"
  | .integerLiteral => "integer_literal"
  | .floatLiteral => "float_literal"
  | .stringLiteral => "string_literal"
  | .booleanLiteral => "boolean_literal"
  | .nullLiteral => "null_literal"
  | .semicolon => "semicolon"
  | .comment => "comment"
  | .error => "error"

def ofName? (s : String) : Option Kind := all.find? (·.name == s)

def isStatement : Kind → Bool
  | .assignmentStatement | .returnStatement | .replyStatement | .functionInvocationStatement
  | .ifElseStatement | .whileStatement | .block => true
  | _ => false

def isLiteral : Kind → Bool
  | .integerLiteral | .floatLiteral | .stringLiteral | .booleanLiteral | .nullLiteral => true
  | _ => false

def isExpression : Kind → Bool
  | .binaryExpression | .unaryExpression | .parenthesizedExpression | .functionInvocation
  | .variableReference | .arrayElementReference => true
  | k => k.isLiteral

/-- Kinds that carry no meaning of their own and may stand anywhere. -/
def isTrivia : Kind → Bool
  | .comment | .semicolon => true
  | _ => false

/-- No two kinds share a name. -/
theorem ofName?_name (k : Kind) : ofName? k.name = some k := by cases k <;> decide

end Kind

end ServiceLang.Syntax
