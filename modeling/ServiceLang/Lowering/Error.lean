import ServiceLang.Diagnostic
import ServiceLang.Syntax.Kind

/-!
# Errors of the lowering

A lowering fails for one of three reasons: the tree records syntax errors, a literal text denotes
nothing, or the tree has a shape that no parser should produce. The last reason is a `Flaw`, one
constructor for each way in which a tree can be wrong; its wording stands in `Flaw.message` alone.
-/

namespace ServiceLang.Lowering

open Syntax (Kind)

/-- What a message speaks of. -/
inductive Subject where
  | service
  | resource
  | annotation
  | attribute
  | variableDeclaration
  | variableReference
  | arrayElement
  | functionInvocation
  | invocationStatement
  | ifStatement
  | whileStatement
  | node (kind : Kind)
  deriving DecidableEq

def Subject.text : Subject → String
  | .service => "service"
  | .resource => "resource"
  | Subject.annotation => "annotation"
  | .attribute => "annotation attribute"
  | .variableDeclaration => "variable declaration"
  | .variableReference => "variable reference"
  | .arrayElement => "array element reference"
  | .functionInvocation => "function invocation"
  | .invocationStatement => "invocation statement"
  | .ifStatement => "if statement"
  | .whileStatement => "while statement"
  | .node kind => kind.label

/-- Where a node stands that does not belong there. -/
inductive Place where
  | topLevel
  | service (name : String)
  | resource (name : String)
  | body (name : String)
  | annotation (name : String)
  deriving DecidableEq

def Place.text : Place → String
  | .topLevel => "at top level"
  | .service name => "in service '" ++ name ++ "'"
  | .resource name => "in resource '" ++ name ++ "'"
  | .body name => "in body of resource '" ++ name ++ "'"
  | Place.annotation name => "in annotation '@" ++ name ++ "'"

/-- A way in which the shape of a tree can be wrong. -/
inductive Flaw where
  | wrongKind (expected found : Kind)
  | missing (subject : Subject) (part : Kind)
  | emptyName (subject : Subject)
  | unexpected (kind : Kind) (place : Place)
  | repeated (kind : Kind) (resource : String)
  | lateDeclaration
  | badTypeName (text : String)
  | emptyWrapper
  | crowdedWrapper
  | notStatement (kind : Kind)
  | notExpression (kind : Kind)
  | assignmentOperands
  | notAssignable (kind : Kind)
  | replyOperands
  | missingCondition (subject : Subject)
  | extraCondition (subject : Subject)
  | missingBody
  | extraBody
  | extraLoopBody
  | badQualifiedName (text : String)
  | missingIndex (name : String)
  | unknownBinaryOperator (symbol : String)
  | binaryOperands
  | unknownUnaryOperator (symbol : String)
  | unaryOperands
  | parenthesizedOperands
  deriving DecidableEq

def Flaw.message : Flaw → String
  | .wrongKind expected found => "expected " ++ expected.label ++ ", found " ++ found.label
  | .missing subject part => subject.text ++ " missing " ++ part.label
  | .emptyName subject => subject.text ++ " has an empty name"
  | .unexpected kind place => "unexpected " ++ kind.label ++ " " ++ place.text
  | .repeated kind resource => "resource '" ++ resource ++ "' has a second " ++ kind.label
  | .lateDeclaration => "variable declaration after the first statement"
  | .badTypeName text => "invalid type name '" ++ text ++ "'"
  | .emptyWrapper => "empty statement wrapper"
  | .crowdedWrapper => "statement wrapper holds more than one statement"
  | .notStatement kind => kind.label ++ " is not a statement"
  | .notExpression kind => kind.label ++ " is not an expression"
  | .assignmentOperands => "assignment needs a target and a value"
  | .notAssignable kind => "cannot assign to " ++ kind.label
  | .replyOperands => "reply needs exactly one value"
  | .missingCondition subject => subject.text ++ " missing condition"
  | .extraCondition subject => subject.text ++ " has more than one condition"
  | .missingBody => "if statement missing body"
  | .extraBody => "if statement has more than two bodies"
  | .extraLoopBody => "while statement has more than one body"
  | .badQualifiedName text => "invalid qualified name '" ++ text ++ "'"
  | .missingIndex name => "index missing for '" ++ name ++ "'"
  | .unknownBinaryOperator symbol => "unknown binary operator '" ++ symbol ++ "'"
  | .binaryOperands => "binary expression needs two operands"
  | .unknownUnaryOperator symbol => "unknown unary operator '" ++ symbol ++ "'"
  | .unaryOperands => "unary expression needs one operand"
  | .parenthesizedOperands => "parenthesized expression needs exactly one operand"

inductive Error where
  | syntaxErrors (diagnostics : List Diagnostic)
  | malformed (flaw : Flaw) (span : Span)
  | invalidLiteral (kind : Kind) (text : String) (span : Span)
  deriving DecidableEq

def Error.message : Error → String
  | .syntaxErrors diagnostics =>
    "syntax errors in source (" ++ toString diagnostics.length ++ " found)"
  | .malformed flaw span => "malformed syntax tree at " ++ span.text ++ ": " ++ flaw.message
  | .invalidLiteral kind text span =>
    "invalid " ++ kind.label ++ " '" ++ text ++ "' at " ++ span.text

end ServiceLang.Lowering
