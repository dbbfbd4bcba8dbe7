import ServiceLang.Lowering.Outcome
import ServiceLang.Semantic.Literal
import ServiceLang.Semantic.Tree

/-!
# Lowering of expressions

An expression node is lowered from its parts: its children, each with its own reading as an
expression and with the reading of its children as a sequence of arguments. Readings are taken up on
demand, so the order in which parts are asked for is the order in which errors are found. Nothing is
assumed of the children: what a node does not ask for is ignored.
-/

namespace ServiceLang.Lowering

open Syntax (Kind Node)
open Semantic
open Outcome

/-- A child together with what it would be as an expression and as a list of arguments. -/
structure Part where
  node : Node
  expression : Unit → Outcome Expression
  arguments : Unit → Outcome (List Expression)

namespace Part

def significant (parts : List Part) : List Part := parts.filter (!·.node.kind.isTrivia)

/-- The significant parts that are not operators. -/
def operands (parts : List Part) : List Part :=
  (significant parts).filter (!·.node.kind == .operator)

end Part

/-- Package and name of a qualified name, cut at its first colon. -/
def splitQualified (qualified : String) : Option (Option String × String) :=
  let text := qualified.toList
  match text.dropWhile (· != ':') with
  | [] => some (none, qualified)
  | _ :: name =>
    let package := text.takeWhile (· != ':')
    if package ≠ [] ∧ name ≠ [] then some (some (String.ofList package), String.ofList name)
    else none

def callOf (n : Node) (parts : List Part) : Outcome Call := do
  expectKind n .functionInvocation
  let qualified ← nameOf n .functionInvocation
  let (package, name) ← orFlaw (splitQualified qualified) n.span (.badQualifiedName qualified)
  let arguments ←
    match parts.find? (·.node.kind == .argumentList) with
    | some list => list.arguments ()
    | none => pure []
  pure ⟨package, name, arguments⟩

/-- The text of the first operator among the children. -/
def operatorOf (n : Node) : Outcome String := do
  let operator ← requiredChild n .operator (.node n.kind)
  pure operator.textOrEmpty

def binaryOf (n : Node) (parts : List Part) : Outcome Expression := do
  let symbol ← operatorOf n
  let op ← orFlaw (BinaryOp.ofSymbol? symbol) n.span (.unknownBinaryOperator symbol)
  match Part.operands parts with
  | [left, right] =>
    let left ← left.expression ()
    let right ← right.expression ()
    pure (.binary op left right n.span)
  | _ => flawed n.span .binaryOperands

def unaryOf (n : Node) (parts : List Part) : Outcome Expression := do
  let symbol ← operatorOf n
  let op ← orFlaw (UnaryOp.ofSymbol? symbol) n.span (.unknownUnaryOperator symbol)
  match Part.operands parts with
  | [operand] =>
    let operand ← operand.expression ()
    pure (.unary op operand n.span)
  | _ => flawed n.span .unaryOperands

/-- The inner expression itself: parentheses leave no trace. -/
def parenthesizedOf (n : Node) (parts : List Part) : Outcome Expression :=
  match Part.operands parts with
  | [inner] => inner.expression ()
  | _ => flawed n.span .parenthesizedOperands

def arrayElementOf (n : Node) (parts : List Part) : Outcome Expression := do
  let name ← nameOf n .arrayElement
  let index ← orFlaw ((Part.significant parts).find? (·.node.kind.isExpression)) n.span
    (.missingIndex name)
  let index ← index.expression ()
  pure (.arrayElement name index n.span)

def expressionOf (n : Node) (parts : List Part) : Outcome Expression :=
  match n.kind with
  | .integerLiteral => return .integer (← literal n Literal.integer?)
  | .floatLiteral => return .float (← literal n Literal.float?)
  | .stringLiteral => return .string (← literal n Literal.string?)
  | .booleanLiteral => return .boolean (← literal n Literal.boolean?)
  | .nullLiteral => pure .null
  | .variableReference => return .variable (← nameOf n .variableReference) n.span
  | .arrayElementReference => arrayElementOf n parts
  | .functionInvocation => return (← callOf n parts).toExpression n.span
  | .binaryExpression => binaryOf n parts
  | .unaryExpression => unaryOf n parts
  | .parenthesizedExpression => parenthesizedOf n parts
  | kind => flawed n.span (.notExpression kind)

mutual

def expression : Node → Outcome Expression
  | ⟨kind, span, children, text⟩ => expressionOf ⟨kind, span, children, text⟩ (partsOf children)

/-- The significant children of a node as expressions, in order. -/
def arguments : Node → Outcome (List Expression)
  | ⟨_, _, children, _⟩ => each (·.expression ()) (Part.significant (partsOf children))

def partsOf : List Node → List Part
  | [] => []
  | c :: cs => ⟨c, fun _ => expression c, fun _ => arguments c⟩ :: partsOf cs

end

def call (n : Node) : Outcome Call := callOf n (partsOf n.children)

/-- The readings that a node is handed for its children are those of the lowering itself. -/
theorem partsOf_eq_map (ns : List Node) :
    partsOf ns = ns.map fun n => ⟨n, fun _ => expression n, fun _ => arguments n⟩ := by
  induction ns with
  | nil => rfl
  | cons n ns ih => rw [partsOf, ih, List.map_cons]

/-- The recursion over trees unfolds to one case distinction on the kind of the node. -/
theorem expression_eq (n : Node) : expression n = expressionOf n (partsOf n.children) := by
  cases n; rw [expression]

/-- The arguments are lowered from left to right, up to the first failure. -/
theorem arguments_eq (n : Node) : arguments n = each expression n.significant := by
  obtain ⟨kind, span, children, text⟩ := n
  rw [arguments, partsOf_eq_map, Part.significant, List.filter_map, each_map]
  rfl

end ServiceLang.Lowering
