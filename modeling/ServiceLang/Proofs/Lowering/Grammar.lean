import ServiceLang.Lowering.Service
import ServiceLang.Proofs.Lowering.QualifiedName
import ServiceLang.Proofs.Syntax.Significant

/-!
# The documented grammar

For every kind of node the sequence of its significant children, with what is asked of the texts of
names, types and operators. Literals may have any text. Comments and separators stand outside the
grammar: they may be anywhere and may hold anything.
-/

namespace ServiceLang.Lowering

open Syntax (Kind Node)
open Semantic

/-- One place in a sequence of nodes, with what may stand there. -/
inductive Item where
  | one (p : Node → Prop)
  | optional (p : Node → Prop)
  | many (p : Node → Prop)

/-- The nodes fill the places from left to right. -/
def Matches : List Item → List Node → Prop
  | [], ns => ns = []
  | .one p :: items, ns => ∃ n rest, ns = n :: rest ∧ p n ∧ Matches items rest
  | .optional p :: items, ns =>
    Matches items ns ∨ ∃ n rest, ns = n :: rest ∧ p n ∧ Matches items rest
  | .many p :: items, ns =>
    ∃ front rest, ns = front ++ rest ∧ (∀ n ∈ front, p n) ∧ Matches items rest

def Is (kind : Kind) (n : Node) : Prop := n.kind = kind

def IsExpression (n : Node) : Prop := n.kind.isExpression = true

def IsStatement (n : Node) : Prop := n.kind.isStatement = true

/-- What may stand on the left of an assignment. -/
def IsTarget (n : Node) : Prop := n.kind = .variableReference ∨ n.kind = .arrayElementReference

def IsName (n : Node) : Prop := n.kind = .identifier ∧ n.textOrEmpty ≠ ""

def IsAnnotationName (n : Node) : Prop := n.kind = .identifier ∧ withoutAt n.textOrEmpty ≠ ""

def IsCallName (n : Node) : Prop := IsName n ∧ Qualified n.textOrEmpty.toList

def IsTypeName (n : Node) : Prop :=
  n.kind = .typeName ∧ ∃ type, TypeRef.parse? n.textOrEmpty = some type

def IsBinaryOp (n : Node) : Prop :=
  n.kind = .operator ∧ ∃ op, BinaryOp.ofSymbol? n.textOrEmpty = some op

def IsUnaryOp (n : Node) : Prop :=
  n.kind = .operator ∧ ∃ op, UnaryOp.ofSymbol? n.textOrEmpty = some op

/-- What may be assigned to may also be read. -/
theorem isExpression_of_isTarget {n : Node} (h : IsTarget n) : IsExpression n := by
  rw [IsExpression]
  rcases h with same | same
  · rw [same]
    rfl
  · rw [same]
    rfl

/-- The significant children that a node of the kind should have. Tokens have none. -/
def shape : Kind → List Item
  | .compilationUnit => [.many (Is .serviceDefinition)]
  | .serviceDefinition => [.many (Is Kind.annotation), .one IsName, .many (Is .resourceDefinition)]
  | .resourceDefinition => [.many (Is Kind.annotation), .one IsName, .one (Is .functionBody)]
  | Kind.annotation =>
    [.one IsAnnotationName, .optional (Is .stringLiteral), .many (Is .annotationAttribute)]
  | .annotationAttribute => [.one IsName, .one (Is .stringLiteral)]
  | .functionBody => [.many (Is .variableDeclaration), .many (Is .statement)]
  | .variableDeclaration => [.one IsTypeName, .one IsName]
  | .statement => [.one IsStatement]
  | .assignmentStatement => [.one IsTarget, .optional (Is .operator), .one IsExpression]
  | .returnStatement => [.many IsExpression]
  | .replyStatement => [.one IsExpression]
  | .functionInvocationStatement => [.one (Is .functionInvocation)]
  | .ifElseStatement => [.one IsExpression, .one (Is .block), .optional (Is .block)]
  | .whileStatement => [.one IsExpression, .one (Is .block)]
  | .block => [.many (Is .statement)]
  | .binaryExpression => [.one IsExpression, .one IsBinaryOp, .one IsExpression]
  | .unaryExpression => [.one IsUnaryOp, .one IsExpression]
  | .parenthesizedExpression => [.one IsExpression]
  | .functionInvocation => [.one IsCallName, .one (Is .argumentList)]
  | .argumentList => [.many IsExpression]
  | .variableReference => [.one IsName]
  | .arrayElementReference => [.one IsName, .one IsExpression]
  | .typeName | .identifier | .operator | .integerLiteral | .floatLiteral | .stringLiteral
  | .booleanLiteral | .nullLiteral | .semicolon | .comment | .error => []

/-- A node is grammatical when the sequence of its significant children has its shape and these are
grammatical in turn. -/
inductive Grammatical : Node → Prop where
  | node (n : Node) (sequence : Matches (shape n.kind) n.significant)
      (below : ∀ c ∈ n.significant, Grammatical c) : Grammatical n

/-- Literals whose text is read; the remaining one is known by its kind. -/
def isRead (k : Kind) : Bool := k.isLiteral && k != .nullLiteral

mutual

/-- The literals that are read, in source order and outside comments and separators. -/
def literals : Node → List Node
  | ⟨kind, span, children, text⟩ =>
    (if isRead kind then [⟨kind, span, children, text⟩] else []) ++ literalsIn children

def literalsIn : List Node → List Node
  | [] => []
  | c :: cs => (if c.kind.isTrivia then [] else literals c) ++ literalsIn cs

end

/-- The text denotes a value of the kind of literal it stands in. -/
def decodes (n : Node) : Bool :=
  match n.kind with
  | .integerLiteral => (Literal.integer? n.textOrEmpty).isSome
  | .floatLiteral => (Literal.float? n.textOrEmpty).isSome
  | .stringLiteral => (Literal.string? n.textOrEmpty).isSome
  | .booleanLiteral => (Literal.boolean? n.textOrEmpty).isSome
  | _ => true

theorem literalsIn_eq_flatMap (ns : List Node) :
    literalsIn ns = (ns.filter (!·.kind.isTrivia)).flatMap literals := by
  induction ns with
  | nil => rfl
  | cons n ns ih =>
    rw [literalsIn, List.filter_cons, ih]
    cases n.kind.isTrivia <;> rfl

/-- The literals of a node are itself, if its text is read, and those of its significant children
behind it. -/
theorem literals_eq (n : Node) :
    literals n = (if isRead n.kind then [n] else []) ++ n.significant.flatMap literals := by
  cases n
  rw [literals, literalsIn_eq_flatMap]
  rfl

/-- A node that is no literal has the literals of its significant children. -/
theorem literals_branch {n : Node} (other : isRead n.kind = false) :
    literals n = n.significant.flatMap literals := by
  rw [literals_eq, other]
  rfl

namespace Grammatical

theorem sequence {n : Node} (g : Grammatical n) : Matches (shape n.kind) n.significant := by
  cases g with
  | node _ sequence _ => exact sequence

theorem child {n c : Node} (g : Grammatical n) (member : c ∈ n.significant) : Grammatical c := by
  cases g with
  | node _ _ below => exact below c member

/-- Tokens have no significant children. -/
theorem token {n : Node} (g : Grammatical n) (token : n.kind.isToken = true) :
    n.significant = [] := by
  have sequence := g.sequence
  cases kind : n.kind with
  | identifier | operator | typeName | integerLiteral | floatLiteral | stringLiteral
  | booleanLiteral | nullLiteral =>
    rw [kind] at sequence
    exact sequence
  | _ =>
    rw [kind] at token
    cases token

/-- Names, types and operators hold no literals. -/
theorem literals_word {n : Node} (g : Grammatical n) (word : n.kind.isToken = true)
    (other : isRead n.kind = false) : literals n = [] := by
  rw [literals_branch other, g.token word, List.flatMap_nil]

/-- A literal has no literals below it. -/
theorem literals_read {n : Node} (g : Grammatical n) (read : isRead n.kind = true) :
    literals n = [n] := by
  have token : n.kind.isToken = true := by
    cases kind : n.kind <;> rw [kind] at read <;> first | rfl | cases read
  rw [literals_eq, if_pos read, g.token token]
  rfl

/-- A kind without places is grammatical as a leaf. -/
theorem leaf {kind : Kind} (token : shape kind = []) (span : Span) (text : String) :
    Grammatical (.leaf kind span text) := by
  refine .node _ ?_ (List.forall_mem_nil _)
  change Matches (shape kind) []
  rw [token]
  rfl

end Grammatical

end ServiceLang.Lowering
