import ServiceLang.Lowering.Expression

/-!
# Lowering of statements

Every statement stands in a wrapper node of its own, which is skipped. Which statement it is shows
in the log before its parts are looked at. Conditions and operands are lowered as expressions;
bodies are blocks, which hold wrappers again, so that wrapper, concrete statement and block are
lowered by mutual recursion. In conditional statements and loops, children other than the condition
and the bodies are ignored.
-/

namespace ServiceLang.Lowering

open Syntax (Kind Node)
open Semantic
open Outcome

/-- The significant children that are not operators. -/
def operandsOf (n : Node) : List Node := n.significant.filter (!·.kind == .operator)

def assignmentOf (n : Node) : Outcome Statement :=
  match operandsOf n with
  | [target, value] =>
    if target.kind = .variableReference ∨ target.kind = .arrayElementReference then do
      let target ← expression target
      let value ← expression value
      pure (.assignment target value n.span)
    else flawed target.span (.notAssignable target.kind)
  | _ => flawed n.span .assignmentOperands

def returnOf (n : Node) : Outcome Statement := do
  let values ← each expression (operandsOf n)
  pure (.return values n.span)

def replyOf (n : Node) : Outcome Statement :=
  match operandsOf n with
  | [value] => return .reply (← expression value) n.span
  | _ => flawed n.span .replyOperands

def invocationOf (n : Node) : Outcome Statement := do
  let callee ← requiredChild n .functionInvocation .invocationStatement
  let call ← call callee
  pure (.invocation call n.span)

/-- The only significant child that is an expression. -/
def conditionOf (n : Node) (subject : Subject) : Outcome Expression :=
  match n.significant.filter (·.kind.isExpression) with
  | [] => flawed n.span (.missingCondition subject)
  | [condition] => expression condition
  | _ :: extra :: _ => flawed extra.span (.extraCondition subject)

/-- A child together with what it would be as a wrapper, as a statement and as a block. -/
structure Clause where
  node : Node
  wrapped : Unit → Outcome Statement
  concrete : Unit → Outcome Statement
  block : Unit → Outcome (List Statement)

namespace Clause

def significant (clauses : List Clause) : List Clause := clauses.filter (!·.node.kind.isTrivia)

def blocks (clauses : List Clause) : List Clause := clauses.filter (·.node.kind == .block)

end Clause

def blockOf (n : Node) (clauses : List Clause) : Outcome (List Statement) := do
  expectKind n .block
  each (·.wrapped ()) (Clause.significant clauses)

def ifElseOf (n : Node) (clauses : List Clause) : Outcome Statement := do
  let condition ← conditionOf n .ifStatement
  match Clause.blocks clauses with
  | [] => flawed n.span .missingBody
  | [first] =>
    let thenBody ← first.block ()
    pure (.ifElse condition thenBody none n.span)
  | first :: second :: others =>
    let thenBody ← first.block ()
    let elseBody ← second.block ()
    match others with
    | [] => pure (.ifElse condition thenBody (some elseBody) n.span)
    | extra :: _ => flawed extra.node.span .extraBody

def whileOf (n : Node) (clauses : List Clause) : Outcome Statement := do
  let condition ← conditionOf n .whileStatement
  match Clause.blocks clauses with
  | [] => flawed n.span (.missing .whileStatement .block)
  | first :: others =>
    let body ← first.block ()
    match others with
    | [] => pure (.while condition body n.span)
    | extra :: _ => flawed extra.node.span .extraLoopBody

/-- A statement without its wrapper. -/
def concreteOf (n : Node) (clauses : List Clause) : Outcome Statement := do
  emit (.statement n.kind)
  match n.kind with
  | .assignmentStatement => assignmentOf n
  | .returnStatement => returnOf n
  | .replyStatement => replyOf n
  | .functionInvocationStatement => invocationOf n
  | .ifElseStatement => ifElseOf n clauses
  | .whileStatement => whileOf n clauses
  | .block => return .block (← blockOf n clauses) n.span
  | kind => flawed n.span (.notStatement kind)

def wrappedOf (n : Node) (clauses : List Clause) : Outcome Statement := do
  expectKind n .statement
  match Clause.significant clauses with
  | [] => flawed n.span .emptyWrapper
  | [inner] => inner.concrete ()
  | _ :: extra :: _ => flawed extra.node.span .crowdedWrapper

mutual

/-- The statement in a wrapper. -/
def statement : Node → Outcome Statement
  | ⟨kind, span, children, text⟩ => wrappedOf ⟨kind, span, children, text⟩ (clausesOf children)

def concreteStatement : Node → Outcome Statement
  | ⟨kind, span, children, text⟩ => concreteOf ⟨kind, span, children, text⟩ (clausesOf children)

def block : Node → Outcome (List Statement)
  | ⟨kind, span, children, text⟩ => blockOf ⟨kind, span, children, text⟩ (clausesOf children)

def clausesOf : List Node → List Clause
  | [] => []
  | c :: cs =>
    ⟨c, fun _ => statement c, fun _ => concreteStatement c, fun _ => block c⟩ :: clausesOf cs

end

theorem clausesOf_eq_map (ns : List Node) :
    clausesOf ns = ns.map fun n =>
      ⟨n, fun _ => statement n, fun _ => concreteStatement n, fun _ => block n⟩ := by
  induction ns with
  | nil => rfl
  | cons n ns ih => rw [clausesOf, ih, List.map_cons]

/-- A wrapper is opened once, over its children as clauses. -/
theorem statement_eq (n : Node) : statement n = wrappedOf n (clausesOf n.children) := by
  cases n; rw [statement]

/-- The recursion over trees unfolds to one case distinction on the kind of the statement. -/
theorem concreteStatement_eq (n : Node) :
    concreteStatement n = concreteOf n (clausesOf n.children) := by
  cases n; rw [concreteStatement]

/-- A block is opened once, over its children as clauses. -/
theorem block_eq (n : Node) : block n = blockOf n (clausesOf n.children) := by
  cases n; rw [block]

end ServiceLang.Lowering
