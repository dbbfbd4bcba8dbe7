import ServiceLang.Proofs.Lowering.Printing.Expression

/-!
# Printing statements

Every statement is printed into a wrapper of its own, and every body into a block.
-/

namespace ServiceLang

open Syntax (Kind Node)

namespace Semantic

noncomputable section

mutual

def Statement.print : Statement → Node
  | .assignment target value span =>
    .branch .assignmentStatement span [target.print, value.print]
  | .return values span => .branch .returnStatement span (values.map Expression.print)
  | .reply value span => .branch .replyStatement span [value.print]
  | .invocation call span => .branch .functionInvocationStatement span [call.print .zero]
  | .ifElse condition thenBody elseBody span =>
    .branch .ifElseStatement span
      (condition.print :: .branch .block .zero (Statement.printAll thenBody) ::
        Statement.printElse elseBody)
  | .while condition body span =>
    .branch .whileStatement span
      [condition.print, .branch .block .zero (Statement.printAll body)]
  | .block statements span => .branch .block span (Statement.printAll statements)

def Statement.printAll : List Statement → List Node
  | [] => []
  | s :: ss => .branch .statement .zero [s.print] :: Statement.printAll ss

def Statement.printElse : Option (List Statement) → List Node
  | none => []
  | some ss => [.branch .block .zero (Statement.printAll ss)]

end

def Statement.wrap (s : Statement) : Node := .branch .statement .zero [s.print]

end

theorem Statement.printAll_eq_map (ss : List Statement) :
    Statement.printAll ss = ss.map Statement.wrap := by
  induction ss with
  | nil => rfl
  | cons s ss ih => rw [Statement.printAll, ih, List.map_cons, Statement.wrap]

end Semantic

namespace Lowering

open Semantic
open Outcome

abbrev PrintedStatement (s : Statement) : Prop := Prints s.print (concreteStatement s.print) s

/-- No statement is printed as trivia, so none is overlooked when it is read. -/
theorem visible_statement (s : Statement) : s.print.kind.isTrivia = false := by
  cases s <;> rfl

/-- A wrapper around a printed statement is read as the statement. -/
theorem wrap_print {s : Statement} (printed : PrintedStatement s) :
    Prints s.wrap (statement s.wrap) s := by
  have split : s.wrap.significant = [s.print] := by
    apply Node.significant_branch
    exact List.forall_mem_singleton.mpr (visible_statement s)
  have kind : s.wrap.kind = .statement := rfl
  constructor
  · rw [statement_eq_concrete, expectKind_bind, if_pos kind, split]
    exact printed.lowered
  · apply Node.errorNodes_branch _ (by decide)
    exact List.forall_mem_singleton.mpr printed.clean

/-- A block of printed statements is read as the list of them. -/
theorem block_print {ss : List Statement} (all : ∀ s ∈ ss, PrintedStatement s) (span : Span) :
    Prints (.branch .block span (Statement.printAll ss))
      (block (.branch .block span (Statement.printAll ss))) ss := by
  rw [Statement.printAll_eq_map]
  have split : (Node.branch .block span (ss.map Statement.wrap)).significant =
      ss.map Statement.wrap := by
    apply Node.significant_branch
    exact List.forall_mem_map.mpr fun _ _ => rfl
  have kind : (Node.branch .block span (ss.map Statement.wrap)).kind = .block := rfl
  constructor
  · rw [block_eq_each, expectKind_bind, if_pos kind, split]
    exact ok_each fun s listed => (wrap_print (all s listed)).lowered
  · apply Node.errorNodes_branch _ (by decide)
    exact List.forall_mem_map.mpr fun s listed => (wrap_print (all s listed)).clean

/-- The sign is left out between target and value, as it may be. -/
theorem printed_assignment {target value : Expression} (isTarget : target.IsTarget)
    (printedTarget : Printed target) (printedValue : Printed value) (span : Span) :
    PrintedStatement (.assignment target value span) := by
  have kind : target.print.kind = .variableReference ∨
      target.print.kind = .arrayElementReference := by
    cases target with
    | «variable» => exact Or.inl rfl
    | arrayElement => exact Or.inr rfl
    | _ => cases isTarget
  have split : (Statement.assignment target value span).print.significant =
      [target.print, value.print] := by
    apply Node.significant_branch
    exact List.forall_mem_cons.mpr ⟨visible_print target,
      List.forall_mem_singleton.mpr (visible_print value)⟩
  have operands := operandsOf_of_expressions split
    (List.forall_mem_cons.mpr ⟨isExpression_print target,
      List.forall_mem_singleton.mpr (isExpression_print value)⟩)
  constructor
  · rw [concreteStatement_eq]
    refine ok_bind (a := ()) rfl ?_
    change (assignmentOf _).result = _
    rw [assignmentOf, operands]
    simp only
    rw [if_pos kind]
    exact ok_bind printedTarget.lowered (ok_bind printedValue.lowered rfl)
  · apply Node.errorNodes_branch _ (by decide)
    exact List.forall_mem_cons.mpr ⟨printedTarget.clean,
      List.forall_mem_singleton.mpr printedValue.clean⟩

theorem printed_return {values : List Expression} (all : ∀ e ∈ values, Printed e) (span : Span) :
    PrintedStatement (.return values span) := by
  have split : (Statement.return values span).print.significant =
      values.map Expression.print := by
    apply Node.significant_branch
    exact List.forall_mem_map.mpr fun e _ => visible_print e
  have operands := operandsOf_of_expressions split
    (List.forall_mem_map.mpr fun e _ => isExpression_print e)
  constructor
  · rw [concreteStatement_eq]
    refine ok_bind (a := ()) rfl ?_
    change (returnOf _).result = _
    rw [returnOf, operands]
    exact ok_bind (ok_each fun e member => (all e member).lowered) rfl
  · apply Node.errorNodes_branch _ (by decide)
    exact List.forall_mem_map.mpr fun e listed => (all e listed).clean

theorem printed_reply {value : Expression} (printed : Printed value) (span : Span) :
    PrintedStatement (.reply value span) := by
  have split : (Statement.reply value span).print.significant = [value.print] := by
    apply Node.significant_branch
    exact List.forall_mem_singleton.mpr (visible_print value)
  have operands := operandsOf_of_expressions split
    (List.forall_mem_singleton.mpr (isExpression_print value))
  constructor
  · rw [concreteStatement_eq]
    refine ok_bind (a := ()) rfl ?_
    change (replyOf _).result = _
    rw [replyOf, operands]
    exact ok_bind printed.lowered rfl
  · apply Node.errorNodes_branch _ (by decide)
    exact List.forall_mem_singleton.mpr printed.clean

theorem printed_call {c : Call} (callee : ProperCallee c.package c.name)
    (arguments : ∀ e ∈ c.arguments, Printed e) (span : Span) :
    PrintedStatement (.invocation c span) := by
  have printed := call_print callee arguments .zero
  have split : (Statement.invocation c span).print.significant = [c.print .zero] := rfl
  have found : (Statement.invocation c span).print.child? .functionInvocation =
      some (c.print .zero) := child?_of_first rfl split rfl
  constructor
  · rw [concreteStatement_eq]
    refine ok_bind (a := ()) rfl ?_
    change (invocationOf _).result = _
    rw [invocationOf, requiredChild, found]
    exact ok_bind (a := c.print .zero) rfl (ok_bind printed.lowered rfl)
  · apply Node.errorNodes_branch _ (by decide)
    exact List.forall_mem_singleton.mpr printed.clean

/-- The condition is the only expression among the children and the body the only block. -/
theorem printed_while {condition : Expression} {body : List Statement}
    (printed : Printed condition) (all : ∀ s ∈ body, PrintedStatement s) (span : Span) :
    PrintedStatement (.while condition body span) := by
  have printedBody := block_print all .zero
  have split : (Statement.while condition body span).print.significant =
      [condition.print, .branch .block .zero (Statement.printAll body)] := by
    apply Node.significant_branch
    exact List.forall_mem_cons.mpr ⟨visible_print condition, List.forall_mem_singleton.mpr rfl⟩
  have parts := conditionOf_of_split split (isExpression_print condition)
    (List.forall_mem_singleton.mpr rfl)
  constructor
  · rw [concreteStatement_eq]
    refine ok_bind (a := ()) rfl ?_
    change (whileOf _ _).result = _
    rw [whileOf_eq, parts.1, parts.2]
    exact ok_bind printed.lowered (ok_bind printedBody.lowered rfl)
  · apply Node.errorNodes_branch _ (by decide)
    exact List.forall_mem_cons.mpr ⟨printed.clean, List.forall_mem_singleton.mpr printedBody.clean⟩

theorem printed_if {condition : Expression} {thenBody : List Statement}
    (printed : Printed condition) (all : ∀ s ∈ thenBody, PrintedStatement s) (span : Span) :
    PrintedStatement (.ifElse condition thenBody none span) := by
  have printedThen := block_print all .zero
  have split : (Statement.ifElse condition thenBody none span).print.significant =
      [condition.print, .branch .block .zero (Statement.printAll thenBody)] := by
    apply Node.significant_branch
    exact List.forall_mem_cons.mpr ⟨visible_print condition, List.forall_mem_singleton.mpr rfl⟩
  have parts := conditionOf_of_split split (isExpression_print condition)
    (List.forall_mem_singleton.mpr rfl)
  constructor
  · rw [concreteStatement_eq]
    refine ok_bind (a := ()) rfl ?_
    change (ifElseOf _ _).result = _
    rw [ifElseOf_eq, parts.1, parts.2]
    exact ok_bind printed.lowered (ok_bind printedThen.lowered rfl)
  · apply Node.errorNodes_branch _ (by decide)
    exact List.forall_mem_cons.mpr ⟨printed.clean, List.forall_mem_singleton.mpr printedThen.clean⟩

/-- The first block is the then branch and the second the else branch, even when either is empty. -/
theorem printed_ifElse {condition : Expression} {thenBody elseBody : List Statement}
    (printed : Printed condition) (allThen : ∀ s ∈ thenBody, PrintedStatement s)
    (allElse : ∀ s ∈ elseBody, PrintedStatement s) (span : Span) :
    PrintedStatement (.ifElse condition thenBody (some elseBody) span) := by
  have printedThen := block_print allThen .zero
  have printedElse := block_print allElse .zero
  have split : (Statement.ifElse condition thenBody (some elseBody) span).print.significant =
      [condition.print, .branch .block .zero (Statement.printAll thenBody),
        .branch .block .zero (Statement.printAll elseBody)] := by
    apply Node.significant_branch
    exact List.forall_mem_cons.mpr ⟨visible_print condition,
      List.forall_mem_cons.mpr ⟨rfl, List.forall_mem_singleton.mpr rfl⟩⟩
  have parts := conditionOf_of_split split (isExpression_print condition)
    (List.forall_mem_cons.mpr ⟨rfl, List.forall_mem_singleton.mpr rfl⟩)
  constructor
  · rw [concreteStatement_eq]
    refine ok_bind (a := ()) rfl ?_
    change (ifElseOf _ _).result = _
    rw [ifElseOf_eq, parts.1, parts.2]
    exact ok_bind printed.lowered (ok_bind printedThen.lowered (ok_bind printedElse.lowered rfl))
  · apply Node.errorNodes_branch _ (by decide)
    exact List.forall_mem_cons.mpr ⟨printed.clean,
      List.forall_mem_cons.mpr ⟨printedThen.clean, List.forall_mem_singleton.mpr printedElse.clean⟩⟩

theorem printed_block {ss : List Statement} (all : ∀ s ∈ ss, PrintedStatement s) (span : Span) :
    PrintedStatement (.block ss span) := by
  have printed := block_print all span
  constructor
  · rw [concreteStatement_eq]
    refine ok_bind (a := ()) rfl ?_
    change (blockOf _ _ >>= _).result = _
    rw [← block_eq]
    exact ok_bind printed.lowered rfl
  · exact printed.clean

mutual

/-- Every proper statement is read from what it is printed to. The recursion follows the statement,
with one of the lemmas above in each case. -/
theorem printedStatement : ∀ s : Statement, s.Proper → PrintedStatement s
  | .assignment target value span, proper =>
    printed_assignment proper.1 (printed target proper.2.1) (printed value proper.2.2) span
  | .return _ span, proper => printed_return (fun e member => printed e (proper e member)) span
  | .reply value span, proper => printed_reply (printed value proper) span
  | .invocation _ span, proper =>
    printed_call proper.1 (fun e member => printed e (proper.2 e member)) span
  | .ifElse condition thenBody none span, proper =>
    printed_if (printed condition proper.1) (printedStatement_all thenBody proper.2.1) span
  | .ifElse condition thenBody (some elseBody) span, proper =>
    printed_ifElse (printed condition proper.1) (printedStatement_all thenBody proper.2.1)
      (printedStatement_all elseBody proper.2.2) span
  | .while condition body span, proper =>
    printed_while (printed condition proper.1) (printedStatement_all body proper.2) span
  | .block ss span, proper => printed_block (printedStatement_all ss proper) span

theorem printedStatement_all :
    ∀ ss : List Statement, Statement.AllProper ss → ∀ s ∈ ss, PrintedStatement s
  | [], _ => List.forall_mem_nil _
  | s :: ss, proper =>
    List.forall_mem_cons.mpr ⟨printedStatement s proper.1, printedStatement_all ss proper.2⟩

end

end Lowering

end ServiceLang
