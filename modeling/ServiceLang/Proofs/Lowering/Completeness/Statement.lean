import ServiceLang.Proofs.Lowering.Completeness.Expression

/-!
# Complete lowering of statements

In grammatical statements the condition stands before the bodies and the target before the value,
which is also the order in which they are lowered.
-/

namespace ServiceLang.Lowering

open Syntax (Kind Node)
open Semantic
open Outcome

namespace Grammatical

section

variable {n : Node} (g : Grammatical n)

include g

/-- The sign between target and value is optional. It holds no literal and is no operand, so both
shapes of an assignment are read alike. -/
theorem assignment (kind : n.kind = .assignmentStatement) :
    ReadsLiterals n (assignmentOf n) := by
  obtain ⟨target, rest, split, isTarget, others⟩ := g.shaped kind
  have left := isExpression_of_isTarget isTarget
  have readTarget := (g.child (split ▸ List.mem_cons_self)).expression left
  suffices parts : ∃ value ∈ n.significant, IsExpression value ∧
      operandsOf n = [target, value] ∧ literals n = literals target ++ literals value by
    obtain ⟨value, member, isValue, operands, all⟩ := parts
    have lowered : assignmentOf n = (do
        let target ← Lowering.expression target
        let value ← Lowering.expression value
        pure (.assignment target value n.span)) := by
      rw [assignmentOf, operands]
      exact if_pos isTarget
    rw [ReadsLiterals, all, lowered]
    exact readTarget.bind fun _ _ => ((g.child member).expression isValue).made
  rcases others with ⟨value, _, rfl, isValue, rfl⟩ |
      ⟨operator, _, rfl, isOperator, value, _, rfl, isValue, rfl⟩
  · refine ⟨value, by simp [split], isValue, ?_, ?_⟩
    · exact operandsOf_of_expressions split (by simp [left, isValue])
    · rw [literals_branch (by rw [kind]; rfl), split, List.flatMap_cons, List.flatMap_singleton]
  · have quiet := (g.child (by simp [split])).literals_operator isOperator
    refine ⟨value, by simp [split], isValue, ?_, ?_⟩
    · exact operandsOf_of_split [target] split isOperator (by simp [left, isValue])
    · rw [literals_branch (by rw [kind]; rfl), split, List.flatMap_cons, List.flatMap_cons, quiet,
        List.flatMap_singleton, List.nil_append]

theorem return_ (kind : n.kind = .returnStatement) : ReadsLiterals n (returnOf n) := by
  obtain ⟨values, _, split, all, rfl⟩ := g.shaped kind
  rw [List.append_nil] at split
  have read : Reads (each Lowering.expression values) (values.flatMap literals) fun _ => True :=
    Reads.each fun c member => (g.child (split ▸ member)).expression (all c member)
  rw [ReadsLiterals, literals_branch (by rw [kind]; rfl), returnOf,
    operandsOf_of_expressions split all, split]
  exact read.made

theorem reply (kind : n.kind = .replyStatement) : ReadsLiterals n (replyOf n) := by
  obtain ⟨value, _, split, isValue, rfl⟩ := g.shaped kind
  have read := (g.child (split ▸ List.mem_cons_self)).expression isValue
  have operands : operandsOf n = [value] :=
    operandsOf_of_expressions split (by simp [isValue])
  rw [ReadsLiterals, literals_branch (by rw [kind]; rfl), replyOf, operands, split,
    List.flatMap_singleton]
  exact read.made

/-- A call that stands as a statement has the literals of the call. -/
theorem invocation (kind : n.kind = .functionInvocationStatement) :
    ReadsLiterals n (invocationOf n) := by
  obtain ⟨callee, _, split, isCall, rfl⟩ := g.shaped kind
  have gc := g.child (split ▸ List.mem_cons_self)
  have read := gc.call isCall fun c member => (gc.child member).expression_and_arguments.2
  rw [ReadsLiterals, literals_branch (by rw [kind]; rfl), invocationOf, requiredChild,
    child?_of_first rfl split isCall, split,
    List.flatMap_singleton]
  exact read.made

end

/-- The node as a wrapped statement, as a statement without its wrapper and as a block. -/
structure ReadsStatements (n : Node) : Prop where
  wrapped : n.kind = .statement → ReadsLiterals n (statement n)
  concrete : IsStatement n → ReadsLiterals n (concreteStatement n)
  block : n.kind = .block → ReadsLiterals n (block n)

section

variable {n : Node} (g : Grammatical n) (ih : ∀ c ∈ n.significant, ReadsStatements c)

include g ih

/-- The condition comes first, then the one or two bodies, in the order in which they stand. -/
theorem ifElse (kind : n.kind = .ifElseStatement) :
    ReadsLiterals n (ifElseOf n (clausesOf n.children)) := by
  obtain ⟨condition, _, split, isCondition, first, rest, rfl, isFirst, others⟩ := g.shaped kind
  have readCondition := (g.child (split ▸ List.mem_cons_self)).expression isCondition
  have readFirst := (ih first (by simp [split])).block isFirst
  rcases others with rfl | ⟨second, _, rfl, isSecond, rfl⟩
  · have parts := conditionOf_of_split split isCondition (by simpa [Is] using isFirst)
    rw [ReadsLiterals, literals_branch (by rw [kind]; rfl), ifElseOf_eq, parts.1, parts.2, split,
      List.flatMap_cons, List.flatMap_singleton]
    exact readCondition.bind fun _ _ => readFirst.made
  · have readSecond := (ih second (by simp [split])).block isSecond
    have parts := conditionOf_of_split split isCondition (by simpa using ⟨isFirst, isSecond⟩)
    rw [ReadsLiterals, literals_branch (by rw [kind]; rfl), ifElseOf_eq, parts.1, parts.2, split,
      List.flatMap_cons, List.flatMap_cons, List.flatMap_singleton]
    exact readCondition.bind fun _ _ => readFirst.bind fun _ _ => readSecond.made

/-- The condition comes first, then the body. -/
theorem while_ (kind : n.kind = .whileStatement) :
    ReadsLiterals n (whileOf n (clausesOf n.children)) := by
  obtain ⟨condition, _, split, isCondition, body, _, rfl, isBody, rfl⟩ := g.shaped kind
  have readCondition := (g.child (split ▸ List.mem_cons_self)).expression isCondition
  have readBody := (ih body (by simp [split])).block isBody
  have parts := conditionOf_of_split split isCondition (by simpa [Is] using isBody)
  rw [ReadsLiterals, literals_branch (by rw [kind]; rfl), whileOf_eq, parts.1, parts.2, split,
    List.flatMap_cons, List.flatMap_singleton]
  exact readCondition.bind fun _ _ => readBody.made

theorem block_step (kind : n.kind = .block) : ReadsLiterals n (block n) := by
  obtain ⟨statements, _, split, all, rfl⟩ := g.shaped kind
  rw [List.append_nil] at split
  rw [ReadsLiterals, literals_branch (by rw [kind]; rfl), block_eq_each, expectKind_bind,
    if_pos kind]
  exact Reads.each fun c member => (ih c member).wrapped (all c (split ▸ member))

theorem wrapped_step (kind : n.kind = .statement) : ReadsLiterals n (statement n) := by
  obtain ⟨inner, _, split, isInner, rfl⟩ := g.shaped kind
  have read := (ih inner (by simp [split])).concrete isInner
  rw [ReadsLiterals, literals_branch (by rw [kind]; rfl), statement_eq_concrete, expectKind_bind,
    if_pos kind, split, List.flatMap_singleton]
  exact read

/-- Each kind of statement has one reading, and in a grammatical node that reading has the literals
of the node. -/
theorem concrete_step (isStatement : IsStatement n) :
    ReadsLiterals n (concreteStatement n) := by
  rw [concreteStatement_eq, concreteOf]
  refine Reads.emit ?_
  cases kind : n.kind with
  | assignmentStatement => exact g.assignment kind
  | returnStatement => exact g.return_ kind
  | replyStatement => exact g.reply kind
  | functionInvocationStatement => exact g.invocation kind
  | ifElseStatement => exact g.ifElse ih kind
  | whileStatement => exact g.while_ ih kind
  | block =>
    simp only [← block_eq]
    exact (g.block_step ih kind).made
  | _ =>
    rw [IsStatement, kind] at isStatement
    cases isStatement

end

/-- A grammatical statement fails only at a literal that denotes nothing. -/
theorem statements {n : Node} (g : Grammatical n) : ReadsStatements n := by
  induction g with
  | node n sequence below ih =>
    have g : Grammatical n := .node n sequence below
    exact ⟨g.wrapped_step ih, g.concrete_step ih, g.block_step ih⟩

end Grammatical

end ServiceLang.Lowering
