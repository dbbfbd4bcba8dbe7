import ServiceLang.Proofs.Lowering.Equations
import ServiceLang.Proofs.Lowering.Grammar

/-!
# Looking up children

Which children the lowering finds when it is known what the significant children are: the name, the
operands, the condition and the bodies.
-/

namespace ServiceLang.Lowering

open Syntax (Kind Node)
open Outcome

/-- The child asked for is the first of its kind among the significant ones. -/
theorem child?_of_split {n c : Node} (front : List Node) {rest : List Node} {kind : Kind}
    (visible : kind.isTrivia = false) (split : n.significant = front ++ c :: rest)
    (other : ∀ d ∈ front, d.kind ≠ kind) (same : c.kind = kind) : n.child? kind = some c := by
  rw [Node.child?_eq_find? n visible, split, List.find?_append, List.find?_cons_of_pos]
  · have absent : front.find? (·.kind == kind) = none := by
      rw [List.find?_eq_none]
      intro d member
      rw [beq_iff_eq]
      exact other d member
    rw [absent, Option.none_or]
  · rw [beq_iff_eq]
    exact same

theorem child?_of_first {n c : Node} {rest : List Node} {kind : Kind}
    (visible : kind.isTrivia = false) (split : n.significant = c :: rest) (same : c.kind = kind) :
    n.child? kind = some c :=
  child?_of_split [] visible split (List.forall_mem_nil _) same

/-- The name is the text of the first identifier, however many expressions stand before it. -/
theorem nameOf_of_split {n c : Node} (front : List Node) {rest : List Node} (subject : Subject)
    (split : n.significant = front ++ c :: rest) (other : ∀ d ∈ front, d.kind ≠ .identifier)
    (named : IsName c) : nameOf n subject = pure c.textOrEmpty := by
  rw [nameOf, requiredChild, child?_of_split front rfl split other named.1]
  change (if c.textOrEmpty = "" then _ else _) = _
  rw [if_neg named.2]

theorem nameOf_of_first {n c : Node} {rest : List Node} (subject : Subject)
    (split : n.significant = c :: rest) (named : IsName c) :
    nameOf n subject = pure c.textOrEmpty :=
  nameOf_of_split [] subject split (List.forall_mem_nil _) named

/-- A kind that is not that of an expression is no kind of an expression. -/
theorem ne_of_isExpression {n : Node} (h : IsExpression n) {kind : Kind}
    (other : kind.isExpression = false) : n.kind ≠ kind := by
  rintro rfl
  rw [IsExpression, other] at h
  cases h

theorem operator_ne_of_isExpression {n : Node} (h : IsExpression n) : n.kind ≠ .operator :=
  ne_of_isExpression h rfl

/-- If all significant children are expressions, they are the operands. -/
theorem operandsOf_of_expressions {n : Node} {operands : List Node}
    (split : n.significant = operands) (all : ∀ c ∈ operands, IsExpression c) :
    operandsOf n = operands := by
  rw [operandsOf, split, List.filter_eq_self]
  intro c member
  have other := operator_ne_of_isExpression (all c member)
  simp [other]

/-- The symbol is the text of the first operator behind any number of expressions. -/
theorem operatorOf_of_split {n operator : Node} (front : List Node) {rest : List Node}
    (split : n.significant = front ++ operator :: rest) (before : ∀ d ∈ front, IsExpression d)
    (isOperator : operator.kind = .operator) : operatorOf n = pure operator.textOrEmpty := by
  have other : ∀ d ∈ front, d.kind ≠ .operator := fun d member =>
    operator_ne_of_isExpression (before d member)
  rw [operatorOf, requiredChild, child?_of_split front rfl split other isOperator]
  rfl

/-- With one operator among expressions, the operands are the expressions, in order. -/
theorem operandsOf_of_split {n operator : Node} (front : List Node) {rest : List Node}
    (split : n.significant = front ++ operator :: rest) (isOperator : operator.kind = .operator)
    (operands : ∀ d ∈ front ++ rest, IsExpression d) : operandsOf n = front ++ rest := by
  have kept : (front ++ rest).filter (!·.kind == .operator) = front ++ rest := by
    rw [List.filter_eq_self]
    intro d member
    simp [operator_ne_of_isExpression (operands d member)]
  rw [operandsOf, split, List.filter_append, List.filter_cons, isOperator, ← kept,
    List.filter_append]
  rfl

theorem index_of_split {n name index : Node} {rest : List Node}
    (split : n.significant = name :: index :: rest) (named : name.kind = .identifier)
    (isIndex : IsExpression index) :
    n.significant.find? (·.kind.isExpression) = some index := by
  rw [split, List.find?_cons_of_neg, List.find?_cons_of_pos]
  · exact isIndex
  · rw [named]
    decide

theorem argumentsOf_of_split {n name list : Node} {rest : List Node}
    (split : n.significant = name :: list :: rest) (named : name.kind = .identifier)
    (isList : list.kind = .argumentList) : argumentsOf n = each expression list.significant := by
  have before : ∀ d ∈ [name], d.kind ≠ .argumentList := by
    intro d member
    rw [List.mem_singleton.mp member, named]
    decide
  rw [argumentsOf, child?_of_split [name] rfl split before isList]

/-- A condition in front of bodies is the only expression, and the bodies are the only blocks. -/
theorem filter_condition {condition : Node} {bodies : List Node}
    (isCondition : IsExpression condition) (blocks : ∀ b ∈ bodies, b.kind = .block) :
    (condition :: bodies).filter (·.kind.isExpression) = [condition] ∧
    (condition :: bodies).filter (·.kind == .block) = bodies := by
  have noExpression : bodies.filter (·.kind.isExpression) = [] := by
    rw [List.filter_eq_nil_iff]
    intro b member
    rw [blocks b member]
    decide
  have allBlocks : bodies.filter (·.kind == .block) = bodies := by
    rw [List.filter_eq_self]
    intro b member
    rw [blocks b member]
    rfl
  have notBlock : (condition.kind == .block) = false :=
    beq_eq_false_iff_ne.mpr (ne_of_isExpression isCondition rfl)
  constructor
  · rw [List.filter_cons, isCondition, noExpression]
    rfl
  · rw [List.filter_cons, notBlock, allBlocks]
    rfl

/-- A condition in front of bodies is read as the condition, whichever statement it belongs to. -/
theorem conditionOf_of_split {n condition : Node} {bodies : List Node}
    (split : n.significant = condition :: bodies) (isCondition : IsExpression condition)
    (blocks : ∀ b ∈ bodies, b.kind = .block) :
    (∀ subject, conditionOf n subject = expression condition) ∧ n.childrenOf .block = bodies := by
  obtain ⟨expressions, blocks⟩ := filter_condition isCondition blocks
  constructor
  · intro subject
    rw [conditionOf, split, expressions]
  · rw [Node.childrenOf_eq_filter n rfl, split, blocks]

end ServiceLang.Lowering
