import ServiceLang.Proofs.Lowering.Reading

/-!
# Complete lowering of expressions

Every grammatical expression is lowered, up to the first of its literals that denotes nothing. The
lowering looks for names and operators first, but these hold no literals, so that the literals are
still taken up in source order.
-/

namespace ServiceLang.Lowering

open Syntax (Kind Node)
open Semantic
open Outcome

/-- Nothing but the literals below a node decides about its lowering. -/
def ReadsLiterals {α : Type} (n : Node) (x : Outcome α) : Prop := Reads x (literals n) fun _ => True

namespace Grammatical

/-- A name is a token, and no literal. -/
theorem literals_name {n : Node} (g : Grammatical n) (h : IsName n) : literals n = [] :=
  g.literals_word (by rw [h.1]; rfl) (by rw [h.1]; rfl)

theorem literals_operator {n : Node} (g : Grammatical n) (h : n.kind = .operator) :
    literals n = [] :=
  g.literals_word (by rw [h]; rfl) (by rw [h]; rfl)

/-- The shape that belongs to the kind, once the kind is known. -/
theorem shaped {n : Node} (g : Grammatical n) {kind : Kind} (same : n.kind = kind) :
    Matches (shape kind) n.significant := by
  rw [← same]
  exact g.sequence

variable {n : Node} (g : Grammatical n)

include g

/-- A literal is the only literal of its node, and its own reading decides. -/
theorem literal {α : Type} {read : String → Option α} (own : isRead n.kind = true)
    (same : decodes n = (read n.textOrEmpty).isSome) :
    ReadsLiterals n (Lowering.literal n read) := by
  rw [ReadsLiterals, g.literals_read own]
  exact reads_literal same

/-- In a grammatical reference there is a name, and nothing can go wrong. -/
theorem variableReference (kind : n.kind = .variableReference) :
    ReadsLiterals n (nameOf n .variableReference) := by
  obtain ⟨name, _, split, named, rfl⟩ := g.shaped kind
  have quiet := (g.child (split ▸ List.mem_cons_self)).literals_name named
  rw [ReadsLiterals, literals_branch (by rw [kind]; rfl), nameOf_of_first _ split named, split,
    List.flatMap_singleton, quiet]
  exact Reads.pure trivial

theorem arrayElement (kind : n.kind = .arrayElementReference)
    (ih : ∀ c ∈ n.significant, IsExpression c → ReadsLiterals c (expression c)) :
    ReadsLiterals n (arrayElementOf n (partsOf n.children)) := by
  obtain ⟨name, _, split, named, index, _, rfl, isIndex, rfl⟩ := g.shaped kind
  have quiet := (g.child (split ▸ List.mem_cons_self)).literals_name named
  have below := ih index (by simp [split]) isIndex
  rw [arrayElementOf_eq, nameOf_of_first _ split named, index_of_split split named.1 isIndex,
    ReadsLiterals,
    literals_branch (by rw [kind]; rfl), split, List.flatMap_cons, quiet, List.flatMap_singleton]
  exact below.made

/-- The operands are read from left to right, which is the order of their literals. The operator
between them has none. -/
theorem binary (kind : n.kind = .binaryExpression)
    (ih : ∀ c ∈ n.significant, IsExpression c → ReadsLiterals c (expression c)) :
    ReadsLiterals n (binaryOf n (partsOf n.children)) := by
  obtain ⟨left, _, split, isLeft, operator, _, rfl, ⟨isOperator, op, known⟩, right, _, rfl, isRight,
    rfl⟩ := g.shaped kind
  have quiet := (g.child (by simp [split])).literals_operator isOperator
  have symbol := operatorOf_of_split [left] split (by simpa using isLeft) isOperator
  have operands := operandsOf_of_split [left] split isOperator (by simp [isLeft, isRight])
  have readLeft := ih left (by simp [split]) isLeft
  have readRight := ih right (by simp [split]) isRight
  rw [binaryOf_eq, symbol, pure_bind, known, operands, ReadsLiterals,
    literals_branch (by rw [kind]; rfl), split, List.flatMap_cons, List.flatMap_cons, quiet,
    List.flatMap_singleton, List.nil_append]
  exact readLeft.bind fun _ _ => readRight.made

theorem unary (kind : n.kind = .unaryExpression)
    (ih : ∀ c ∈ n.significant, IsExpression c → ReadsLiterals c (expression c)) :
    ReadsLiterals n (unaryOf n (partsOf n.children)) := by
  obtain ⟨operator, _, split, ⟨isOperator, op, known⟩, operand, _, rfl, isOperand, rfl⟩ :=
    g.shaped kind
  have quiet := (g.child (split ▸ List.mem_cons_self)).literals_operator isOperator
  have symbol := operatorOf_of_split [] split (List.forall_mem_nil _) isOperator
  have operands := operandsOf_of_split [] split isOperator (by simp [isOperand])
  have readOperand := ih operand (by simp [split]) isOperand
  rw [unaryOf_eq, symbol, pure_bind, known, operands, ReadsLiterals,
    literals_branch (by rw [kind]; rfl), split, List.flatMap_cons, quiet, List.flatMap_singleton]
  exact readOperand.made

theorem parenthesized (kind : n.kind = .parenthesizedExpression)
    (ih : ∀ c ∈ n.significant, IsExpression c → ReadsLiterals c (expression c)) :
    ReadsLiterals n (parenthesizedOf n (partsOf n.children)) := by
  obtain ⟨inner, _, split, isInner, rfl⟩ := g.shaped kind
  have operands : operandsOf n = [inner] :=
    operandsOf_of_expressions split (by simp [isInner])
  rw [parenthesizedOf_eq, operands, ReadsLiterals, literals_branch (by rw [kind]; rfl), split,
    List.flatMap_singleton]
  exact ih inner (by simp [split]) isInner

/-- The name has no literals, so those of a call are those of its list of arguments. -/
theorem call (kind : n.kind = .functionInvocation)
    (ih : ∀ c ∈ n.significant, c.kind = .argumentList →
      ReadsLiterals c (each expression c.significant)) :
    ReadsLiterals n (Lowering.call n) := by
  obtain ⟨name, _, split, ⟨named, qualified⟩, list, _, rfl, isList, rfl⟩ := g.shaped kind
  have quiet := (g.child (split ▸ List.mem_cons_self)).literals_name named
  obtain ⟨read, known⟩ := splitQualified_isSome qualified
  have below := ih list (by simp [split]) isList
  rw [call_eq, expectKind_bind, if_pos kind, nameOf_of_first _ split named, pure_bind, known,
    argumentsOf_of_split split named.1 isList, ReadsLiterals, literals_branch (by rw [kind]; rfl),
    split, List.flatMap_cons, quiet, List.flatMap_singleton]
  exact below.made

theorem arguments (kind : n.kind = .argumentList)
    (ih : ∀ c ∈ n.significant, IsExpression c → ReadsLiterals c (expression c)) :
    ReadsLiterals n (each expression n.significant) := by
  obtain ⟨operands, _, split, all, rfl⟩ := g.shaped kind
  rw [List.append_nil] at split
  rw [ReadsLiterals, literals_branch (by rw [kind]; rfl)]
  rw [split] at ih ⊢
  exact Reads.each fun c member => ih c member (all c member)

theorem expression_step (isExpression : IsExpression n)
    (ih : ∀ c ∈ n.significant, IsExpression c → ReadsLiterals c (expression c))
    (listed : ∀ c ∈ n.significant, c.kind = .argumentList →
      ReadsLiterals c (each expression c.significant)) :
    ReadsLiterals n (Lowering.expression n) := by
  rw [expression_eq, expressionOf]
  have own {kind : Kind} (same : n.kind = kind) (read : isRead kind = true) :
      isRead n.kind = true := same ▸ read
  cases kind : n.kind with
  | integerLiteral =>
    have read := g.literal (own kind rfl) (by rw [decodes, kind])
    exact read.made
  | floatLiteral =>
    have read := g.literal (own kind rfl) (by rw [decodes, kind])
    exact read.made
  | stringLiteral =>
    have read := g.literal (own kind rfl) (by rw [decodes, kind])
    exact read.made
  | booleanLiteral =>
    have read := g.literal (own kind rfl) (by rw [decodes, kind])
    exact read.made
  | nullLiteral =>
    rw [ReadsLiterals, g.literals_word (by rw [kind]; rfl) (by rw [kind]; rfl)]
    exact Reads.pure trivial
  | variableReference => exact (g.variableReference kind).made
  | arrayElementReference => exact g.arrayElement kind ih
  | functionInvocation => exact (g.call kind listed).made
  | binaryExpression => exact g.binary kind ih
  | unaryExpression => exact g.unary kind ih
  | parenthesizedExpression => exact g.parenthesized kind ih
  | _ =>
    rw [IsExpression, kind] at isExpression
    cases isExpression

/-- Expressions and, because they are two levels below a call, its arguments. -/
theorem expression_and_arguments :
    (IsExpression n → ReadsLiterals n (Lowering.expression n)) ∧
    (n.kind = .argumentList → ReadsLiterals n (each Lowering.expression n.significant)) := by
  induction g with
  | node n sequence below ih =>
    have g : Grammatical n := .node n sequence below
    have expressions : ∀ c ∈ n.significant, IsExpression c → ReadsLiterals c (expression c) :=
      fun c member => (ih c member).1
    constructor
    · intro isExpression
      exact g.expression_step isExpression expressions fun c member => (ih c member).2
    · intro kind
      exact g.arguments kind expressions

/-- A grammatical expression fails only at a literal that denotes nothing. -/
theorem expression (isExpression : IsExpression n) :
    ReadsLiterals n (Lowering.expression n) :=
  g.expression_and_arguments.1 isExpression

end Grammatical

end ServiceLang.Lowering
