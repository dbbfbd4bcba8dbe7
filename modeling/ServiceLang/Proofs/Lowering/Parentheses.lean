import Mathlib.Data.List.Forall2
import Mathlib.Logic.Relation
import ServiceLang.Proofs.Lowering.Equations

/-!
# Parentheses are transparent

Where an operand, an argument, an index, a value or a condition stands, the same expression may
stand in parentheses. Expressions are then lowered to the same outcome. Statements are lowered to
the same value or fail alike; only the error may differ, since the second of two conditions is
blamed by its own span, and that is the span of the parentheses if it stands in some.

A tree before and after is compared child by child. Most children stay what they are for their
parent in every respect; the one that was put in parentheses is the same as an expression only, and
that is enough where parentheses are allowed.
-/

namespace ServiceLang.Syntax

/-- The kinds of node whose expressions may all stand in parentheses. -/
def Kind.holdsExpressions : Kind → Bool
  | .binaryExpression | .unaryExpression | .parenthesizedExpression | .argumentList
  | .arrayElementReference | .returnStatement | .replyStatement | .ifElseStatement
  | .whileStatement => true
  | _ => false

/-- A node that lacks one of its children, with those before and after it. -/
structure Hole where
  kind : Kind
  span : Span
  text : Option String
  before : List Node
  after : List Node

namespace Hole

def fill (h : Hole) (c : Node) : Node := ⟨h.kind, h.span, h.before ++ c :: h.after, h.text⟩

/-- The node with the children before the missing one. -/
def front (h : Hole) : Node := ⟨h.kind, h.span, h.before, h.text⟩

/-- The node with the missing child and those after it. -/
def back (h : Hole) (c : Node) : Node := ⟨h.kind, h.span, c :: h.after, h.text⟩

end Hole

end ServiceLang.Syntax

namespace ServiceLang.Lowering

open Syntax (Kind Node Hole)
open Semantic
open Outcome
open List (Forall₂)

/-- The node is the given expression in parentheses, with any comments and operators around it. -/
structure InParentheses (c w : Node) : Prop where
  inner : c.kind.isExpression = true
  parenthesized : w.kind = .parenthesizedExpression
  only : operandsOf w = [c]

/-- An expression may stand in parentheses here. An assignment takes them around its second operand
only, the value. -/
def TakesParentheses (h : Hole) : Prop :=
  h.kind.holdsExpressions = true ∨
    h.kind = .assignmentStatement ∧ ∃ target, operandsOf h.front = [target]

/-- The second node is the first with one expression below it put in parentheses. -/
inductive Encloses : Node → Node → Prop where
  | around {h : Hole} {c w : Node} (place : TakesParentheses h) (put : InParentheses c w) :
    Encloses (h.fill c) (h.fill w)
  | within {h : Hole} {c c' : Node} (step : Encloses c c') : Encloses (h.fill c) (h.fill c')

/-! ### Values of outcomes -/

variable {α β γ : Type}

/-- What an outcome gives, without its events and without the reason why there is nothing. -/
def Outcome.value (x : Outcome α) : Option α := x.result.toOption

theorem value_eq_some {x : Outcome α} {a : α} : x.value = some a ↔ x.result = .ok a := by
  rw [Outcome.value]
  cases x.result with
  | error e => simp [Except.toOption]
  | ok b => simp [Except.toOption]

theorem value_eq_none {x : Outcome α} : x.value = none ↔ ∃ e, x.result = .error e := by
  rw [Outcome.value]
  cases x.result with
  | error e => simp [Except.toOption]
  | ok b => simp [Except.toOption]

/-- Values are handed on as optional values are, whatever is reported. -/
theorem value_bind (x : Outcome α) (k : α → Outcome β) :
    (x >>= k).value = x.value.bind fun a => (k a).value := by
  cases result : x.result with
  | error e => rw [bind_of_error k result, Outcome.value, Outcome.value, result]; rfl
  | ok a => rw [bind_of_ok k result, Outcome.value, Outcome.value, result]; rfl

/-- Steps that give the same value may be put for one another. -/
theorem value_bind_congr {x y : Outcome α} {k l : α → Outcome β} (first : y.value = x.value)
    (then_ : ∀ a, (l a).value = (k a).value) : (y >>= l).value = (x >>= k).value := by
  rw [value_bind, value_bind, first]
  simp only [then_]

theorem each_congr {F : γ → Outcome α} {cs ds : List γ}
    (same : Forall₂ (fun c d => F d = F c) cs ds) : each F ds = each F cs := by
  induction same with
  | nil => rfl
  | cons head _ ih => rw [each, each, head, ih]

/-- So may the members of a list. -/
theorem value_each_congr {F : γ → Outcome α} {cs ds : List γ}
    (same : Forall₂ (fun c d => (F d).value = (F c).value) cs ds) :
    (each F ds).value = (each F cs).value := by
  induction same with
  | nil => rfl
  | cons head _ ih => exact value_bind_congr head fun a => value_bind_congr ih fun as => rfl

/-! ### What a child is for its parent -/

structure SameHead (n n' : Node) : Prop where
  kind : n'.kind = n.kind
  span : n'.span = n.span
  text : n'.text = n.text

theorem SameHead.refl (n : Node) : SameHead n n := ⟨rfl, rfl, rfl⟩

/-- The text is part of the head. -/
theorem SameHead.textOrEmpty {n n' : Node} (h : SameHead n n') :
    n'.textOrEmpty = n.textOrEmpty := by
  rw [Node.textOrEmpty, Node.textOrEmpty, h.text]

/-- The second node may stand for the first anywhere. -/
structure Resembles (n n' : Node) : Prop extends SameHead n n' where
  expression : expression n' = expression n
  arguments : arguments n' = arguments n
  call : call n' = call n
  wrapped : (statement n').value = (statement n).value
  concrete : (concreteStatement n').value = (concreteStatement n).value
  block : (block n').value = (block n).value

theorem Resembles.refl (n : Node) : Resembles n n :=
  { SameHead.refl n with
    expression := rfl, arguments := rfl, call := rfl, wrapped := rfl, concrete := rfl,
    block := rfl }

/-- The second node may stand for the first where an expression is asked for. -/
inductive Replaces (c c' : Node) : Prop where
  | like (same : Resembles c c')
  | enclosed (put : InParentheses c c')

/-- An expression in parentheses is lowered as if they were not there. -/
theorem InParentheses.expression_eq {c w : Node} (h : InParentheses c w) :
    Lowering.expression w = Lowering.expression c := by
  rw [Lowering.expression_eq, expressionOf, h.parenthesized]
  change parenthesizedOf w _ = _
  rw [parenthesizedOf_eq, h.only]

/-- All kinds of expression give one answer. -/
def Uniform (p : Kind → Bool) : Prop :=
  ∀ k, k.isExpression = true → p k = p .parenthesizedExpression

/-- No expression is trivia. -/
theorem uniform_significant : Uniform fun k => !k.isTrivia := by
  intro k expression
  cases k <;> first | rfl | cases expression

theorem uniform_expression : Uniform Kind.isExpression := fun _ expression => expression

/-- No expression has a kind that is not one of expressions. -/
theorem uniform_kind (kind : Kind) (other : kind.isExpression = false) :
    Uniform fun k => k == kind := by
  have apart {k : Kind} (expression : k.isExpression = true) : (k == kind) = false := by
    rw [beq_eq_false_iff_ne]
    rintro rfl
    rw [expression] at other
    cases other
  exact fun k expression => (apart expression).trans (apart rfl).symm

/-- No expression is an operator. -/
theorem uniform_operand : Uniform fun k => !k == .operator :=
  fun k expression => congrArg not (uniform_kind .operator rfl k expression)

namespace Replaces

variable {c c' : Node} (h : Replaces c c')

include h

theorem expression : expression c' = expression c :=
  match h with
  | .like same => same.expression
  | .enclosed put => put.expression_eq

/-- What is asked alike of all expressions is answered alike for both. -/
theorem answers {p : Kind → Bool} (uniform : Uniform p) : p c'.kind = p c.kind := by
  cases h with
  | like same => rw [same.kind]
  | enclosed put => rw [put.parenthesized, uniform c.kind put.inner]

/-- Only expressions are put in parentheses. -/
theorem resembles (other : c.kind.isExpression = false) : Resembles c c' := by
  cases h with
  | like same => exact same
  | enclosed put =>
    rw [put.inner] at other
    cases other

end Replaces

section

variable {cs ds : List Node}

/-- Filtering keeps related lists related if related members answer alike. -/
theorem forall₂_filter {R : Node → Node → Prop} {p : Kind → Bool}
    (same : ∀ {c d}, R c d → p d.kind = p c.kind) (related : Forall₂ R cs ds) :
    Forall₂ R (cs.filter fun c => p c.kind) (ds.filter fun c => p c.kind) := by
  refine List.rel_filter (fun c d r => ?_) related
  change p c.kind = true ↔ p d.kind = true
  rw [same r]

theorem forall₂_head? {R : Node → Node → Prop} (related : Forall₂ R cs ds) :
    Option.Rel R cs.head? ds.head? := by
  cases related with
  | nil => exact .none
  | cons head _ => exact .some head

/-- Children chosen by a sort that treats all expressions alike are replaced one by one. -/
theorem replaces_filter {p : Kind → Bool} (uniform : Uniform p) (related : Forall₂ Replaces cs ds) :
    Forall₂ Replaces (cs.filter fun c => p c.kind) (ds.filter fun c => p c.kind) :=
  forall₂_filter (fun r => r.answers uniform) related

theorem resembles_filter (p : Kind → Bool) (related : Forall₂ Resembles cs ds) :
    Forall₂ Resembles (cs.filter fun c => p c.kind) (ds.filter fun c => p c.kind) :=
  forall₂_filter (fun r => by rw [r.kind]) related

theorem resembles_operands {n n' : Node} (related : Forall₂ Resembles n.children n'.children) :
    Forall₂ Resembles (operandsOf n) (operandsOf n') :=
  resembles_filter (!· == .operator) (resembles_filter (!·.isTrivia) related)

end

/-! ### Nodes with replaced children -/

/-- The second node is the first with children replaced, each by one that will do for it: where
more is asked of them than to be expressions, they may stand for the old ones anywhere. -/
structure Rebuilt (n n' : Node) : Prop extends SameHead n n' where
  children : Forall₂ Replaces n.children n'.children
  target : n.kind = .assignmentStatement →
    Option.Rel Resembles (operandsOf n).head? (operandsOf n').head?
  kept : n.kind = .statement ∨ n.kind = .block ∨ n.kind = .functionInvocationStatement →
    Forall₂ Resembles n.children n'.children

namespace Rebuilt

variable {n n' : Node} (h : Rebuilt n n')

include h

theorem significant : Forall₂ Replaces n.significant n'.significant :=
  replaces_filter uniform_significant h.children

/-- Operands are replaced one by one, since an operand in parentheses is still an operand. -/
theorem operands : Forall₂ Replaces (operandsOf n) (operandsOf n') :=
  replaces_filter uniform_operand h.significant

theorem expressions :
    Forall₂ Replaces (n.significant.filter (·.kind.isExpression))
      (n'.significant.filter (·.kind.isExpression)) :=
  replaces_filter uniform_expression h.significant

theorem childrenOf (kind : Kind) (other : kind.isExpression = false) :
    Forall₂ Resembles (n.childrenOf kind) (n'.childrenOf kind) := by
  have found : ∀ c ∈ n.childrenOf kind, c.kind = kind := fun c member => by
    simpa using (List.mem_filter.mp member).2
  have related := replaces_filter (uniform_kind kind other) h.children
  refine ((List.forall₂_and_left _ _).mpr ⟨found, related⟩).imp fun c c' ⟨same, r⟩ => ?_
  exact r.resembles (by rw [same, other])

/-- Where no expression is asked for, the child found in the one stands for the child found in the
other. -/
theorem child? (kind : Kind) (other : kind.isExpression = false) :
    Option.Rel Resembles (n.child? kind) (n'.child? kind) := by
  rw [Node.child?_eq_head?, Node.child?_eq_head?]
  exact forall₂_head? (h.childrenOf kind other)

/-- Names are never put in parentheses. -/
theorem name (subject : Subject) : nameOf n' subject = nameOf n subject := by
  have found := h.child? .identifier rfl
  rw [nameOf, nameOf, requiredChild, requiredChild]
  generalize n.child? .identifier = c?, n'.child? .identifier = d? at found ⊢
  cases found with
  | none => rw [h.span]
  | @some c d same =>
    change (if d.textOrEmpty = "" then flawed d.span _ else Pure.pure d.textOrEmpty) =
      (if c.textOrEmpty = "" then flawed c.span _ else Pure.pure c.textOrEmpty : Outcome String)
    rw [same.textOrEmpty, same.span]

theorem operator : operatorOf n' = operatorOf n := by
  have found := h.child? .operator rfl
  rw [operatorOf, operatorOf, requiredChild, requiredChild]
  generalize n.child? .operator = c?, n'.child? .operator = d? at found ⊢
  cases found with
  | none => rw [h.span, h.kind]
  | some same => exact congrArg Outcome.pure same.textOrEmpty

theorem literal {α : Type} (read : String → Option α) : literal n' read = literal n read := by
  rw [Lowering.literal, Lowering.literal, h.textOrEmpty, h.kind, h.span]

/-- Arguments are replaced one by one and give the same expressions. -/
theorem arguments : arguments n' = arguments n := by
  rw [arguments_eq, arguments_eq]
  exact each_congr (h.significant.imp fun _ _ r => r.expression)

theorem call : call n' = call n := by
  have args : argumentsOf n' = argumentsOf n := by
    have found := h.child? .argumentList rfl
    rw [argumentsOf, argumentsOf]
    generalize n.child? .argumentList = c?, n'.child? .argumentList = d? at found ⊢
    cases found with
    | none => rfl
    | some same =>
      have := same.arguments
      rwa [arguments_eq, arguments_eq] at this
  rw [call_eq, call_eq, args, h.name, h.span, expectKind, expectKind, h.kind, h.span]

/-- The operator is found again, and each operand gives the same expression. -/
theorem binary :
    binaryOf n' (partsOf n'.children) = binaryOf n (partsOf n.children) := by
  rw [binaryOf_eq, binaryOf_eq, h.operator, h.span]
  have operands := h.operands
  generalize operandsOf n = cs, operandsOf n' = ds at operands ⊢
  rcases operands with _ | @⟨_, _, _, _, left, _ | @⟨_, _, _, _, right, _ | _⟩⟩
  · rfl
  · rfl
  · simp only [left.expression, right.expression]
  · rfl

theorem unary : unaryOf n' (partsOf n'.children) = unaryOf n (partsOf n.children) := by
  rw [unaryOf_eq, unaryOf_eq, h.operator, h.span]
  have operands := h.operands
  generalize operandsOf n = cs, operandsOf n' = ds at operands ⊢
  rcases operands with _ | @⟨_, _, _, _, operand, _ | _⟩
  · rfl
  · simp only [operand.expression]
  · rfl

theorem parenthesized :
    parenthesizedOf n' (partsOf n'.children) = parenthesizedOf n (partsOf n.children) := by
  rw [parenthesizedOf_eq, parenthesizedOf_eq, h.span]
  have operands := h.operands
  generalize operandsOf n = cs, operandsOf n' = ds at operands ⊢
  rcases operands with _ | @⟨_, _, _, _, inner, _ | _⟩
  · rfl
  · exact inner.expression
  · rfl

/-- The index that is found is the replaced one. -/
theorem arrayElement :
    arrayElementOf n' (partsOf n'.children) = arrayElementOf n (partsOf n.children) := by
  rw [arrayElementOf_eq, arrayElementOf_eq, h.name, h.span]
  have index := forall₂_head? h.expressions
  rw [List.head?_filter, List.head?_filter] at index
  generalize n.significant.find? _ = c?, n'.significant.find? _ = d? at index ⊢
  cases index with
  | none => rfl
  | some index =>
    simp only [orFlaw, pure_bind, index.expression]

/-- A rebuilt node is the same expression, with the same events and the same failure. -/
theorem expression : expression n' = expression n := by
  rw [expression_eq, expression_eq, expressionOf, expressionOf, h.kind]
  cases n.kind with
  | integerLiteral => simp only [h.literal]
  | floatLiteral => simp only [h.literal]
  | stringLiteral => simp only [h.literal]
  | booleanLiteral => simp only [h.literal]
  | nullLiteral => rfl
  | variableReference => simp only [h.name, h.span]
  | arrayElementReference => exact h.arrayElement
  | functionInvocation =>
    have call := h.call
    rw [Lowering.call, Lowering.call] at call
    simp only [call, h.span]
  | binaryExpression => exact h.binary
  | unaryExpression => exact h.unary
  | parenthesizedExpression => exact h.parenthesized
  | _ => simp only [h.span]

/-- A target is never put in parentheses, and what is assigned gives the same expression. -/
theorem assignment (kind : n.kind = .assignmentStatement) : assignmentOf n' = assignmentOf n := by
  rw [assignmentOf, assignmentOf, h.span]
  have operands := h.operands
  have target := h.target kind
  generalize operandsOf n = cs, operandsOf n' = ds at operands target ⊢
  rcases operands with _ | @⟨_, _, _, _, first, _ | @⟨_, _, _, _, value, _ | _⟩⟩
  · rfl
  · rfl
  · obtain ⟨same⟩ := target
    simp only [same.kind, same.span, same.expression, value.expression]
  · rfl

theorem returns : returnOf n' = returnOf n := by
  rw [returnOf, returnOf, each_congr (h.operands.imp fun _ _ r => r.expression), h.span]

theorem reply : replyOf n' = replyOf n := by
  rw [replyOf, replyOf, h.span]
  have operands := h.operands
  generalize operandsOf n = cs, operandsOf n' = ds at operands ⊢
  rcases operands with _ | @⟨_, _, _, _, value, _ | _⟩
  · rfl
  · simp only [value.expression]
  · rfl

/-- A second condition is blamed by its own span, which parentheses change. -/
theorem condition (subject : Subject) :
    (conditionOf n' subject).value = (conditionOf n subject).value := by
  rw [conditionOf, conditionOf, h.span]
  have conditions := h.expressions
  generalize n.significant.filter _ = cs, n'.significant.filter _ = ds at conditions ⊢
  rcases conditions with _ | @⟨_, _, _, _, condition, _ | _⟩
  · rfl
  · exact congrArg _ condition.expression
  · rfl

/-- The condition gives the same value, and each of the bodies resembles the one before. -/
theorem ifElse :
    (ifElseOf n' (clausesOf n'.children)).value = (ifElseOf n (clausesOf n.children)).value := by
  rw [ifElseOf_eq, ifElseOf_eq, h.span]
  refine value_bind_congr (h.condition _) fun condition => ?_
  have blocks := h.childrenOf .block rfl
  generalize n.childrenOf .block = cs, n'.childrenOf .block = ds at blocks ⊢
  rcases blocks with _ | @⟨_, _, _, _, first, _ | @⟨_, _, _, _, second, _ | _⟩⟩
  · rfl
  · exact value_bind_congr first.block fun thenBody => rfl
  · exact value_bind_congr first.block fun thenBody =>
      value_bind_congr second.block fun elseBody => rfl
  · exact value_bind_congr first.block fun thenBody =>
      value_bind_congr second.block fun elseBody => rfl

theorem whileLoop :
    (whileOf n' (clausesOf n'.children)).value = (whileOf n (clausesOf n.children)).value := by
  rw [whileOf_eq, whileOf_eq, h.span]
  refine value_bind_congr (h.condition _) fun condition => ?_
  have blocks := h.childrenOf .block rfl
  generalize n.childrenOf .block = cs, n'.childrenOf .block = ds at blocks ⊢
  rcases blocks with _ | @⟨_, _, _, _, first, _ | _⟩
  · rfl
  · exact value_bind_congr first.block fun body => rfl
  · exact value_bind_congr first.block fun body => rfl

theorem invocation (kind : n.kind = .functionInvocationStatement) :
    invocationOf n' = invocationOf n := by
  have found : Option.Rel Resembles (n.child? .functionInvocation)
      (n'.child? .functionInvocation) := by
    rw [Node.child?_eq_head?, Node.child?_eq_head?]
    exact forall₂_head? (resembles_filter (· == .functionInvocation) (h.kept (.inr (.inr kind))))
  rw [invocationOf, invocationOf, requiredChild, requiredChild, h.span]
  generalize n.child? .functionInvocation = c?, n'.child? .functionInvocation = d? at found ⊢
  cases found with
  | none => rfl
  | some same => simp only [orFlaw, pure_bind, same.call]

/-- Statements of a block are replaced one by one. -/
theorem block : (block n').value = (block n).value := by
  rw [block_eq_each, block_eq_each, expectKind_bind, expectKind_bind, h.kind, h.span]
  by_cases kind : n.kind = .block
  · rw [if_pos kind, if_pos kind]
    have statements := resembles_filter (!·.isTrivia) (h.kept (.inr (.inl kind)))
    exact value_each_congr (statements.imp fun _ _ r => r.wrapped)
  · rw [if_neg kind, if_neg kind]

theorem wrapped : (statement n').value = (statement n).value := by
  rw [statement_eq_concrete, statement_eq_concrete, expectKind_bind, expectKind_bind, h.kind,
    h.span]
  by_cases kind : n.kind = .statement
  · rw [if_pos kind, if_pos kind]
    have members : Forall₂ Resembles n.significant n'.significant :=
      resembles_filter (!·.isTrivia) (h.kept (.inl kind))
    generalize n.significant = cs, n'.significant = ds at members ⊢
    rcases members with _ | @⟨_, _, _, _, inner, _ | _⟩
    · rfl
    · exact inner.concrete
    · rfl
  · rw [if_neg kind, if_neg kind]

/-- A rebuilt statement gives the same value, if not the same complaint. -/
theorem concrete : (concreteStatement n').value = (concreteStatement n).value := by
  rw [concreteStatement_eq, concreteStatement_eq, concreteOf, concreteOf, h.kind]
  refine value_bind_congr rfl fun _ => ?_
  cases kind : n.kind with
  | assignmentStatement => exact congrArg _ (h.assignment kind)
  | returnStatement => exact congrArg _ h.returns
  | replyStatement => exact congrArg _ h.reply
  | functionInvocationStatement => exact congrArg _ (h.invocation kind)
  | ifElseStatement => exact h.ifElse
  | whileStatement => exact h.whileLoop
  | block =>
    have block := h.block
    rw [block_eq, block_eq] at block
    exact value_bind_congr block fun statements => by rw [h.span]
  | _ => simp only [h.span]

/-- A rebuilt node may stand for the node anywhere. -/
theorem resembles : Resembles n n' :=
  { h.toSameHead with
    expression := h.expression, arguments := h.arguments, call := h.call, wrapped := h.wrapped,
    concrete := h.concrete, block := h.block }

end Rebuilt

theorem forall₂_fill {R : Node → Node → Prop} (refl : ∀ c, R c c) {h : Hole} {c c' : Node}
    (related : R c c') : Forall₂ R (h.fill c).children (h.fill c').children :=
  List.rel_append (List.forall₂_same.mpr fun c _ => refl c)
    (.cons related (List.forall₂_same.mpr fun c _ => refl c))

/-- The operand before a place is the first one, whatever stands in the place. -/
theorem head?_operandsOf_fill {h : Hole} {target : Node} (first : operandsOf h.front = [target])
    (c : Node) : (operandsOf (h.fill c)).head? = some target := by
  have cut : operandsOf (h.fill c) = operandsOf h.front ++ operandsOf (h.back c) := by
    change (List.filter _ (h.before ++ c :: h.after)).filter _ = _
    rw [List.filter_append, List.filter_append]
    rfl
  rw [cut, first]
  rfl

/-- Parentheses around one child leave all other children as they are. -/
theorem rebuilt_around {h : Hole} {c w : Node} (place : TakesParentheses h)
    (put : InParentheses c w) : Rebuilt (h.fill c) (h.fill w) where
  kind := rfl
  span := rfl
  text := rfl
  children := forall₂_fill (fun d => .like (.refl d)) (.enclosed put)
  target kind := by
    change h.kind = _ at kind
    rcases place with holds | ⟨-, target, first⟩
    · rw [kind] at holds
      cases holds
    · rw [head?_operandsOf_fill first, head?_operandsOf_fill first]
      exact .some (.refl target)
  kept kind := by
    change h.kind = _ ∨ h.kind = _ ∨ h.kind = _ at kind
    rcases place with holds | ⟨assignment, -⟩
    · rcases kind with kind | kind | kind <;> rw [kind] at holds <;> cases holds
    · rw [assignment] at kind
      rcases kind with kind | kind | kind <;> cases kind

/-- A change below one child leaves all other children as they are. -/
theorem rebuilt_within {h : Hole} {c c' : Node} (same : Resembles c c') :
    Rebuilt (h.fill c) (h.fill c') where
  kind := rfl
  span := rfl
  text := rfl
  children := forall₂_fill (fun d => .like (.refl d)) (.like same)
  target _ := forall₂_head? (resembles_operands (forall₂_fill .refl same))
  kept _ := forall₂_fill .refl same

/-- One pair of parentheses, at any depth: around a child at the place itself, and within a child
above it. -/
theorem Encloses.resembles {n n' : Node} (step : Encloses n n') : Resembles n n' := by
  -- what is above the parentheses may ask for its child in any role, so all of them are carried
  induction step with
  | around place put => exact (rebuilt_around place put).resembles
  | within _ ih => exact (rebuilt_within ih).resembles

/-- Putting expressions in parentheses, where they may stand and however often, changes neither the
expression that a node is lowered to nor the error it is refused with, and neither the statement nor
whether there is one. -/
theorem parentheses_transparent {n n' : Node} (steps : Relation.ReflTransGen Encloses n n') :
    expression n' = expression n ∧
    (∀ s, (statement n').result = .ok s ↔ (statement n).result = .ok s) ∧
    ((∃ e, (statement n').result = .error e) ↔ ∃ e, (statement n).result = .error e) := by
  suffices same : expression n' = expression n ∧ (statement n').value = (statement n).value by
    refine ⟨same.1, fun s => ?_, ?_⟩
    · rw [← value_eq_some, ← value_eq_some, same.2]
    · rw [← value_eq_none, ← value_eq_none, same.2]
  induction steps with
  | refl => exact ⟨rfl, rfl⟩
  | tail _ step ih =>
    have last := step.resembles
    exact ⟨last.expression.trans ih.1, last.wrapped.trans ih.2⟩

def numberNode (text : String) : Node := .leaf .integerLiteral .zero text

def doubledNode (c : Node) : Node :=
  .branch .binaryExpression .zero [numberNode "2", .leaf .operator .zero "*", c]

def loopNode (condition : Node) : Node :=
  .branch .statement .zero [.branch .whileStatement .zero [condition, .bare .block .zero]]

def enclosedNode (c : Node) : Node :=
  .branch .parenthesizedExpression .zero [.bare .comment .zero, c]

theorem doubledNode_encloses (text : String) :
    let number := numberNode text
    Relation.ReflTransGen Encloses (doubledNode number)
      (doubledNode (enclosedNode (enclosedNode number))) := by
  intro number
  let place : Hole :=
    ⟨.binaryExpression, .zero, none, [numberNode "2", .leaf .operator .zero "*"], []⟩
  have once : Encloses (place.fill number) (place.fill (enclosedNode number)) :=
    .around (.inl rfl) ⟨rfl, rfl, rfl⟩
  exact .tail (.single once) (.around (h := place) (.inl rfl) ⟨rfl, rfl, rfl⟩)

theorem loopNode_encloses (text : String) :
    let number := numberNode text
    Relation.ReflTransGen Encloses (loopNode (doubledNode number))
      (loopNode (enclosedNode (doubledNode (enclosedNode (enclosedNode number))))) := by
  intro number
  let wrapper : Hole := ⟨.statement, .zero, none, [], []⟩
  let loop : Hole := ⟨.whileStatement, .zero, none, [], [.bare .block .zero]⟩
  have inner := (doubledNode_encloses text).lift loopNode fun c c' step =>
    show Encloses (wrapper.fill (loop.fill c)) (wrapper.fill (loop.fill c')) from
      .within (.within step)
  exact inner.tail (.within (h := wrapper) (.around (h := loop) (.inl rfl) ⟨rfl, rfl, rfl⟩))

/-- A loop over a number in parentheses twice, with the condition in parentheses as well. -/
theorem loopNode_in_parentheses :
    let enclosed := fun text => doubledNode (enclosedNode (enclosedNode (numberNode text)))
    let doubled := Expression.binary .mul (.integer 2) (.integer 1) .zero
    (expression (enclosed "1")).result = .ok doubled ∧
    (expression (enclosed "one")).result = .error (.invalidLiteral .integerLiteral "one" .zero) ∧
    (statement (loopNode (enclosedNode (enclosed "1")))).result = .ok (.while doubled [] .zero) ∧
    ∃ e, (statement (loopNode (enclosedNode (enclosed "one")))).result = .error e := by
  intro enclosed doubled
  have read := (parentheses_transparent (doubledNode_encloses "1")).1
  have refused := (parentheses_transparent (doubledNode_encloses "one")).1
  have run := (parentheses_transparent (loopNode_encloses "1")).2.1
  have failed := (parentheses_transparent (loopNode_encloses "one")).2.2
  exact ⟨(congrArg Outcome.result read).trans rfl, (congrArg Outcome.result refused).trans rfl,
    (run _).mpr rfl, failed.mpr ⟨_, rfl⟩⟩

end ServiceLang.Lowering
