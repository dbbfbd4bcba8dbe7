import ServiceLang.Proofs.Lowering.Contents
import ServiceLang.Proofs.Lowering.Parentheses

/-!
# What is overlooked

A node that is lowered without complaint need not hold exactly what belongs in it. Nothing depends
on the children that are not found: two nodes in which the same ones are found are lowered alike,
and so a surplus child is dropped without any sign of it.
-/

namespace ServiceLang.Lowering

open Syntax (Kind Node)
open Semantic
open Outcome

/-- In both nodes the same children are found. -/
structure Alike (n n' : Node) : Prop extends SameHead n n' where
  heeded : heeded n' = heeded n

namespace Alike

variable {n n' : Node} (h : Alike n n')

include h

theorem find {l : Look} (member : l ∈ looks n.kind) :
    l.find (counted n') = l.find (counted n) := by
  have found := congrArg (List.filter (l.sort ·.kind)) h.heeded
  rw [Lowering.heeded, Lowering.heeded, h.kind, filter_findAll (apart_looks _) member,
    filter_findAll (apart_looks _) member] at found
  exact found

/-- Where operators are skipped the operands agree, all of which are looked for. -/
theorem operands (skips : skipsOperators n.kind = true) : operandsOf n' = operandsOf n := by
  rw [← heeded_of_operands skips, ← h.heeded, heeded_of_operands (by rw [h.kind]; exact skips)]

section

variable (other : skipsOperators n.kind = false)

include other

/-- Where operators are not skipped, looks among the significant children agree. -/
theorem findSignificant {l : Look} (member : l ∈ looks n.kind) :
    l.find n'.significant = l.find n.significant := by
  rw [← counted_eq_significant other, ← h.find member,
    counted_eq_significant (by rw [h.kind]; exact other)]

theorem significant (member : .all (fun _ => true) ∈ looks n.kind) :
    n'.significant = n.significant := by
  have found := h.findSignificant other member
  rw [Look.find, Look.find, List.filter_true, List.filter_true] at found
  exact found

/-- The first child of a kind agrees if it is looked for. -/
theorem child? {kind : Kind} (visible : kind.isTrivia = false)
    (member : .first (· == kind) ∈ looks n.kind) : n'.child? kind = n.child? kind := by
  have found := h.findSignificant other member
  rw [find_child n' visible, find_child n visible] at found
  have heads := congrArg List.head? found
  rw [Option.head?_toList, Option.head?_toList] at heads
  exact heads

/-- Names agree wherever they are looked for. -/
theorem name (subject : Subject) (member : .first (· == .identifier) ∈ looks n.kind) :
    nameOf n' subject = nameOf n subject := by
  rw [nameOf, nameOf, requiredChild, requiredChild, h.child? other rfl member, h.span]

theorem operator (member : .first (· == .operator) ∈ looks n.kind) :
    operatorOf n' = operatorOf n := by
  rw [operatorOf, operatorOf, requiredChild, requiredChild, h.child? other rfl member, h.span,
    h.kind]

end

theorem wrapped : statement n' = statement n := by
  rw [statement_eq_concrete, statement_eq_concrete, expectKind_bind, expectKind_bind, h.kind,
    h.span]
  by_cases kind : n.kind = .statement
  · rw [h.significant (by rw [kind]; rfl) (by rw [kind]; exact List.mem_singleton_self _)]
  · rw [if_neg kind, if_neg kind]

theorem block : block n' = block n := by
  rw [block_eq_each, block_eq_each, expectKind_bind, expectKind_bind, h.kind, h.span]
  by_cases kind : n.kind = .block
  · rw [h.significant (by rw [kind]; rfl) (by rw [kind]; exact List.mem_singleton_self _)]
  · rw [if_neg kind, if_neg kind]

/-- A call looks for its name and its list of arguments, and they agree. -/
theorem call : call n' = call n := by
  rw [call_eq, call_eq, expectKind_bind, expectKind_bind, h.kind, h.span]
  by_cases kind : n.kind = .functionInvocation
  · have other : skipsOperators n.kind = false := by rw [kind]; rfl
    have list : n'.child? .argumentList = n.child? .argumentList :=
      h.child? other rfl (by rw [kind]; exact List.mem_cons_of_mem _ List.mem_cons_self)
    rw [h.name other _ (by rw [kind]; exact List.mem_cons_self), argumentsOf, argumentsOf, list]
  · rw [if_neg kind, if_neg kind]

theorem arrayElement (kind : n.kind = .arrayElementReference) :
    arrayElementOf n' (partsOf n'.children) = arrayElementOf n (partsOf n.children) := by
  have other : skipsOperators n.kind = false := by rw [kind]; rfl
  have index := h.findSignificant (l := .first Kind.isExpression) other
    (by rw [kind]; exact List.mem_cons_of_mem _ List.mem_cons_self)
  have heads := congrArg List.head? index
  rw [Look.find, Look.find, Option.head?_toList, Option.head?_toList] at heads
  rw [arrayElementOf_eq, arrayElementOf_eq,
    h.name other _ (by rw [kind]; exact List.mem_cons_self), heads, h.span]

/-- In operations the operands agree. -/
theorem operation (kind : n.kind = .binaryExpression ∨ n.kind = .unaryExpression ∨
    n.kind = .parenthesizedExpression) : operandsOf n' = operandsOf n := by
  refine h.findSignificant ?_ (looks_of_operation kind)
  rcases kind with kind | kind | kind <;> rw [kind] <;> rfl

theorem binary (kind : n.kind = .binaryExpression) :
    binaryOf n' (partsOf n'.children) = binaryOf n (partsOf n.children) := by
  have operator := h.operator (by rw [kind]; rfl) (by rw [kind]; exact List.mem_cons_self)
  rw [binaryOf_eq, binaryOf_eq, operator, h.operation (.inl kind), h.span]

theorem unary (kind : n.kind = .unaryExpression) :
    unaryOf n' (partsOf n'.children) = unaryOf n (partsOf n.children) := by
  have operator := h.operator (by rw [kind]; rfl) (by rw [kind]; exact List.mem_cons_self)
  rw [unaryOf_eq, unaryOf_eq, operator, h.operation (.inr (.inl kind)), h.span]

theorem parenthesized (kind : n.kind = .parenthesizedExpression) :
    parenthesizedOf n' (partsOf n'.children) = parenthesizedOf n (partsOf n.children) := by
  rw [parenthesizedOf_eq, parenthesizedOf_eq, h.operation (.inr (.inr kind)), h.span]

theorem literal {α : Type} (read : String → Option α) : literal n' read = literal n read := by
  rw [Lowering.literal, Lowering.literal, h.textOrEmpty, h.kind, h.span]

/-- Nodes that agree in what is found are the same expression. -/
theorem expression : expression n' = expression n := by
  rw [expression_eq, expression_eq, expressionOf, expressionOf, h.kind, h.span]
  cases kind : n.kind with
  | integerLiteral | floatLiteral | stringLiteral | booleanLiteral => simp only [h.literal]
  | nullLiteral => rfl
  | variableReference =>
    simp only [h.name (by rw [kind]; rfl) _ (by rw [kind]; exact List.mem_cons_self)]
  | arrayElementReference => exact h.arrayElement kind
  | functionInvocation =>
    change (Lowering.call n' >>= _) = (Lowering.call n >>= _)
    rw [h.call]
  | binaryExpression => exact h.binary kind
  | unaryExpression => exact h.unary kind
  | parenthesizedExpression => exact h.parenthesized kind
  | _ => rfl

section

variable (kind : n.kind = .ifElseStatement ∨ n.kind = .whileStatement)

include kind

/-- Conditionals and loops look for expressions and blocks. -/
theorem findInBranch {l : Look} (member : l ∈ [.all Kind.isExpression, .all (· == .block)]) :
    l.find n'.significant = l.find n.significant := by
  rw [← looks_of_branch kind] at member
  refine h.findSignificant ?_ member
  rcases kind with kind | kind <;> rw [kind] <;> rfl

theorem condition (subject : Subject) : conditionOf n' subject = conditionOf n subject := by
  have conditions : n'.significant.filter (·.kind.isExpression) =
      n.significant.filter (·.kind.isExpression) :=
    h.findInBranch kind List.mem_cons_self
  rw [conditionOf, conditionOf, conditions, h.span]

theorem bodies : n'.childrenOf .block = n.childrenOf .block := by
  rw [Node.childrenOf_eq_filter n' rfl, Node.childrenOf_eq_filter n rfl]
  exact h.findInBranch kind (List.mem_cons_of_mem _ List.mem_cons_self)

end

/-- Nodes that agree in what is found are the same statement. -/
theorem concrete : concreteStatement n' = concreteStatement n := by
  rw [concreteStatement_eq, concreteStatement_eq, concreteOf, concreteOf, h.kind]
  cases kind : n.kind with
  | assignmentStatement =>
    simp only [assignmentOf, h.operands (by rw [kind]; rfl), h.span]
  | returnStatement =>
    simp only [returnOf, h.operands (by rw [kind]; rfl), h.span]
  | replyStatement =>
    simp only [replyOf, h.operands (by rw [kind]; rfl), h.span]
  | functionInvocationStatement =>
    have callee : n'.child? .functionInvocation = n.child? .functionInvocation :=
      h.child? (by rw [kind]; rfl) rfl (by rw [kind]; exact List.mem_cons_self)
    simp only [invocationOf, requiredChild, callee, h.span]
  | ifElseStatement =>
    simp only [ifElseOf_eq, h.condition (.inl kind), h.bodies (.inl kind), h.span]
  | whileStatement =>
    simp only [whileOf_eq, h.condition (.inr kind), h.bodies (.inr kind), h.span]
  | block =>
    simp only [← block_eq, h.block, h.span]
  | _ => simp only [h.span]

end Alike

/-- Nothing is overlooked of a sort of which all are looked for. -/
theorem sort_of_overlooked {n c : Node} {p : Kind → Bool} (all : .all p ∈ looks n.kind)
    (h : c ∈ overlooked n) : p c.kind = false := by
  have shares := ((counted_perm n).filter (p ·.kind)).length_eq
  have found : (heeded n).filter (p ·.kind) = (counted n).filter (p ·.kind) :=
    filter_findAll (apart_looks n.kind) all (counted n)
  rw [List.filter_append, List.length_append, found] at shares
  have none_ : (overlooked n).filter (p ·.kind) = [] :=
    List.eq_nil_of_length_eq_zero (by omega)
  exact eq_false_of_ne_true (List.filter_eq_nil_iff.mp none_ c h)

/-- Neither a condition nor a body is overlooked. -/
theorem overlooked_of_branch {n c : Node}
    (kind : n.kind = .ifElseStatement ∨ n.kind = .whileStatement) (h : c ∈ overlooked n) :
    ¬ IsExpression c ∧ ¬ Is .block c := by
  have listed := looks_of_branch kind
  have expression := sort_of_overlooked (listed ▸ List.mem_cons_self) h
  have block := sort_of_overlooked (listed ▸ List.mem_cons_of_mem _ List.mem_cons_self) h
  exact ⟨ne_true_of_eq_false expression, beq_eq_false_iff_ne.mp block⟩

/-- Operands and inner expressions are never overlooked. -/
theorem overlooked_of_operation {n c : Node} (kind : n.kind = .binaryExpression ∨
    n.kind = .unaryExpression ∨ n.kind = .parenthesizedExpression) (h : c ∈ overlooked n) :
    Is .operator c := by
  have operator := sort_of_overlooked (looks_of_operation kind) h
  rw [Bool.not_eq_false'] at operator
  exact beq_iff_eq.mp operator

/-- Where everything is looked for nothing is overlooked. -/
theorem overlooked_of_all {n : Node} (all : looks n.kind = [.all fun _ => true]) :
    overlooked n = [] := by
  refine List.eq_nil_iff_forall_not_mem.mpr fun c member => ?_
  have listed : .all (fun _ => true) ∈ looks n.kind := by
    rw [all]
    exact List.mem_cons_self
  cases sort_of_overlooked listed member

/-- Whatever the lowering of a statement comes to holds what belongs in it, and nothing else
exactly if nothing is overlooked. Of the statements only conditional ones, loops and calls overlook
any children. On these then nothing depends. -/
theorem visited_statement_whole_iff {n m : Node} (accepted : Accepted (statement n))
    (visits : Visits n m) :
    Matches (contents m.kind) (heeded m) ∧ (heeded m ++ overlooked m).Perm (counted m) ∧
    (Whole m ↔ overlooked m = []) ∧
    (m.kind = .statement ∨ IsStatement m → ∀ c ∈ overlooked m,
      (m.kind = .ifElseStatement ∨ m.kind = .whileStatement) ∧
          ¬ IsExpression c ∧ ¬ Is .block c ∨
        m.kind = .functionInvocationStatement) ∧
    ∀ m', Alike m m' → statement m' = statement m ∧
      concreteStatement m' = concreteStatement m ∧ block m' = block m := by
  have filled := filled_of_passes (passes_of_visits visits (.wrapper accepted))
  refine ⟨filled.fits, counted_perm m, whole_iff filled.fits, ?_, ?_⟩
  · intro isStatement c member
    have all_found {kind : Kind} (same : m.kind = kind)
        (all : looks kind = [.all fun _ => true]) : False := by
      rw [overlooked_of_all (same ▸ all)] at member
      cases member
    rcases isStatement with kind | kinds
    · exact (all_found kind rfl).elim
    · rw [IsStatement] at kinds
      cases kind : m.kind with
      | ifElseStatement => exact .inl ⟨.inl rfl, overlooked_of_branch (.inl kind) member⟩
      | whileStatement => exact .inl ⟨.inr rfl, overlooked_of_branch (.inr kind) member⟩
      | functionInvocationStatement => exact .inr rfl
      | assignmentStatement | returnStatement | replyStatement | block =>
        exact (all_found kind rfl).elim
      | _ =>
        rw [kind] at kinds
        cases kinds
  · intro m' alike
    exact ⟨alike.wrapped, alike.concrete, alike.block⟩

def strayName : Node := .leaf .identifier .zero "x"

/-- A conditional statement with one body and more behind it. -/
def branchWith (more : List Node) : Node :=
  .branch .ifElseStatement .zero
    (.leaf .booleanLiteral .zero "true" :: .bare .block .zero :: more)

def wrapped (n : Node) : Node := .branch .statement .zero [n]

/-- A stray name is accepted behind the body of a conditional. -/
theorem branchWith_name_not_whole :
    Accepted (statement (wrapped (branchWith [strayName]))) ∧
    Visits (wrapped (branchWith [strayName])) (branchWith [strayName]) ∧
    ¬ Whole (branchWith [strayName]) := by
  have accepted : Accepted (statement (wrapped (branchWith [strayName]))) :=
    ⟨.ifElse (.boolean true) [] none .zero, rfl⟩
  have visits : Visits (wrapped (branchWith [strayName])) (branchWith [strayName]) :=
    .child (by decide) (.here _)
  refine ⟨accepted, visits, fun whole => ?_⟩
  have filled := filled_of_passes (passes_of_visits visits (.wrapper accepted))
  have nothing := (whole_iff filled.fits).mp whole
  revert nothing
  decide

theorem branchWith_name_overlooked :
    overlooked (branchWith [strayName]) = [strayName] ∧ ¬ Whole (branchWith [strayName]) ∧
    concreteStatement (branchWith []) = concreteStatement (branchWith [strayName]) := by
  have rest : overlooked (branchWith [strayName]) = [strayName] := by decide
  obtain ⟨-, -, whole, -, alike⟩ := visited_statement_whole_iff
    (n := wrapped (branchWith [strayName])) (m := branchWith [strayName])
    ⟨.ifElse (.boolean true) [] none .zero, rfl⟩ (.child (by decide) (.here _))
  refine ⟨rest, ?_, (alike _ ⟨⟨rfl, rfl, rfl⟩, by decide⟩).2.1⟩
  rw [whole, rest]
  exact List.cons_ne_nil _ _

/-- Whatever the lowering of an expression comes to holds what belongs in it, and nothing else
exactly if nothing is overlooked. No operand and no argument is overlooked. On the children that are
then nothing depends. -/
theorem visited_expression_whole_iff {n m : Node} (accepted : Accepted (expression n))
    (visits : Visits n m) :
    Matches (contents m.kind) (heeded m) ∧ (heeded m ++ overlooked m).Perm (counted m) ∧
    (Whole m ↔ overlooked m = []) ∧
    (m.kind = .binaryExpression ∨ m.kind = .unaryExpression ∨
      m.kind = .parenthesizedExpression → ∀ c ∈ overlooked m, Is .operator c) ∧
    (m.kind = .argumentList → overlooked m = []) ∧
    ∀ m', Alike m m' → expression m' = expression m ∧ call m' = call m := by
  have filled := filled_of_passes (passes_of_visits visits (.expression accepted))
  refine ⟨filled.fits, counted_perm m, whole_iff filled.fits,
    fun kind c => overlooked_of_operation kind, ?_, ?_⟩
  · intro kind
    exact overlooked_of_all (by rw [kind]; rfl)
  · intro m' alike
    exact ⟨alike.expression, alike.call⟩

def indexNode (digits : String) : Node := .leaf .integerLiteral .zero digits

/-- The element of `x` at the given indices. -/
def elementWith (indices : List Node) : Node :=
  .branch .arrayElementReference .zero (strayName :: indices)

/-- Two indices are accepted where one belongs. -/
theorem elementWith_two_not_whole :
    Accepted (expression (elementWith [indexNode "1", indexNode "2"])) ∧
    ¬ Whole (elementWith [indexNode "1", indexNode "2"]) := by
  have accepted : Accepted (expression (elementWith [indexNode "1", indexNode "2"])) :=
    ⟨.arrayElement "x" (.integer 1) .zero, rfl⟩
  refine ⟨accepted, fun whole => ?_⟩
  have nothing := (whole_iff (filled_expression accepted).fits).mp whole
  revert nothing
  decide

theorem elementWith_two_overlooked :
    overlooked (elementWith [indexNode "1", indexNode "2"]) = [indexNode "2"] ∧
    ¬ Whole (elementWith [indexNode "1", indexNode "2"]) ∧
    expression (elementWith [indexNode "1"]) =
      expression (elementWith [indexNode "1", indexNode "2"]) := by
  have rest : overlooked (elementWith [indexNode "1", indexNode "2"]) = [indexNode "2"] := by
    decide
  obtain ⟨-, -, whole, -, -, alike⟩ := visited_expression_whole_iff
    (n := elementWith [indexNode "1", indexNode "2"])
    ⟨.arrayElement "x" (.integer 1) .zero, rfl⟩ (.here _)
  refine ⟨rest, ?_, (alike _ ⟨⟨rfl, rfl, rfl⟩, by decide⟩).1⟩
  rw [whole, rest]
  exact List.cons_ne_nil _ _

end ServiceLang.Lowering
