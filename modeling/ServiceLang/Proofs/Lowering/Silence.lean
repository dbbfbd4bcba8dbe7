import ServiceLang.Proofs.Lowering.Assertion

/-!
# What is not reported

Expressions are lowered without any report, whether they succeed or fail, and so are names, literals
and the conditions of statements. What is in a log therefore comes from
annotations, declarations, statements, resources and services alone.
-/

namespace ServiceLang.Lowering

open Syntax (Kind Node)
open Semantic
open Outcome

variable {α β γ : Type}

def Silent (x : Outcome α) : Prop := x.events = []

namespace Silent

theorem pure (a : α) : Silent (Pure.pure a) := rfl

theorem flawed (span : Span) (flaw : Flaw) : Silent (Outcome.flawed span flaw : Outcome α) := rfl

/-- Silence is the assertion that no event is met. -/
theorem meets {x : Outcome α} (h : Silent x) :
    Meets (fun _ => False) (fun _ => True) x fun _ _ => True :=
  ⟨List.eq_nil_iff_forall_not_mem.mp h, fun _ _ => trivial, fun _ _ => trivial⟩

theorem of_meets {x : Outcome α} (h : Meets (fun _ => False) (fun _ => True) x fun _ _ => True) :
    Silent x :=
  List.eq_nil_iff_forall_not_mem.mpr h.events

/-- Two silent steps in sequence are silent, since there is nothing to append. -/
theorem bind {x : Outcome α} {k : α → Outcome β} (first : Silent x) (then_ : ∀ a, Silent (k a)) :
    Silent (x >>= k) :=
  of_meets (first.meets.bind fun a _ _ => (then_ a).meets)

theorem made {x : Outcome α} {g : α → β} (first : Silent x) :
    Silent (x >>= fun a => Pure.pure (g a)) :=
  first.bind fun a => pure (g a)

/-- A list of silent readings is silent, up to its first failure and to its end alike. -/
theorem each {F : γ → Outcome α} {cs : List γ} (h : ∀ c ∈ cs, Silent (F c)) :
    Silent (each F cs) :=
  of_meets (Meets.each trivial (fun _ _ _ _ _ _ => trivial) fun c member => (h c member).meets)

theorem orFlaw (a? : Option α) (span : Span) (flaw : Flaw) : Silent (orFlaw a? span flaw) := by
  cases a? <;> rfl

theorem expectKind (n : Node) (kind : Kind) : Silent (expectKind n kind) := by
  rw [Lowering.expectKind]
  split <;> rfl

theorem requiredChild (n : Node) (kind : Kind) (subject : Subject) :
    Silent (requiredChild n kind subject) :=
  orFlaw _ _ _

/-- Looking for a name reports nothing, whether or not there is one. -/
theorem nameOf (n : Node) (subject : Subject) : Silent (nameOf n subject) := by
  refine (requiredChild n _ _).bind fun identifier => ?_
  split <;> rfl

/-- A complaint about a text is a result and no event. -/
theorem literal (n : Node) (read : String → Option α) : Silent (literal n read) := by
  rw [Lowering.literal]
  split <;> rfl

theorem operatorOf (n : Node) : Silent (operatorOf n) :=
  (requiredChild n _ _).made

end Silent

/-- The given nodes, read as expressions, report nothing. -/
def SilentExpressions (cs : List Node) : Prop := ∀ c ∈ cs, Silent (expression c)

section

variable {n : Node}

/-- The arguments stand two levels below the call, inside its list of them. -/
theorem silent_call (below : ∀ c ∈ n.children, SilentExpressions c.children) :
    Silent (call n) := by
  rw [call_eq]
  refine (Silent.expectKind n _).bind fun _ => ?_
  refine (Silent.nameOf n _).bind fun qualified => ?_
  refine (Silent.orFlaw _ _ _).bind fun named => ?_
  suffices Silent (argumentsOf n) from this.made
  rw [argumentsOf]
  cases found : n.child? .argumentList with
  | none => exact Silent.pure _
  | some list =>
    refine Silent.each fun c argument => ?_
    exact below list (Node.mem_of_child? found) c (Node.mem_children_of_significant argument)

variable (children : SilentExpressions n.children)

include children

theorem silent_binary : Silent (binaryOf n (partsOf n.children)) := by
  have read := fun c member => children c (mem_children_of_operandsOf (n := n) member)
  rw [binaryOf_eq]
  refine (Silent.operatorOf n).bind fun symbol => ?_
  refine (Silent.orFlaw _ _ _).bind fun op => ?_
  rcases operands : operandsOf n with _ | ⟨left, _ | ⟨right, _ | ⟨extra, rest⟩⟩⟩
  · exact Silent.flawed _ _
  · exact Silent.flawed _ _
  · refine (read left (by simp [operands])).bind fun l => ?_
    exact (read right (by simp [operands])).made
  · exact Silent.flawed _ _

theorem silent_unary : Silent (unaryOf n (partsOf n.children)) := by
  have read := fun c member => children c (mem_children_of_operandsOf (n := n) member)
  rw [unaryOf_eq]
  refine (Silent.operatorOf n).bind fun symbol => ?_
  refine (Silent.orFlaw _ _ _).bind fun op => ?_
  rcases operands : operandsOf n with _ | ⟨operand, _ | ⟨extra, rest⟩⟩
  · exact Silent.flawed _ _
  · exact (read operand (by simp [operands])).made
  · exact Silent.flawed _ _

theorem silent_parenthesized : Silent (parenthesizedOf n (partsOf n.children)) := by
  have read := fun c member => children c (mem_children_of_operandsOf (n := n) member)
  rw [parenthesizedOf_eq]
  rcases operands : operandsOf n with _ | ⟨operand, _ | ⟨extra, rest⟩⟩
  · exact Silent.flawed _ _
  · exact read operand (by simp [operands])
  · exact Silent.flawed _ _

theorem silent_arrayElement : Silent (arrayElementOf n (partsOf n.children)) := by
  rw [arrayElementOf_eq]
  refine (Silent.nameOf n _).bind fun name => ?_
  cases found : n.significant.find? (·.kind.isExpression) with
  | none => exact Silent.flawed _ _
  | some index =>
    have member := Node.mem_children_of_significant (List.mem_of_find?_eq_some found)
    change Silent (expression index >>= fun e => Pure.pure (Expression.arrayElement name e n.span))
    exact (children index member).made

/-- What an expression reports is what its children and the arguments of calls below it report. -/
theorem silent_expression_step (below : ∀ c ∈ n.children, SilentExpressions c.children) :
    Silent (expression n) := by
  rw [expression_eq, expressionOf]
  cases n.kind with
  | integerLiteral => exact (Silent.literal n _).made
  | floatLiteral => exact (Silent.literal n _).made
  | stringLiteral => exact (Silent.literal n _).made
  | booleanLiteral => exact (Silent.literal n _).made
  | nullLiteral => exact Silent.pure _
  | variableReference => exact (Silent.nameOf n _).made
  | arrayElementReference => exact silent_arrayElement children
  | functionInvocation => exact (silent_call below).made
  | binaryExpression => exact silent_binary children
  | unaryExpression => exact silent_unary children
  | parenthesizedExpression => exact silent_parenthesized children
  | _ => exact Silent.flawed _ _

end

/-- Expressions are lowered without a single event. -/
theorem silent_expression (n : Node) : Silent (expression n) := by
  induction n using Node.induction_twoLevels with
  | step n children below => exact silent_expression_step children below

/-- A condition is an expression, or it is refused before anything is reported. -/
theorem silent_condition (n : Node) (subject : Subject) : Silent (conditionOf n subject) := by
  rw [conditionOf]
  split
  · exact Silent.flawed _ _
  · exact silent_expression _
  · exact Silent.flawed _ _

end ServiceLang.Lowering
