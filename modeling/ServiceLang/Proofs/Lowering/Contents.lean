import ServiceLang.Proofs.Lowering.Looks
import ServiceLang.Proofs.Lowering.Sequence

/-!
# What is found when nothing is refused

A node that is lowered without complaint has all the children that belong in it, and these are
lowered without complaint in turn. So it is at any depth to which the lowering comes.
-/

namespace ServiceLang.Lowering

open Syntax (Kind Node)
open Semantic
open Outcome

/-! ### Accepted nodes -/

/-- Nothing but an expression is read as one. -/
theorem isExpression_of_accepted {n : Node} (h : Accepted (expression n)) : IsExpression n := by
  obtain ⟨e, made⟩ := h
  rw [expression_eq, expressionOf] at made
  rw [IsExpression]
  cases kind : n.kind <;> rw [kind] at made <;> first | rfl | cases made

/-- Nothing but a statement is read as one. -/
theorem isStatement_of_accepted {n : Node} (h : Accepted (concreteStatement n)) :
    IsStatement n := by
  obtain ⟨s, made⟩ := h
  rw [concreteStatement_eq, concreteOf] at made
  rw [IsStatement]
  cases kind : n.kind <;> rw [kind] at made <;> first | rfl | cases made

/-- What is accepted behind a check of the kind has that kind. -/
theorem accepted_guarded {α : Type} {n : Node} {kind : Kind} {k : Unit → Outcome α}
    (h : Accepted (expectKind n kind >>= k)) : n.kind = kind ∧ Accepted (k ()) := by
  rw [expectKind_bind] at h
  by_cases same : n.kind = kind
  · rw [if_pos same] at h
    exact ⟨same, h⟩
  · rw [if_neg same] at h
    obtain ⟨_, made⟩ := h
    cases made

theorem accepted_each {α γ : Type} {lower : γ → Outcome α} {cs : List γ}
    (h : Accepted (each lower cs)) : ∀ c ∈ cs, Accepted (lower c) := by
  obtain ⟨as, made⟩ := h
  exact results_iff_accepted.mp ⟨as, each_ok_iff.mp made⟩

/-- Both steps of an accepted sequence are accepted, the second one on the value of the first. -/
theorem accepted_first {α β : Type} {x : Outcome α} {k : α → Outcome β}
    (h : Accepted (x >>= k)) : ∃ a, x.result = .ok a ∧ Accepted (k a) := by
  obtain ⟨b, made⟩ := h
  obtain ⟨a, first, rest⟩ := bind_ok_iff.mp made
  exact ⟨a, first, b, rest⟩

theorem accepted_single {α : Type} {cs : List Node} {k : Node → Outcome α} {span : Span}
    {flaw : Flaw} (h : Accepted (match cs with | [c] => k c | _ => flawed span flaw)) :
    ∃ c, cs = [c] ∧ Accepted (k c) := by
  obtain ⟨a, made⟩ := h
  rcases cs with _ | ⟨c, _ | ⟨extra, rest⟩⟩
  · cases made
  · exact ⟨c, rfl, a, made⟩
  · cases made

theorem accepted_pair {α : Type} {cs : List Node} {k : Node → Node → Outcome α} {span : Span}
    {flaw : Flaw} (h : Accepted (match cs with | [c, d] => k c d | _ => flawed span flaw)) :
    ∃ c d, cs = [c, d] ∧ Accepted (k c d) := by
  obtain ⟨a, made⟩ := h
  rcases cs with _ | ⟨c, _ | ⟨d, _ | ⟨extra, rest⟩⟩⟩
  · cases made
  · cases made
  · exact ⟨c, d, rfl, a, made⟩
  · cases made

/-- The node is accepted as something that can be asked for. Names and operators are only looked
at. -/
inductive Passes (n : Node) : Prop where
  | wrapper (accepted : Accepted (statement n))
  | concrete (accepted : Accepted (concreteStatement n))
  | block (accepted : Accepted (block n))
  | expression (accepted : Accepted (expression n))
  | call (accepted : Accepted (call n))
  | arguments (kind : n.kind = .argumentList) (accepted : Accepted (arguments n))
  | word (kind : n.kind = .identifier ∨ n.kind = .operator)

/-- The children that are found are what belongs in the node, and they are accepted in turn. -/
structure Filled (n : Node) : Prop where
  fits : Matches (contents n.kind) (heeded n)
  below : ∀ c ∈ heeded n, Passes c

/-- To see that a node is filled it is enough to know the list of the children that are found in
it. -/
theorem Filled.of_found {n : Node} {kind : Kind} {cs : List Node} (same : n.kind = kind)
    (found : heeded n = cs) (fits : Matches (contents kind) cs) (below : ∀ c ∈ cs, Passes c) :
    Filled n := by
  subst same found
  exact ⟨fits, below⟩

theorem matches_one {p : Node → Prop} {c : Node} (h : p c) : Matches [.one p] [c] :=
  ⟨c, [], rfl, h, rfl⟩

/-- Any number of children of one sort. -/
theorem matches_many {p : Node → Prop} {cs : List Node} (h : ∀ c ∈ cs, p c) :
    Matches [.many p] cs :=
  ⟨cs, [], (List.append_nil cs).symm, h, rfl⟩

section

variable {n : Node}

theorem filled_statement (h : Accepted (statement n)) : Filled n := by
  rw [statement_eq_concrete] at h
  obtain ⟨kind, accepted⟩ := accepted_guarded h
  have found : heeded n = n.significant := by
    rw [heeded_of_kind kind rfl, looks, findAll_all]
  rcases inside : n.significant with _ | ⟨inner, _ | ⟨extra, rest⟩⟩
  · rw [inside] at accepted
    obtain ⟨_, made⟩ := accepted
    cases made
  · rw [inside] at accepted found
    refine .of_found kind found ?_ ?_
    · exact matches_one (isStatement_of_accepted accepted)
    · exact List.forall_mem_singleton.mpr (.concrete accepted)
  · rw [inside] at accepted
    obtain ⟨_, made⟩ := accepted
    cases made

/-- Only a wrapper is accepted as one. -/
theorem kind_of_wrapper (h : Accepted (statement n)) : n.kind = .statement := by
  rw [statement_eq_concrete] at h
  exact (accepted_guarded h).1

theorem filled_block (h : Accepted (block n)) : Filled n := by
  rw [block_eq_each] at h
  obtain ⟨kind, accepted⟩ := accepted_guarded h
  have members := accepted_each accepted
  have found : heeded n = n.significant := by
    rw [heeded_of_kind kind rfl, looks, findAll_all]
  refine .of_found kind found ?_ ?_
  · exact matches_many fun c member => kind_of_wrapper (members c member)
  · exact fun c member => .wrapper (members c member)

theorem filled_arguments (kind : n.kind = .argumentList) (h : Accepted (arguments n)) :
    Filled n := by
  rw [arguments_eq] at h
  have members := accepted_each h
  have found : heeded n = n.significant := by
    rw [heeded_of_kind kind rfl, looks, findAll_all]
  refine .of_found kind found ?_ ?_
  · exact matches_many fun c member => isExpression_of_accepted (members c member)
  · exact fun c member => .expression (members c member)

/-- A name that was read stands in the first identifier. -/
theorem found_name {subject : Subject} {name : String}
    (read : (nameOf n subject).result = .ok name) :
    ∃ identifier, n.child? .identifier = some identifier ∧ Is .identifier identifier := by
  obtain ⟨named, -⟩ := named_of_nameOf read
  obtain ⟨identifier, found, -⟩ := Option.map_eq_some_iff.mp named
  exact ⟨identifier, found, Node.kind_of_child? found⟩

/-- A symbol that was read stands in the first operator. -/
theorem found_operator {symbol : String} (read : (operatorOf n).result = .ok symbol) :
    ∃ operator, n.child? .operator = some operator ∧ Is .operator operator := by
  rw [operatorOf] at read
  obtain ⟨operator, found, -⟩ := bind_ok_iff.mp read
  have child := child?_of_requiredChild found
  exact ⟨operator, child, Node.kind_of_child? child⟩

/-- An accepted call has a name and, if it has a list of arguments at all, an accepted one. -/
theorem filled_call (h : Accepted (call n)) : Filled n := by
  rw [call_eq] at h
  obtain ⟨kind, h⟩ := accepted_guarded h
  obtain ⟨name, read, h⟩ := accepted_first h
  obtain ⟨_, -, h⟩ := accepted_first h
  obtain ⟨es, listed, -⟩ := accepted_first h
  obtain ⟨identifier, first, named⟩ := found_name read
  have found : heeded n = identifier :: (n.child? .argumentList).toList := by
    rw [heeded_of_kind kind rfl, looks, findAll_two, find_child n rfl, find_child n rfl, first]
    rfl
  rw [argumentsOf] at listed
  refine .of_found kind found ?_ ?_
  · refine ⟨identifier, _, rfl, named, ?_⟩
    cases list : n.child? .argumentList with
    | none => exact .inl rfl
    | some l => exact .inr ⟨l, [], rfl, Node.kind_of_child? list, rfl⟩
  · refine List.forall_mem_cons.mpr ⟨.word (.inl named), ?_⟩
    cases list : n.child? .argumentList with
    | none => exact List.forall_mem_nil _
    | some l =>
      rw [list] at listed
      refine List.forall_mem_singleton.mpr (.arguments (Node.kind_of_child? list) ?_)
      rw [arguments_eq]
      exact ⟨es, listed⟩

theorem filled_variable (kind : n.kind = .variableReference) (h : Accepted (expression n)) :
    Filled n := by
  rw [expression_eq, expressionOf, kind] at h
  obtain ⟨name, read, -⟩ := accepted_first h
  obtain ⟨identifier, first, named⟩ := found_name read
  have found : heeded n = [identifier] := by
    rw [heeded_of_kind kind rfl, looks, findAll_one, find_child n rfl, first]
    rfl
  refine .of_found kind found ?_ ?_
  · exact matches_one named
  · exact List.forall_mem_singleton.mpr (.word (.inl named))

theorem filled_arrayElement (kind : n.kind = .arrayElementReference)
    (h : Accepted (expression n)) : Filled n := by
  rw [expression_eq, expressionOf, kind] at h
  change Accepted (arrayElementOf n _) at h
  rw [arrayElementOf_eq] at h
  obtain ⟨name, read, h⟩ := accepted_first h
  obtain ⟨index, second, h⟩ := accepted_first h
  obtain ⟨e, lowered, -⟩ := accepted_first h
  obtain ⟨identifier, first, named⟩ := found_name read
  have found : heeded n = [identifier, index] := by
    rw [heeded_of_kind kind rfl, looks, findAll_two, find_child n rfl, first, Look.find,
      of_orFlaw second]
    rfl
  have accepted : Accepted (expression index) := ⟨e, lowered⟩
  refine .of_found kind found ?_ ?_
  · exact ⟨identifier, _, rfl, named, matches_one (isExpression_of_accepted accepted)⟩
  · exact List.forall_mem_cons.mpr
      ⟨.word (.inl named), List.forall_mem_singleton.mpr (.expression accepted)⟩

/-- In an operation the operator is found first, then the operands. -/
theorem heeded_of_operator {operator : Node} (first : n.child? .operator = some operator)
    (kind : n.kind = .binaryExpression ∨ n.kind = .unaryExpression) :
    heeded n = operator :: operandsOf n := by
  have found : findAll [.first (· == .operator), .all fun kind => !kind == .operator]
      n.significant = operator :: operandsOf n := by
    rw [findAll_two, find_child n rfl, first]
    rfl
  rcases kind with kind | kind
  · rw [heeded_of_kind kind rfl]
    exact found
  · rw [heeded_of_kind kind rfl]
    exact found

/-- An accepted binary operation has an operator between two operands that are accepted. -/
theorem filled_binary (kind : n.kind = .binaryExpression) (h : Accepted (expression n)) :
    Filled n := by
  rw [expression_eq, expressionOf, kind] at h
  change Accepted (binaryOf n _) at h
  rw [binaryOf_eq] at h
  obtain ⟨symbol, read, h⟩ := accepted_first h
  obtain ⟨op, -, h⟩ := accepted_first h
  obtain ⟨left, right, operands, h⟩ := accepted_pair h
  obtain ⟨l, loweredLeft, h⟩ := accepted_first h
  obtain ⟨r, loweredRight, -⟩ := accepted_first h
  obtain ⟨operator, first, named⟩ := found_operator read
  have found := heeded_of_operator first (.inl kind)
  have acceptedLeft : Accepted (expression left) := ⟨l, loweredLeft⟩
  have acceptedRight : Accepted (expression right) := ⟨r, loweredRight⟩
  rw [operands] at found
  refine .of_found kind found ?_ ?_
  · exact ⟨operator, _, rfl, named, left, _, rfl, isExpression_of_accepted acceptedLeft,
      matches_one (isExpression_of_accepted acceptedRight)⟩
  · refine List.forall_mem_cons.mpr ⟨.word (.inr named), ?_⟩
    exact List.forall_mem_cons.mpr
      ⟨.expression acceptedLeft, List.forall_mem_singleton.mpr (.expression acceptedRight)⟩

theorem filled_unary (kind : n.kind = .unaryExpression) (h : Accepted (expression n)) :
    Filled n := by
  rw [expression_eq, expressionOf, kind] at h
  change Accepted (unaryOf n _) at h
  rw [unaryOf_eq] at h
  obtain ⟨symbol, read, h⟩ := accepted_first h
  obtain ⟨op, -, h⟩ := accepted_first h
  obtain ⟨operand, operands, h⟩ := accepted_single h
  obtain ⟨e, lowered, -⟩ := accepted_first h
  obtain ⟨operator, first, named⟩ := found_operator read
  have found := heeded_of_operator first (.inr kind)
  have accepted : Accepted (expression operand) := ⟨e, lowered⟩
  rw [operands] at found
  refine .of_found kind found ?_ ?_
  · exact ⟨operator, _, rfl, named, matches_one (isExpression_of_accepted accepted)⟩
  · exact List.forall_mem_cons.mpr
      ⟨.word (.inr named), List.forall_mem_singleton.mpr (.expression accepted)⟩

theorem filled_parenthesized (kind : n.kind = .parenthesizedExpression)
    (h : Accepted (expression n)) : Filled n := by
  rw [expression_eq, expressionOf, kind] at h
  change Accepted (parenthesizedOf n _) at h
  rw [parenthesizedOf_eq] at h
  obtain ⟨inner, operands, accepted⟩ := accepted_single h
  have found : heeded n = [inner] := by
    rw [heeded_of_kind kind rfl, looks, findAll_one, ← operands]
    rfl
  refine .of_found kind found ?_ ?_
  · exact matches_one (isExpression_of_accepted accepted)
  · exact List.forall_mem_singleton.mpr (.expression accepted)

/-- In literals and words nothing is looked for. -/
theorem filled_token (nothing : looks n.kind = []) (empty : contents n.kind = []) : Filled n := by
  have found : heeded n = [] := by
    rw [heeded, nothing]
    rfl
  refine .of_found rfl found ?_ (List.forall_mem_nil _)
  rw [empty]
  rfl

theorem filled_expression (h : Accepted (expression n)) : Filled n := by
  have kinds := isExpression_of_accepted h
  rw [IsExpression] at kinds
  cases kind : n.kind with
  | variableReference => exact filled_variable kind h
  | arrayElementReference => exact filled_arrayElement kind h
  | binaryExpression => exact filled_binary kind h
  | unaryExpression => exact filled_unary kind h
  | parenthesizedExpression => exact filled_parenthesized kind h
  | functionInvocation =>
    rw [expression_eq, expressionOf, kind] at h
    obtain ⟨c, called, -⟩ := accepted_first h
    exact filled_call ⟨c, called⟩
  | integerLiteral | floatLiteral | stringLiteral | booleanLiteral | nullLiteral =>
    exact filled_token (by rw [kind]; rfl) (by rw [kind]; rfl)
  | _ =>
    rw [kind] at kinds
    cases kinds

/-! ### Statements -/

/-- Where operators are skipped, the children that are found are the operands. -/
theorem heeded_of_operands (skips : skipsOperators n.kind = true) : heeded n = operandsOf n := by
  rw [heeded, counted, if_pos skips, looks_of_skipsOperators skips, findAll_all]

theorem filled_assignment (kind : n.kind = .assignmentStatement)
    (h : Accepted (assignmentOf n)) : Filled n := by
  have found := heeded_of_operands (n := n) (by rw [kind]; rfl)
  obtain ⟨target, value, operands, h⟩ := accepted_pair h
  rw [operands] at found
  by_cases isTarget : target.kind = .variableReference ∨ target.kind = .arrayElementReference
  · rw [if_pos isTarget] at h
    obtain ⟨t, loweredTarget, h⟩ := accepted_first h
    obtain ⟨v, loweredValue, -⟩ := accepted_first h
    have accepted : Accepted (expression value) := ⟨v, loweredValue⟩
    refine .of_found kind found ?_ ?_
    · exact ⟨target, _, rfl, isTarget, matches_one (isExpression_of_accepted accepted)⟩
    · exact List.forall_mem_cons.mpr
        ⟨.expression ⟨t, loweredTarget⟩, List.forall_mem_singleton.mpr (.expression accepted)⟩
  · rw [if_neg isTarget] at h
    obtain ⟨_, made⟩ := h
    cases made

theorem filled_return (kind : n.kind = .returnStatement) (h : Accepted (returnOf n)) :
    Filled n := by
  have found := heeded_of_operands (n := n) (by rw [kind]; rfl)
  obtain ⟨es, lowered, -⟩ := accepted_first h
  have members := accepted_each ⟨es, lowered⟩
  refine .of_found kind found ?_ ?_
  · exact matches_many fun c member => isExpression_of_accepted (members c member)
  · exact fun c member => .expression (members c member)

theorem filled_reply (kind : n.kind = .replyStatement) (h : Accepted (replyOf n)) : Filled n := by
  have found := heeded_of_operands (n := n) (by rw [kind]; rfl)
  obtain ⟨value, operands, h⟩ := accepted_single h
  obtain ⟨e, lowered, -⟩ := accepted_first h
  have accepted : Accepted (expression value) := ⟨e, lowered⟩
  rw [operands] at found
  refine .of_found kind found ?_ ?_
  · exact matches_one (isExpression_of_accepted accepted)
  · exact List.forall_mem_singleton.mpr (.expression accepted)

theorem filled_invocation (kind : n.kind = .functionInvocationStatement)
    (h : Accepted (invocationOf n)) : Filled n := by
  obtain ⟨callee, required, h⟩ := accepted_first h
  obtain ⟨c, called, -⟩ := accepted_first h
  have first := child?_of_requiredChild required
  have found : heeded n = [callee] := by
    rw [heeded_of_kind kind rfl, looks, findAll_one, find_child n rfl, first]
    rfl
  refine .of_found kind found ?_ ?_
  · exact matches_one (Node.kind_of_child? first)
  · exact List.forall_mem_singleton.mpr (.call ⟨c, called⟩)

/-- A condition that was read is the only expression among the significant children. -/
theorem accepted_condition {subject : Subject} {condition : Expression}
    (h : (conditionOf n subject).result = .ok condition) :
    ∃ c, n.significant.filter (·.kind.isExpression) = [c] ∧ Accepted (expression c) := by
  rw [conditionOf] at h
  rcases conditions : n.significant.filter (·.kind.isExpression) with _ | ⟨c, _ | ⟨extra, rest⟩⟩
  · rw [conditions] at h
    cases h
  · rw [conditions] at h
    exact ⟨c, conditions, condition, h⟩
  · rw [conditions] at h
    cases h

/-- The condition is found first, then the bodies. -/
theorem heeded_of_condition {c : Node}
    (condition : n.significant.filter (·.kind.isExpression) = [c])
    (kind : n.kind = .ifElseStatement ∨ n.kind = .whileStatement) :
    heeded n = c :: n.childrenOf .block := by
  have other : skipsOperators n.kind = false := by
    rcases kind with kind | kind <;> rw [kind] <;> rfl
  rw [heeded, counted_eq_significant other, looks_of_branch kind, findAll_two, Look.find, condition,
    Node.childrenOf_eq_filter n rfl]
  rfl

theorem accepted_body {body : Node} {ss : List Statement} (member : body ∈ n.childrenOf .block)
    (results : Results statement body.significant ss) : Accepted (block body) := by
  rw [block_of_mem member]
  exact ⟨ss, each_ok_iff.mpr results⟩

theorem kind_of_body {body : Node} (member : body ∈ n.childrenOf .block) : Is .block body :=
  beq_iff_eq.mp (List.mem_filter.mp member).2

theorem filled_while (kind : n.kind = .whileStatement) (h : Accepted (concreteStatement n)) :
    Filled n := by
  obtain ⟨s, made⟩ := h
  obtain ⟨_, body, ss, read, bodies, results, -⟩ := (while_ok_iff kind s).mp made
  obtain ⟨condition, only, accepted⟩ := accepted_condition read
  have found := heeded_of_condition only (.inr kind)
  have member : body ∈ n.childrenOf .block := by simp [bodies]
  rw [bodies] at found
  refine .of_found kind found ?_ ?_
  · exact ⟨condition, _, rfl, isExpression_of_accepted accepted,
      matches_one (kind_of_body member)⟩
  · exact List.forall_mem_cons.mpr ⟨.expression accepted,
      List.forall_mem_singleton.mpr (.block (accepted_body member results))⟩

/-- An accepted branching has a condition and one or two bodies. Any third block would have been
refused. -/
theorem filled_ifElse (kind : n.kind = .ifElseStatement) (h : Accepted (concreteStatement n)) :
    Filled n := by
  obtain ⟨s, made⟩ := h
  obtain ⟨_, first, others, ts, _, read, bodies, results, rest, -⟩ := (ifElse_ok_iff kind s).mp made
  obtain ⟨condition, only, accepted⟩ := accepted_condition read
  have found := heeded_of_condition only (.inl kind)
  have member : first ∈ n.childrenOf .block := by simp [bodies]
  have inside := accepted_body member results
  rcases rest with ⟨rfl, -⟩ | ⟨second, ss, rfl, resultsElse, -⟩
  · rw [bodies] at found
    refine .of_found kind found ?_ ?_
    · exact ⟨condition, _, rfl, isExpression_of_accepted accepted, first, _, rfl,
        kind_of_body member, .inl rfl⟩
    · exact List.forall_mem_cons.mpr
        ⟨.expression accepted, List.forall_mem_singleton.mpr (.block inside)⟩
  · have memberElse : second ∈ n.childrenOf .block := by simp [bodies]
    have insideElse := accepted_body memberElse resultsElse
    rw [bodies] at found
    refine .of_found kind found ?_ ?_
    · exact ⟨condition, _, rfl, isExpression_of_accepted accepted, first, _, rfl,
        kind_of_body member, .inr ⟨second, [], rfl, kind_of_body memberElse, rfl⟩⟩
    · refine List.forall_mem_cons.mpr ⟨.expression accepted, ?_⟩
      exact List.forall_mem_cons.mpr
        ⟨.block inside, List.forall_mem_singleton.mpr (.block insideElse)⟩

theorem filled_concrete (h : Accepted (concreteStatement n)) : Filled n := by
  have kinds := isStatement_of_accepted h
  have parts := h
  rw [concreteStatement_eq, concreteOf] at parts
  obtain ⟨_, -, parts⟩ := accepted_first parts
  rw [IsStatement] at kinds
  cases kind : n.kind with
  | assignmentStatement =>
    rw [kind] at parts
    exact filled_assignment kind parts
  | returnStatement =>
    rw [kind] at parts
    exact filled_return kind parts
  | replyStatement =>
    rw [kind] at parts
    exact filled_reply kind parts
  | functionInvocationStatement =>
    rw [kind] at parts
    exact filled_invocation kind parts
  | ifElseStatement => exact filled_ifElse kind h
  | whileStatement => exact filled_while kind h
  | block =>
    rw [kind] at parts
    obtain ⟨ss, lowered, -⟩ := accepted_first parts
    rw [← block_eq] at lowered
    exact filled_block ⟨ss, lowered⟩
  | _ =>
    rw [kind] at kinds
    cases kinds

/-- Whatever a node was accepted as, its children are all there and accepted. -/
theorem filled_of_passes (h : Passes n) : Filled n := by
  cases h with
  | wrapper accepted => exact filled_statement accepted
  | concrete accepted => exact filled_concrete accepted
  | block accepted => exact filled_block accepted
  | expression accepted => exact filled_expression accepted
  | call accepted => exact filled_call accepted
  | arguments kind accepted => exact filled_arguments kind accepted
  | word kind =>
    rcases kind with kind | kind
    · exact filled_token (by rw [kind]; rfl) (by rw [kind]; rfl)
    · exact filled_token (by rw [kind]; rfl) (by rw [kind]; rfl)

end

/-- The lowering of the first node comes to the second one. -/
inductive Visits : Node → Node → Prop where
  | here (n : Node) : Visits n n
  | child {n c m : Node} (found : c ∈ heeded n) (rest : Visits c m) : Visits n m

/-- By induction on the way from the first node to the second: each step goes to a child that is
accepted because its parent is. -/
theorem passes_of_visits {n m : Node} (visits : Visits n m) (h : Passes n) : Passes m := by
  induction visits with
  | here n => exact h
  | child found _ ih => exact ih ((filled_of_passes h).below _ found)

end ServiceLang.Lowering
