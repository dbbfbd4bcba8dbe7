import ServiceLang.Proofs.Lowering.Equations
import ServiceLang.Proofs.Semantic.Relocation
import ServiceLang.Proofs.Syntax.Significant

/-!
# What the lowering depends on

A rendering of syntax trees may change whatever it likes except the kinds of nodes, the texts of
tokens and, for all other nodes, their significant children. It may also move the spans. The
lowering of a rendered node is the lowering of the node, with the spans of the result moved alike:
nothing else of the tree is ever looked at, and no decision depends on a span.
-/

namespace ServiceLang.Lowering

open Syntax (Kind Node)
open Semantic
open Outcome

structure Renders (φ : Node → Node) (f : Span → Span) : Prop where
  kind : ∀ n, (φ n).kind = n.kind
  span : ∀ n, (φ n).span = f n.span
  text : ∀ n, n.kind.isWorded = true → (φ n).textOrEmpty = n.textOrEmpty
  significant : ∀ n, n.kind.isToken = false → (φ n).significant = n.significant.map φ

/-- The flaw carries the moved span and is otherwise the same. -/
theorem orFlaw_transport {α β : Type} {f : Span → Span} {g : α → β} {a? : Option α} {b? : Option β}
    {span span' : Span} {flaw : Flaw} (hb : b? = a?.map g) (hs : span' = f span) :
    orFlaw b? span' flaw = transport f g (orFlaw a? span flaw) := by
  subst hb hs
  cases a? <;> rfl

def PartialResource.relocate (f : Span → Span) (p : PartialResource) : PartialResource :=
  { p with resource := p.resource.relocate f }

namespace Renders

/-- The members of a list read as expressions are transported. -/
def Expressions (φ : Node → Node) (f : Span → Span) (cs : List Node) : Prop :=
  ∀ c ∈ cs, expression (φ c) = transport f (·.relocate f) (expression c)

variable {φ : Node → Node} {f : Span → Span} (h : Renders φ f)

section

include h

/-- A refusal of the rendered node is the refusal of the node, at the moved span. -/
theorem flawed {α β : Type} (g : α → β) (n : Node) (flaw : Flaw) :
    flawed (φ n).span flaw = transport f g (Outcome.flawed n.span flaw) := by
  rw [h.span, transport_flawed]

/-- Children are chosen by their kinds, which a rendering keeps. -/
theorem filter_map (p : Kind → Bool) (ns : List Node) :
    (ns.map φ).filter (fun c => p c.kind) = (ns.filter fun c => p c.kind).map φ := by
  rw [List.filter_map]
  refine congrArg (List.map φ) (List.filter_congr fun c _ => ?_)
  rw [Function.comp, h.kind]

theorem find?_map (p : Kind → Bool) (ns : List Node) :
    (ns.map φ).find? (fun c => p c.kind) = (ns.find? fun c => p c.kind).map φ := by
  rw [List.find?_map]
  simp only [Function.comp_def, h.kind]

theorem operandsOf {n : Node} (inner : n.kind.isToken = false) :
    operandsOf (φ n) = (Lowering.operandsOf n).map φ := by
  rw [Lowering.operandsOf, h.significant n inner]
  exact h.filter_map (!· == .operator) _

theorem childrenOf {n : Node} (inner : n.kind.isToken = false) {kind : Kind}
    (visible : kind.isTrivia = false) : (φ n).childrenOf kind = (n.childrenOf kind).map φ := by
  rw [Node.childrenOf_eq_filter _ visible, Node.childrenOf_eq_filter _ visible,
    h.significant n inner]
  exact h.filter_map (· == kind) _

/-- The first child of a kind that is not trivia stays the first. -/
theorem child? {n : Node} (inner : n.kind.isToken = false) {kind : Kind}
    (visible : kind.isTrivia = false) : (φ n).child? kind = (n.child? kind).map φ := by
  rw [Node.child?_eq_find? _ visible, Node.child?_eq_find? _ visible, h.significant n inner]
  exact h.find?_map (· == kind) _

theorem requiredChild {n : Node} (inner : n.kind.isToken = false) {kind : Kind}
    (visible : kind.isTrivia = false) (subject : Subject) :
    requiredChild (φ n) kind subject = transport f φ (Lowering.requiredChild n kind subject) :=
  orFlaw_transport (h.child? inner visible) (h.span n)

/-- Nothing but the text decides on a literal, and the text of a token is kept. -/
theorem literal {α : Type} {n : Node} (worded : n.kind.isWorded = true) (read : String → Option α) :
    literal (φ n) read = transport f id (Lowering.literal n read) := by
  rw [Lowering.literal, Lowering.literal, h.text n worded, h.kind, h.span]
  cases read n.textOrEmpty <;> rfl

/-- Identifiers are tokens, so that a name is the same before and after. -/
theorem nameOf {n : Node} (inner : n.kind.isToken = false) (subject : Subject) :
    nameOf (φ n) subject = transport f id (Lowering.nameOf n subject) := by
  rw [Lowering.nameOf, Lowering.nameOf]
  refine bind_transport_of_ok (h.requiredChild inner rfl subject) fun c found => ?_
  have worded : c.kind.isWorded = true := by
    rw [Node.kind_of_child? (child?_of_requiredChild found)]
    rfl
  rw [h.text c worded, h.span]
  split <;> rfl

theorem operatorOf {n : Node} (inner : n.kind.isToken = false) :
    operatorOf (φ n) = transport f id (Lowering.operatorOf n) := by
  rw [Lowering.operatorOf, Lowering.operatorOf, h.kind]
  refine bind_transport_of_ok (h.requiredChild inner rfl _) fun c found => ?_
  have worded : c.kind.isWorded = true := by
    rw [Node.kind_of_child? (child?_of_requiredChild found)]
    rfl
  rw [h.text c worded]
  rfl

/-- The operator is found again among the children, and the operands by the hypothesis on them. -/
theorem binary {n : Node} (inner : n.kind.isToken = false) (ih : Expressions φ f n.children) :
    binaryOf (φ n) (partsOf (φ n).children) =
      transport f (·.relocate f) (binaryOf n (partsOf n.children)) := by
  have read : Expressions φ f (Lowering.operandsOf n) := fun c hc =>
    ih c (mem_children_of_operandsOf hc)
  rw [binaryOf_eq, binaryOf_eq]
  refine bind_transport (h.operatorOf inner) fun symbol => ?_
  refine bind_transport (orFlaw_transport Option.map_id_apply.symm (h.span n)) fun op => ?_
  rw [h.operandsOf inner]
  rcases operands : Lowering.operandsOf n with _ | ⟨left, _ | ⟨right, _ | ⟨extra, rest⟩⟩⟩
  · exact h.flawed _ n _
  · exact h.flawed _ n _
  · rw [operands] at read
    refine bind_transport (read left (by simp)) fun l => ?_
    refine bind_transport (read right (by simp)) fun r => ?_
    rw [h.span]
    rfl
  · exact h.flawed _ n _

theorem unary {n : Node} (inner : n.kind.isToken = false) (ih : Expressions φ f n.children) :
    unaryOf (φ n) (partsOf (φ n).children) =
      transport f (·.relocate f) (unaryOf n (partsOf n.children)) := by
  have read : Expressions φ f (Lowering.operandsOf n) := fun c hc =>
    ih c (mem_children_of_operandsOf hc)
  rw [unaryOf_eq, unaryOf_eq]
  refine bind_transport (h.operatorOf inner) fun symbol => ?_
  refine bind_transport (orFlaw_transport Option.map_id_apply.symm (h.span n)) fun op => ?_
  rw [h.operandsOf inner]
  rcases operands : Lowering.operandsOf n with _ | ⟨operand, _ | ⟨extra, rest⟩⟩
  · exact h.flawed _ n _
  · rw [operands] at read
    refine bind_transport (read operand (by simp)) fun e => ?_
    rw [h.span]
    rfl
  · exact h.flawed _ n _

/-- Parentheses leave no span behind, so that nothing but the inner expression moves. -/
theorem parenthesized {n : Node} (inner : n.kind.isToken = false)
    (ih : Expressions φ f n.children) :
    parenthesizedOf (φ n) (partsOf (φ n).children) =
      transport f (·.relocate f) (parenthesizedOf n (partsOf n.children)) := by
  have read : Expressions φ f (Lowering.operandsOf n) := fun c hc =>
    ih c (mem_children_of_operandsOf hc)
  rw [parenthesizedOf_eq, parenthesizedOf_eq, h.operandsOf inner]
  rcases operands : Lowering.operandsOf n with _ | ⟨operand, _ | ⟨extra, rest⟩⟩
  · exact h.flawed _ n _
  · rw [operands] at read
    exact read operand (by simp)
  · exact h.flawed _ n _

theorem arrayElement {n : Node} (inner : n.kind.isToken = false)
    (ih : Expressions φ f n.children) :
    arrayElementOf (φ n) (partsOf (φ n).children) =
      transport f (·.relocate f) (arrayElementOf n (partsOf n.children)) := by
  rw [arrayElementOf_eq, arrayElementOf_eq]
  refine bind_transport (h.nameOf inner _) fun name => ?_
  have index : (φ n).significant.find? (·.kind.isExpression) =
      (n.significant.find? (·.kind.isExpression)).map φ := by
    rw [h.significant n inner, h.find?_map Kind.isExpression]
  refine bind_transport_of_ok (orFlaw_transport index (h.span n)) fun c found => ?_
  have member : c ∈ n.children :=
    Node.mem_children_of_significant (List.mem_of_find?_eq_some (of_orFlaw found))
  refine bind_transport (ih c member) fun e => ?_
  rw [h.span]
  rfl

/-- A missing list of arguments is missing in the rendered node too. -/
theorem argumentsOf {n : Node} (inner : n.kind.isToken = false)
    (below : ∀ c ∈ n.children, Expressions φ f c.children) :
    argumentsOf (φ n) = transport f (List.map (·.relocate f)) (Lowering.argumentsOf n) := by
  rw [Lowering.argumentsOf, Lowering.argumentsOf, h.child? inner rfl]
  cases found : n.child? .argumentList with
  | none => rfl
  | some list =>
    have read := below list (Node.mem_of_child? found)
    have isList : list.kind.isToken = false := by
      rw [Node.kind_of_child? found]
      rfl
    simp only [Option.map_some]
    rw [h.significant list isList]
    exact each_transport fun c hc => read c (Node.mem_children_of_significant hc)

/-- A call holds no span of its own, only those of its arguments move. -/
theorem call {n : Node} (below : ∀ c ∈ n.children, Expressions φ f c.children) :
    call (φ n) = transport f (·.relocate f) (Lowering.call n) := by
  rw [call_eq, call_eq, expectKind_bind, expectKind_bind, h.kind]
  by_cases kind : n.kind = .functionInvocation
  · have inner : n.kind.isToken = false := by rw [kind]; rfl
    rw [if_pos kind, if_pos kind]
    refine bind_transport (h.nameOf inner _) fun qualified => ?_
    refine bind_transport (orFlaw_transport Option.map_id_apply.symm (h.span n)) fun named => ?_
    refine bind_transport (h.argumentsOf inner below) fun es => ?_
    rfl
  · rw [if_neg kind, if_neg kind]
    exact h.flawed _ n _

/-- One step of the induction: the children of arguments are two levels down. -/
theorem expression_step {n : Node} (ih : Expressions φ f n.children)
    (below : ∀ c ∈ n.children, Expressions φ f c.children) :
    expression (φ n) = transport f (·.relocate f) (Lowering.expression n) := by
  rw [expression_eq, expression_eq, expressionOf, expressionOf, h.kind]
  have inner {kind : Kind} (same : n.kind = kind) (open_ : kind.isToken = false) :
      n.kind.isToken = false := same ▸ open_
  have worded {kind : Kind} (same : n.kind = kind) (word : kind.isWorded = true) :
      n.kind.isWorded = true := same ▸ word
  cases kind : n.kind with
  | integerLiteral => exact bind_transport (h.literal (worded kind rfl) _) fun _ => rfl
  | floatLiteral => exact bind_transport (h.literal (worded kind rfl) _) fun _ => rfl
  | stringLiteral => exact bind_transport (h.literal (worded kind rfl) _) fun _ => rfl
  | booleanLiteral => exact bind_transport (h.literal (worded kind rfl) _) fun _ => rfl
  | nullLiteral => rfl
  | variableReference =>
    refine bind_transport (h.nameOf (inner kind rfl) _) fun name => ?_
    rw [h.span]
    rfl
  | arrayElementReference => exact h.arrayElement (inner kind rfl) ih
  | functionInvocation =>
    refine bind_transport (h.call below) fun c => ?_
    rw [h.span]
    simp only [Call.toExpression, Call.relocate, transport_pure, Expression.relocate,
      Expression.relocateAll_eq_map]
  | binaryExpression => exact h.binary (inner kind rfl) ih
  | unaryExpression => exact h.unary (inner kind rfl) ih
  | parenthesizedExpression => exact h.parenthesized (inner kind rfl) ih
  | _ => exact h.flawed _ n _

theorem expression (n : Node) :
    expression (φ n) = transport f (·.relocate f) (Lowering.expression n) := by
  induction n using Node.induction_twoLevels with
  | step n children below => exact h.expression_step children below

theorem condition (n : Node) (inner : n.kind.isToken = false) (subject : Subject) :
    conditionOf (φ n) subject = transport f (·.relocate f) (conditionOf n subject) := by
  have conditions : (φ n).significant.filter (·.kind.isExpression) =
      (n.significant.filter (·.kind.isExpression)).map φ := by
    rw [h.significant n inner, h.filter_map Kind.isExpression]
  rw [conditionOf, conditionOf, conditions]
  generalize n.significant.filter (·.kind.isExpression) = found
  rcases found with _ | ⟨condition, _ | ⟨extra, rest⟩⟩
  · exact h.flawed _ n _
  · exact h.expression condition
  · exact h.flawed _ extra _

theorem assignment (n : Node) (inner : n.kind.isToken = false) :
    assignmentOf (φ n) = transport f (·.relocate f) (assignmentOf n) := by
  rw [assignmentOf, assignmentOf, h.operandsOf inner]
  rcases Lowering.operandsOf n with _ | ⟨target, _ | ⟨value, _ | ⟨extra, rest⟩⟩⟩
  · exact h.flawed _ n _
  · exact h.flawed _ n _
  · simp only [List.map_cons, List.map_nil, h.kind]
    split
    · refine bind_transport (h.expression target) fun t => ?_
      refine bind_transport (h.expression value) fun v => ?_
      rw [h.span]
      rfl
    · exact h.flawed _ target _
  · exact h.flawed _ n _

theorem return_ (n : Node) (inner : n.kind.isToken = false) :
    returnOf (φ n) = transport f (·.relocate f) (returnOf n) := by
  rw [returnOf, returnOf, h.operandsOf inner]
  refine bind_transport (each_transport fun c _ => h.expression c) fun values => ?_
  rw [h.span]
  rfl

theorem reply (n : Node) (inner : n.kind.isToken = false) :
    replyOf (φ n) = transport f (·.relocate f) (replyOf n) := by
  rw [replyOf, replyOf, h.operandsOf inner]
  rcases Lowering.operandsOf n with _ | ⟨value, _ | ⟨extra, rest⟩⟩
  · exact h.flawed _ n _
  · refine bind_transport (h.expression value) fun v => ?_
    rw [h.span]
    rfl
  · exact h.flawed _ n _

theorem invocation (n : Node) (inner : n.kind.isToken = false) :
    invocationOf (φ n) = transport f (·.relocate f) (invocationOf n) := by
  rw [invocationOf, invocationOf]
  refine bind_transport (h.requiredChild inner rfl _) fun callee => ?_
  refine bind_transport (h.call fun c _ => fun d _ => h.expression d) fun c => ?_
  rw [h.span]
  rfl

end

/-- A node read as a wrapped statement, as a statement without its wrapper and as a block is
transported. -/
structure Statements (φ : Node → Node) (f : Span → Span) (n : Node) : Prop where
  wrapped : statement (φ n) = transport f (·.relocate f) (statement n)
  concrete : concreteStatement (φ n) = transport f (·.relocate f) (concreteStatement n)
  block : block (φ n) = transport f (List.map (·.relocate f)) (block n)

include h

/-- The condition is an expression, about which all is known. The bodies are the blocks among the
children, about which the hypothesis speaks. -/
theorem ifElse (n : Node) (inner : n.kind.isToken = false)
    (ih : ∀ c ∈ n.children, Statements φ f c) :
    ifElseOf (φ n) (clausesOf (φ n).children) =
      transport f (·.relocate f) (ifElseOf n (clausesOf n.children)) := by
  have bodies : ∀ c ∈ n.childrenOf .block, Statements φ f c := fun c hc =>
    ih c (List.mem_filter.mp hc).1
  rw [ifElseOf_eq, ifElseOf_eq]
  refine bind_transport (h.condition n inner _) fun condition => ?_
  rw [h.childrenOf inner rfl]
  rcases blocks : n.childrenOf .block with _ | ⟨first, _ | ⟨second, _ | ⟨extra, rest⟩⟩⟩
  · exact h.flawed _ n _
  · rw [blocks] at bodies
    refine bind_transport (bodies first (by simp)).block fun thenBody => ?_
    rw [h.span]
    simp only [transport_pure, Statement.relocate, Statement.relocateElse,
      Statement.relocateAll_eq_map]
  · rw [blocks] at bodies
    refine bind_transport (bodies first (by simp)).block fun thenBody => ?_
    refine bind_transport (bodies second (by simp)).block fun elseBody => ?_
    rw [h.span]
    simp only [List.map_nil, transport_pure, Statement.relocate, Statement.relocateElse,
      Statement.relocateAll_eq_map]
  · rw [blocks] at bodies
    refine bind_transport (bodies first (by simp)).block fun thenBody => ?_
    refine bind_transport (bodies second (by simp)).block fun elseBody => ?_
    exact h.flawed _ extra _

theorem while_ (n : Node) (inner : n.kind.isToken = false)
    (ih : ∀ c ∈ n.children, Statements φ f c) :
    whileOf (φ n) (clausesOf (φ n).children) =
      transport f (·.relocate f) (whileOf n (clausesOf n.children)) := by
  have bodies : ∀ c ∈ n.childrenOf .block, Statements φ f c := fun c hc =>
    ih c (List.mem_filter.mp hc).1
  rw [whileOf_eq, whileOf_eq]
  refine bind_transport (h.condition n inner _) fun condition => ?_
  rw [h.childrenOf inner rfl]
  rcases blocks : n.childrenOf .block with _ | ⟨first, _ | ⟨extra, rest⟩⟩
  · exact h.flawed _ n _
  · rw [blocks] at bodies
    refine bind_transport (bodies first (by simp)).block fun body => ?_
    rw [h.span]
    simp only [List.map_nil, transport_pure, Statement.relocate, Statement.relocateAll_eq_map]
  · rw [blocks] at bodies
    refine bind_transport (bodies first (by simp)).block fun body => ?_
    exact h.flawed _ extra _

theorem block_step (n : Node) (ih : ∀ c ∈ n.children, Statements φ f c) :
    Lowering.block (φ n) = transport f (List.map (·.relocate f)) (Lowering.block n) := by
  rw [block_eq_each, block_eq_each, expectKind_bind, expectKind_bind, h.kind]
  by_cases kind : n.kind = .block
  · have inner : n.kind.isToken = false := by rw [kind]; rfl
    rw [if_pos kind, if_pos kind, h.significant n inner]
    exact each_transport fun c hc => (ih c (Node.mem_children_of_significant hc)).wrapped
  · rw [if_neg kind, if_neg kind]
    exact h.flawed _ n _

theorem wrapped_step (n : Node) (ih : ∀ c ∈ n.children, Statements φ f c) :
    statement (φ n) = transport f (·.relocate f) (statement n) := by
  rw [statement_eq_concrete, statement_eq_concrete, expectKind_bind, expectKind_bind, h.kind]
  by_cases kind : n.kind = .statement
  · have inner : n.kind.isToken = false := by rw [kind]; rfl
    rw [if_pos kind, if_pos kind, h.significant n inner]
    rcases members : n.significant with _ | ⟨only, _ | ⟨extra, rest⟩⟩
    · exact h.flawed _ n _
    · have member : only ∈ n.significant := members ▸ List.mem_cons_self
      exact (ih only (Node.mem_children_of_significant member)).concrete
    · exact h.flawed _ extra _
  · rw [if_neg kind, if_neg kind]
    exact h.flawed _ n _

theorem concrete_step (n : Node) (ih : ∀ c ∈ n.children, Statements φ f c) :
    concreteStatement (φ n) = transport f (·.relocate f) (concreteStatement n) := by
  rw [concreteStatement_eq, concreteStatement_eq, concreteOf, concreteOf, h.kind]
  refine bind_transport (g := id) rfl fun _ => ?_
  have inner {kind : Kind} (same : n.kind = kind) (open_ : kind.isToken = false) :
      n.kind.isToken = false := same ▸ open_
  cases kind : n.kind with
  | assignmentStatement => exact h.assignment n (inner kind rfl)
  | returnStatement => exact h.return_ n (inner kind rfl)
  | replyStatement => exact h.reply n (inner kind rfl)
  | functionInvocationStatement => exact h.invocation n (inner kind rfl)
  | ifElseStatement => exact h.ifElse n (inner kind rfl) ih
  | whileStatement => exact h.while_ n (inner kind rfl) ih
  | block =>
    simp only [← block_eq]
    refine bind_transport (h.block_step n ih) fun statements => ?_
    rw [h.span]
    simp only [transport_pure, Statement.relocate, Statement.relocateAll_eq_map]
  | _ => exact h.flawed _ n _

/-- Statements and blocks of a rendered node are those of the node, moved. -/
theorem statements (n : Node) : Statements φ f n := by
  induction n using Node.induction with
  | step n ih => exact ⟨h.wrapped_step n ih, h.concrete_step n ih, h.block_step n ih⟩

theorem keyed (n : Node) (inner : n.kind.isToken = false) :
    annotationAttribute (φ n) = transport f id (annotationAttribute n) := by
  rw [annotationAttribute, annotationAttribute]
  refine bind_transport (h.nameOf inner _) fun key => ?_
  refine bind_transport_of_ok (h.requiredChild inner rfl _) fun value found => ?_
  have worded : value.kind.isWorded = true := by
    rw [Node.kind_of_child? (child?_of_requiredChild found)]
    rfl
  exact bind_transport (h.literal worded _) fun text => rfl

/-- One child of an annotation more. The fold over all of them follows by the transport of folds. -/
theorem addToAnnotation (a : Annotation) (child : Node) :
    addToAnnotation (a.relocate f) (φ child) =
      transport f (·.relocate f) (Lowering.addToAnnotation a child) := by
  rw [Lowering.addToAnnotation, Lowering.addToAnnotation, h.kind]
  cases kind : child.kind with
  | identifier => rfl
  | stringLiteral =>
    have worded : child.kind.isWorded = true := by rw [kind]; rfl
    cases value : a.value with
    | none =>
      simp only [value, Annotation.relocate]
      exact bind_transport (h.literal worded _) fun text => rfl
    | some text =>
      simp only [value, Annotation.relocate]
      exact h.flawed _ child _
  | annotationAttribute =>
    have inner : child.kind.isToken = false := by rw [kind]; rfl
    refine bind_transport (h.keyed child inner) fun new => ?_
    simp only [id, transport_pure, Annotation.relocate]
  | _ => exact h.flawed _ child _

/-- An annotation starts from the name and the span of its node and takes its children one by
one. -/
theorem annotated (n : Node) :
    annotation (φ n) = transport f (·.relocate f) (Lowering.annotation n) := by
  rw [Lowering.annotation, Lowering.annotation, expectKind_bind, expectKind_bind, h.kind]
  by_cases kind : n.kind = Kind.annotation
  · have inner : n.kind.isToken = false := by rw [kind]; rfl
    rw [if_pos kind, if_pos kind]
    refine bind_transport (h.nameOf inner _) fun raw => ?_
    simp only [id]
    split
    · exact h.flawed _ n _
    · refine bind_transport (g := id) rfl fun _ => ?_
      rw [h.significant n inner, h.span]
      exact fold_transport (fun child _ a => h.addToAnnotation a child)
        ⟨withoutAt raw, none, [], n.span⟩
  · rw [if_neg kind, if_neg kind]
    exact h.flawed _ n _

theorem declaration (n : Node) :
    declaration (φ n) = transport f (·.relocate f) (Lowering.declaration n) := by
  rw [Lowering.declaration, Lowering.declaration, expectKind_bind, expectKind_bind, h.kind]
  by_cases kind : n.kind = .variableDeclaration
  · have inner : n.kind.isToken = false := by rw [kind]; rfl
    rw [if_pos kind, if_pos kind]
    refine bind_transport_of_ok (h.requiredChild inner rfl _) fun typeNode found => ?_
    have worded : typeNode.kind.isWorded = true := by
      rw [Node.kind_of_child? (child?_of_requiredChild found)]
      rfl
    rw [h.text typeNode worded, h.span]
    refine bind_transport (orFlaw_transport Option.map_id_apply.symm rfl) fun type => ?_
    refine bind_transport (h.nameOf inner _) fun name => ?_
    refine bind_transport (g := id) rfl fun _ => ?_
    rw [h.span]
    rfl
  · rw [if_neg kind, if_neg kind]
    exact h.flawed _ n _

/-- A declaration or a statement of the body more. -/
theorem addToBody (r : Resource) (child : Node) :
    addToBody (r.relocate f) (φ child) =
      transport f (·.relocate f) (Lowering.addToBody r child) := by
  rw [Lowering.addToBody, Lowering.addToBody, h.kind]
  cases kind : child.kind with
  | variableDeclaration =>
    simp only [Resource.relocate, List.isEmpty_map]
    split
    · refine bind_transport (h.declaration child) fun new => ?_
      simp only [Resource.withVariable, transport_pure, List.map_append, List.map_cons,
        List.map_nil]
    · exact h.flawed _ child _
  | statement =>
    refine bind_transport (h.statements child).wrapped fun new => ?_
    simp only [Resource.withStatement, transport_pure, Resource.relocate, List.map_append,
      List.map_cons, List.map_nil]
  | _ => exact h.flawed _ child _

/-- One child of a resource more, with what has been found so far carried along. -/
theorem addToResource (p : PartialResource) (child : Node) :
    addToResource (p.relocate f) (φ child) =
      transport f (·.relocate f) (Lowering.addToResource p child) := by
  obtain ⟨r, named, bodied⟩ := p
  rw [Lowering.addToResource, Lowering.addToResource, h.kind]
  cases kind : child.kind with
  | annotation =>
    refine bind_transport (h.annotated child) fun new => ?_
    simp only [Resource.withAnnotation, transport_pure, PartialResource.relocate,
      Resource.relocate, List.map_append, List.map_cons, List.map_nil]
  | identifier =>
    cases named with
    | true => exact h.flawed _ child _
    | false => rfl
  | functionBody =>
    have inner : child.kind.isToken = false := by rw [kind]; rfl
    cases bodied with
    | true => exact h.flawed _ child _
    | false =>
      rw [h.significant child inner]
      refine bind_transport (fold_transport (fun c _ r => h.addToBody r c) r) fun filled => ?_
      rfl
  | _ => exact h.flawed _ child _

/-- The name is looked for first and a missing body noticed at the end. Either is missing in both
nodes or in neither. -/
theorem resource (n : Node) :
    resource (φ n) = transport f (·.relocate f) (Lowering.resource n) := by
  rw [Lowering.resource, Lowering.resource, expectKind_bind, expectKind_bind, h.kind]
  by_cases kind : n.kind = .resourceDefinition
  · have inner : n.kind.isToken = false := by rw [kind]; rfl
    rw [if_pos kind, if_pos kind]
    refine bind_transport (h.nameOf inner _) fun name => ?_
    rw [h.significant n inner, h.span]
    refine bind_transport (fold_transport (fun child _ p => h.addToResource p child)
      ⟨Resource.empty name n.span, false, false⟩) fun read => ?_
    obtain ⟨r, named, bodied⟩ := read
    cases bodied with
    | true =>
      simp only [PartialResource.relocate, Resource.relocate, List.length_map, if_true]
      exact bind_transport (g := id) rfl fun _ => rfl
    | false => rfl
  · rw [if_neg kind, if_neg kind]
    exact h.flawed _ n _

/-- One child of a service more. -/
theorem addToService (s : Service) (child : Node) :
    addToService (s.relocate f) (φ child) =
      transport f (·.relocate f) (Lowering.addToService s child) := by
  rw [Lowering.addToService, Lowering.addToService, h.kind]
  cases kind : child.kind with
  | annotation =>
    refine bind_transport (h.annotated child) fun new => ?_
    simp only [transport_pure, Service.relocate, List.map_append, List.map_cons, List.map_nil]
  | resourceDefinition =>
    refine bind_transport (h.resource child) fun new => ?_
    simp only [transport_pure, Service.relocate, List.map_append, List.map_cons, List.map_nil]
  | identifier => rfl
  | _ => exact h.flawed _ child _

theorem service (n : Node) :
    service (φ n) = transport f (·.relocate f) (Lowering.service n) := by
  rw [Lowering.service, Lowering.service, expectKind_bind, expectKind_bind, h.kind]
  by_cases kind : n.kind = .serviceDefinition
  · have inner : n.kind.isToken = false := by rw [kind]; rfl
    rw [if_pos kind, if_pos kind]
    refine bind_transport (h.nameOf inner _) fun name => ?_
    rw [h.significant n inner, h.span]
    refine bind_transport (fold_transport (fun child _ s => h.addToService s child)
      ⟨name, [], [], n.span⟩) fun s => ?_
    simp only [Service.relocate, List.length_map]
    exact bind_transport (g := id) rfl fun _ => rfl
  · rw [if_neg kind, if_neg kind]
    exact h.flawed _ n _

/-- Anything but a service is refused at top level, before and after. -/
theorem topLevel (n : Node) :
    topLevel (φ n) = transport f (·.relocate f) (Lowering.topLevel n) := by
  rw [Lowering.topLevel, Lowering.topLevel, h.kind]
  cases n.kind with
  | serviceDefinition => exact h.service n
  | _ => exact h.flawed _ n _

/-- Error nodes are looked for everywhere, so that they are no part of what is rendered. -/
theorem tree {t t' : Syntax.Tree} (root : t'.root = φ t.root)
    (diagnostics : syntaxDiagnostics t' = (syntaxDiagnostics t).map (·.relocate f)) :
    tree t' = transport f (·.relocate f) (Lowering.tree t) := by
  rw [Lowering.tree, Lowering.tree, diagnostics, root]
  rcases found : syntaxDiagnostics t with _ | ⟨d, ds⟩
  · simp only [List.map_nil]
    rw [expectKind_bind, expectKind_bind, h.kind]
    by_cases kind : t.root.kind = .compilationUnit
    · have inner : t.root.kind.isToken = false := by rw [kind]; rfl
      rw [if_pos kind, if_pos kind, h.significant t.root inner]
      exact bind_transport (each_transport fun c _ => h.topLevel c) fun services => rfl
    · rw [if_neg kind, if_neg kind]
      exact h.flawed _ t.root _
  · simp only [List.map_cons, List.length_cons, List.length_map]
    exact bind_transport (g := id) rfl fun _ => rfl

end Renders

end ServiceLang.Lowering
