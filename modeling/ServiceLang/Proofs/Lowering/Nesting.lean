import ServiceLang.Proofs.Lowering.Blame
import ServiceLang.Proofs.Lowering.Soundness
import ServiceLang.Proofs.Semantic.Nesting

/-!
# Spans of what is lowered

The lowering drops wrappers, parentheses and tokens, and gives what it makes the span of the node
that it is made from. So the spans of a semantic tree nest and follow one another if those of the
syntax tree do, and an error points into the node that was handed in.
-/

namespace ServiceLang.Lowering

open Syntax (Kind Node)
open Semantic
open Outcome

variable {α β γ : Type}

/-- The elements lie where the node is: within its span and in order, if the spans below it nest and
are in order. -/
structure Places (n : Node) (xs : List Element) : Prop where
  nested : n.Nested → ∀ x ∈ xs, x.Nested ∧ ∀ s ∈ x.span?, s.Within n.span
  ordered : n.Nested → n.Ordered → xs.Pairwise Element.Before ∧ ∀ x ∈ xs, x.Ordered

/-- Each node has its share of the elements, in the order of the nodes. -/
inductive Gathered : List Node → List Element → Prop
  | nil : Gathered [] []
  | cons {c : Node} {cs : List Node} {xs ys : List Element} (first : Places c xs)
    (rest : Gathered cs ys) : Gathered (c :: cs) (xs ++ ys)

theorem Places.nil (n : Node) : Places n [] :=
  ⟨fun _ => List.forall_mem_nil _, fun _ _ => ⟨.nil, List.forall_mem_nil _⟩⟩

/-- An element with the span of a node that places what the element holds. -/
theorem Places.element {n : Node} {x : Element} (span : ∀ s ∈ x.span?, s = n.span)
    (parts : ∀ xs ∈ x.sequences, Places n xs) : Places n [x] where
  nested nested := by
    refine List.forall_mem_singleton.mpr ⟨?_, ?_⟩
    · refine .element (fun xs sequence y member s found t carried => ?_) ?_
      · rw [span t carried]
        exact ((parts xs sequence).nested nested y member).2 s found
      · exact fun xs sequence y member => ((parts xs sequence).nested nested y member).1
    · intro s carried
      rw [span s carried]
      exact .refl n.span
  ordered nested ordered := by
    refine ⟨List.pairwise_singleton _ x, List.forall_mem_singleton.mpr (.element ?_ ?_)⟩
    · exact fun xs sequence => ((parts xs sequence).ordered nested ordered).1
    · exact fun xs sequence => ((parts xs sequence).ordered nested ordered).2

/-- An element that carries the span of the node. -/
theorem Places.spanned {n : Node} {x : Element} (span : x.span? = some n.span)
    (parts : ∀ xs ∈ x.sequences, Places n xs) : Places n [x] := by
  refine .element (fun s carried => ?_) parts
  rw [span] at carried
  exact (Option.some.inj carried).symm

theorem Places.holding {n : Node} {x : Element} {xs : List Element} (span : x.span? = some n.span)
    (sequences : x.sequences = [xs]) (placed : Places n xs) : Places n [x] := by
  refine .spanned span ?_
  rw [sequences]
  exact List.forall_mem_singleton.mpr placed

/-- An element with two sequences of parts, such as the branches of a conditional. -/
theorem Places.holdingBoth {n : Node} {x : Element} {xs ys : List Element}
    (span : x.span? = some n.span) (sequences : x.sequences = [xs, ys]) (first : Places n xs)
    (second : Places n ys) : Places n [x] := by
  refine .spanned span ?_
  rw [sequences]
  exact List.forall_mem_cons.mpr ⟨first, List.forall_mem_singleton.mpr second⟩

/-- An element that carries no span and so holds nothing lies anywhere. -/
theorem Places.unspanned {n : Node} {x : Element} (span : x.span? = none) : Places n [x] := by
  refine .element (fun s carried => ?_) fun xs sequence => ?_
  · rw [span] at carried
    cases carried
  · obtain ⟨s, carried⟩ := Element.span?_of_sequence sequence
    rw [span] at carried
    cases carried

namespace Gathered

variable {n : Node} {cs ds : List Node} {xs ys : List Element}

theorem append (front : Gathered cs xs) (back : Gathered ds ys) :
    Gathered (cs ++ ds) (xs ++ ys) := by
  induction front with
  | nil => exact back
  | cons first rest ih =>
    rw [List.cons_append, List.append_assoc]
    exact .cons first ih

theorem single {c : Node} (placed : Places c xs) : Gathered [c] xs := by
  rw [← List.append_nil xs]
  exact .cons placed .nil

/-- Nodes may have no share at all. -/
theorem idle (cs : List Node) : Gathered cs [] := by
  induction cs with
  | nil => exact .nil
  | cons c cs ih => exact .cons (.nil c) ih

/-- One more node and its share. -/
theorem push {c : Node} (front : Gathered cs xs) (placed : Places c ys) :
    Gathered (cs ++ [c]) (xs ++ ys) :=
  front.append (single placed)

/-- One more node without a share. -/
theorem skip (front : Gathered cs xs) (c : Node) : Gathered (cs ++ [c]) xs := by
  have all := front.push (Places.nil c)
  rw [List.append_nil] at all
  exact all

/-- An element is part of the share of one of the nodes. -/
theorem source {x : Element} (gathered : Gathered cs xs) (member : x ∈ xs) :
    ∃ c ∈ cs, ∃ share, Places c share ∧ x ∈ share := by
  induction gathered with
  | nil => cases member
  | @cons c cs xs ys first rest ih =>
    rcases List.mem_append.mp member with here | later
    · exact ⟨c, List.mem_cons_self, xs, first, here⟩
    · obtain ⟨d, listed, share, placed, found⟩ := ih later
      exact ⟨d, List.mem_cons_of_mem c listed, share, placed, found⟩

/-- Elements follow one another: within a share because it is placed, and across shares because the
nodes are apart. -/
theorem pairwise (gathered : Gathered cs xs) (nested : ∀ c ∈ cs, c.Nested)
    (ordered : ∀ c ∈ cs, c.Ordered) (apart : cs.Pairwise fun c d => c.span.Before d.span) :
    xs.Pairwise Element.Before := by
  induction gathered with
  | nil => exact .nil
  | @cons c cs xs ys first rest ih =>
    obtain ⟨nestedHere, nestedRest⟩ := List.forall_mem_cons.mp nested
    obtain ⟨orderedHere, orderedRest⟩ := List.forall_mem_cons.mp ordered
    obtain ⟨next, apart⟩ := List.pairwise_cons.mp apart
    refine List.pairwise_append.mpr ⟨(first.ordered nestedHere orderedHere).1,
      ih nestedRest orderedRest apart, fun x here y later s carried t carriedLater => ?_⟩
    obtain ⟨d, listed, share, placed, found⟩ := rest.source later
    have inner := (first.nested nestedHere x here).2 s carried
    have outer := (placed.nested (nestedRest d listed) y found).2 t carriedLater
    exact (next d listed).within inner outer

/-- What children are made into, taken in their order, lies where their parent is. -/
theorem places (gathered : Gathered cs xs) (children : cs.Sublist n.children) : Places n xs where
  nested nested x member := by
    obtain ⟨c, listed, share, placed, found⟩ := gathered.source member
    have child := children.subset listed
    obtain ⟨inside, within⟩ := placed.nested (nested.child child) x found
    exact ⟨inside, fun s carried => (within s carried).trans (nested.within child)⟩
  ordered nested ordered := by
    refine ⟨gathered.pairwise ?_ ?_ (ordered.pairwise children), fun x member => ?_⟩
    · exact fun c listed => nested.child (children.subset listed)
    · exact fun c listed => ordered.child (children.subset listed)
    · obtain ⟨c, listed, share, placed, found⟩ := gathered.source member
      have child := children.subset listed
      exact (placed.ordered (nested.child child) (ordered.child child)).2 x found

end Gathered

/-- What lies where a child is lies where its parent is. -/
theorem Places.above {n c : Node} {xs : List Element} (placed : Places c xs)
    (child : c ∈ n.children) : Places n xs :=
  (Gathered.single placed).places (List.singleton_sublist.mpr child)

theorem sublist_significant (n : Node) : n.significant.Sublist n.children := List.filter_sublist

theorem sublist_operandsOf (n : Node) : (operandsOf n).Sublist n.children :=
  List.filter_sublist.trans (sublist_significant n)

theorem sublist_blocks (n : Node) : (n.childrenOf .block).Sublist n.children :=
  List.filter_sublist

namespace Yields

/-- The results of nodes in order. -/
theorem gathered {F : Node → Outcome α} {element : α → Element} {cs : List Node}
    (h : ∀ c ∈ cs, Yields (F c) fun a => Places c [element a]) :
    Yields (Outcome.each F cs) fun as => Gathered cs (as.map element) := by
  induction cs with
  | nil => exact Yields.pure .nil
  | cons c cs ih =>
    refine (h c List.mem_cons_self).bind fun a first => ?_
    refine (ih fun d member => h d (List.mem_cons_of_mem c member)).bind fun as rest => ?_
    exact Yields.pure (.cons first rest)

end Yields

/-- The expression of each node lies where the node is. -/
def PlacedExpressions (cs : List Node) : Prop :=
  ∀ c ∈ cs, Yields (expression c) fun e => Places c [.expression e]

section

variable {n : Node}

theorem placed_arguments (below : ∀ c ∈ n.children, PlacedExpressions c.children) :
    Yields (argumentsOf n) fun es => Places n (es.map .expression) := by
  rw [argumentsOf]
  cases found : n.child? .argumentList with
  | none => exact Yields.pure (.nil n)
  | some list =>
    have child := Node.mem_of_child? found
    have placed : Yields (each expression list.significant) fun es =>
        Gathered list.significant (es.map .expression) :=
      Yields.gathered fun c member => below list child c (Node.mem_children_of_significant member)
    exact fun es ok => ((placed es ok).places (sublist_significant list)).above child

/-- A call itself carries no span, only its arguments do. -/
theorem placed_call (below : ∀ c ∈ n.children, PlacedExpressions c.children) :
    Yields (call n) fun c => Places n (c.arguments.map .expression) := by
  rw [call_eq]
  refine Yields.guarded fun _ => Yields.after fun qualified => Yields.after fun named => ?_
  exact (placed_arguments below).bind fun es placed => Yields.pure placed

variable (children : PlacedExpressions n.children)

include children

theorem placed_operands :
    ∀ c ∈ operandsOf n, Yields (expression c) fun e => Places c [.expression e] :=
  fun c member => children c (mem_children_of_operandsOf member)

/-- The two operands follow one another, and the operation carries the span of the node. -/
theorem placed_binary :
    Yields (binaryOf n (partsOf n.children)) fun e => Places n [.expression e] := by
  have read := placed_operands children
  have inOrder := sublist_operandsOf n
  rw [binaryOf_eq]
  refine Yields.after fun symbol => Yields.after fun op => ?_
  rcases operands : operandsOf n with _ | ⟨left, _ | ⟨right, _ | ⟨extra, rest⟩⟩⟩
  · exact Yields.flawed _ _
  · exact Yields.flawed _ _
  · rw [operands] at read inOrder
    refine (read left (by simp)).bind fun l placedLeft => ?_
    refine (read right (by simp)).bind fun r placedRight => Yields.pure ?_
    have both : Places n [.expression l, .expression r] :=
      (Gathered.cons placedLeft (.single placedRight)).places inOrder
    exact .holding rfl rfl both
  · exact Yields.flawed _ _

theorem placed_unary :
    Yields (unaryOf n (partsOf n.children)) fun e => Places n [.expression e] := by
  have read := placed_operands children
  rw [unaryOf_eq]
  refine Yields.after fun symbol => Yields.after fun op => ?_
  rcases operands : operandsOf n with _ | ⟨operand, _ | ⟨extra, rest⟩⟩
  · exact Yields.flawed _ _
  · have member : operand ∈ operandsOf n := by simp [operands]
    refine (read operand member).bind fun e placed => Yields.pure ?_
    exact .holding rfl rfl (placed.above (mem_children_of_operandsOf member))
  · exact Yields.flawed _ _

theorem placed_parenthesized :
    Yields (parenthesizedOf n (partsOf n.children)) fun e => Places n [.expression e] := by
  have read := placed_operands children
  rw [parenthesizedOf_eq]
  rcases operands : operandsOf n with _ | ⟨operand, _ | ⟨extra, rest⟩⟩
  · exact Yields.flawed _ _
  · have member : operand ∈ operandsOf n := by simp [operands]
    exact fun e ok => (read operand member e ok).above (mem_children_of_operandsOf member)
  · exact Yields.flawed _ _

theorem placed_arrayElement :
    Yields (arrayElementOf n (partsOf n.children)) fun e => Places n [.expression e] := by
  rw [arrayElementOf_eq]
  refine Yields.after fun name => ?_
  refine (Yields.orFlaw _ _ _).bind fun index found => ?_
  have child : index ∈ n.children :=
    Node.mem_children_of_significant (List.mem_of_find?_eq_some found)
  refine (children index child).bind fun e placed => Yields.pure ?_
  exact .holding rfl rfl (placed.above child)

theorem placed_expression_step (below : ∀ c ∈ n.children, PlacedExpressions c.children) :
    Yields (expression n) fun e => Places n [.expression e] := by
  rw [expression_eq, expressionOf]
  cases n.kind with
  | integerLiteral => exact Yields.after fun _ => Yields.pure (.unspanned rfl)
  | floatLiteral => exact Yields.after fun _ => Yields.pure (.unspanned rfl)
  | stringLiteral => exact Yields.after fun _ => Yields.pure (.unspanned rfl)
  | booleanLiteral => exact Yields.after fun _ => Yields.pure (.unspanned rfl)
  | nullLiteral => exact Yields.pure (.unspanned rfl)
  | variableReference =>
    exact Yields.after fun _ => Yields.pure (.spanned rfl (List.forall_mem_nil _))
  | arrayElementReference => exact placed_arrayElement children
  | functionInvocation =>
    exact (placed_call below).bind fun c placed => Yields.pure (.holding rfl rfl placed)
  | binaryExpression => exact placed_binary children
  | unaryExpression => exact placed_unary children
  | parenthesizedExpression => exact placed_parenthesized children
  | _ => exact Yields.flawed _ _

end

/-- Every expression lies where its node is. Parentheses leave a smaller span than their own, which
lies within it all the same. -/
theorem placed_expression (n : Node) : Yields (expression n) fun e => Places n [.expression e] := by
  induction n using Node.induction_twoLevels with
  | step n children below => exact placed_expression_step children below

/-- The condition lies where the one expression among the children is. -/
theorem placed_condition (n : Node) (subject : Subject) :
    Yields (conditionOf n subject) fun e => Places n [.expression e] := by
  have member : ∀ c ∈ n.significant.filter (·.kind.isExpression), c ∈ n.children :=
    fun c found => Node.mem_children_of_significant (List.mem_filter.mp found).1
  rw [conditionOf]
  generalize n.significant.filter (·.kind.isExpression) = conditions at member
  rcases conditions with _ | ⟨condition, _ | ⟨extra, rest⟩⟩
  · exact Yields.flawed _ _
  · exact fun e ok => (placed_expression condition e ok).above (member condition (by simp))
  · exact Yields.flawed _ _

/-- Target and value follow one another. -/
theorem placed_assignment (n : Node) :
    Yields (assignmentOf n) fun s => Places n [.statement s] := by
  have inOrder := sublist_operandsOf n
  rw [assignmentOf]
  rcases operands : operandsOf n with _ | ⟨target, _ | ⟨value, _ | ⟨extra, rest⟩⟩⟩
  · exact Yields.flawed _ _
  · exact Yields.flawed _ _
  · rw [operands] at inOrder
    simp only
    by_cases kind : target.kind = .variableReference ∨ target.kind = .arrayElementReference
    · rw [if_pos kind]
      refine (placed_expression target).bind fun t placedTarget => ?_
      refine (placed_expression value).bind fun v placedValue => Yields.pure ?_
      have both : Places n [.expression t, .expression v] :=
        (Gathered.cons placedTarget (.single placedValue)).places inOrder
      exact .holding rfl rfl both
    · rw [if_neg kind]
      exact Yields.flawed _ _
  · exact Yields.flawed _ _

theorem placed_return (n : Node) : Yields (returnOf n) fun s => Places n [.statement s] := by
  have values : Yields (each expression (operandsOf n)) fun es =>
      Gathered (operandsOf n) (es.map .expression) :=
    Yields.gathered fun c _ => placed_expression c
  rw [returnOf]
  refine values.bind fun es gathered => Yields.pure ?_
  exact .holding rfl rfl (gathered.places (sublist_operandsOf n))

theorem placed_reply (n : Node) : Yields (replyOf n) fun s => Places n [.statement s] := by
  rw [replyOf]
  rcases operands : operandsOf n with _ | ⟨value, _ | ⟨extra, rest⟩⟩
  · exact Yields.flawed _ _
  · have member : value ∈ operandsOf n := by simp [operands]
    refine (placed_expression value).bind fun v placed => Yields.pure ?_
    exact .holding rfl rfl (placed.above (mem_children_of_operandsOf member))
  · exact Yields.flawed _ _

theorem placed_invocation (n : Node) :
    Yields (invocationOf n) fun s => Places n [.statement s] := by
  rw [invocationOf]
  refine (Yields.orFlaw _ _ _).bind fun callee found => ?_
  have called : Yields (call callee) fun c => Places callee (c.arguments.map .expression) :=
    placed_call fun c _ => fun d _ => placed_expression d
  refine called.bind fun c placed => Yields.pure ?_
  exact .holding rfl rfl (placed.above (Node.mem_of_child? found))

/-- Read as a wrapped statement, as a statement without its wrapper and as a block, the node is
made into what lies where it is. -/
structure PlacedStatements (n : Node) : Prop where
  wrapped : Yields (statement n) fun s => Places n [.statement s]
  concrete : Yields (concreteStatement n) fun s => Places n [.statement s]
  block : Yields (block n) fun ss => Places n (ss.map .statement)

section

variable {n : Node} (ih : ∀ c ∈ n.children, PlacedStatements c)

include ih

theorem placed_body {c : Node} (member : c ∈ n.childrenOf .block) :
    Yields (block c) fun ss => Places c (ss.map .statement) :=
  (ih c ((sublist_blocks n).subset member)).block

/-- The condition and each of the branches lie where their nodes are. Each of the three is a
sequence of its own. -/
theorem placed_ifElse :
    Yields (ifElseOf n (clausesOf n.children)) fun s => Places n [.statement s] := by
  have read := fun c => placed_body ih (c := c)
  have inOrder := sublist_blocks n
  rw [ifElseOf_eq]
  refine (placed_condition n _).bind fun condition placedCondition => ?_
  rcases blocks : n.childrenOf .block with _ | ⟨first, _ | ⟨second, _ | ⟨extra, rest⟩⟩⟩
  · exact Yields.flawed _ _
  · rw [blocks] at inOrder
    refine (read first (by simp [blocks])).bind fun thenBody placedThen => Yields.pure ?_
    have bodies : Places n ((thenBody ++ []).map .statement) := by
      rw [List.append_nil]
      exact (Gathered.single placedThen).places inOrder
    exact .holdingBoth rfl rfl placedCondition bodies
  · rw [blocks] at inOrder
    refine (read first (by simp [blocks])).bind fun thenBody placedThen => ?_
    refine (read second (by simp [blocks])).bind fun elseBody placedElse => Yields.pure ?_
    have bodies : Places n ((thenBody ++ elseBody).map .statement) := by
      rw [List.map_append]
      exact (Gathered.cons placedThen (.single placedElse)).places inOrder
    exact .holdingBoth rfl rfl placedCondition bodies
  · exact Yields.after fun _ => Yields.after fun _ => Yields.flawed _ _

theorem placed_while :
    Yields (whileOf n (clausesOf n.children)) fun s => Places n [.statement s] := by
  have read := fun c => placed_body ih (c := c)
  have inOrder := sublist_blocks n
  rw [whileOf_eq]
  refine (placed_condition n _).bind fun condition placedCondition => ?_
  rcases blocks : n.childrenOf .block with _ | ⟨first, _ | ⟨extra, rest⟩⟩
  · exact Yields.flawed _ _
  · rw [blocks] at inOrder
    refine (read first (by simp [blocks])).bind fun body placedBody => Yields.pure ?_
    exact .holdingBoth rfl rfl placedCondition ((Gathered.single placedBody).places inOrder)
  · exact Yields.after fun _ => Yields.flawed _ _

theorem placed_block_step : Yields (block n) fun ss => Places n (ss.map .statement) := by
  have statements : Yields (each statement n.significant) fun ss =>
      Gathered n.significant (ss.map .statement) :=
    Yields.gathered fun c member => (ih c (Node.mem_children_of_significant member)).wrapped
  rw [block_eq_each]
  refine Yields.guarded fun _ => ?_
  exact fun ss ok => (statements ss ok).places (sublist_significant n)

theorem placed_wrapped_step : Yields (statement n) fun s => Places n [.statement s] := by
  rw [statement_eq_concrete]
  refine Yields.guarded fun _ => ?_
  rcases members : n.significant with _ | ⟨inner, _ | ⟨extra, rest⟩⟩
  · exact Yields.flawed _ _
  · have child : inner ∈ n.children := Node.mem_children_of_significant (by simp [members])
    exact fun s ok => ((ih inner child).concrete s ok).above child
  · exact Yields.flawed _ _

theorem placed_concrete_step : Yields (concreteStatement n) fun s => Places n [.statement s] := by
  rw [concreteStatement_eq, concreteOf]
  refine Yields.after fun _ => ?_
  cases n.kind with
  | assignmentStatement => exact placed_assignment n
  | returnStatement => exact placed_return n
  | replyStatement => exact placed_reply n
  | functionInvocationStatement => exact placed_invocation n
  | ifElseStatement => exact placed_ifElse ih
  | whileStatement => exact placed_while ih
  | block =>
    simp only [← block_eq]
    exact (placed_block_step ih).bind fun ss placed => Yields.pure (.holding rfl rfl placed)
  | _ => exact Yields.flawed _ _

end

/-- Every statement lies where its node is, and so does every block. -/
theorem placed_statements (n : Node) : PlacedStatements n := by
  induction n using Node.induction with
  | step n ih => exact ⟨placed_wrapped_step ih, placed_concrete_step ih, placed_block_step ih⟩

theorem placed_annotated (n : Node) :
    Yields (Lowering.annotation n) fun a => Places n [Element.annotation a] := by
  have keeps (a : Annotation) (c : Node) (span : a.span = n.span) :
      Yields (Lowering.addToAnnotation a c) (·.span = n.span) := by
    rw [Lowering.addToAnnotation]
    cases c.kind with
    | identifier => exact Yields.pure span
    | stringLiteral =>
      cases a.value with
      | none => exact Yields.after fun _ => Yields.pure span
      | some value => exact Yields.flawed _ _
    | annotationAttribute => exact Yields.after fun _ => Yields.pure span
    | _ => exact Yields.flawed _ _
  rw [Lowering.annotation]
  refine Yields.guarded fun _ => Yields.after fun raw => ?_
  by_cases empty : withoutAt raw = ""
  · rw [if_pos empty]
    exact Yields.flawed _ _
  · rw [if_neg empty]
    refine Yields.after fun _ => fun a ok => ?_
    have span : a.span = n.span := Yields.fold (fun c _ a => keeps a c) rfl a ok
    exact .spanned (congrArg some span) (List.forall_mem_nil _)

theorem placed_declaration (n : Node) :
    Yields (declaration n) fun v => Places n [.variable v] := by
  rw [declaration]
  refine Yields.guarded fun _ => Yields.after fun typeNode => Yields.after fun type => ?_
  refine Yields.after fun name => Yields.after fun _ => Yields.pure ?_
  exact .spanned rfl (List.forall_mem_nil _)

/-- What a body has been filled with by its first nodes. -/
structure FilledBy (before : Resource) (done : List Node) (r : Resource) : Prop where
  span : r.span = before.span
  annotations : r.annotations = before.annotations
  locals : Gathered done (r.locals.map .variable)
  statements : Gathered done (r.statements.map .statement)

/-- One child of a body more, with its declaration or statement behind the others. -/
theorem filled_addToBody {before r : Resource} {done : List Node} (filled : FilledBy before done r)
    (child : Node) : Yields (addToBody r child) (FilledBy before (done ++ [child])) := by
  rw [addToBody]
  cases child.kind with
  | variableDeclaration =>
    simp only
    by_cases early : r.statements.isEmpty = true
    · rw [if_pos early]
      refine (placed_declaration child).bind fun new placed => Yields.pure ?_
      refine { filled with locals := ?_, statements := filled.statements.skip child }
      rw [Resource.withVariable, List.map_append]
      exact filled.locals.push placed
    · rw [if_neg early]
      exact Yields.flawed _ _
  | statement =>
    refine (placed_statements child).wrapped.bind fun new placed => Yields.pure ?_
    refine { filled with locals := filled.locals.skip child, statements := ?_ }
    rw [Resource.withStatement, List.map_append]
    exact filled.statements.push placed
  | _ => exact Yields.flawed _ _

/-- What a resource has been made of by the first children of its node. -/
structure MadeBy (n : Node) (done : List Node) (p : PartialResource) : Prop where
  span : p.resource.span = n.span
  annotations : Gathered done (p.resource.annotations.map Element.annotation)
  locals : Gathered done (p.resource.locals.map .variable)
  statements : Gathered done (p.resource.statements.map .statement)
  unfilled : p.bodied = false → p.resource.locals = [] ∧ p.resource.statements = []

/-- One child of a resource more. What has been made so far lies where the earlier children are. -/
theorem made_addToResource {n : Node} {done : List Node} {p : PartialResource}
    (made : MadeBy n done p) (child : Node) :
    Yields (addToResource p child) (MadeBy n (done ++ [child])) := by
  obtain ⟨r, named, bodied⟩ := p
  have locals := made.locals.skip child
  have statements := made.statements.skip child
  rw [addToResource]
  cases child.kind with
  | annotation =>
    refine (placed_annotated child).bind fun new placed => Yields.pure ?_
    refine { made with annotations := ?_, locals := locals, statements := statements }
    simp only [Resource.withAnnotation, List.map_append]
    exact made.annotations.push placed
  | identifier =>
    cases named with
    | true => exact Yields.flawed _ _
    | false =>
      refine Yields.pure { made with annotations := ?_, locals := locals, statements := statements }
      exact made.annotations.skip child
  | functionBody =>
    cases bodied with
    | true => exact Yields.flawed _ _
    | false =>
      -- there is only one body, so it is read into a resource that has none of its parts yet
      obtain ⟨noLocals, noStatements⟩ := made.unfilled rfl
      have start : FilledBy r [] r := by
        refine ⟨rfl, rfl, ?_, ?_⟩
        · rw [noLocals]
          exact .nil
        · rw [noStatements]
          exact .nil
      have body := Yields.foldPrefix (I := FilledBy r)
        (fun done c a filled => filled_addToBody filled c) child.significant start
      refine body.bind fun b filled => Yields.pure ?_
      refine ⟨filled.span.trans made.span, ?_, ?_, ?_, fun same => Bool.noConfusion same⟩
      · rw [filled.annotations]
        exact made.annotations.skip child
      · exact (Gathered.idle done).push (filled.locals.places (sublist_significant child))
      · exact (Gathered.idle done).push (filled.statements.places (sublist_significant child))
  | _ => exact Yields.flawed _ _

/-- A resource lies where its node is, and so do its annotations, declarations and statements, each
sequence in order. -/
theorem placed_resource (n : Node) : Yields (resource n) fun r => Places n [.resource r] := by
  rw [resource]
  refine Yields.guarded fun _ => Yields.after fun name => ?_
  have start : MadeBy n [] ⟨Resource.empty name n.span, false, false⟩ :=
    ⟨rfl, .nil, .nil, .nil, fun _ => ⟨rfl, rfl⟩⟩
  have read := Yields.foldPrefix (I := MadeBy n)
    (fun done c p made => made_addToResource made c) n.significant start
  refine read.bind fun p made => ?_
  by_cases bodied : p.bodied = true
  · rw [if_pos bodied]
    refine Yields.after fun _ => Yields.pure (.spanned (congrArg some made.span) ?_)
    intro xs sequence
    have inOrder := sublist_significant n
    simp only [Element.sequences, List.mem_cons, List.not_mem_nil, or_false] at sequence
    rcases sequence with rfl | rfl | rfl
    · exact made.annotations.places inOrder
    · exact made.locals.places inOrder
    · exact made.statements.places inOrder
  · rw [if_neg bodied]
    exact Yields.flawed _ _

/-- What a service has been made of by the first children of its node. -/
structure ServedBy (n : Node) (done : List Node) (s : Service) : Prop where
  span : s.span = n.span
  annotations : Gathered done (s.annotations.map Element.annotation)
  resources : Gathered done (s.resources.map .resource)

theorem served_addToService {n : Node} {done : List Node} {s : Service} (served : ServedBy n done s)
    (child : Node) : Yields (addToService s child) (ServedBy n (done ++ [child])) := by
  have annotations := served.annotations.skip child
  have resources := served.resources.skip child
  rw [addToService]
  cases child.kind with
  | annotation =>
    refine (placed_annotated child).bind fun new placed => Yields.pure ?_
    refine ⟨served.span, ?_, resources⟩
    rw [List.map_append]
    exact served.annotations.push placed
  | resourceDefinition =>
    refine (placed_resource child).bind fun new placed => Yields.pure ?_
    refine ⟨served.span, annotations, ?_⟩
    rw [List.map_append]
    exact served.resources.push placed
  | identifier => exact Yields.pure ⟨served.span, annotations, resources⟩
  | _ => exact Yields.flawed _ _

theorem placed_service (n : Node) : Yields (service n) fun s => Places n [.service s] := by
  rw [service]
  refine Yields.guarded fun _ => Yields.after fun name => ?_
  have start : ServedBy n [] ⟨name, [], [], n.span⟩ := ⟨rfl, .nil, .nil⟩
  have read := Yields.foldPrefix (I := ServedBy n)
    (fun done c s served => served_addToService served c) n.significant start
  refine read.bind fun s served => Yields.after fun _ => Yields.pure ?_
  refine .spanned (congrArg some served.span) fun xs sequence => ?_
  have inOrder := sublist_significant n
  simp only [Element.sequences, List.mem_cons, List.not_mem_nil, or_false] at sequence
  rcases sequence with rfl | rfl
  · exact served.annotations.places inOrder
  · exact served.resources.places inOrder

theorem placed_topLevel (n : Node) : Yields (topLevel n) fun s => Places n [.service s] := by
  rw [topLevel]
  cases n.kind with
  | serviceDefinition => exact placed_service n
  | _ => exact Yields.flawed _ _

/-- The services of a tree lie where its root is, in order. -/
theorem placed_tree (t : Syntax.Tree) :
    Yields (tree t) fun result => Places t.root (result.services.map .service) := by
  have services : Yields (each topLevel t.root.significant) fun ss =>
      Gathered t.root.significant (ss.map .service) :=
    Yields.gathered fun c _ => placed_topLevel c
  rw [tree]
  cases syntaxDiagnostics t with
  | nil =>
    refine Yields.guarded fun _ => services.bind fun ss gathered => Yields.pure ?_
    exact gathered.places (sublist_significant t.root)
  | cons d ds =>
    refine Yields.after fun _ => ?_
    intro result ok
    cases ok

/-- Where the error is, unless it stands for all syntax errors of a tree. -/
def Error.span? : Error → Option Span
  | .syntaxErrors _ => none
  | .malformed _ span => some span
  | .invalidLiteral _ _ span => some span

/-- What a nested node reaches lies within it. -/
theorem Reaches.within {n m : Node} (reaches : Reaches n m) (nested : n.Nested) :
    m.span.Within n.span := by
  induction reaches with
  | here n => exact .refl n.span
  | child member rest ih =>
    have child := Node.mem_children_of_significant member
    exact (ih (nested.child child)).trans (nested.within child)

/-- What a nested node is blamed for lies within it. -/
theorem Blames.within {n : Node} {e : Error} (blames : Blames n e) (nested : n.Nested) :
    ∃ s, e.span? = some s ∧ s.Within n.span := by
  cases blames with
  | shape reached flaw => exact ⟨_, rfl, reached.within nested⟩
  | literal reached read bad => exact ⟨_, rfl, reached.within nested⟩

/-- Where things are that come of a node: in what is made, spans nest and lie within the span of the
node, and they are in order if those of the node are; an error lies within the span of the node. -/
structure Located (n : Node) (x : Outcome α) (element : α → Element) : Prop where
  nested : ∀ a, x.result = .ok a → (element a).Nested
  within : ∀ a, x.result = .ok a → ∀ y, (element a).Contains y → ∀ s ∈ y.span?, s.Within n.span
  ordered : n.Ordered → ∀ a, x.result = .ok a → (element a).Ordered
  failure : ∀ e, x.result = .error e → ∃ s, e.span? = some s ∧ s.Within n.span

/-- Where the parts of a result are and where a failure is are settled apart from each other. -/
theorem Located.of_places {n : Node} {x : Outcome α} {element : α → Element} (nested : n.Nested)
    (placed : Yields x fun a => Places n [element a]) (justified : Justified n x) :
    Located n x element where
  nested a ok := ((placed a ok).nested nested _ (List.mem_singleton.mpr rfl)).1
  within a ok y contains := by
    obtain ⟨inside, within⟩ := (placed a ok).nested nested _ (List.mem_singleton.mpr rfl)
    exact inside.within_of_contains contains within
  ordered ordered a ok :=
    ((placed a ok).ordered nested ordered).2 _ (List.mem_singleton.mpr rfl)
  failure e failed := (justified e failed).within nested

/-- If the spans of a syntax tree nest, so do those of what its nodes are made into, all within the
span of the node that was handed in, and an error lies within that span. If moreover the syntax tree
is in order, so is each sequence of the semantic tree. -/
theorem spans_nest_in_order :
    (∀ n : Node, n.Nested →
      Located n (service n) .service ∧ Located n (resource n) .resource ∧
      Located n (Lowering.annotation n) Element.annotation ∧ Located n (declaration n) .variable ∧
      Located n (statement n) .statement ∧ Located n (expression n) .expression) ∧
    ∀ (t : Syntax.Tree) (result : Semantic.Tree), t.root.Nested → (tree t).result = .ok result →
      (∀ s ∈ result.services, (Element.service s).Nested ∧
        ∀ y, (Element.service s).Contains y → ∀ u ∈ y.span?, u.Within t.root.span) ∧
      (t.root.Ordered → (result.services.map Element.service).Pairwise Element.Before ∧
        ∀ s ∈ result.services, (Element.service s).Ordered) := by
  constructor
  · intro n nested
    exact ⟨.of_places nested (placed_service n) (justified_service n),
      .of_places nested (placed_resource n) (justified_resource n),
      .of_places nested (placed_annotated n) (justified_annotated n),
      .of_places nested (placed_declaration n) (justified_declaration n),
      .of_places nested (placed_statements n).wrapped (justified_statements n).wrapped,
      .of_places nested (placed_expression n) (justified_expression n)⟩
  · intro t result nested ok
    have placed := placed_tree t result ok
    constructor
    · intro s member
      obtain ⟨inside, within⟩ := placed.nested nested _ (List.mem_map_of_mem member)
      exact ⟨inside, fun y contains => inside.within_of_contains contains within⟩
    · intro ordered
      obtain ⟨apart, each⟩ := placed.ordered nested ordered
      exact ⟨apart, fun s member => each _ (List.mem_map_of_mem member)⟩

/-- A statement that returns a variable, a literal and a variable in parentheses, with a space after
each comma. -/
def returnNode (last : String) : Node :=
  let reference (start stop : UInt64) (name : String) : Node :=
    .branch .variableReference ⟨start, stop⟩ [.leaf .identifier ⟨start, stop⟩ name]
  .branch .statement ⟨0, 20⟩
    [.branch .returnStatement ⟨0, 19⟩
      [reference 7 8 "a", .bare .nullLiteral ⟨10, 14⟩,
        .branch .parenthesizedExpression ⟨16, 19⟩ [reference 17 18 last]],
      .bare .semicolon ⟨19, 20⟩]

theorem returnNode_located :
    (returnNode "b").Nested ∧ (returnNode "b").Ordered ∧
    (statement (returnNode "b")).result =
      .ok (.return [.variable "a" ⟨7, 8⟩, .null, .variable "b" ⟨17, 18⟩] ⟨0, 19⟩) ∧
    (Element.statement (.return [.variable "a" ⟨7, 8⟩, .null, .variable "b" ⟨17, 18⟩]
      ⟨0, 19⟩)).Ordered ∧
    (returnNode "").Nested ∧
    ∃ e s, (statement (returnNode "")).result = .error e ∧ e.span? = some s ∧
      s.Within ⟨0, 20⟩ := by
  have nested : (returnNode "b").Nested := by decide
  have ordered : (returnNode "b").Ordered := by decide
  have nestedUnnamed : (returnNode "").Nested := by decide
  obtain ⟨-, -, -, -, located, -⟩ := spans_nest_in_order.1 (returnNode "b") nested
  obtain ⟨-, -, -, -, locatedUnnamed, -⟩ := spans_nest_in_order.1 (returnNode "") nestedUnnamed
  obtain ⟨s, carried, within⟩ := locatedUnnamed.failure _ rfl
  exact ⟨nested, ordered, rfl, located.ordered ordered _ rfl, nestedUnnamed, _, s, rfl, carried,
    within⟩

end ServiceLang.Lowering
