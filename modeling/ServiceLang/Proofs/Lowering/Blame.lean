import ServiceLang.Proofs.Lowering.Assertion
import ServiceLang.Proofs.Lowering.Grammar

/-!
# What a failure points to

When the lowering of a node fails, it names something that is there: a node whose shape is wrong is
named by its span, and a literal by its kind, its text and its span. The node that is named is the
one that was handed in or stands below it, never inside a comment or a separator, and a literal that
is complained about does denote nothing.
-/

namespace ServiceLang.Lowering

open Syntax (Kind Node)
open Semantic
open Outcome

variable {α β γ : Type}

/-- The second node is the first or stands below it, outside comments and separators. -/
inductive Reaches : Node → Node → Prop where
  | here (n : Node) : Reaches n n
  | child {n c m : Node} (member : c ∈ n.significant) (rest : Reaches c m) : Reaches n m

theorem significant_of_child? {n c : Node} {kind : Kind} (visible : kind.isTrivia = false)
    (found : n.child? kind = some c) : c ∈ n.significant := by
  rw [Node.child?_eq_find? n visible] at found
  exact List.mem_of_find?_eq_some found

theorem significant_of_mem_blocks {n c : Node} (member : c ∈ n.childrenOf .block) :
    c ∈ n.significant := by
  rw [Node.childrenOf_eq_filter n rfl] at member
  exact (List.mem_filter.mp member).1

theorem significant_of_mem_operands {n c : Node} (member : c ∈ operandsOf n) :
    c ∈ n.significant :=
  (List.mem_filter.mp member).1

theorem reaches_child {n c : Node} (member : c ∈ n.significant) : Reaches n c :=
  .child member (.here c)

/-- The error speaks of a node that the given one reaches. -/
inductive Blames (n : Node) : Error → Prop where
  | shape {m : Node} (reached : Reaches n m) (flaw : Flaw) : Blames n (.malformed flaw m.span)
  | literal {m : Node} (reached : Reaches n m) (read : isRead m.kind = true)
    (bad : decodes m = false) : Blames n (.invalidLiteral m.kind m.textOrEmpty m.span)

/-- What is blamed below a significant child is blamed below the node. -/
theorem Blames.above {n c : Node} {e : Error} (member : c ∈ n.significant) (h : Blames c e) :
    Blames n e := by
  cases h with
  | shape reached flaw => exact .shape (.child member reached) flaw
  | literal reached read bad => exact .literal (.child member reached) read bad

/-- Only the check that precedes the lowering speaks of syntax errors. -/
theorem Blames.ne_syntaxErrors {n : Node} {e : Error} (h : Blames n e)
    (diagnostics : List Diagnostic) : e ≠ .syntaxErrors diagnostics := by
  intro same
  cases h with
  | shape reached flaw => cases same
  | literal reached read bad => cases same

/-- The outcome blames something that the node reaches, if it is a failure. -/
def Justified (n : Node) (x : Outcome α) : Prop := ∀ e, x.result = .error e → Blames n e

namespace Justified

variable {n c : Node}

/-- To be justified is the assertion that only what the node reaches is blamed. -/
theorem meets {x : Outcome α} (h : Justified n x) :
    Meets (fun _ => True) (Blames n) x fun _ _ => True :=
  ⟨fun _ _ => trivial, h, fun _ _ => trivial⟩

theorem of_meets {x : Outcome α} (h : Meets (fun _ => True) (Blames n) x fun _ _ => True) :
    Justified n x :=
  h.error

theorem pure (a : α) : Justified n (Pure.pure a) := of_meets (Meets.pure trivial)

theorem emit (event : Event) : Justified n (Outcome.emit event) :=
  of_meets (Meets.emit trivial trivial)

/-- A flaw is reported at a node that is reached. -/
theorem flawed (reached : Reaches n c) (flaw : Flaw) :
    Justified n (Outcome.flawed c.span flaw : Outcome α) :=
  of_meets (Meets.flawed (.shape reached flaw))

theorem flawedHere (n : Node) (flaw : Flaw) :
    Justified n (Outcome.flawed n.span flaw : Outcome α) :=
  flawed (.here n) flaw

/-- The second step need only be justified after a success of the first. -/
theorem bind {x : Outcome α} {k : α → Outcome β} (first : Justified n x)
    (then_ : ∀ a, x.result = .ok a → Justified n (k a)) : Justified n (x >>= k) :=
  of_meets (first.meets.bind fun a done _ => (then_ a done).meets)

theorem above {x : Outcome α} (member : c ∈ n.significant) (h : Justified c x) : Justified n x :=
  fun e failed => (h e failed).above member

/-- A node of the wrong kind is blamed by itself. -/
theorem guarded {kind : Kind} {k : Unit → Outcome α}
    (then_ : n.kind = kind → Justified n (k ())) : Justified n (expectKind n kind >>= k) :=
  of_meets (Meets.guarded (.shape (.here n) _) fun same => (then_ same).meets)

theorem each {F : γ → Outcome α} {cs : List γ} (h : ∀ c ∈ cs, Justified n (F c)) :
    Justified n (each F cs) :=
  of_meets (Meets.each trivial (fun _ _ _ _ _ _ => trivial) fun c member => (h c member).meets)

theorem fold {F : α → γ → Outcome α} {cs : List γ} (h : ∀ c ∈ cs, ∀ a, Justified n (F a c))
    (a : α) : Justified n (fold F a cs) :=
  of_meets (Meets.fold (fun _ _ => True) [] (fun c member a _ _ => (h c member a).meets) trivial)

theorem orFlaw (reached : Reaches n c) (a? : Option α) (flaw : Flaw) :
    Justified n (orFlaw a? c.span flaw) := by
  cases a? with
  | none => exact flawed reached flaw
  | some a => exact pure a

theorem orFlawHere (n : Node) (a? : Option α) (flaw : Flaw) :
    Justified n (Outcome.orFlaw a? n.span flaw) :=
  orFlaw (.here n) a? flaw

theorem requiredChild (n : Node) (kind : Kind) (subject : Subject) :
    Justified n (requiredChild n kind subject) :=
  orFlawHere n _ _

/-- A missing name and an empty one are blamed on the node that should have it. -/
theorem nameOf (n : Node) (subject : Subject) : Justified n (nameOf n subject) := by
  rw [Lowering.nameOf]
  refine (requiredChild n _ _).bind fun identifier found => ?_
  by_cases empty : identifier.textOrEmpty = ""
  · rw [if_pos empty]
    exact flawed (reaches_child (significant_of_child? rfl (child?_of_requiredChild found))) _
  · rw [if_neg empty]
    exact pure _

/-- A literal that is read as its kind demands. -/
theorem literal {kind : Kind} (read : String → Option α) (same : n.kind = kind)
    (isLiteral : isRead kind = true) (agrees : decodes n = (read n.textOrEmpty).isSome) :
    Justified n (literal n read) := by
  intro e failed
  rw [Lowering.literal] at failed
  cases value : read n.textOrEmpty with
  | some a =>
    rw [value] at failed
    cases failed
  | none =>
    rw [value] at failed agrees
    cases failed
    exact .literal (.here n) (same ▸ isLiteral) agrees

theorem stringLiteral (same : n.kind = .stringLiteral) :
    Justified n (Lowering.literal n Literal.string?) :=
  literal _ same rfl (by rw [decodes, same])

theorem operatorOf (n : Node) : Justified n (operatorOf n) := by
  rw [Lowering.operatorOf]
  exact (requiredChild n _ _).bind fun operator _ => pure _

end Justified

/-- Failures in the given nodes, read as expressions, are justified by the nodes themselves. -/
def JustifiedExpressions (cs : List Node) : Prop := ∀ c ∈ cs, Justified c (expression c)

section

variable {n : Node}

/-- The arguments of a call stand two levels below it, so their justification is taken from
there. -/
theorem justified_call (below : ∀ c ∈ n.children, JustifiedExpressions c.children) :
    Justified n (call n) := by
  rw [call_eq]
  refine Justified.guarded fun _ => ?_
  refine (Justified.nameOf n _).bind fun qualified _ => ?_
  refine (Justified.orFlawHere n _ _).bind fun named _ => ?_
  suffices Justified n (argumentsOf n) from this.bind fun es _ => Justified.pure _
  rw [argumentsOf]
  cases found : n.child? .argumentList with
  | none => exact Justified.pure _
  | some list =>
    refine Justified.above (significant_of_child? rfl found) (Justified.each fun c argument => ?_)
    have read := below list (Node.mem_of_child? found) c (Node.mem_children_of_significant argument)
    exact read.above argument

variable (children : JustifiedExpressions n.children)

include children

theorem justified_operands {c : Node} (member : c ∈ operandsOf n) : Justified n (expression c) := by
  have significant := significant_of_mem_operands member
  exact (children c (Node.mem_children_of_significant significant)).above significant

theorem justified_binary : Justified n (binaryOf n (partsOf n.children)) := by
  have read := fun c => justified_operands children (c := c)
  rw [binaryOf_eq]
  refine (Justified.operatorOf n).bind fun symbol _ => ?_
  refine (Justified.orFlawHere n _ _).bind fun op _ => ?_
  rcases operands : operandsOf n with _ | ⟨left, _ | ⟨right, _ | ⟨extra, rest⟩⟩⟩
  · exact Justified.flawedHere n _
  · exact Justified.flawedHere n _
  · refine (read left (by simp [operands])).bind fun l _ => ?_
    refine (read right (by simp [operands])).bind fun r _ => ?_
    exact Justified.pure _
  · exact Justified.flawedHere n _

theorem justified_unary : Justified n (unaryOf n (partsOf n.children)) := by
  have read := fun c => justified_operands children (c := c)
  rw [unaryOf_eq]
  refine (Justified.operatorOf n).bind fun symbol _ => ?_
  refine (Justified.orFlawHere n _ _).bind fun op _ => ?_
  rcases operands : operandsOf n with _ | ⟨operand, _ | ⟨extra, rest⟩⟩
  · exact Justified.flawedHere n _
  · exact (read operand (by simp [operands])).bind fun e _ => Justified.pure _
  · exact Justified.flawedHere n _

theorem justified_parenthesized : Justified n (parenthesizedOf n (partsOf n.children)) := by
  have read := fun c => justified_operands children (c := c)
  rw [parenthesizedOf_eq]
  rcases operands : operandsOf n with _ | ⟨operand, _ | ⟨extra, rest⟩⟩
  · exact Justified.flawedHere n _
  · exact read operand (by simp [operands])
  · exact Justified.flawedHere n _

/-- The index is significant, whichever of the children it is. -/
theorem justified_arrayElement : Justified n (arrayElementOf n (partsOf n.children)) := by
  rw [arrayElementOf_eq]
  refine (Justified.nameOf n _).bind fun name _ => ?_
  refine (Justified.orFlawHere n _ _).bind fun index found => ?_
  have member : index ∈ n.significant := List.mem_of_find?_eq_some (of_orFlaw found)
  have read := (children index (Node.mem_children_of_significant member)).above member
  exact read.bind fun e _ => Justified.pure _

/-- By cases on the kind: a literal is blamed for its own text, anything else by one of the lemmas
above. -/
theorem justified_expression_step (below : ∀ c ∈ n.children, JustifiedExpressions c.children) :
    Justified n (expression n) := by
  rw [expression_eq, expressionOf]
  cases kind : n.kind with
  | integerLiteral =>
    have read := Justified.literal Literal.integer? kind rfl (by rw [decodes, kind])
    exact read.bind fun _ _ => Justified.pure _
  | floatLiteral =>
    have read := Justified.literal Literal.float? kind rfl (by rw [decodes, kind])
    exact read.bind fun _ _ => Justified.pure _
  | stringLiteral => exact (Justified.stringLiteral kind).bind fun _ _ => Justified.pure _
  | booleanLiteral =>
    have read := Justified.literal Literal.boolean? kind rfl (by rw [decodes, kind])
    exact read.bind fun _ _ => Justified.pure _
  | nullLiteral => exact Justified.pure _
  | variableReference => exact (Justified.nameOf n _).bind fun _ _ => Justified.pure _
  | arrayElementReference => exact justified_arrayElement children
  | functionInvocation => exact (justified_call below).bind fun _ _ => Justified.pure _
  | binaryExpression => exact justified_binary children
  | unaryExpression => exact justified_unary children
  | parenthesizedExpression => exact justified_parenthesized children
  | _ => exact Justified.flawedHere n _

end

/-- A failure of an expression blames something that the expression reaches. -/
theorem justified_expression (n : Node) : Justified n (expression n) := by
  induction n using Node.induction_twoLevels with
  | step n children below => exact justified_expression_step children below

theorem justified_operand {n c : Node} (member : c ∈ operandsOf n) : Justified n (expression c) :=
  justified_operands (fun d _ => justified_expression d) member

/-- A second condition is blamed at its own span, a missing one at the span of the statement. -/
theorem justified_condition (n : Node) (subject : Subject) :
    Justified n (conditionOf n subject) := by
  have member : ∀ c ∈ n.significant.filter (·.kind.isExpression), c ∈ n.significant :=
    fun c found => (List.mem_filter.mp found).1
  rw [conditionOf]
  generalize n.significant.filter (·.kind.isExpression) = conditions at member
  rcases conditions with _ | ⟨condition, _ | ⟨extra, rest⟩⟩
  · exact Justified.flawedHere n _
  · exact (justified_expression condition).above (member condition (by simp))
  · exact Justified.flawed (reaches_child (member extra (by simp))) _

/-- A target that is no variable and no element is blamed by itself. -/
theorem justified_assignment (n : Node) : Justified n (assignmentOf n) := by
  have read := fun c => justified_operand (n := n) (c := c)
  rw [assignmentOf]
  rcases operands : operandsOf n with _ | ⟨target, _ | ⟨value, _ | ⟨extra, rest⟩⟩⟩
  · exact Justified.flawedHere n _
  · exact Justified.flawedHere n _
  · simp only
    have member : target ∈ operandsOf n := by simp [operands]
    by_cases kind : target.kind = .variableReference ∨ target.kind = .arrayElementReference
    · rw [if_pos kind]
      refine (read target member).bind fun t _ => ?_
      refine (read value (by simp [operands])).bind fun v _ => ?_
      exact Justified.pure _
    · rw [if_neg kind]
      exact Justified.flawed (reaches_child (significant_of_mem_operands member)) _
  · exact Justified.flawedHere n _

theorem justified_return (n : Node) : Justified n (returnOf n) := by
  rw [returnOf]
  refine (Justified.each fun c member => justified_operand member).bind fun values _ => ?_
  exact Justified.pure _

theorem justified_reply (n : Node) : Justified n (replyOf n) := by
  rw [replyOf]
  rcases operands : operandsOf n with _ | ⟨value, _ | ⟨extra, rest⟩⟩
  · exact Justified.flawedHere n _
  · have read := justified_operand (n := n) (c := value) (by simp [operands])
    exact read.bind fun v _ => Justified.pure _
  · exact Justified.flawedHere n _

theorem justified_invocation (n : Node) : Justified n (invocationOf n) := by
  rw [invocationOf]
  refine (Justified.requiredChild n _ _).bind fun callee found => ?_
  have called : Justified callee (call callee) :=
    justified_call fun c _ => fun d _ => justified_expression d
  have member := significant_of_child? rfl (child?_of_requiredChild found)
  exact (called.above member).bind fun c _ => Justified.pure _

/-- Failures of the node, read as a wrapped statement, as a statement without its wrapper and as a
block, are justified. -/
structure JustifiedStatements (n : Node) : Prop where
  wrapped : Justified n (statement n)
  concrete : Justified n (concreteStatement n)
  block : Justified n (block n)

section

variable {n : Node} (ih : ∀ c ∈ n.children, JustifiedStatements c)

include ih

theorem justified_body {c : Node} (member : c ∈ n.childrenOf .block) : Justified n (block c) := by
  have significant := significant_of_mem_blocks member
  exact (ih c (Node.mem_children_of_significant significant)).block.above significant

/-- A third block is blamed by itself, a missing one on the statement. -/
theorem justified_ifElse : Justified n (ifElseOf n (clausesOf n.children)) := by
  have read := fun c => justified_body ih (c := c)
  rw [ifElseOf_eq]
  refine (justified_condition n _).bind fun condition _ => ?_
  rcases blocks : n.childrenOf .block with _ | ⟨first, _ | ⟨second, _ | ⟨extra, rest⟩⟩⟩
  · exact Justified.flawedHere n _
  · exact (read first (by simp [blocks])).bind fun thenBody _ => Justified.pure _
  · refine (read first (by simp [blocks])).bind fun thenBody _ => ?_
    refine (read second (by simp [blocks])).bind fun elseBody _ => ?_
    exact Justified.pure _
  · refine (read first (by simp [blocks])).bind fun thenBody _ => ?_
    refine (read second (by simp [blocks])).bind fun elseBody _ => ?_
    exact Justified.flawed (reaches_child (significant_of_mem_blocks (by simp [blocks]))) _

theorem justified_while : Justified n (whileOf n (clausesOf n.children)) := by
  have read := fun c => justified_body ih (c := c)
  rw [whileOf_eq]
  refine (justified_condition n _).bind fun condition _ => ?_
  rcases blocks : n.childrenOf .block with _ | ⟨first, _ | ⟨extra, rest⟩⟩
  · exact Justified.flawedHere n _
  · exact (read first (by simp [blocks])).bind fun body _ => Justified.pure _
  · refine (read first (by simp [blocks])).bind fun body _ => ?_
    exact Justified.flawed (reaches_child (significant_of_mem_blocks (by simp [blocks]))) _

theorem justified_block_step : Justified n (block n) := by
  rw [block_eq_each]
  refine Justified.guarded fun _ => Justified.each fun c member => ?_
  exact (ih c (Node.mem_children_of_significant member)).wrapped.above member

theorem justified_wrapped_step : Justified n (statement n) := by
  rw [statement_eq_concrete]
  refine Justified.guarded fun _ => ?_
  rcases members : n.significant with _ | ⟨inner, _ | ⟨extra, rest⟩⟩
  · exact Justified.flawedHere n _
  · have member : inner ∈ n.significant := by simp [members]
    exact (ih inner (Node.mem_children_of_significant member)).concrete.above member
  · exact Justified.flawed (reaches_child (by simp [members])) _

theorem justified_concrete_step : Justified n (concreteStatement n) := by
  rw [concreteStatement_eq, concreteOf]
  refine (Justified.emit _).bind fun _ _ => ?_
  cases n.kind with
  | assignmentStatement => exact justified_assignment n
  | returnStatement => exact justified_return n
  | replyStatement => exact justified_reply n
  | functionInvocationStatement => exact justified_invocation n
  | ifElseStatement => exact justified_ifElse ih
  | whileStatement => exact justified_while ih
  | block =>
    simp only [← block_eq]
    exact (justified_block_step ih).bind fun ss _ => Justified.pure _
  | _ => exact Justified.flawedHere n _

end

/-- A failure of a statement or a block blames something that it reaches. -/
theorem justified_statements (n : Node) : JustifiedStatements n := by
  induction n using Node.induction with
  | step n ih =>
    exact ⟨justified_wrapped_step ih, justified_concrete_step ih, justified_block_step ih⟩

theorem justified_attribute (n : Node) : Justified n (annotationAttribute n) := by
  rw [annotationAttribute]
  refine (Justified.nameOf n _).bind fun key _ => ?_
  refine (Justified.requiredChild n _ _).bind fun value found => ?_
  have first := child?_of_requiredChild found
  have isString := Node.kind_of_child? first
  have read := (Justified.stringLiteral isString).above (significant_of_child? rfl first)
  exact read.bind fun _ _ => Justified.pure _

/-- A child of an annotation that fits nowhere is blamed by itself. -/
theorem justified_addAnnotated (a : Annotation) (child : Node) :
    Justified child (Lowering.addToAnnotation a child) := by
  rw [Lowering.addToAnnotation]
  cases kind : child.kind with
  | identifier => exact Justified.pure _
  | stringLiteral =>
    cases a.value with
    | none => exact (Justified.stringLiteral kind).bind fun _ _ => Justified.pure _
    | some value => exact Justified.flawedHere child _
  | annotationAttribute => exact (justified_attribute child).bind fun _ _ => Justified.pure _
  | _ => exact Justified.flawedHere child _

/-- An annotation is blamed for a missing name, its children for everything else. -/
theorem justified_annotated (n : Node) : Justified n (Lowering.annotation n) := by
  rw [Lowering.annotation]
  refine Justified.guarded fun _ => (Justified.nameOf n _).bind fun raw _ => ?_
  by_cases empty : withoutAt raw = ""
  · rw [if_pos empty]
    exact Justified.flawedHere n _
  · rw [if_neg empty]
    refine (Justified.emit _).bind fun _ _ => ?_
    exact Justified.fold (fun c member a => (justified_addAnnotated a c).above member) _

theorem justified_declaration (n : Node) : Justified n (declaration n) := by
  rw [declaration]
  refine Justified.guarded fun _ => (Justified.requiredChild n _ _).bind fun typeNode found => ?_
  have reached := reaches_child (significant_of_child? rfl (child?_of_requiredChild found))
  refine (Justified.orFlaw reached _ _).bind fun type _ => ?_
  refine (Justified.nameOf n _).bind fun name _ => ?_
  exact (Justified.emit _).bind fun _ _ => Justified.pure _

/-- A child of a body is a declaration, a statement or to blame. -/
theorem justified_addToBody (r : Resource) (child : Node) :
    Justified child (addToBody r child) := by
  rw [addToBody]
  cases child.kind with
  | variableDeclaration =>
    simp only
    by_cases early : r.statements.isEmpty = true
    · rw [if_pos early]
      exact (justified_declaration child).bind fun _ _ => Justified.pure _
    · rw [if_neg early]
      exact Justified.flawedHere child _
  | statement => exact (justified_statements child).wrapped.bind fun _ _ => Justified.pure _
  | _ => exact Justified.flawedHere child _

/-- A child of a resource that fits nowhere, or comes a second time, is blamed by itself. -/
theorem justified_addToResource (p : PartialResource) (child : Node) :
    Justified child (addToResource p child) := by
  obtain ⟨r, named, bodied⟩ := p
  rw [addToResource]
  cases child.kind with
  | annotation => exact (justified_annotated child).bind fun _ _ => Justified.pure _
  | identifier =>
    cases named with
    | true => exact Justified.flawedHere child _
    | false => exact Justified.pure _
  | functionBody =>
    cases bodied with
    | true => exact Justified.flawedHere child _
    | false =>
      have filled := Justified.fold (n := child)
        (fun c member r => (justified_addToBody r c).above member) r
      exact filled.bind fun _ _ => Justified.pure _
  | _ => exact Justified.flawedHere child _

/-- A missing name is blamed on the resource at once, a missing body at the end. -/
theorem justified_resource (n : Node) : Justified n (resource n) := by
  rw [resource]
  refine Justified.guarded fun _ => (Justified.nameOf n _).bind fun name _ => ?_
  have filled := Justified.fold (n := n)
    (fun c member p => (justified_addToResource p c).above member)
    ⟨Resource.empty name n.span, false, false⟩
  refine filled.bind fun p _ => ?_
  by_cases bodied : p.bodied = true
  · rw [if_pos bodied]
    exact (Justified.emit _).bind fun _ _ => Justified.pure _
  · rw [if_neg bodied]
    exact Justified.flawedHere n _

/-- A child of a service that fits nowhere is blamed by itself. -/
theorem justified_addToService (s : Service) (child : Node) :
    Justified child (addToService s child) := by
  rw [addToService]
  cases child.kind with
  | annotation => exact (justified_annotated child).bind fun _ _ => Justified.pure _
  | resourceDefinition => exact (justified_resource child).bind fun _ _ => Justified.pure _
  | identifier => exact Justified.pure _
  | _ => exact Justified.flawedHere child _

theorem justified_service (n : Node) : Justified n (service n) := by
  rw [service]
  refine Justified.guarded fun _ => (Justified.nameOf n _).bind fun name _ => ?_
  have filled := Justified.fold (n := n)
    (fun c member s => (justified_addToService s c).above member) ⟨name, [], [], n.span⟩
  exact filled.bind fun s _ => (Justified.emit _).bind fun _ _ => Justified.pure _

/-- Anything but a service at top level is blamed by itself. -/
theorem justified_topLevel (n : Node) : Justified n (topLevel n) := by
  rw [topLevel]
  cases n.kind with
  | serviceDefinition => exact justified_service n
  | _ => exact Justified.flawedHere n _

/-- The literals that are read are those that the node reaches. -/
theorem mem_literals_iff {n m : Node} : m ∈ literals n ↔ Reaches n m ∧ isRead m.kind = true := by
  constructor
  · intro listed
    induction n using Node.induction with
    | step n ih =>
      rw [literals_eq] at listed
      rcases List.mem_append.mp listed with here | below
      · by_cases read : isRead n.kind = true
        · rw [if_pos read, List.mem_singleton] at here
          rw [here]
          exact ⟨.here n, read⟩
        · rw [if_neg read] at here
          cases here
      · obtain ⟨c, member, found⟩ := List.mem_flatMap.mp below
        obtain ⟨reached, read⟩ := ih c (Node.mem_children_of_significant member) found
        exact ⟨.child member reached, read⟩
  · rintro ⟨reached, read⟩
    induction reached with
    | here n =>
      rw [literals_eq, if_pos read]
      exact List.mem_append_left _ (List.mem_singleton_self n)
    | child member _ ih =>
      rw [literals_eq]
      exact List.mem_append_right _ (List.mem_flatMap.mpr ⟨_, member, ih read⟩)

/-- The lowering of the node, as one sort of node or another, fails with the error. -/
inductive FailsWith (n : Node) (e : Error) : Prop where
  | service (failed : (Lowering.service n).result = .error e)
  | resource (failed : (Lowering.resource n).result = .error e)
  | annotation (failed : (Lowering.annotation n).result = .error e)
  | annotationAttribute (failed : (Lowering.annotationAttribute n).result = .error e)
  | declaration (failed : (Lowering.declaration n).result = .error e)
  | statement (failed : (Lowering.statement n).result = .error e)
  | concreteStatement (failed : (Lowering.concreteStatement n).result = .error e)
  | block (failed : (Lowering.block n).result = .error e)
  | expression (failed : (Lowering.expression n).result = .error e)
  | call (failed : (Lowering.call n).result = .error e)

/-- Each of the lowerings is justified on any node. -/
theorem FailsWith.blames {n : Node} {e : Error} (fails : FailsWith n e) : Blames n e := by
  cases fails with
  | service failed => exact justified_service n e failed
  | resource failed => exact justified_resource n e failed
  | annotation failed => exact justified_annotated n e failed
  | annotationAttribute failed => exact justified_attribute n e failed
  | declaration failed => exact justified_declaration n e failed
  | statement failed => exact (justified_statements n).wrapped e failed
  | concreteStatement failed => exact (justified_statements n).concrete e failed
  | block failed => exact (justified_statements n).block e failed
  | expression failed => exact justified_expression n e failed
  | call failed => exact justified_call (fun _ _ d _ => justified_expression d) e failed

/-- A failure names its culprit on any tree whatsoever: a literal whose text does not denote a value
of its kind, or the node whose shape is wrong. -/
theorem failure_names_culprit (n : Node) (e : Error) (fails : FailsWith n e) :
    (∀ kind text span, e = .invalidLiteral kind text span →
      (kind = .integerLiteral ∨ kind = .floatLiteral ∨ kind = .stringLiteral ∨
        kind = .booleanLiteral) ∧
      ∃ m, Reaches n m ∧ m.kind = kind ∧ m.textOrEmpty = text ∧ m.span = span ∧
        decodes m = false) ∧
    ((∀ m ∈ literals n, decodes m = true) → ∃ flaw span, e = .malformed flaw span) ∧
    ∀ flaw span, e = .malformed flaw span → ∃ m, Reaches n m ∧ m.span = span := by
  cases fails.blames with
  | @shape m reached flaw =>
    refine ⟨?_, fun _ => ⟨flaw, m.span, rfl⟩, ?_⟩
    · intro kind text span named
      cases named
    · intro flaw span named
      cases named
      exact ⟨m, reached, rfl⟩
  | @literal m reached read bad =>
    refine ⟨?_, ?_, ?_⟩
    · intro kind text span named
      cases named
      refine ⟨?_, m, reached, rfl, rfl, rfl, bad⟩
      cases kind : m.kind <;> rw [kind] at read <;> cases read <;> simp
    · intro all
      rw [all m (mem_literals_iff.mpr ⟨reached, read⟩)] at bad
      cases bad
    · intro flaw span named
      cases named

/-- The attribute of an annotation is to blame, and not the number in the comment before it. -/
def misquotedNode : Node :=
  .branch .serviceDefinition ⟨0, 40⟩ [
    .branch .comment ⟨0, 6⟩ [.leaf .integerLiteral ⟨2, 4⟩ "0x"],
    .branch Kind.annotation ⟨7, 24⟩ [
      .leaf .identifier ⟨7, 12⟩ "@Path",
      .branch .annotationAttribute ⟨13, 23⟩ [
        .leaf .identifier ⟨13, 17⟩ "type",
        .leaf .stringLiteral ⟨18, 23⟩ "\"a\\q\""]],
    .leaf .identifier ⟨33, 38⟩ "Users"]

theorem misquotedNode_culprit :
    (service misquotedNode).result = .error (.invalidLiteral .stringLiteral "\"a\\q\"" ⟨18, 23⟩) ∧
      ∃ m, Reaches misquotedNode m ∧ m.kind = .stringLiteral ∧ m.textOrEmpty = "\"a\\q\"" ∧
        m.span = ⟨18, 23⟩ ∧ decodes m = false := by
  have failed : (service misquotedNode).result =
      .error (.invalidLiteral .stringLiteral "\"a\\q\"" ⟨18, 23⟩) := rfl
  exact ⟨failed, ((failure_names_culprit _ _ (.service failed)).1 _ _ _ rfl).2⟩

end ServiceLang.Lowering
