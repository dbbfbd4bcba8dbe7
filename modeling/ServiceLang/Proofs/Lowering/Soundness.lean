import ServiceLang.Proofs.Lowering.Assertion
import ServiceLang.Proofs.Lowering.QualifiedName
import ServiceLang.Proofs.Semantic.Literal
import ServiceLang.Proofs.Semantic.Proper

/-!
# What the lowering yields

Whatever the syntax tree looks like, a semantic tree that is made from it is proper. Nothing is
claimed of a lowering that fails, so that every test it makes may be used for what comes after.
-/

namespace ServiceLang.Lowering

open Syntax (Kind Node)
open Semantic
open Outcome

variable {α β γ : Type}

/-- The value has the property if there is one. -/
def Yields (x : Outcome α) (Q : α → Prop) : Prop := ∀ a, x.result = .ok a → Q a

namespace Yields

/-- To yield values with a property is the assertion that leaves events and errors open. -/
theorem meets {x : Outcome α} {Q : α → Prop} (h : Yields x Q) :
    Meets (fun _ => True) (fun _ => True) x fun a _ => Q a :=
  ⟨fun _ _ => trivial, fun _ _ => trivial, h⟩

theorem of_meets {x : Outcome α} {Q : α → Prop}
    (h : Meets (fun _ => True) (fun _ => True) x fun a _ => Q a) : Yields x Q :=
  h.value

theorem pure {Q : α → Prop} {a : α} (holds : Q a) : Yields (Pure.pure a) Q :=
  of_meets (Meets.pure holds)

theorem flawed {Q : α → Prop} (span : Span) (flaw : Flaw) :
    Yields (Outcome.flawed span flaw) Q :=
  of_meets (Meets.flawed trivial)

/-- What is known of the value of the first step may be used for the second. -/
theorem bind {x : Outcome α} {k : α → Outcome β} {Q : α → Prop} {R : β → Prop}
    (first : Yields x Q) (then_ : ∀ a, Q a → Yields (k a) R) : Yields (x >>= k) R :=
  of_meets (first.meets.bind fun a _ holds => (then_ a holds).meets)

/-- A step of which only its end is used. -/
theorem after {x : Outcome α} {k : α → Outcome β} {R : β → Prop} (then_ : ∀ a, Yields (k a) R) :
    Yields (x >>= k) R :=
  Yields.bind (Q := fun _ => True) (fun _ _ => trivial) fun a _ => then_ a

theorem guarded {n : Node} {kind : Kind} {k : Unit → Outcome α} {Q : α → Prop}
    (then_ : n.kind = kind → Yields (k ()) Q) : Yields (expectKind n kind >>= k) Q :=
  of_meets (Meets.guarded trivial fun same => (then_ same).meets)

theorem each {F : γ → Outcome α} {Q : α → Prop} {cs : List γ} (h : ∀ c ∈ cs, Yields (F c) Q) :
    Yields (each F cs) fun as => ∀ a ∈ as, Q a :=
  of_meets (Meets.each (Q := fun a _ => Q a) (List.forall_mem_nil _)
    (fun _ _ _ _ first rest => List.forall_mem_cons.mpr ⟨first, rest⟩)
    fun c member => (h c member).meets)

theorem fold {F : α → γ → Outcome α} {I : α → Prop} {cs : List γ}
    (h : ∀ c ∈ cs, ∀ a, I a → Yields (F a c) I) {a : α} (start : I a) : Yields (fold F a cs) I :=
  of_meets (Meets.fold (fun a _ => I a) [] (fun c member a _ holds => (h c member a holds).meets)
    start)

/-- A property of what has been made of the first members of a list is kept by each step. -/
theorem foldPrefix {F : α → γ → Outcome α} {I : List γ → α → Prop}
    (step : ∀ done c a, I done a → Yields (F a c) (I (done ++ [c]))) (cs : List γ)
    {done : List γ} {a : α} (start : I done a) : Yields (Outcome.fold F a cs) (I (done ++ cs)) := by
  induction cs generalizing done a with
  | nil =>
    rw [List.append_nil]
    exact Yields.pure start
  | cons c cs ih =>
    refine (step done c a start).bind fun b kept => ?_
    have rest := ih kept
    rw [List.append_assoc] at rest
    exact rest

theorem orFlaw (a? : Option α) (span : Span) (flaw : Flaw) :
    Yields (orFlaw a? span flaw) (a? = some ·) :=
  fun _ => of_orFlaw

/-- The value of a literal is what its text denotes. -/
theorem literal (n : Node) (read : String → Option α) :
    Yields (literal n read) (read n.textOrEmpty = some ·) :=
  fun a => (literal_ok_iff n read a).mp

/-- A name that is read is not empty. -/
theorem nameOf (n : Node) (subject : Subject) : Yields (nameOf n subject) (· ≠ "") := by
  rw [Lowering.nameOf]
  refine after fun identifier => ?_
  by_cases empty : identifier.textOrEmpty = ""
  · rw [if_pos empty]
    exact flawed _ _
  · rw [if_neg empty]
    exact Yields.pure empty

end Yields

/-- The cut is at the first colon, so that the package has none, and neither part is empty. -/
theorem properCallee_of_splitQualified {qualified name : String} {package : Option String}
    (filled : qualified ≠ "") (split : splitQualified qualified = some (package, name)) :
    ProperCallee package name := by
  rcases exists_first_colon qualified.toList with plain | ⟨front, back, cut, before⟩
  · rw [splitQualified_plain plain] at split
    cases split
    exact ⟨filled, plain⟩
  · have parts := splitQualified_colon before back
    rw [← cut, String.ofList_toList, split] at parts
    by_cases both : front ≠ [] ∧ back ≠ []
    · rw [if_pos both] at parts
      cases parts
      refine ⟨?_, ?_, ?_⟩
      · exact fun empty => both.1 (String.ofList_eq_empty_iff.mp empty)
      · rw [String.toList_ofList]
        exact before
      · exact fun empty => both.2 (String.ofList_eq_empty_iff.mp empty)
    · rw [if_neg both] at parts
      cases parts

/-- The members of a list are lowered to proper expressions. -/
def ProperExpressions (cs : List Node) : Prop := ∀ c ∈ cs, Yields (expression c) Expression.Proper

section

variable {n : Node}

/-- A missing list of arguments yields none at all, which is proper. -/
theorem yields_arguments (below : ∀ c ∈ n.children, ProperExpressions c.children) :
    Yields (argumentsOf n) fun es => ∀ e ∈ es, e.Proper := by
  rw [argumentsOf]
  cases found : n.child? .argumentList with
  | none => exact Yields.pure (List.forall_mem_nil _)
  | some list =>
    refine Yields.each fun c member => ?_
    exact below list (Node.mem_of_child? found) c (Node.mem_children_of_significant member)

/-- The name is cut into a proper callee, and the arguments are proper by hypothesis. -/
theorem yields_call (below : ∀ c ∈ n.children, ProperExpressions c.children) :
    Yields (call n) Call.Proper := by
  rw [call_eq]
  refine Yields.guarded fun _ => ?_
  refine (Yields.nameOf n _).bind fun qualified filled => ?_
  refine (Yields.orFlaw _ _ _).bind fun ⟨package, name⟩ split => ?_
  refine (yields_arguments below).bind fun es proper => ?_
  exact Yields.pure ⟨properCallee_of_splitQualified filled split, proper⟩

variable (children : ProperExpressions n.children)

include children

theorem yields_binary : Yields (binaryOf n (partsOf n.children)) Expression.Proper := by
  have read : ProperExpressions (operandsOf n) := fun c member =>
    children c (mem_children_of_operandsOf member)
  rw [binaryOf_eq]
  refine Yields.after fun symbol => Yields.after fun op => ?_
  rcases operands : operandsOf n with _ | ⟨left, _ | ⟨right, _ | ⟨extra, rest⟩⟩⟩
  · exact Yields.flawed _ _
  · exact Yields.flawed _ _
  · rw [operands] at read
    refine (read left (by simp)).bind fun l properLeft => ?_
    refine (read right (by simp)).bind fun r properRight => ?_
    exact Yields.pure ⟨properLeft, properRight⟩
  · exact Yields.flawed _ _

theorem yields_unary : Yields (unaryOf n (partsOf n.children)) Expression.Proper := by
  have read : ProperExpressions (operandsOf n) := fun c member =>
    children c (mem_children_of_operandsOf member)
  rw [unaryOf_eq]
  refine Yields.after fun symbol => Yields.after fun op => ?_
  rcases operands : operandsOf n with _ | ⟨operand, _ | ⟨extra, rest⟩⟩
  · exact Yields.flawed _ _
  · rw [operands] at read
    exact (read operand (by simp)).bind fun e proper => Yields.pure proper
  · exact Yields.flawed _ _

theorem yields_parenthesized :
    Yields (parenthesizedOf n (partsOf n.children)) Expression.Proper := by
  have read : ProperExpressions (operandsOf n) := fun c member =>
    children c (mem_children_of_operandsOf member)
  rw [parenthesizedOf_eq]
  rcases operands : operandsOf n with _ | ⟨operand, _ | ⟨extra, rest⟩⟩
  · exact Yields.flawed _ _
  · rw [operands] at read
    exact read operand (by simp)
  · exact Yields.flawed _ _

/-- An element has a name that is not empty, and an index that is proper by hypothesis. -/
theorem yields_arrayElement : Yields (arrayElementOf n (partsOf n.children)) Expression.Proper := by
  rw [arrayElementOf_eq]
  refine (Yields.nameOf n _).bind fun name filled => ?_
  refine (Yields.orFlaw _ _ _).bind fun index found => ?_
  have member : index ∈ n.children :=
    Node.mem_children_of_significant (List.mem_of_find?_eq_some found)
  refine (children index member).bind fun e proper => ?_
  exact Yields.pure ⟨filled, proper⟩

/-- By cases on the kind. A literal that denotes a float denotes a finite one that can be written,
and nothing else is asked of literals. -/
theorem yields_expression_step (below : ∀ c ∈ n.children, ProperExpressions c.children) :
    Yields (expression n) Expression.Proper := by
  rw [expression_eq, expressionOf]
  cases n.kind with
  | integerLiteral => exact Yields.after fun _ => Yields.pure trivial
  | floatLiteral =>
    refine (Yields.literal n _).bind fun x read => ?_
    exact Yields.pure ⟨Literal.isFinite_of_float? read, _, read⟩
  | stringLiteral => exact Yields.after fun _ => Yields.pure trivial
  | booleanLiteral => exact Yields.after fun _ => Yields.pure trivial
  | nullLiteral => exact Yields.pure trivial
  | variableReference => exact (Yields.nameOf n _).bind fun name filled => Yields.pure filled
  | arrayElementReference => exact yields_arrayElement children
  | functionInvocation =>
    refine (yields_call below).bind fun c proper => ?_
    exact Yields.pure ⟨proper.1, Expression.allProper_iff.mpr proper.2⟩
  | binaryExpression => exact yields_binary children
  | unaryExpression => exact yields_unary children
  | parenthesizedExpression => exact yields_parenthesized children
  | _ => exact Yields.flawed _ _

end

/-- Only proper expressions are ever made. -/
theorem yields_expression (n : Node) : Yields (expression n) Expression.Proper := by
  induction n using Node.induction_twoLevels with
  | step n children below => exact yields_expression_step children below

/-- A node of one of the two kinds that may be assigned to becomes a variable or an element. -/
theorem yields_target {n : Node}
    (kind : n.kind = .variableReference ∨ n.kind = .arrayElementReference) :
    Yields (expression n) Expression.IsTarget := by
  rw [expression_eq, expressionOf]
  rcases kind with kind | kind
  · rw [kind]
    exact Yields.after fun _ => Yields.pure trivial
  · rw [kind]
    change Yields (arrayElementOf n (partsOf n.children)) _
    rw [arrayElementOf_eq]
    exact Yields.after fun _ => Yields.after fun _ => Yields.after fun _ => Yields.pure trivial

theorem yields_condition (n : Node) (subject : Subject) :
    Yields (conditionOf n subject) Expression.Proper := by
  rw [conditionOf]
  generalize n.significant.filter (·.kind.isExpression) = conditions
  rcases conditions with _ | ⟨condition, _ | ⟨extra, rest⟩⟩
  · exact Yields.flawed _ _
  · exact yields_expression condition
  · exact Yields.flawed _ _

/-- What is assigned to is made from one of the two kinds that may be. -/
theorem yields_assignment (n : Node) : Yields (assignmentOf n) Statement.Proper := by
  rw [assignmentOf]
  rcases operandsOf n with _ | ⟨target, _ | ⟨value, _ | ⟨extra, rest⟩⟩⟩
  · exact Yields.flawed _ _
  · exact Yields.flawed _ _
  · simp only
    by_cases kind : target.kind = .variableReference ∨ target.kind = .arrayElementReference
    · rw [if_pos kind]
      have both : Yields (expression target) fun e => e.IsTarget ∧ e.Proper := fun e ok =>
        ⟨yields_target kind e ok, yields_expression target e ok⟩
      refine both.bind fun t properTarget => ?_
      refine (yields_expression value).bind fun v properValue => ?_
      exact Yields.pure ⟨properTarget.1, properTarget.2, properValue⟩
    · rw [if_neg kind]
      exact Yields.flawed _ _
  · exact Yields.flawed _ _

theorem yields_reply (n : Node) : Yields (replyOf n) Statement.Proper := by
  rw [replyOf]
  rcases operandsOf n with _ | ⟨value, _ | ⟨extra, rest⟩⟩
  · exact Yields.flawed _ _
  · exact (yields_expression value).bind fun v proper => Yields.pure proper
  · exact Yields.flawed _ _

theorem yields_return (n : Node) : Yields (returnOf n) Statement.Proper := by
  rw [returnOf]
  refine (Yields.each fun c _ => yields_expression c).bind fun values proper => ?_
  exact Yields.pure proper

theorem yields_invocation (n : Node) : Yields (invocationOf n) Statement.Proper := by
  rw [invocationOf]
  refine Yields.after fun callee => ?_
  refine (yields_call fun c _ => fun d _ => yields_expression d).bind fun c proper => ?_
  exact Yields.pure proper

/-- Read as a wrapped statement, as a statement without its wrapper and as a block, the node is
proper. -/
structure YieldsStatements (n : Node) : Prop where
  wrapped : Yields (statement n) Statement.Proper
  concrete : Yields (concreteStatement n) Statement.Proper
  block : Yields (block n) fun ss => ∀ s ∈ ss, s.Proper

section

variable {n : Node} (ih : ∀ c ∈ n.children, YieldsStatements c)

include ih

/-- Both branches are made from blocks, of which the hypothesis speaks. -/
theorem yields_ifElse : Yields (ifElseOf n (clausesOf n.children)) Statement.Proper := by
  have bodies : ∀ c ∈ n.childrenOf .block, YieldsStatements c := fun c member =>
    ih c (List.mem_filter.mp member).1
  rw [ifElseOf_eq]
  refine (yields_condition n _).bind fun condition properCondition => ?_
  rcases blocks : n.childrenOf .block with _ | ⟨first, _ | ⟨second, _ | ⟨extra, rest⟩⟩⟩
  · exact Yields.flawed _ _
  · rw [blocks] at bodies
    refine (bodies first (by simp)).block.bind fun thenBody properThen => ?_
    exact Yields.pure ⟨properCondition, Statement.allProper_iff.mpr properThen, trivial⟩
  · rw [blocks] at bodies
    refine (bodies first (by simp)).block.bind fun thenBody properThen => ?_
    refine (bodies second (by simp)).block.bind fun elseBody properElse => ?_
    exact Yields.pure ⟨properCondition, Statement.allProper_iff.mpr properThen,
      Statement.allProper_iff.mpr properElse⟩
  · exact Yields.after fun _ => Yields.after fun _ => Yields.flawed _ _

theorem yields_while : Yields (whileOf n (clausesOf n.children)) Statement.Proper := by
  have bodies : ∀ c ∈ n.childrenOf .block, YieldsStatements c := fun c member =>
    ih c (List.mem_filter.mp member).1
  rw [whileOf_eq]
  refine (yields_condition n _).bind fun condition properCondition => ?_
  rcases blocks : n.childrenOf .block with _ | ⟨first, _ | ⟨extra, rest⟩⟩
  · exact Yields.flawed _ _
  · rw [blocks] at bodies
    refine (bodies first (by simp)).block.bind fun body properBody => ?_
    exact Yields.pure ⟨properCondition, Statement.allProper_iff.mpr properBody⟩
  · exact Yields.after fun _ => Yields.flawed _ _

theorem yields_block_step : Yields (block n) fun ss => ∀ s ∈ ss, s.Proper := by
  rw [block_eq_each]
  refine Yields.guarded fun _ => ?_
  exact Yields.each fun c member => (ih c (Node.mem_children_of_significant member)).wrapped

theorem yields_wrapped_step : Yields (statement n) Statement.Proper := by
  rw [statement_eq_concrete]
  refine Yields.guarded fun _ => ?_
  rcases members : n.significant with _ | ⟨inner, _ | ⟨extra, rest⟩⟩
  · exact Yields.flawed _ _
  · have member : inner ∈ n.significant := members ▸ List.mem_cons_self
    exact (ih inner (Node.mem_children_of_significant member)).concrete
  · exact Yields.flawed _ _

theorem yields_concrete_step : Yields (concreteStatement n) Statement.Proper := by
  rw [concreteStatement_eq, concreteOf]
  refine Yields.after fun _ => ?_
  cases n.kind with
  | assignmentStatement => exact yields_assignment n
  | returnStatement => exact yields_return n
  | replyStatement => exact yields_reply n
  | functionInvocationStatement => exact yields_invocation n
  | ifElseStatement => exact yields_ifElse ih
  | whileStatement => exact yields_while ih
  | block =>
    simp only [← block_eq]
    refine (yields_block_step ih).bind fun ss proper => ?_
    exact Yields.pure (Statement.allProper_iff.mpr proper)
  | _ => exact Yields.flawed _ _

end

/-- Only proper statements are ever made. -/
theorem yields_statements (n : Node) : YieldsStatements n := by
  induction n using Node.induction with
  | step n ih => exact ⟨yields_wrapped_step ih, yields_concrete_step ih, yields_block_step ih⟩

/-- An attribute has a key that is not empty. -/
theorem yields_attribute (n : Node) : Yields (annotationAttribute n) (·.key ≠ "") := by
  rw [annotationAttribute]
  refine (Yields.nameOf n _).bind fun key filled => ?_
  exact Yields.after fun _ => Yields.after fun _ => Yields.pure filled

/-- Whatever child is added, the name of the annotation stays as it is. -/
theorem yields_addToAnnotation {a : Annotation} (proper : a.Proper) (child : Node) :
    Yields (Lowering.addToAnnotation a child) Annotation.Proper := by
  rw [Lowering.addToAnnotation]
  cases child.kind with
  | identifier => exact Yields.pure proper
  | stringLiteral =>
    cases a.value with
    | none => exact Yields.after fun _ => Yields.pure proper
    | some value => exact Yields.flawed _ _
  | annotationAttribute =>
    refine (yields_attribute child).bind fun new filled => ?_
    exact Yields.pure ⟨proper.1, List.forall_mem_append.mpr
      ⟨proper.2, List.forall_mem_singleton.mpr filled⟩⟩
  | _ => exact Yields.flawed _ _

theorem yields_annotated (n : Node) : Yields (Lowering.annotation n) Annotation.Proper := by
  rw [Lowering.annotation]
  refine Yields.guarded fun _ => Yields.after fun raw => ?_
  by_cases empty : withoutAt raw = ""
  · rw [if_pos empty]
    exact Yields.flawed _ _
  · rw [if_neg empty]
    refine Yields.after fun _ => ?_
    exact Yields.fold (fun c _ a proper => yields_addToAnnotation proper c)
      ⟨empty, List.forall_mem_nil _⟩

/-- A declaration has a name that is not empty, and a type that can be written. -/
theorem yields_declaration (n : Node) : Yields (declaration n) Variable.Proper := by
  rw [declaration]
  refine Yields.guarded fun _ => Yields.after fun typeNode => ?_
  refine (Yields.orFlaw _ _ _).bind fun type read => ?_
  refine (Yields.nameOf n _).bind fun name filled => ?_
  exact Yields.after fun _ => Yields.pure ⟨filled, TypeRef.proper_of_parse? read⟩

/-- A declaration or a statement more keeps a resource proper. -/
theorem yields_addToBody {r : Resource} (proper : r.Proper) (child : Node) :
    Yields (addToBody r child) Resource.Proper := by
  rw [addToBody]
  cases child.kind with
  | variableDeclaration =>
    simp only
    by_cases early : r.statements.isEmpty = true
    · rw [if_pos early]
      refine (yields_declaration child).bind fun new properNew => ?_
      exact Yields.pure { proper with
        locals := List.forall_mem_append.mpr
          ⟨proper.locals, List.forall_mem_singleton.mpr properNew⟩ }
    · rw [if_neg early]
      exact Yields.flawed _ _
  | statement =>
    refine (yields_statements child).wrapped.bind fun new properNew => ?_
    exact Yields.pure { proper with
      statements := List.forall_mem_append.mpr
        ⟨proper.statements, List.forall_mem_singleton.mpr properNew⟩ }
  | _ => exact Yields.flawed _ _

theorem yields_addToResource {p : PartialResource} (proper : p.resource.Proper) (child : Node) :
    Yields (addToResource p child) (·.resource.Proper) := by
  obtain ⟨r, named, bodied⟩ := p
  rw [addToResource]
  cases child.kind with
  | annotation =>
    refine (yields_annotated child).bind fun new properNew => ?_
    exact Yields.pure { proper with
      annotations := List.forall_mem_append.mpr
        ⟨proper.annotations, List.forall_mem_singleton.mpr properNew⟩ }
  | identifier =>
    cases named with
    | true => exact Yields.flawed _ _
    | false => exact Yields.pure proper
  | functionBody =>
    cases bodied with
    | true => exact Yields.flawed _ _
    | false =>
      have filled := Yields.fold (fun c (_ : c ∈ child.significant) a properSoFar =>
        yields_addToBody properSoFar c) proper
      exact filled.bind fun b properBody => Yields.pure properBody
  | _ => exact Yields.flawed _ _

/-- A resource has its name from the start and every child keeps it proper. Only a missing body is
found out at the end. -/
theorem yields_resource (n : Node) : Yields (resource n) Resource.Proper := by
  rw [resource]
  refine Yields.guarded fun _ => (Yields.nameOf n _).bind fun name filled => ?_
  have fresh : (Resource.empty name n.span).Proper :=
    ⟨filled, List.forall_mem_nil _, List.forall_mem_nil _, List.forall_mem_nil _⟩
  refine (Yields.fold (I := (·.resource.Proper)) (fun c _ p proper =>
    yields_addToResource proper c) fresh).bind fun p proper => ?_
  by_cases bodied : p.bodied = true
  · rw [if_pos bodied]
    exact Yields.after fun _ => Yields.pure proper
  · rw [if_neg bodied]
    exact Yields.flawed _ _

theorem yields_addToService {s : Service} (proper : s.Proper) (child : Node) :
    Yields (addToService s child) Service.Proper := by
  rw [addToService]
  cases child.kind with
  | annotation =>
    refine (yields_annotated child).bind fun new properNew => ?_
    exact Yields.pure { proper with
      annotations := List.forall_mem_append.mpr
        ⟨proper.annotations, List.forall_mem_singleton.mpr properNew⟩ }
  | resourceDefinition =>
    refine (yields_resource child).bind fun new properNew => ?_
    exact Yields.pure { proper with
      resources := List.forall_mem_append.mpr
        ⟨proper.resources, List.forall_mem_singleton.mpr properNew⟩ }
  | identifier => exact Yields.pure proper
  | _ => exact Yields.flawed _ _

/-- A service starts from a name that is not empty, and each child keeps it proper. -/
theorem yields_service (n : Node) : Yields (service n) Service.Proper := by
  rw [service]
  refine Yields.guarded fun _ => (Yields.nameOf n _).bind fun name filled => ?_
  have fresh : Service.Proper ⟨name, [], [], n.span⟩ :=
    ⟨filled, List.forall_mem_nil _, List.forall_mem_nil _⟩
  refine (Yields.fold (fun c _ s proper => yields_addToService proper c) fresh).bind
    fun s proper => ?_
  exact Yields.after fun _ => Yields.pure proper

theorem yields_topLevel (n : Node) : Yields (topLevel n) Service.Proper := by
  rw [topLevel]
  cases n.kind with
  | serviceDefinition => exact yields_service n
  | _ => exact Yields.flawed _ _

/-- Nothing improper is ever made. -/
theorem yields_tree (t : Syntax.Tree) : Yields (tree t) Semantic.Tree.Proper := by
  rw [tree]
  cases syntaxDiagnostics t with
  | nil =>
    refine Yields.guarded fun _ => ?_
    exact (Yields.each fun c _ => yields_topLevel c).bind fun services proper => Yields.pure proper
  | cons d ds =>
    refine Yields.after fun _ => ?_
    intro a ok
    cases ok

end ServiceLang.Lowering
