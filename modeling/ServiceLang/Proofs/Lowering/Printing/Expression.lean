import ServiceLang.Proofs.Lowering.Lookup
import ServiceLang.Proofs.Semantic.Literal
import ServiceLang.Proofs.Semantic.Proper

/-!
# Printing expressions

A syntax tree for every proper expression. It holds nothing besides what the documented shapes ask
for: no parentheses, no comments, and spans only where the expression has them.
-/

namespace ServiceLang

open Syntax (Kind Node)

namespace Semantic

def nameNode (name : String) : Node := .leaf .identifier .zero name

/-- Package and name with a colon between them, or the name alone. -/
def qualifiedName : Option String → String → String
  | none, name => name
  | some package, name => String.ofList (package.toList ++ ':' :: name.toList)

noncomputable section

mutual

def Expression.print : Expression → Node
  | .integer value => .leaf .integerLiteral .zero (String.ofList (Digits.decimalInt value.toInt))
  | .float value => .leaf .floatLiteral .zero (Literal.spelling value)
  | .string value => .leaf .stringLiteral .zero (Literal.quoted value)
  | .boolean value => .leaf .booleanLiteral .zero (toString value)
  | .null => .bare .nullLiteral .zero
  | .variable name span => .branch .variableReference span [nameNode name]
  | .arrayElement name index span =>
    .branch .arrayElementReference span [nameNode name, index.print]
  | .invocation package name arguments span =>
    .branch .functionInvocation span
      [nameNode (qualifiedName package name),
        .branch .argumentList .zero (Expression.printAll arguments)]
  | .binary op left right span =>
    .branch .binaryExpression span [left.print, .leaf .operator .zero op.symbol, right.print]
  | .unary op operand span =>
    .branch .unaryExpression span [.leaf .operator .zero op.symbol, operand.print]

def Expression.printAll : List Expression → List Node
  | [] => []
  | e :: es => e.print :: Expression.printAll es

end

def Call.print (c : Call) (span : Span) : Node :=
  .branch .functionInvocation span
    [nameNode (qualifiedName c.package c.name),
      .branch .argumentList .zero (c.arguments.map Expression.print)]

end

theorem Expression.printAll_eq_map (es : List Expression) :
    Expression.printAll es = es.map Expression.print := by
  induction es with
  | nil => rfl
  | cons e es ih => rw [Expression.printAll, ih, List.map_cons]

/-- As an expression a call is printed in the same way as by itself. -/
theorem Call.print_toExpression (c : Call) (span : Span) :
    (c.toExpression span).print = c.print span := by
  rw [Call.toExpression, Expression.print, Expression.printAll_eq_map, Call.print]

end Semantic

namespace Syntax.Node

/-- A branch without trivia among its children keeps all of them. -/
theorem significant_branch {cs : List Node} (visible : ∀ c ∈ cs, c.kind.isTrivia = false)
    (kind : Kind) (span : Span) : (Node.branch kind span cs).significant = cs := by
  change cs.filter (!·.kind.isTrivia) = cs
  rw [List.filter_eq_self]
  intro c member
  rw [visible c member]
  rfl

theorem errorNodes_branch {cs : List Node} (clean : ∀ c ∈ cs, c.errorNodes = []) {kind : Kind}
    (real : kind ≠ .error) (span : Span) : (Node.branch kind span cs).errorNodes = [] := by
  rw [errorNodes_eq, errorNodesIn_eq_flatMap]
  change (if kind = .error then _ else []) ++ cs.flatMap errorNodes = []
  rw [if_neg real, List.flatMap_eq_nil_iff.mpr clean]
  rfl

theorem errorNodes_leaf {kind : Kind} (real : kind ≠ .error) (span : Span) (text : String) :
    (Node.leaf kind span text).errorNodes = [] := by
  rw [errorNodes_eq]
  change (if kind = .error then _ else []) ++ [] = []
  rw [if_neg real]
  rfl

end Syntax.Node

namespace Lowering

open Semantic
open Outcome

variable {α β γ : Type}

theorem ok_bind {x : Outcome α} {a : α} {b : β} {k : α → Outcome β} (first : x.result = .ok a)
    (then_ : (k a).result = .ok b) : (x >>= k).result = .ok b := by
  rw [bind_of_ok k first]
  exact then_

/-- Members that are each read as their originals make a list that is read as the original list. -/
theorem ok_each {F : γ → Outcome α} {f : α → γ} {as : List α}
    (h : ∀ a ∈ as, (F (f a)).result = .ok a) : (each F (as.map f)).result = .ok as := by
  induction as with
  | nil => rfl
  | cons a as ih =>
    have rest := ih fun b member => h b (List.mem_cons_of_mem a member)
    exact ok_bind (h a List.mem_cons_self) (ok_bind rest rfl)

theorem isName_nameNode {name : String} (filled : name ≠ "") : IsName (nameNode name) :=
  ⟨rfl, filled⟩

theorem errorNodes_nameNode (name : String) : (nameNode name).errorNodes = [] :=
  Node.errorNodes_leaf (by decide) _ _

/-- A proper callee leaves a text that is accepted as a name. -/
theorem qualifiedName_ne_empty {package : Option String} {name : String}
    (callee : ProperCallee package name) : qualifiedName package name ≠ "" := by
  cases package with
  | none => exact callee.1
  | some package =>
    intro empty
    have chars := String.ofList_eq_empty_iff.mp empty
    exact List.append_ne_nil_of_right_ne_nil _ (List.cons_ne_nil _ _) chars

/-- The cut is at the first colon, which is why a proper name of a package has no colon in it. -/
theorem splitQualified_qualifiedName {package : Option String} {name : String}
    (callee : ProperCallee package name) :
    splitQualified (qualifiedName package name) = some (package, name) := by
  cases package with
  | none => exact splitQualified_plain callee.2
  | some package =>
    obtain ⟨filled, plain, named⟩ := callee
    have both : package.toList ≠ [] ∧ name.toList ≠ [] :=
      ⟨fun empty => filled (String.toList_eq_nil_iff.mp empty),
        fun empty => named (String.toList_eq_nil_iff.mp empty)⟩
    rw [qualifiedName, splitQualified_colon plain _, if_pos both, String.ofList_toList,
      String.ofList_toList]

theorem isExpression_print (e : Expression) : IsExpression e.print := by
  cases e <;> rfl

theorem visible_print (e : Expression) : e.print.kind.isTrivia = false := by
  cases e <;> rfl

/-- A printed node that is lowered to the value it was printed for, with no error node in it. -/
structure Prints (n : Node) (x : Outcome α) (a : α) : Prop where
  lowered : x.result = .ok a
  clean : n.errorNodes = []

abbrev Printed (e : Expression) : Prop := Prints e.print (expression e.print) e

/-- A call whose arguments are read back is read back itself. -/
theorem call_print {c : Call} (callee : ProperCallee c.package c.name)
    (arguments : ∀ e ∈ c.arguments, Printed e) (span : Span) :
    Prints (c.print span) (call (c.print span)) c := by
  have list : (Node.branch .argumentList .zero (c.arguments.map Expression.print)).significant =
      c.arguments.map Expression.print := by
    apply Node.significant_branch
    exact List.forall_mem_map.mpr fun e _ => visible_print e
  have split : (c.print span).significant =
      [nameNode (qualifiedName c.package c.name),
        .branch .argumentList .zero (c.arguments.map Expression.print)] := rfl
  have kind : (c.print span).kind = .functionInvocation := rfl
  constructor
  · rw [call_eq, expectKind_bind, if_pos kind,
      nameOf_of_first _ split (isName_nameNode (qualifiedName_ne_empty callee)), pure_bind]
    change (orFlaw (splitQualified (qualifiedName c.package c.name)) _ _ >>= _).result = _
    rw [splitQualified_qualifiedName callee, argumentsOf_of_split split rfl rfl, list]
    refine ok_bind (a := (c.package, c.name)) rfl ?_
    exact ok_bind (ok_each fun e member => (arguments e member).lowered) rfl
  · apply Node.errorNodes_branch _ (by decide)
    refine List.forall_mem_cons.mpr ⟨errorNodes_nameNode _, List.forall_mem_singleton.mpr ?_⟩
    apply Node.errorNodes_branch _ (by decide)
    exact List.forall_mem_map.mpr fun e listed => (arguments e listed).clean

/-- A literal whose text is read as the value, and of which the value makes the expression. -/
theorem printed_literal {e : Expression} {kind : Kind} {text : String} {read : String → Option α}
    {a : α} (make : α → Expression) (real : kind ≠ .error)
    (written : e.print = .leaf kind .zero text)
    (lowering : ∀ n : Node, n.kind = kind →
      expression n = literal n read >>= fun a => pure (make a))
    (found : read text = some a) (made : make a = e) : Printed e := by
  constructor
  · have ok : literal (.leaf kind .zero text) read = pure a := by
      have here : read (Node.leaf kind .zero text).textOrEmpty = some a := found
      rw [literal, here]
    rw [written, lowering _ rfl, ok, pure_bind, made]
    rfl
  · rw [written]
    exact Node.errorNodes_leaf real _ _

/-- A name that is not empty is all that is needed for a reference. -/
theorem printed_variable {name : String} (filled : name ≠ "") (span : Span) :
    Printed (.variable name span) := by
  have split : (Expression.variable name span).print.significant = [nameNode name] := rfl
  constructor
  · rw [expression_eq]
    change (nameOf _ _ >>= _).result = _
    rw [nameOf_of_first _ split (isName_nameNode filled)]
    rfl
  · apply Node.errorNodes_branch _ (by decide)
    exact List.forall_mem_singleton.mpr (errorNodes_nameNode _)

theorem printed_arrayElement {name : String} {index : Expression} (filled : name ≠ "")
    (printed : Printed index) (span : Span) : Printed (.arrayElement name index span) := by
  have isIndex := isExpression_print index
  have split : (Expression.arrayElement name index span).print.significant =
      [nameNode name, index.print] := by
    apply Node.significant_branch
    exact List.forall_mem_cons.mpr ⟨rfl, List.forall_mem_singleton.mpr (visible_print index)⟩
  constructor
  · rw [expression_eq]
    change (arrayElementOf _ _).result = _
    rw [arrayElementOf_eq, nameOf_of_first _ split (isName_nameNode filled), pure_bind,
      index_of_split split rfl isIndex]
    refine ok_bind (a := index.print) rfl ?_
    exact ok_bind printed.lowered rfl
  · apply Node.errorNodes_branch _ (by decide)
    exact List.forall_mem_cons.mpr ⟨errorNodes_nameNode _,
      List.forall_mem_singleton.mpr printed.clean⟩

/-- The operator is written between the operands, and its symbol is read back as the operator. -/
theorem printed_binary (op : BinaryOp) {left right : Expression} (printedLeft : Printed left)
    (printedRight : Printed right) (span : Span) : Printed (.binary op left right span) := by
  have isLeft := isExpression_print left
  have isRight := isExpression_print right
  have split : (Expression.binary op left right span).print.significant =
      [left.print] ++ .leaf .operator .zero op.symbol :: [right.print] := by
    apply Node.significant_branch
    exact List.forall_mem_cons.mpr ⟨visible_print left,
      List.forall_mem_cons.mpr ⟨rfl, List.forall_mem_singleton.mpr (visible_print right)⟩⟩
  constructor
  · rw [expression_eq]
    change (binaryOf _ _).result = _
    rw [binaryOf_eq, operatorOf_of_split [left.print] split (by simpa using isLeft) rfl, pure_bind,
      operandsOf_of_split [left.print] split rfl (by simp [isLeft, isRight])]
    change (orFlaw (BinaryOp.ofSymbol? op.symbol) _ _ >>= _).result = _
    rw [BinaryOp.ofSymbol?_symbol]
    refine ok_bind (a := op) rfl ?_
    exact ok_bind printedLeft.lowered (ok_bind printedRight.lowered rfl)
  · apply Node.errorNodes_branch _ (by decide)
    exact List.forall_mem_cons.mpr ⟨printedLeft.clean, List.forall_mem_cons.mpr
      ⟨Node.errorNodes_leaf (by decide) _ _, List.forall_mem_singleton.mpr printedRight.clean⟩⟩

theorem printed_unary (op : UnaryOp) {operand : Expression} (printed : Printed operand)
    (span : Span) : Printed (.unary op operand span) := by
  have isOperand := isExpression_print operand
  have split : (Expression.unary op operand span).print.significant =
      [] ++ .leaf .operator .zero op.symbol :: [operand.print] := by
    apply Node.significant_branch
    exact List.forall_mem_cons.mpr ⟨rfl, List.forall_mem_singleton.mpr (visible_print operand)⟩
  constructor
  · rw [expression_eq]
    change (unaryOf _ _).result = _
    rw [unaryOf_eq, operatorOf_of_split [] split (List.forall_mem_nil _) rfl, pure_bind,
      operandsOf_of_split [] split rfl (by simp [isOperand])]
    change (orFlaw (UnaryOp.ofSymbol? op.symbol) _ _ >>= _).result = _
    rw [UnaryOp.ofSymbol?_symbol]
    refine ok_bind (a := op) rfl ?_
    exact ok_bind printed.lowered rfl
  · apply Node.errorNodes_branch _ (by decide)
    exact List.forall_mem_cons.mpr ⟨Node.errorNodes_leaf (by decide) _ _,
      List.forall_mem_singleton.mpr printed.clean⟩

theorem printed_invocation {c : Call} (callee : ProperCallee c.package c.name)
    (arguments : ∀ e ∈ c.arguments, Printed e) (span : Span) : Printed (c.toExpression span) := by
  have printed := call_print callee arguments span
  constructor
  · rw [Call.print_toExpression, expression_eq]
    change (call (c.print span) >>= _).result = _
    exact ok_bind printed.lowered rfl
  · rw [Call.print_toExpression]
    exact printed.clean

mutual

/-- Every proper expression is read from what it is printed to. The recursion follows the
expression, with one of the lemmas above in each case. -/
theorem printed : ∀ e : Expression, e.Proper → Printed e
  | .integer value, _ =>
    printed_literal .integer (by decide) rfl
      (fun n kind => by rw [expression_eq, expressionOf, kind]) (Literal.integer?_decimalInt value)
      rfl
  | .float value, proper =>
    printed_literal .float (by decide) rfl
      (fun n kind => by rw [expression_eq, expressionOf, kind]) (Literal.float?_spelling proper.2)
      rfl
  | .string value, _ =>
    printed_literal .string (by decide) rfl
      (fun n kind => by rw [expression_eq, expressionOf, kind]) (Literal.string?_quoted value) rfl
  | .boolean value, _ =>
    printed_literal .boolean (by decide) rfl
      (fun n kind => by rw [expression_eq, expressionOf, kind]) (Literal.boolean?_toString value)
      rfl
  | .null, _ => ⟨by rw [expression_eq]; rfl, by rw [Node.errorNodes_eq]; rfl⟩
  | .variable _ span, filled => printed_variable filled span
  | .arrayElement _ index span, proper =>
    printed_arrayElement proper.1 (printed index proper.2) span
  | .invocation package name arguments span, proper =>
    printed_invocation (c := ⟨package, name, arguments⟩) proper.1
      (printed_all arguments proper.2) span
  | .binary op left right span, proper =>
    printed_binary op (printed left proper.1) (printed right proper.2) span
  | .unary op operand span, proper => printed_unary op (printed operand proper) span

theorem printed_all : ∀ es : List Expression, Expression.AllProper es → ∀ e ∈ es, Printed e
  | [], _ => List.forall_mem_nil _
  | e :: es, proper => List.forall_mem_cons.mpr ⟨printed e proper.1, printed_all es proper.2⟩

end

end Lowering

end ServiceLang
