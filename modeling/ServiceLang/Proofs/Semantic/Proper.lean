import ServiceLang.Proofs.Semantic.TypeRef
import ServiceLang.Semantic.Literal
import ServiceLang.Semantic.Tree

/-!
# Proper trees

What can be said of a semantic tree that was made from a syntax tree: names have something in them,
type names have no brackets and no white space, a qualified name can be told from a plain one,
values are assigned to variables and array elements only, and floating point numbers were written
as texts.
-/

namespace ServiceLang.Semantic

/-- The name of a called function and of its package, if it has one. -/
def ProperCallee : Option String → String → Prop
  | none, name => name ≠ "" ∧ ':' ∉ name.toList
  | some package, name => package ≠ "" ∧ ':' ∉ package.toList ∧ name ≠ ""

mutual

def Expression.Proper : Expression → Prop
  | .integer _ | .string _ | .boolean _ | .null => True
  | .float x => x.isFinite = true ∧ ∃ text, Literal.float? text = some x
  | .variable name _ => name ≠ ""
  | .arrayElement name index _ => name ≠ "" ∧ index.Proper
  | .invocation package name arguments _ =>
    ProperCallee package name ∧ Expression.AllProper arguments
  | .binary _ left right _ => left.Proper ∧ right.Proper
  | .unary _ operand _ => operand.Proper

def Expression.AllProper : List Expression → Prop
  | [] => True
  | e :: es => e.Proper ∧ Expression.AllProper es

end

/-- The recursion over a list of expressions says no more than that each of them is proper. -/
theorem Expression.allProper_iff {es : List Expression} :
    Expression.AllProper es ↔ ∀ e ∈ es, e.Proper := by
  induction es with
  | nil => exact ⟨fun _ => List.forall_mem_nil _, fun _ => trivial⟩
  | cons e es ih => rw [Expression.AllProper, ih, List.forall_mem_cons]

/-- What may be assigned to. -/
def Expression.IsTarget : Expression → Prop
  | .variable _ _ | .arrayElement _ _ _ => True
  | _ => False

def Call.Proper (c : Call) : Prop :=
  ProperCallee c.package c.name ∧ ∀ e ∈ c.arguments, e.Proper

mutual

def Statement.Proper : Statement → Prop
  | .assignment target value _ => target.IsTarget ∧ target.Proper ∧ value.Proper
  | .return values _ => ∀ e ∈ values, e.Proper
  | .reply value _ => value.Proper
  | .invocation call _ => call.Proper
  | .ifElse condition thenBody elseBody _ =>
    condition.Proper ∧ Statement.AllProper thenBody ∧ Statement.ElseProper elseBody
  | .while condition body _ => condition.Proper ∧ Statement.AllProper body
  | .block statements _ => Statement.AllProper statements

def Statement.AllProper : List Statement → Prop
  | [] => True
  | s :: ss => s.Proper ∧ Statement.AllProper ss

def Statement.ElseProper : Option (List Statement) → Prop
  | none => True
  | some ss => Statement.AllProper ss

end

theorem Statement.allProper_iff {ss : List Statement} :
    Statement.AllProper ss ↔ ∀ s ∈ ss, s.Proper := by
  induction ss with
  | nil => exact ⟨fun _ => List.forall_mem_nil _, fun _ => trivial⟩
  | cons s ss ih => rw [Statement.AllProper, ih, List.forall_mem_cons]

def Annotation.Proper (a : Annotation) : Prop := a.name ≠ "" ∧ ∀ b ∈ a.attributes, b.key ≠ ""

def Variable.Proper (v : Variable) : Prop := v.name ≠ "" ∧ v.type.Proper

structure Resource.Proper (r : Resource) : Prop where
  name : r.name ≠ ""
  annotations : ∀ a ∈ r.annotations, a.Proper
  locals : ∀ v ∈ r.locals, v.Proper
  statements : ∀ s ∈ r.statements, s.Proper

structure Service.Proper (s : Service) : Prop where
  name : s.name ≠ ""
  annotations : ∀ a ∈ s.annotations, a.Proper
  resources : ∀ r ∈ s.resources, r.Proper

def Tree.Proper (t : Tree) : Prop := ∀ s ∈ t.services, s.Proper

end ServiceLang.Semantic
