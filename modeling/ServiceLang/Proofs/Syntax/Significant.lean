import ServiceLang.Syntax.Tree

/-!
# Significant children

What a syntax tree says is read from significant children alone. A child that is asked for by its
kind is a significant one unless the kind is trivia, and a property of nodes that passes from the
children to their parent holds of all nodes.
-/

namespace ServiceLang.Syntax

namespace Kind

/-- Kinds of node that stand for one word of the source and are read from their text alone. -/
def isToken : Kind → Bool
  | .identifier | .operator | .typeName => true
  | k => k.isLiteral

/-- Tokens whose text matters, which is all but the one literal that is known by its kind. -/
def isWorded (k : Kind) : Bool := k.isToken && k != .nullLiteral

end Kind

namespace Node

theorem sizeOf_lt_of_mem {n c : Node} (h : c ∈ n.children) : sizeOf c < sizeOf n := by
  have member := List.sizeOf_lt_of_mem h
  cases n
  simp only [Node.mk.sizeOf_spec] at member ⊢
  omega

/-- What holds of a node if it holds of its children holds of every node. -/
theorem induction {P : Node → Prop} (step : ∀ n, (∀ c ∈ n.children, P c) → P n) (n : Node) : P n :=
  step n fun c _ => induction step c
termination_by n
decreasing_by exact sizeOf_lt_of_mem ‹_›

/-- A call is read from the children of its argument list, so what is shown of expressions is shown
from the children of a node and from theirs. -/
theorem induction_twoLevels {P : Node → Prop}
    (step : ∀ n, (∀ c ∈ n.children, P c) → (∀ c ∈ n.children, ∀ d ∈ c.children, P d) → P n)
    (n : Node) : P n := by
  suffices all : P n ∧ ∀ c ∈ n.children, P c from all.1
  induction n using Node.induction with
  | step n ih =>
    have children : ∀ c ∈ n.children, P c := fun c member => (ih c member).1
    exact ⟨step n children fun c member => (ih c member).2, children⟩

/-- The significant children are the children that are no trivia. -/
theorem mem_significant {n c : Node} :
    c ∈ n.significant ↔ c ∈ n.children ∧ c.kind.isTrivia = false := by
  simp only [significant, List.mem_filter, Bool.not_eq_true']

theorem mem_children_of_significant {n c : Node} (h : c ∈ n.significant) : c ∈ n.children :=
  (mem_significant.mp h).1

/-- Children of a kind that is not trivia may be looked for among the significant ones. -/
theorem childrenOf_eq_filter (n : Node) {kind : Kind} (h : kind.isTrivia = false) :
    n.childrenOf kind = n.significant.filter (·.kind == kind) := by
  rw [childrenOf, significant, List.filter_filter]
  refine List.filter_congr fun c _ => ?_
  by_cases same : c.kind = kind
  · simp [same, h]
  · simp [same]

theorem child?_eq_find? (n : Node) {kind : Kind} (h : kind.isTrivia = false) :
    n.child? kind = n.significant.find? (·.kind == kind) := by
  rw [child?_eq_head?, childrenOf_eq_filter n h, List.head?_filter]

theorem kind_of_child? {n c : Node} {kind : Kind} (h : n.child? kind = some c) : c.kind = kind := by
  have := List.find?_some h
  simpa using this

theorem mem_of_child? {n c : Node} {kind : Kind} (h : n.child? kind = some c) : c ∈ n.children :=
  List.mem_of_find?_eq_some h

/-- The error nodes of a node are itself, if it is one, and those of its children behind it. -/
theorem errorNodes_eq (n : Node) :
    n.errorNodes = (if n.kind = .error then [n] else []) ++ errorNodesIn n.children := by
  cases n
  rw [errorNodes]

theorem kind_of_mem_errorNodes {n e : Node} (h : e ∈ n.errorNodes) : e.kind = .error := by
  induction n using Node.induction with
  | step n ih =>
    rw [errorNodes_eq, errorNodesIn_eq_flatMap] at h
    rcases List.mem_append.mp h with here | below
    · by_cases error : n.kind = .error
      · rw [if_pos error, List.mem_singleton] at here
        rw [here, error]
      · rw [if_neg error] at here
        cases here
    · obtain ⟨c, member, found⟩ := List.mem_flatMap.mp below
      exact ih c member found

end Node

end ServiceLang.Syntax
