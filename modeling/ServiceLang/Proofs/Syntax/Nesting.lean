import Mathlib.Data.List.Chain
import ServiceLang.Proofs.Syntax.Significant
import ServiceLang.Span

/-!
# Nested syntax trees

A parser gives each node a span that covers its children, and lists children in source order without
overlap. Nothing enforces this, so both are properties of a tree here.
-/

namespace ServiceLang

namespace Span

theorem Within.refl (s : Span) : s.Within s := ⟨UInt64.le_refl _, UInt64.le_refl _⟩

theorem Within.trans {s t u : Span} (inner : s.Within t) (outer : t.Within u) : s.Within u :=
  ⟨UInt64.le_trans outer.1 inner.1, UInt64.le_trans inner.2 outer.2⟩

/-- The first span ends before the second one starts, or where it starts. -/
def Before (s t : Span) : Prop := s.stop ≤ t.start

/-- What lies within spans that follow one another follows one another itself. -/
theorem Before.within {s t s' t' : Span} (before : s.Before t) (first : s'.Within s)
    (second : t'.Within t) : s'.Before t' :=
  UInt64.le_trans first.2 (UInt64.le_trans before second.1)

end Span

namespace Syntax.Node

/-- Each child's span lies within its parent's. -/
inductive Nested : Node → Prop
  | node {n : Node} (within : ∀ c ∈ n.children, c.span.Within n.span)
    (each : ∀ c ∈ n.children, c.Nested) : Nested n

/-- No span is inverted, and the children of a node follow one another. -/
inductive Ordered : Node → Prop
  | node {n : Node} (upright : n.span.start ≤ n.span.stop)
    (apart : n.children.IsChain fun c d => c.span.Before d.span)
    (each : ∀ c ∈ n.children, c.Ordered) : Ordered n

variable {n c : Node}

/-- A child of a nested node lies within it. -/
theorem Nested.within (nested : n.Nested) (member : c ∈ n.children) : c.span.Within n.span := by
  cases nested with
  | node within each => exact within c member

theorem Nested.child (nested : n.Nested) (member : c ∈ n.children) : c.Nested := by
  cases nested with
  | node within each => exact each c member

theorem Ordered.upright (ordered : n.Ordered) : n.span.start ≤ n.span.stop := by
  cases ordered with
  | node upright apart each => exact upright

theorem Ordered.child (ordered : n.Ordered) (member : c ∈ n.children) : c.Ordered := by
  cases ordered with
  | node upright apart each => exact each c member

/-- Among upright spans it is enough that neighbours follow one another. -/
theorem pairwise_of_isChain {cs : List Node} (upright : ∀ c ∈ cs, c.span.start ≤ c.span.stop)
    (chain : cs.IsChain fun c d => c.span.Before d.span) :
    cs.Pairwise fun c d => c.span.Before d.span := by
  induction cs with
  | nil => exact .nil
  | cons c cs ih =>
    obtain ⟨next, chain⟩ := List.isChain_cons.mp chain
    have rest := ih (fun d member => upright d (List.mem_cons_of_mem c member)) chain
    refine .cons (fun d member => ?_) rest
    cases cs with
    | nil => cases member
    | cons e es =>
      have first : c.span.Before e.span := next e rfl
      rcases List.mem_cons.mp member with rfl | later
      · exact first
      · have middle : e.span.start ≤ e.span.stop :=
          upright e (List.mem_cons_of_mem c List.mem_cons_self)
        have second : e.span.Before d.span := (List.pairwise_cons.mp rest).1 d later
        exact UInt64.le_trans first (UInt64.le_trans middle second)

/-- Any of the children, as long as they keep their order, follow one another. -/
theorem Ordered.pairwise (ordered : n.Ordered) {cs : List Node} (chosen : cs.Sublist n.children) :
    cs.Pairwise fun c d => c.span.Before d.span := by
  cases ordered with
  | node upright apart each =>
    exact (pairwise_of_isChain (fun c member => (each c member).upright) apart).sublist chosen

mutual

def isNested : Node → Bool
  | ⟨_, span, children, _⟩ => areNested span children

def areNested (outer : Span) : List Node → Bool
  | [] => true
  | c :: cs =>
    outer.start ≤ c.span.start && c.span.stop ≤ outer.stop && isNested c && areNested outer cs

end

mutual

def isOrdered : Node → Bool
  | ⟨_, span, children, _⟩ => span.start ≤ span.stop && areOrdered children

def areOrdered : List Node → Bool
  | [] => true
  | [c] => isOrdered c
  | c :: d :: cs => isOrdered c && c.span.stop ≤ d.span.start && areOrdered (d :: cs)

end

theorem areNested_iff (outer : Span) {cs : List Node}
    (ih : ∀ c ∈ cs, c.isNested = true ↔ c.Nested) :
    areNested outer cs = true ↔ ∀ c ∈ cs, c.span.Within outer ∧ c.Nested := by
  induction cs with
  | nil => simp [areNested]
  | cons c cs rest =>
    obtain ⟨first, others⟩ := List.forall_mem_cons.mp ih
    simp only [areNested, Bool.and_eq_true, decide_eq_true_eq, first, rest others,
      List.forall_mem_cons, Span.Within]

/-- The test decides whether spans nest, by induction on the tree. -/
theorem isNested_iff (n : Node) : n.isNested = true ↔ n.Nested := by
  induction n using Node.induction with
  | step n ih =>
    have below := areNested_iff n.span ih
    have unfolded : n.isNested = areNested n.span n.children := by
      cases n
      rw [isNested]
    rw [unfolded, below]
    constructor
    · intro all
      exact .node (fun c member => (all c member).1) fun c member => (all c member).2
    · intro nested c member
      exact ⟨nested.within member, nested.child member⟩

theorem areOrdered_iff {cs : List Node} (ih : ∀ c ∈ cs, c.isOrdered = true ↔ c.Ordered) :
    areOrdered cs = true ↔
      (cs.IsChain fun c d => c.span.Before d.span) ∧ ∀ c ∈ cs, c.Ordered := by
  induction cs with
  | nil => simp [areOrdered]
  | cons c cs rest =>
    obtain ⟨first, others⟩ := List.forall_mem_cons.mp ih
    cases cs with
    | nil => simp [areOrdered, first]
    | cons d cs =>
      simp only [areOrdered, Bool.and_eq_true, decide_eq_true_eq, first, rest others,
        List.isChain_cons_cons, List.forall_mem_cons, Span.Before]
      tauto

/-- The test decides whether spans are in order, by induction on the tree. -/
theorem isOrdered_iff (n : Node) : n.isOrdered = true ↔ n.Ordered := by
  induction n using Node.induction with
  | step n ih =>
    have below := areOrdered_iff ih
    have unfolded : n.isOrdered = (n.span.start ≤ n.span.stop && areOrdered n.children) := by
      cases n
      rw [isOrdered]
    rw [unfolded, Bool.and_eq_true, decide_eq_true_eq, below]
    constructor
    · rintro ⟨upright, apart, each⟩
      exact .node upright apart each
    · intro ordered
      cases ordered with
      | node upright apart each => exact ⟨upright, apart, each⟩

instance : DecidablePred Nested := fun n => decidable_of_iff _ (isNested_iff n)

instance : DecidablePred Ordered := fun n => decidable_of_iff _ (isOrdered_iff n)

end Syntax.Node

end ServiceLang
