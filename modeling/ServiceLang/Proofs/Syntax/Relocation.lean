import Mathlib.Data.List.Basic
import ServiceLang.Proofs.Syntax.Significant

/-!
# Moving the spans of syntax trees

A syntax tree with a function applied to each of its spans, those of reported errors included.
Kinds, texts and the order of children stay, and so does what is significant and what is an error
node. Two functions that agree on the spans of a tree move it to the same place.
-/

namespace ServiceLang.Syntax

namespace Node

mutual

def relocate (f : Span → Span) : Node → Node
  | ⟨kind, span, children, text⟩ => ⟨kind, f span, relocateAll f children, text⟩

def relocateAll (f : Span → Span) : List Node → List Node
  | [] => []
  | c :: cs => relocate f c :: relocateAll f cs

end

mutual

/-- The spans of a node and of everything below it. -/
def spans : Node → List Span
  | ⟨_, span, children, _⟩ => span :: spansIn children

def spansIn : List Node → List Span
  | [] => []
  | c :: cs => spans c ++ spansIn cs

end

variable {f g : Span → Span}

/-- The children are moved one by one. -/
theorem relocateAll_eq_map (ns : List Node) : relocateAll f ns = ns.map (relocate f) := by
  induction ns with
  | nil => rfl
  | cons n ns ih => rw [relocateAll, ih, List.map_cons]

theorem relocate_eq (n : Node) :
    n.relocate f = ⟨n.kind, f n.span, n.children.map (relocate f), n.text⟩ := by
  cases n
  rw [relocate, relocateAll_eq_map]

theorem relocate_kind (n : Node) : (n.relocate f).kind = n.kind := by
  rw [relocate_eq]

theorem relocate_span (n : Node) : (n.relocate f).span = f n.span := by
  rw [relocate_eq]

theorem textOrEmpty_relocate (n : Node) : (n.relocate f).textOrEmpty = n.textOrEmpty := by
  rw [relocate_eq]
  rfl

/-- Which children are trivia does not depend on where they stand. -/
theorem significant_relocate (n : Node) :
    (n.relocate f).significant = n.significant.map (relocate f) := by
  rw [relocate_eq, significant, significant, List.filter_map]
  refine congrArg (List.map (relocate f)) (List.filter_congr fun c _ => ?_)
  rw [Function.comp, relocate_kind]

/-- Error nodes stay error nodes, and no new ones appear. -/
theorem errorNodes_relocate (n : Node) :
    (n.relocate f).errorNodes = n.errorNodes.map (relocate f) := by
  induction n using Node.induction with
  | step n ih =>
    have below : errorNodesIn (n.children.map (relocate f)) =
        (errorNodesIn n.children).map (relocate f) := by
      rw [errorNodesIn_eq_flatMap, errorNodesIn_eq_flatMap, List.flatMap_map, List.map_flatMap]
      exact List.flatMap_congr fun c member => ih c member
    rw [errorNodes_eq, errorNodes_eq, List.map_append, ← below, relocate_kind]
    congr 1
    · split <;> rfl
    · rw [relocate_eq]

theorem spansIn_eq_flatMap (ns : List Node) : spansIn ns = ns.flatMap spans := by
  induction ns with
  | nil => rfl
  | cons n ns ih => rw [spansIn, ih, List.flatMap_cons]

/-- The spans of a node are its own one and, behind it, those of its children. -/
theorem spans_eq (n : Node) : n.spans = n.span :: n.children.flatMap spans := by
  cases n
  rw [spans, spansIn_eq_flatMap]

/-- Only the values at the spans that occur in the node matter. -/
theorem relocate_congr (n : Node) (agree : ∀ s ∈ n.spans, f s = g s) :
    n.relocate f = n.relocate g := by
  induction n using Node.induction with
  | step n ih =>
    rw [spans_eq] at agree
    have here : f n.span = g n.span := agree n.span List.mem_cons_self
    have below : n.children.map (relocate f) = n.children.map (relocate g) :=
      List.map_congr_left fun c member => ih c member fun s found =>
        agree s (List.mem_cons_of_mem _ (List.mem_flatMap.mpr ⟨c, member, found⟩))
    rw [relocate_eq, relocate_eq, here, below]

end Node

def ParseError.relocate (f : Span → Span) (e : ParseError) : ParseError :=
  { e with span := f e.span }

namespace Tree

def relocate (f : Span → Span) (t : Tree) : Tree :=
  ⟨t.root.relocate f, t.errors.map (·.relocate f)⟩

def spans (t : Tree) : List Span := t.root.spans ++ t.errors.map (·.span)

/-- Only the values at the spans that occur in the tree or in its reported errors matter. -/
theorem relocate_congr {f g : Span → Span} (t : Tree) (agree : ∀ s ∈ t.spans, f s = g s) :
    t.relocate f = t.relocate g := by
  have root : t.root.relocate f = t.root.relocate g :=
    t.root.relocate_congr fun s found => agree s (List.mem_append_left _ found)
  have errors : t.errors.map (·.relocate f) = t.errors.map (·.relocate g) := by
    refine List.map_congr_left fun e member => ?_
    have same : f e.span = g e.span :=
      agree e.span (List.mem_append_right _ (List.mem_map_of_mem member))
    rw [ParseError.relocate, ParseError.relocate, same]
  rw [relocate, relocate, root, errors]

end Tree

end ServiceLang.Syntax
