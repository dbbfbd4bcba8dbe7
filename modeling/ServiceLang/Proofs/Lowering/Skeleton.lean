import ServiceLang.Proofs.Lowering.Transport

/-!
# Lowering the skeleton

The skeleton of a syntax tree has no comments and separators, no texts besides those of tokens and
of skipped input, and nothing below its tokens. Lowering the skeleton is lowering the tree, up to
the last span and the last event. A whole tree is also searched for skipped input, which therefore
must not be hidden in what the skeleton leaves out.
-/

namespace ServiceLang

namespace Syntax

/-- Kinds whose text is kept: tokens are read, and skipped input is shown to the author. -/
def Kind.keepsText (k : Kind) : Bool := k.isWorded || k == .error

namespace Node

mutual

def skeleton : Node → Node
  | ⟨kind, span, children, text⟩ =>
    ⟨kind, span, if kind.isToken then [] else skeletonIn children,
      if kind.keepsText then text else none⟩

def skeletonIn : List Node → List Node
  | [] => []
  | c :: cs => if c.kind.isTrivia then skeletonIn cs else skeleton c :: skeletonIn cs

end

mutual

/-- The subtrees that the skeleton lacks. -/
def removed : Node → List Node
  | ⟨kind, _, children, _⟩ => if kind.isToken then children else removedIn children

def removedIn : List Node → List Node
  | [] => []
  | c :: cs => (if c.kind.isTrivia then [c] else removed c) ++ removedIn cs

end

/-- Children that are trivia go, and the others are cut down one by one. -/
theorem skeletonIn_eq_map (ns : List Node) :
    skeletonIn ns = (ns.filter (!·.kind.isTrivia)).map skeleton := by
  induction ns with
  | nil => rfl
  | cons n ns ih =>
    rw [skeletonIn, List.filter_cons, ih]
    cases n.kind.isTrivia <;> rfl

theorem skeleton_eq (n : Node) :
    n.skeleton = ⟨n.kind, n.span, if n.kind.isToken then [] else n.significant.map skeleton,
      if n.kind.keepsText then n.text else none⟩ := by
  cases n
  rw [skeleton, skeletonIn_eq_map]
  rfl

theorem skeleton_kind (n : Node) : n.skeleton.kind = n.kind := by
  rw [skeleton_eq]

theorem skeleton_span (n : Node) : n.skeleton.span = n.span := by
  rw [skeleton_eq]

theorem textOrEmpty_skeleton {n : Node} (kept : n.kind.keepsText = true) :
    n.skeleton.textOrEmpty = n.textOrEmpty := by
  rw [skeleton_eq, textOrEmpty, if_pos kept]
  rfl

/-- No trivia is left among the children of a skeleton. -/
theorem skeletonIn_significant (ns : List Node) :
    (skeletonIn ns).filter (!·.kind.isTrivia) = skeletonIn ns := by
  rw [List.filter_eq_self]
  intro d member
  rw [skeletonIn_eq_map] at member
  obtain ⟨c, found, rfl⟩ := List.mem_map.mp member
  rw [skeleton_kind]
  exact (List.mem_filter.mp found).2

/-- Except in tokens the significant children stay, each cut down in turn. -/
theorem significant_skeleton {n : Node} (inner : n.kind.isToken = false) :
    n.skeleton.significant = n.significant.map skeleton := by
  obtain ⟨kind, span, children, text⟩ := n
  change kind.isToken = false at inner
  rw [skeleton, significant, inner]
  exact (skeletonIn_significant children).trans (skeletonIn_eq_map children)

theorem errorNodesIn_skeletonIn {ns : List Node}
    (ih : ∀ c ∈ ns, (∀ d ∈ c.removed, d.errorNodes = []) →
      c.skeleton.errorNodes = c.errorNodes.map skeleton)
    (hidden : ∀ d ∈ removedIn ns, d.errorNodes = []) :
    errorNodesIn (skeletonIn ns) = (errorNodesIn ns).map skeleton := by
  induction ns with
  | nil => rfl
  | cons n ns step =>
    have rest := step (fun c hc => ih c (List.mem_cons_of_mem n hc)) fun d hd =>
      hidden d (List.mem_append_right _ hd)
    rw [removedIn] at hidden
    rw [skeletonIn, errorNodesIn, List.map_append, ← rest]
    by_cases trivia : n.kind.isTrivia = true
    · rw [if_pos trivia] at hidden ⊢
      rw [hidden n (List.mem_append_left _ List.mem_cons_self)]
      rfl
    · rw [if_neg trivia] at hidden ⊢
      rw [errorNodesIn, ih n List.mem_cons_self fun d hd => hidden d (List.mem_append_left _ hd)]

/-- The skeleton keeps the error nodes when none of them is in what it lacks. -/
theorem errorNodes_skeleton (n : Node) (hidden : ∀ d ∈ n.removed, d.errorNodes = []) :
    n.skeleton.errorNodes = n.errorNodes.map skeleton := by
  induction n using Node.induction with
  | step n ih =>
    obtain ⟨kind, span, children, text⟩ := n
    rw [removed] at hidden
    rw [errorNodes_eq, errorNodes_eq, skeleton_kind, List.map_append]
    by_cases token : kind.isToken = true
    · -- a token is no error node itself, and all that stands below it is lacking
      rw [if_pos token] at hidden
      have real : kind ≠ .error := by
        rintro rfl
        cases token
      have none_below : errorNodesIn children = [] := by
        rw [errorNodesIn_eq_flatMap]
        exact List.flatMap_eq_nil_iff.mpr hidden
      rw [if_neg real, if_neg real, skeleton, if_pos token, none_below]
      rfl
    · rw [if_neg token] at hidden
      rw [← errorNodesIn_skeletonIn ih hidden, skeleton, if_neg token]
      by_cases error : kind = .error
      · rw [if_pos error, if_pos error, List.map_singleton, skeleton, if_neg token]
      · rw [if_neg error, if_neg error]
        rfl

end Node

end Syntax

namespace Lowering

open Syntax (Kind Node)
open Semantic

/-- To cut a tree down to its skeleton is a rendering that moves no span. -/
theorem renders_skeleton : Renders Node.skeleton id where
  kind := Node.skeleton_kind
  span := Node.skeleton_span
  text n worded := Node.textOrEmpty_skeleton (by rw [Kind.keepsText, worded, Bool.true_or])
  significant _ inner := Node.significant_skeleton inner

/-- If nothing that goes holds an error node, the diagnostics are the same. -/
theorem syntaxDiagnostics_skeleton {t : Syntax.Tree}
    (hidden : ∀ d ∈ t.root.removed, d.errorNodes = []) :
    syntaxDiagnostics { t with root := t.root.skeleton } = syntaxDiagnostics t := by
  rw [syntaxDiagnostics, syntaxDiagnostics, Node.errorNodes_skeleton t.root hidden, List.map_map]
  congr 1
  refine List.map_congr_left fun n found => ?_
  have error : n.kind = .error := Node.kind_of_mem_errorNodes found
  have kept : n.kind.keepsText = true := by rw [error]; rfl
  rw [Function.comp, skippedDiagnostic, skippedDiagnostic, Node.textOrEmpty_skeleton kept,
    Node.skeleton_span]

/-- What the lowering of a node or a tree gives, events included, can be read from the skeleton. -/
theorem lowering_depends_on_skeleton :
    (∀ n : Node,
      service n.skeleton = service n ∧ resource n.skeleton = resource n ∧
      annotation n.skeleton = annotation n ∧ declaration n.skeleton = declaration n ∧
      statement n.skeleton = statement n ∧ expression n.skeleton = expression n) ∧
    ∀ t : Syntax.Tree, (∀ d ∈ t.root.removed, d.errorNodes = []) →
      tree { t with root := t.root.skeleton } = tree t := by
  have h := renders_skeleton
  constructor
  · intro n
    exact ⟨(h.service n).trans (Outcome.transport_id Service.relocate_id _),
      (h.resource n).trans (Outcome.transport_id Resource.relocate_id _),
      (h.annotated n).trans (Outcome.transport_id (fun _ => rfl) _),
      (h.declaration n).trans (Outcome.transport_id (fun _ => rfl) _),
      (h.statements n).wrapped.trans (Outcome.transport_id Statement.relocate_id _),
      (h.expression n).trans (Outcome.transport_id Expression.relocate_id _)⟩
  · intro t hidden
    have diagnostics : syntaxDiagnostics { t with root := t.root.skeleton } =
        (syntaxDiagnostics t).map (·.relocate id) :=
      (syntaxDiagnostics_skeleton hidden).trans (List.map_id _).symm
    exact (h.tree rfl diagnostics).trans (Outcome.transport_id Tree.relocate_id _)

/-- A named service with a comment below its name, a comment behind it and a text of its own. -/
def commentedService : Syntax.Tree where
  root := .branch .compilationUnit .zero
    [⟨.serviceDefinition, .zero,
      [⟨.identifier, .zero, [.leaf .comment .zero "// inside"], some "S"⟩,
        .leaf .comment .zero "// behind"], some "service S"⟩,
      .bare .semicolon .zero]
  errors := []

theorem commentedService_skeleton :
    (∀ d ∈ commentedService.root.removed, d.errorNodes = []) ∧
    commentedService.root.skeleton =
      .branch .compilationUnit .zero
        [.branch .serviceDefinition .zero [.leaf .identifier .zero "S"]] ∧
    tree { commentedService with root := commentedService.root.skeleton } =
      tree commentedService := by
  have hidden : ∀ d ∈ commentedService.root.removed, d.errorNodes = [] := by decide
  exact ⟨hidden, by decide, lowering_depends_on_skeleton.2 commentedService hidden⟩

end Lowering

end ServiceLang
