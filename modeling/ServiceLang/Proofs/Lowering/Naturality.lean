import ServiceLang.Proofs.Lowering.Transport
import ServiceLang.Proofs.Syntax.Relocation

/-!
# Spans are only passed on

No lowering looks at a span. It may hand the spans it was given on to its result, to an error or to
a diagnostic, but it neither compares nor combines them and has none of its own. Any function of
spans is allowed here: it may confuse spans that differ, invert them, or move them out of order.
-/

namespace ServiceLang.Lowering

open Syntax (Kind Node)
open Semantic

/-- Moving the spans of the input moves those of the outcome alike and leaves the rest of it, and
nothing but spans of the input is moved there. -/
structure FollowsSpans {ι α : Type} (spans : ι → List Span) (move : (Span → Span) → ι → ι)
    (carry : (Span → Span) → α → α) (lower : ι → Outcome α) : Prop where
  moved : ∀ f x, lower (move f x) = (lower x).transport f (carry f)
  given : ∀ f g x, (∀ s ∈ spans x, f s = g s) →
    (lower x).transport f (carry f) = (lower x).transport g (carry g)

/-- An outcome that is moved with its input depends on its input alone. -/
theorem FollowsSpans.of_moved {ι α : Type} {spans : ι → List Span} {move : (Span → Span) → ι → ι}
    {carry : (Span → Span) → α → α} {lower : ι → Outcome α}
    (congr : ∀ f g x, (∀ s ∈ spans x, f s = g s) → move f x = move g x)
    (moved : ∀ f x, lower (move f x) = (lower x).transport f (carry f)) :
    FollowsSpans spans move carry lower where
  moved := moved
  given f g x agree := by rw [← moved, ← moved, congr f g x agree]

theorem renders_relocate (f : Span → Span) : Renders (Node.relocate f) f where
  kind := Node.relocate_kind
  span := Node.relocate_span
  text n _ := Node.textOrEmpty_relocate n
  significant n _ := Node.significant_relocate n

theorem syntaxDiagnostics_relocate (f : Span → Span) (t : Syntax.Tree) :
    syntaxDiagnostics (t.relocate f) = (syntaxDiagnostics t).map (·.relocate f) := by
  rw [syntaxDiagnostics, syntaxDiagnostics, Syntax.Tree.relocate, Node.errorNodes_relocate,
    List.map_append, List.map_map, List.map_map, List.map_map, List.map_map]
  congr 1
  refine List.map_congr_left fun n _ => ?_
  rw [Function.comp, skippedDiagnostic, Node.textOrEmpty_relocate, Node.relocate_span]
  rfl

/-- Every lowering follows the spans of what it lowers, on success and on failure. -/
theorem lowerings_follow_spans :
    FollowsSpans Node.spans Node.relocate Service.relocate service ∧
    FollowsSpans Node.spans Node.relocate Resource.relocate resource ∧
    FollowsSpans Node.spans Node.relocate Annotation.relocate annotation ∧
    FollowsSpans Node.spans Node.relocate Variable.relocate declaration ∧
    FollowsSpans Node.spans Node.relocate Statement.relocate statement ∧
    FollowsSpans Node.spans Node.relocate Expression.relocate expression ∧
    FollowsSpans Syntax.Tree.spans Syntax.Tree.relocate Semantic.Tree.relocate tree := by
  have congr (f g : Span → Span) (n : Node) := n.relocate_congr (f := f) (g := g)
  refine ⟨.of_moved congr fun f n => (renders_relocate f).service n,
    .of_moved congr fun f n => (renders_relocate f).resource n,
    .of_moved congr fun f n => (renders_relocate f).annotated n,
    .of_moved congr fun f n => (renders_relocate f).declaration n,
    .of_moved congr fun f n => ((renders_relocate f).statements n).wrapped,
    .of_moved congr fun f n => (renders_relocate f).expression n,
    .of_moved (fun f g t => t.relocate_congr) fun f t => ?_⟩
  exact (renders_relocate f).tree rfl (syntaxDiagnostics_relocate f t)

end ServiceLang.Lowering
