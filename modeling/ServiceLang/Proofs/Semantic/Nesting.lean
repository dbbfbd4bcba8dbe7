import ServiceLang.Proofs.Syntax.Nesting
import ServiceLang.Semantic.Tree

/-!
# Nested semantic trees

The parts of a semantic tree that stand in sequences, as elements of one type. Literals carry no
span. Any other element does, and it can be asked whether it lies within the span of the element
that holds it, and whether the elements of a sequence follow one another.
-/

namespace ServiceLang.Semantic

def Expression.span? : Expression → Option Span
  | .variable _ span | .arrayElement _ _ span | .invocation _ _ _ span | .binary _ _ _ span
  | .unary _ _ span => some span
  | .integer _ | .float _ | .string _ | .boolean _ | .null => none

inductive Element where
  | service (s : Service)
  | resource (r : Resource)
  | annotation (a : Annotation)
  | variable (v : Variable)
  | statement (s : Statement)
  | expression (e : Expression)

namespace Element

def span? : Element → Option Span
  | .service s => some s.span
  | .resource r => some r.span
  | Element.annotation a => some a.span
  | .variable v => some v.span
  | .statement s => some s.span
  | .expression e => e.span?

/-- The elements that an element holds, in the sequences in which they stand. The bodies of a
conditional statement are one sequence. -/
def sequences : Element → List (List Element)
  | .service s => [s.annotations.map Element.annotation, s.resources.map .resource]
  | .resource r =>
    [r.annotations.map Element.annotation, r.locals.map .variable, r.statements.map .statement]
  | Element.annotation _ | .variable _ => []
  | .statement (.assignment target value _) => [[.expression target, .expression value]]
  | .statement (.return values _) => [values.map .expression]
  | .statement (.reply value _) => [[.expression value]]
  | .statement (.invocation call _) => [call.arguments.map .expression]
  | .statement (.ifElse condition thenBody elseBody _) =>
    [[.expression condition], (thenBody ++ elseBody.getD []).map .statement]
  | .statement (.while condition body _) => [[.expression condition], body.map .statement]
  | .statement (.block statements _) => [statements.map .statement]
  | .expression (.arrayElement _ index _) => [[.expression index]]
  | .expression (.invocation _ _ arguments _) => [arguments.map .expression]
  | .expression (.binary _ left right _) => [[.expression left, .expression right]]
  | .expression (.unary _ operand _) => [[.expression operand]]
  | .expression _ => []

/-- The element is the other one or holds it at some depth. -/
inductive Contains : Element → Element → Prop
  | here (x : Element) : Contains x x
  | inside {x y z : Element} {xs : List Element} (sequence : xs ∈ x.sequences) (member : y ∈ xs)
    (rest : Contains y z) : Contains x z

/-- Each span lies within the span of the element that holds it. -/
inductive Nested : Element → Prop
  | element {x : Element}
    (within : ∀ xs ∈ x.sequences, ∀ y ∈ xs, ∀ s ∈ y.span?, ∀ t ∈ x.span?, s.Within t)
    (each : ∀ xs ∈ x.sequences, ∀ y ∈ xs, y.Nested) : Nested x

/-- If both elements carry spans, these follow one another. -/
def Before (x y : Element) : Prop := ∀ s ∈ x.span?, ∀ t ∈ y.span?, s.Before t

/-- In each sequence the elements that carry spans follow one another. -/
inductive Ordered : Element → Prop
  | element {x : Element} (apart : ∀ xs ∈ x.sequences, xs.Pairwise Before)
    (each : ∀ xs ∈ x.sequences, ∀ y ∈ xs, y.Ordered) : Ordered x

/-- What holds other elements carries a span. -/
theorem span?_of_sequence {x : Element} {xs : List Element} (sequence : xs ∈ x.sequences) :
    ∃ s, x.span? = some s := by
  cases x with
  | expression e =>
    cases e
    case «variable» name span => exact ⟨span, rfl⟩
    case arrayElement name index span => exact ⟨span, rfl⟩
    case invocation package name arguments span => exact ⟨span, rfl⟩
    case binary op left right span => exact ⟨span, rfl⟩
    case unary op operand span => exact ⟨span, rfl⟩
    all_goals cases sequence
  | _ => exact ⟨_, rfl⟩

/-- Whatever covers the span of an element covers the spans of all it contains. -/
theorem Nested.within_of_contains {x y : Element} (nested : x.Nested) (contains : x.Contains y)
    {outer : Span} (within : ∀ s ∈ x.span?, s.Within outer) : ∀ s ∈ y.span?, s.Within outer := by
  induction contains with
  | here x => exact within
  | @inside x y z xs sequence member rest ih =>
    cases nested with
    | element near each =>
      obtain ⟨t, carried⟩ := span?_of_sequence sequence
      refine ih (each xs sequence y member) fun s found => ?_
      exact (near xs sequence y member s found t carried).trans (within t carried)

end Element

end ServiceLang.Semantic
