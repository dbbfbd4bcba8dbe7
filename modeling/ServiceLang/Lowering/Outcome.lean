import ServiceLang.Log
import ServiceLang.Lowering.Error
import ServiceLang.Syntax.Tree

/-!
# Outcomes of the lowering

Lowering a node gives a result and the events met on the way, in order. A failure ends the work and
keeps the events that came before it. An outcome is plain data: there is no hidden state, so that
two lowerings can be compared by their outcomes alone.
-/

namespace ServiceLang.Lowering

open Syntax (Kind Node)

inductive Event where
  | annotation (name : String)
  | declaration (name type : String)
  | statement (kind : Kind)
  | resource (name : String) (annotations locals statements : Nat)
  | service (name : String) (resources : Nat)
  | refused (count : Nat)
  deriving DecidableEq

def Event.entry : Event → Log.Entry
  | Event.annotation name => ⟨.trace, "annotation", [("annotation", name)]⟩
  | .declaration name type =>
    ⟨.trace, "declaration", [("ty", type), ("variable", name)]⟩
  | .statement kind => ⟨.trace, "statement", [("kind", kind.label)]⟩
  | .resource name annotations locals statements =>
    ⟨.debug, "resource transformed",
      [("annotations", toString annotations), ("resource", name),
       ("statements", toString statements), ("variables", toString locals)]⟩
  | .service name resources =>
    ⟨.debug, "service transformed", [("resources", toString resources), ("service", name)]⟩
  | .refused count => ⟨.debug, "refusing CST with syntax errors", [("count", toString count)]⟩

structure Outcome (α : Type) where
  events : List Event
  result : Except Error α

namespace Outcome

variable {α β γ : Type}

protected def pure (a : α) : Outcome α := ⟨[], .ok a⟩

protected def bind (x : Outcome α) (f : α → Outcome β) : Outcome β :=
  match x.result with
  | .ok a =>
    let y := f a
    ⟨x.events ++ y.events, y.result⟩
  | .error e => ⟨x.events, .error e⟩

instance : Monad Outcome where
  pure := Outcome.pure
  bind := Outcome.bind

/-- Report an event. -/
def emit (e : Event) : Outcome Unit := ⟨[e], .ok ()⟩

def fail (e : Error) : Outcome α := ⟨[], .error e⟩

/-- Fail because of the shape of the tree at a span. -/
def flawed (span : Span) (flaw : Flaw) : Outcome α := fail (.malformed flaw span)

/-- The value, or the flaw if there is none. -/
def orFlaw (a? : Option α) (span : Span) (flaw : Flaw) : Outcome α :=
  match a? with
  | some a => pure a
  | none => flawed span flaw

/-- Lower the members of a list from first to last, up to the first failure. -/
def each (f : α → Outcome β) : List α → Outcome (List β)
  | [] => pure []
  | a :: as => do
    let b ← f a
    let bs ← each f as
    pure (b :: bs)

/-- Carry a value through the members of a list from first to last, up to the first failure. -/
def fold (f : β → α → Outcome β) (b : β) : List α → Outcome β
  | [] => pure b
  | a :: as => do
    let b ← f b a
    fold f b as

/-- Lowering the images of a list under a map is lowering the list by the composed step. -/
theorem each_map (f : β → Outcome γ) (g : α → β) (as : List α) :
    each f (as.map g) = each (fun a => f (g a)) as := by
  induction as with
  | nil => rfl
  | cons a as ih => rw [List.map_cons, each, each, ih]

end Outcome

open Outcome

def expectKind (n : Node) (kind : Kind) : Outcome Unit :=
  if n.kind = kind then pure () else flawed n.span (.wrongKind kind n.kind)

def requiredChild (n : Node) (kind : Kind) (subject : Subject) : Outcome Node :=
  orFlaw (n.child? kind) n.span (.missing subject kind)

/-- The text of the first identifier among the children, which may not be empty. -/
def nameOf (n : Node) (subject : Subject) : Outcome String := do
  let identifier ← requiredChild n .identifier subject
  if identifier.textOrEmpty = "" then
    flawed identifier.span (.emptyName subject)
  else
    pure identifier.textOrEmpty

/-- The value of a literal node, or the complaint about its text. -/
def literal {α : Type} (n : Node) (read : String → Option α) : Outcome α :=
  match read n.textOrEmpty with
  | some a => pure a
  | none => fail (.invalidLiteral n.kind n.textOrEmpty n.span)

end ServiceLang.Lowering
