import ServiceLang.Lowering.Statement

/-!
# Lowering of services

Annotations, declarations, resources and services grow child by child: each significant child is
added to what is there, or ends the work. The name is looked up first, so that later complaints can
mention it. A resource refuses a second name or body. A service and an annotation skip further
names, and a declaration looks at no child besides its type and its name.
-/

namespace ServiceLang.Lowering

open Syntax (Kind Node)
open Semantic
open Outcome

def annotationAttribute (n : Node) : Outcome Attribute := do
  let key ← nameOf n .attribute
  let value ← requiredChild n .stringLiteral .attribute
  let value ← literal value Literal.string?
  pure ⟨key, value⟩

/-- A name without the sign that may stand in front of it. -/
def withoutAt (name : String) : String :=
  match name.toList with
  | '@' :: rest => String.ofList rest
  | _ => name

def addToAnnotation (a : Annotation) (child : Node) : Outcome Annotation :=
  match child.kind, a.value with
  | .identifier, _ => pure a
  | .stringLiteral, none => do
    let value ← literal child Literal.string?
    pure { a with value := some value }
  | .annotationAttribute, _ => do
    let new ← annotationAttribute child
    pure { a with attributes := a.attributes ++ [new] }
  | kind, _ => flawed child.span (.unexpected kind (Place.annotation a.name))

def annotation (n : Node) : Outcome Annotation := do
  expectKind n Kind.annotation
  let raw ← nameOf n Subject.annotation
  let name := withoutAt raw
  if name = "" then flawed n.span (.emptyName Subject.annotation)
  else do
    emit (Event.annotation name)
    fold addToAnnotation ⟨name, none, [], n.span⟩ n.significant

def declaration (n : Node) : Outcome Variable := do
  expectKind n .variableDeclaration
  let typeNode ← requiredChild n .typeName .variableDeclaration
  let type ← orFlaw (TypeRef.parse? typeNode.textOrEmpty) typeNode.span
    (.badTypeName typeNode.textOrEmpty)
  let name ← nameOf n .variableDeclaration
  emit (.declaration name type.name)
  pure ⟨name, type, n.span⟩

/-- Declarations may only be added while there is no statement. -/
def addToBody (r : Resource) (child : Node) : Outcome Resource :=
  match child.kind with
  | .variableDeclaration =>
    if r.statements.isEmpty then do
      let new ← declaration child
      pure (r.withVariable new)
    else flawed child.span .lateDeclaration
  | .statement => do
    let new ← statement child
    pure (r.withStatement new)
  | kind => flawed child.span (.unexpected kind (.body r.name))

/-- A resource whose children have been looked at in part. -/
structure PartialResource where
  resource : Resource
  named : Bool
  bodied : Bool

def addToResource (p : PartialResource) (child : Node) : Outcome PartialResource :=
  match child.kind with
  | Kind.annotation => do
    let new ← annotation child
    pure { p with resource := p.resource.withAnnotation new }
  | .identifier =>
    if p.named then flawed child.span (.repeated .identifier p.resource.name)
    else pure { p with named := true }
  | .functionBody =>
    if p.bodied then flawed child.span (.repeated .functionBody p.resource.name)
    else do
      let filled ← fold addToBody p.resource child.significant
      pure { p with resource := filled, bodied := true }
  | kind => flawed child.span (.unexpected kind (.resource p.resource.name))

def resource (n : Node) : Outcome Resource := do
  expectKind n .resourceDefinition
  let name ← nameOf n .resource
  let read ← fold addToResource ⟨Resource.empty name n.span, false, false⟩ n.significant
  if read.bodied then do
    let r := read.resource
    emit (.resource r.name r.annotations.length r.locals.length r.statements.length)
    pure r
  else flawed n.span (.missing .resource .functionBody)

def addToService (s : Service) (child : Node) : Outcome Service :=
  match child.kind with
  | Kind.annotation => do
    let new ← annotation child
    pure { s with annotations := s.annotations ++ [new] }
  | .resourceDefinition => do
    let new ← resource child
    pure { s with resources := s.resources ++ [new] }
  | .identifier => pure s
  | kind => flawed child.span (.unexpected kind (.service s.name))

def service (n : Node) : Outcome Service := do
  expectKind n .serviceDefinition
  let name ← nameOf n .service
  let s ← fold addToService ⟨name, [], [], n.span⟩ n.significant
  emit (.service s.name s.resources.length)
  pure s

end ServiceLang.Lowering
