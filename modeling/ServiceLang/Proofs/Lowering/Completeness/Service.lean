import ServiceLang.Proofs.Lowering.Completeness.Statement

/-!
# Complete lowering of services

Children are added one by one, and none of them comes too early or too late: an annotation is given
at most one value, declarations stand before statements, and a resource has one name and one body.
-/

namespace ServiceLang.Lowering

open Syntax (Kind Node)
open Semantic
open Outcome

namespace Grammatical

variable {n : Node} (g : Grammatical n)

include g

theorem attributeOf (kind : n.kind = .annotationAttribute) :
    ReadsLiterals n (annotationAttribute n) := by
  obtain ⟨key, _, split, named, value, _, rfl, isString, rfl⟩ := g.shaped kind
  have quiet := (g.child (split ▸ List.mem_cons_self)).literals_name named
  have before : ∀ d ∈ [key], d.kind ≠ .stringLiteral := by
    intro d member
    rw [List.mem_singleton.mp member, named.1]
    decide
  have gv := g.child (c := value) (by simp [split])
  have read : ReadsLiterals value (Lowering.literal value Literal.string?) :=
    gv.literal (by rw [isString]; rfl) (by rw [decodes, isString])
  rw [ReadsLiterals, literals_branch (by rw [kind]; rfl), annotationAttribute,
    nameOf_of_first _ split named, requiredChild,
    child?_of_split [key] rfl split before isString, split, List.flatMap_cons, quiet,
    List.flatMap_singleton]
  exact read.made

theorem addToAnnotation_attribute (kind : n.kind = .annotationAttribute) (a : Annotation) :
    ReadsLiterals n (Lowering.addToAnnotation a n) := by
  rw [Lowering.addToAnnotation, kind]
  exact (g.attributeOf kind).made

theorem addToAnnotation_string (kind : n.kind = .stringLiteral) {a : Annotation}
    (vacant : a.value = none) : ReadsLiterals n (Lowering.addToAnnotation a n) := by
  rw [Lowering.addToAnnotation, kind, vacant]
  exact (g.literal (by rw [kind]; rfl) (by rw [decodes, kind])).made

/-- A value may be added while there is none, attributes at any time. -/
theorem fold_addToAnnotation {rest : List Node} (members : ∀ c ∈ rest, c ∈ n.significant)
    (others : Matches [.optional (Is .stringLiteral), .many (Is .annotationAttribute)] rest)
    {a : Annotation} (vacant : a.value = none) :
    Reads (fold addToAnnotation a rest) (rest.flatMap literals) fun _ => True := by
  have attributes : ∀ cs : List Node, (∀ c ∈ cs, c ∈ n.significant) →
      (∀ c ∈ cs, c.kind = .annotationAttribute) → ∀ b,
      Reads (fold addToAnnotation b cs) (cs.flatMap literals) fun _ => True := by
    intro cs members all b
    refine Reads.fold (I := fun _ => True) (fun c member b _ => ?_) trivial
    exact (g.child (members c member)).addToAnnotation_attribute (all c member) b
  rcases others with ⟨cs, _, rfl, all, rfl⟩ | ⟨string, _, rfl, isString, cs, _, rfl, all, rfl⟩
  · rw [List.append_nil] at members ⊢
    exact attributes cs members all a
  · rw [List.append_nil] at members ⊢
    have gs := g.child (members string List.mem_cons_self)
    have read := gs.addToAnnotation_string isString vacant
    rw [List.flatMap_cons]
    exact read.bind fun b _ =>
      attributes cs (fun c member => members c (List.mem_cons_of_mem string member)) all b

/-- The name has no literals. At most one value and then any number of attributes are left for the
fold. -/
theorem annotated (kind : n.kind = Kind.annotation) : ReadsLiterals n (Lowering.annotation n) := by
  obtain ⟨name, rest, split, ⟨isName, named⟩, others⟩ := g.shaped kind
  have nonempty : name.textOrEmpty ≠ "" := by
    intro empty
    rw [empty] at named
    exact named rfl
  have quiet := (g.child (split ▸ List.mem_cons_self)).literals_name ⟨isName, nonempty⟩
  have skipped (a : Annotation) : addToAnnotation a name = pure a := by
    rw [Lowering.addToAnnotation, isName]
  have members : ∀ c ∈ rest, c ∈ n.significant := fun c member =>
    split ▸ List.mem_cons_of_mem name member
  rw [ReadsLiterals, literals_branch (by rw [kind]; rfl), Lowering.annotation, expectKind_bind,
    if_pos kind, nameOf_of_first _ split ⟨isName, nonempty⟩, pure_bind, if_neg named]
  refine Reads.emit ?_
  rw [split, List.flatMap_cons, quiet, List.nil_append]
  change Reads (Lowering.addToAnnotation _ name >>= fun b => fold addToAnnotation b rest) _ _
  rw [skipped, pure_bind]
  exact g.fold_addToAnnotation members others rfl

theorem declaration (kind : n.kind = .variableDeclaration) :
    ReadsLiterals n (Lowering.declaration n) := by
  obtain ⟨type, _, split, ⟨isType, parsed, known⟩, name, _, rfl, named, rfl⟩ := g.shaped kind
  have quietType : literals type = [] :=
    (g.child (split ▸ List.mem_cons_self)).literals_word (by rw [isType]; rfl) (by rw [isType]; rfl)
  have quietName := (g.child (by simp [split])).literals_name named
  have before : ∀ d ∈ [type], d.kind ≠ .identifier := by
    intro d member
    rw [List.mem_singleton.mp member, isType]
    decide
  have found : n.child? .typeName = some type :=
    child?_of_first rfl split isType
  rw [ReadsLiterals, literals_branch (by rw [kind]; rfl), Lowering.declaration, expectKind_bind,
    if_pos kind, requiredChild, found, split, List.flatMap_cons, List.flatMap_singleton, quietType,
    quietName, nameOf_of_split [type] _ split before named]
  change Reads (orFlaw (TypeRef.parse? type.textOrEmpty) _ _ >>= _) _ _
  rw [known]
  exact Reads.emit (k := fun _ => pure _) (Reads.pure trivial)

/-- Declarations come before statements, as they must. -/
theorem fold_addToBody (kind : n.kind = .functionBody) {r : Resource} (fresh : r.statements = []) :
    Reads (fold addToBody r n.significant) (literals n) fun _ => True := by
  obtain ⟨declarations, _, split, allDeclarations, statements, _, rfl, allStatements, rfl⟩ :=
    g.shaped kind
  rw [List.append_nil] at split
  rw [literals_branch (by rw [kind]; rfl), split, fold_append, List.flatMap_append]
  -- no statement is there until the declarations are through
  refine Reads.bind (Reads.fold (I := (·.statements = [])) ?_ fresh) fun b _ =>
    Reads.fold (I := fun _ => True) ?_ trivial
  · intro c member a none_yet
    have gc := g.child (c := c) (by simp [split, member])
    have isDeclaration : c.kind = .variableDeclaration := allDeclarations c member
    rw [addToBody, isDeclaration, none_yet]
    exact (gc.declaration isDeclaration).map fun _ _ => none_yet
  · intro c member a _
    have gc := g.child (c := c) (by simp [split, member])
    have isStatement : c.kind = .statement := allStatements c member
    rw [addToBody, isStatement]
    exact (gc.statements.wrapped isStatement).made

/-- Name and body stand somewhere behind the annotations, one of each, so neither is repeated. -/
theorem resource (kind : n.kind = .resourceDefinition) :
    ReadsLiterals n (Lowering.resource n) := by
  obtain ⟨annotations, _, split, allAnnotations, name, _, rfl, named, body, _, rfl, isBody, rfl⟩ :=
    g.shaped kind
  have quiet := (g.child (c := name) (by simp [split])).literals_name named
  have before : ∀ d ∈ annotations, d.kind ≠ .identifier := by
    intro d member
    rw [show d.kind = Kind.annotation from allAnnotations d member]
    decide
  have gb := g.child (c := body) (by simp [split])
  rw [ReadsLiterals, literals_branch (by rw [kind]; rfl), Lowering.resource, expectKind_bind,
    if_pos kind, nameOf_of_split annotations _ split before named, pure_bind, split, fold_append,
    List.flatMap_append, List.flatMap_cons, List.flatMap_singleton, quiet, List.nil_append]
  have annotated : Reads (fold addToResource ⟨Resource.empty name.textOrEmpty n.span, false, false⟩
      annotations) (annotations.flatMap literals)
      fun p => p.named = false ∧ p.bodied = false ∧ p.resource.statements = [] := by
    refine Reads.fold ?_ ⟨rfl, rfl, rfl⟩
    intro c member p fresh
    have isAnnotation : c.kind = Kind.annotation := allAnnotations c member
    rw [addToResource, isAnnotation]
    exact ((g.child (by simp [split, member])).annotated isAnnotation).map fun _ _ => fresh
  have filled : ∀ p : PartialResource,
      p.named = false ∧ p.bodied = false ∧ p.resource.statements = [] →
      Reads (fold addToResource p [name, body]) (literals body) fun q => q.bodied = true := by
    rintro p ⟨unnamed, unbodied, fresh⟩
    have first : addToResource p name = pure { p with named := true } := by
      rw [addToResource, named.1]
      simp only [unnamed]
      rfl
    change Reads (addToResource p name >>= fun q => addToResource q body >>= pure) _ _
    rw [first, pure_bind, bind_pure, addToResource, isBody]
    simp only [unbodied]
    exact (gb.fold_addToBody isBody fresh).map fun _ _ => rfl
  refine (annotated.bind filled).bind_silent fun p bodied => ?_
  rw [if_pos bodied]
  exact Reads.emit (k := fun _ => pure _) (Reads.pure trivial)

/-- The name stands behind the annotations and in front of the resources. -/
theorem service (kind : n.kind = .serviceDefinition) :
    ReadsLiterals n (Lowering.service n) := by
  obtain ⟨annotations, _, split, allAnnotations, name, _, rfl, named, resources, _, rfl,
    allResources, rfl⟩ := g.shaped kind
  have quiet := (g.child (c := name) (by simp [split])).literals_name named
  have before : ∀ d ∈ annotations, d.kind ≠ .identifier := by
    intro d member
    rw [show d.kind = Kind.annotation from allAnnotations d member]
    decide
  have step : ∀ c ∈ n.significant, ∀ s : Service, True → ReadsLiterals c (addToService s c) := by
    intro c member s _
    have gc := g.child member
    rw [split, List.append_nil] at member
    rcases List.mem_append.mp member with early | late
    · have isAnnotation : c.kind = Kind.annotation := allAnnotations c early
      rw [addToService, isAnnotation]
      exact (gc.annotated isAnnotation).made
    · rcases List.mem_cons.mp late with rfl | late
      · rw [addToService, named.1, ReadsLiterals, quiet]
        exact Reads.pure trivial
      · have isResource : c.kind = .resourceDefinition := allResources c late
        rw [addToService, isResource]
        exact (gc.resource isResource).made
  rw [ReadsLiterals, literals_branch (by rw [kind]; rfl), Lowering.service, expectKind_bind,
    if_pos kind, nameOf_of_split annotations _ split before named, pure_bind]
  refine (Reads.fold (I := fun _ => True) step trivial).bind_silent fun s _ => ?_
  exact Reads.emit (k := fun _ => pure s) (Reads.pure trivial)

end Grammatical

end ServiceLang.Lowering
