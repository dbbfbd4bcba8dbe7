import ServiceLang.Proofs.Lowering.Printing.Statement
import ServiceLang.Proofs.Lowering.Soundness

/-!
# Printing services, and the image of the lowering

Annotations are printed in front of names, declarations in front of statements. An annotation gets a
sign in front of its name, which the lowering drops, so that a name that begins with the sign comes
back as it is.

Every proper tree is made from the one that it is printed to. Nothing improper is ever made, so the
proper trees are the image of the lowering.
-/

namespace ServiceLang

open Syntax (Kind Node)

namespace Semantic

noncomputable section

def stringNode (s : String) : Node := .leaf .stringLiteral .zero (Literal.quoted s)

def withAt (name : String) : String := String.ofList ('@' :: name.toList)

def Attribute.print (a : Attribute) : Node :=
  .branch .annotationAttribute .zero [nameNode a.key, stringNode a.value]

def Annotation.print (a : Annotation) : Node :=
  .branch Kind.annotation a.span
    (nameNode (withAt a.name) :: (a.value.toList.map stringNode ++
      a.attributes.map Attribute.print))

def Variable.print (v : Variable) : Node :=
  .branch .variableDeclaration v.span [.leaf .typeName .zero v.type.written, nameNode v.name]

def Resource.printBody (r : Resource) : Node :=
  .branch .functionBody .zero (r.locals.map Variable.print ++ r.statements.map Statement.wrap)

def Resource.print (r : Resource) : Node :=
  .branch .resourceDefinition r.span
    (r.annotations.map Annotation.print ++ nameNode r.name :: [r.printBody])

def Service.print (s : Service) : Node :=
  .branch .serviceDefinition s.span
    (s.annotations.map Annotation.print ++ nameNode s.name :: s.resources.map Resource.print)

def Tree.print (t : Tree) : Syntax.Tree :=
  ⟨.branch .compilationUnit .zero (t.services.map Service.print), []⟩

end

end Semantic

namespace Lowering

open Semantic
open Outcome

variable {α β γ : Type}

/-- A fold that takes over the members of a list one by one. -/
theorem ok_fold {F : α → γ → Outcome α} {f : β → γ} (grow : List β → α) {bs : List β}
    (step : ∀ done, ∀ b ∈ bs, (F (grow done) (f b)).result = .ok (grow (done ++ [b])))
    (done : List β) : (fold F (grow done) (bs.map f)).result = .ok (grow (done ++ bs)) := by
  induction bs generalizing done with
  | nil =>
    rw [List.append_nil]
    rfl
  | cons b bs ih =>
    have rest := ih (fun done c member => step done c (List.mem_cons_of_mem b member)) (done ++ [b])
    rw [List.append_assoc] at rest
    exact ok_bind (step done b List.mem_cons_self) rest

/-- The sign put in front of a name is the one that is dropped, and no other. -/
theorem withoutAt_withAt (name : String) : withoutAt (withAt name) = name := by
  rw [withoutAt, withAt, String.toList_ofList]
  exact String.ofList_toList

theorem withAt_ne_empty (name : String) : withAt name ≠ "" := by
  intro empty
  cases String.ofList_eq_empty_iff.mp empty

theorem errorNodes_stringNode (s : String) : (stringNode s).errorNodes = [] :=
  Node.errorNodes_leaf (by decide) _ _

theorem literal_stringNode (s : String) : literal (stringNode s) Literal.string? = pure s := by
  have found : Literal.string? (stringNode s).textOrEmpty = some s := Literal.string?_quoted s
  rw [literal, found]

theorem attribute_print {a : Attribute} (filled : a.key ≠ "") :
    Prints a.print (annotationAttribute a.print) a := by
  have split : a.print.significant = nameNode a.key :: [stringNode a.value] := rfl
  have value : a.print.child? .stringLiteral = some (stringNode a.value) := rfl
  constructor
  · rw [annotationAttribute, nameOf_of_first _ split (isName_nameNode filled), pure_bind,
      requiredChild, value]
    refine ok_bind (a := stringNode a.value) rfl ?_
    rw [literal_stringNode]
    rfl
  · apply Node.errorNodes_branch _ (by decide)
    exact List.forall_mem_cons.mpr ⟨errorNodes_nameNode _,
      List.forall_mem_singleton.mpr (errorNodes_stringNode _)⟩

/-- The value, if there is one, is taken over first, and then the attributes one by one. -/
theorem annotation_print {a : Annotation} (proper : a.Proper) :
    Prints a.print (Lowering.annotation a.print) a := by
  obtain ⟨name, value, attributes, span⟩ := a
  obtain ⟨filled, keys⟩ := proper
  have split : (Semantic.Annotation.print ⟨name, value, attributes, span⟩).significant =
      nameNode (withAt name) ::
        (value.toList.map stringNode ++ attributes.map Attribute.print) := by
    apply Node.significant_branch
    refine List.forall_mem_cons.mpr ⟨rfl, List.forall_mem_append.mpr ⟨?_, ?_⟩⟩
    · exact List.forall_mem_map.mpr fun _ _ => rfl
    · exact List.forall_mem_map.mpr fun _ _ => rfl
  have kind : (Semantic.Annotation.print ⟨name, value, attributes, span⟩).kind =
      Kind.annotation := rfl
  have written : withoutAt (nameNode (withAt name)).textOrEmpty = name := withoutAt_withAt name
  constructor
  · rw [Lowering.annotation, expectKind_bind, if_pos kind,
      nameOf_of_first _ split (isName_nameNode (withAt_ne_empty name)), pure_bind,
      written, if_neg filled, split]
    refine ok_bind (a := ()) rfl ?_
    refine ok_bind (a := ⟨name, none, [], span⟩) rfl ?_
    rw [fold_append]
    -- the value is set by its own node, if there is one, before any attribute is added
    have valued : (fold addToAnnotation ⟨name, none, [], span⟩
        (value.toList.map stringNode)).result = .ok ⟨name, value, [], span⟩ := by
      cases value with
      | none => rfl
      | some text =>
        refine ok_bind (a := ⟨name, some text, [], span⟩) ?_ rfl
        change (literal (stringNode text) Literal.string? >>= _).result = _
        rw [literal_stringNode]
        rfl
    refine ok_bind valued (ok_fold (fun done => Annotation.mk name value done span) ?_ [])
    intro done b listed
    change (annotationAttribute b.print >>= _).result = _
    exact ok_bind (attribute_print (keys b listed)).lowered rfl
  · apply Node.errorNodes_branch _ (by decide)
    refine List.forall_mem_cons.mpr ⟨errorNodes_nameNode _, List.forall_mem_append.mpr ⟨?_, ?_⟩⟩
    · exact List.forall_mem_map.mpr fun text _ => errorNodes_stringNode text
    · exact List.forall_mem_map.mpr fun b listed => (attribute_print (keys b listed)).clean

/-- The type is written out and read back, and the name stands behind it. -/
theorem declaration_print {v : Variable} (proper : v.Proper) :
    Prints v.print (declaration v.print) v := by
  have split : v.print.significant =
      [.leaf .typeName .zero v.type.written] ++ nameNode v.name :: [] := rfl
  have found : v.print.child? .typeName = some (.leaf .typeName .zero v.type.written) := rfl
  have kind : v.print.kind = .variableDeclaration := rfl
  have before : ∀ d ∈ [Node.leaf .typeName .zero v.type.written], d.kind ≠ .identifier :=
    List.forall_mem_singleton.mpr fun same => nomatch same
  constructor
  · rw [declaration, expectKind_bind, if_pos kind, requiredChild, found]
    refine ok_bind (a := .leaf .typeName .zero v.type.written) rfl ?_
    change (orFlaw (TypeRef.parse? v.type.written) _ _ >>= _).result = _
    rw [TypeRef.parse?_written proper.2]
    refine ok_bind (a := v.type) rfl ?_
    rw [nameOf_of_split [_] _ split before (isName_nameNode proper.1)]
    rfl
  · apply Node.errorNodes_branch _ (by decide)
    exact List.forall_mem_cons.mpr ⟨Node.errorNodes_leaf (by decide) _ _,
      List.forall_mem_singleton.mpr (errorNodes_nameNode _)⟩

theorem wrap_ok {s : Statement} (proper : s.Proper) :
    Prints s.wrap (statement s.wrap) s :=
  wrap_print (printedStatement s proper)

/-- Declarations and then statements are taken over one by one, each list in its order. -/
theorem body_print {r : Resource} (proper : r.Proper) :
    Prints r.printBody
      (fold addToBody ⟨r.name, r.annotations, [], [], r.span⟩ r.printBody.significant) r := by
  obtain ⟨name, annotations, locals, statements, span⟩ := r
  have split : (Resource.printBody ⟨name, annotations, locals, statements, span⟩).significant =
      locals.map Variable.print ++ statements.map Statement.wrap := by
    apply Node.significant_branch
    refine List.forall_mem_append.mpr ⟨?_, ?_⟩
    · exact List.forall_mem_map.mpr fun _ _ => rfl
    · exact List.forall_mem_map.mpr fun _ _ => rfl
  constructor
  · rw [split, fold_append]
    have declared : (fold addToBody ⟨name, annotations, [], [], span⟩
        (locals.map Variable.print)).result = .ok ⟨name, annotations, locals, [], span⟩ := by
      refine ok_fold (fun done => Resource.mk name annotations done [] span) ?_ []
      intro done v listed
      have kind : v.print.kind = .variableDeclaration := rfl
      rw [addToBody, kind]
      simp only [List.isEmpty_nil, if_true]
      exact ok_bind (declaration_print (proper.locals v listed)).lowered rfl
    refine ok_bind declared ?_
    refine ok_fold (fun done => Resource.mk name annotations locals done span) ?_ []
    intro done s listed
    have kind : s.wrap.kind = .statement := rfl
    rw [addToBody, kind]
    exact ok_bind (wrap_ok (proper.statements s listed)).lowered rfl
  · apply Node.errorNodes_branch _ (by decide)
    refine List.forall_mem_append.mpr ⟨?_, ?_⟩
    · exact List.forall_mem_map.mpr fun v listed =>
        (declaration_print (proper.locals v listed)).clean
    · exact List.forall_mem_map.mpr fun s listed => (wrap_ok (proper.statements s listed)).clean

/-- The annotations stand in front of the name and the body, and each is taken over in turn. -/
theorem resource_print {r : Resource} (proper : r.Proper) :
    Prints r.print (resource r.print) r := by
  have printedBody := body_print proper
  have split : r.print.significant =
      r.annotations.map Annotation.print ++ nameNode r.name :: [r.printBody] := by
    apply Node.significant_branch
    refine List.forall_mem_append.mpr ⟨List.forall_mem_map.mpr fun _ _ => rfl, ?_⟩
    exact List.forall_mem_cons.mpr ⟨rfl, List.forall_mem_singleton.mpr rfl⟩
  have kind : r.print.kind = .resourceDefinition := rfl
  have before : ∀ d ∈ r.annotations.map Annotation.print, d.kind ≠ .identifier :=
    List.forall_mem_map.mpr fun _ _ same => nomatch same
  constructor
  · rw [resource, expectKind_bind, if_pos kind,
      nameOf_of_split _ _ split before (isName_nameNode proper.name), pure_bind, split, fold_append]
    have annotated : (fold addToResource ⟨Resource.empty r.name r.span, false, false⟩
        (r.annotations.map Annotation.print)).result =
        .ok ⟨⟨r.name, r.annotations, [], [], r.span⟩, false, false⟩ := by
      refine ok_fold (fun done => PartialResource.mk ⟨r.name, done, [], [], r.span⟩ false false)
        ?_ []
      intro done a listed
      change (Lowering.annotation a.print >>= _).result = _
      exact ok_bind (annotation_print (proper.annotations a listed)).lowered rfl
    have filled : (fold addToResource ⟨⟨r.name, r.annotations, [], [], r.span⟩, false, false⟩
        (nameNode r.name :: [r.printBody])).result = .ok ⟨r, true, true⟩ := by
      refine ok_bind (a := ⟨⟨r.name, r.annotations, [], [], r.span⟩, true, false⟩) rfl ?_
      refine ok_bind (a := ⟨r, true, true⟩) ?_ rfl
      change (fold addToBody _ _ >>= _).result = _
      exact ok_bind printedBody.lowered rfl
    exact ok_bind (ok_bind annotated filled) rfl
  · apply Node.errorNodes_branch _ (by decide)
    refine List.forall_mem_append.mpr ⟨?_, ?_⟩
    · exact List.forall_mem_map.mpr fun a listed =>
        (annotation_print (proper.annotations a listed)).clean
    · exact List.forall_mem_cons.mpr ⟨errorNodes_nameNode _,
        List.forall_mem_singleton.mpr printedBody.clean⟩

theorem service_print {s : Service} (proper : s.Proper) :
    Prints s.print (service s.print) s := by
  have split : s.print.significant =
      s.annotations.map Annotation.print ++ nameNode s.name :: s.resources.map Resource.print := by
    apply Node.significant_branch
    refine List.forall_mem_append.mpr ⟨List.forall_mem_map.mpr fun _ _ => rfl, ?_⟩
    exact List.forall_mem_cons.mpr ⟨rfl, List.forall_mem_map.mpr fun _ _ => rfl⟩
  have kind : s.print.kind = .serviceDefinition := rfl
  have before : ∀ d ∈ s.annotations.map Annotation.print, d.kind ≠ .identifier :=
    List.forall_mem_map.mpr fun _ _ same => nomatch same
  constructor
  · rw [service, expectKind_bind, if_pos kind,
      nameOf_of_split _ _ split before (isName_nameNode proper.name), pure_bind, split, fold_append]
    have annotated : (fold addToService ⟨s.name, [], [], s.span⟩
        (s.annotations.map Annotation.print)).result = .ok ⟨s.name, s.annotations, [], s.span⟩ := by
      refine ok_fold (fun done => Service.mk s.name done [] s.span) ?_ []
      intro done a listed
      change (Lowering.annotation a.print >>= _).result = _
      exact ok_bind (annotation_print (proper.annotations a listed)).lowered rfl
    have filled : (fold addToService ⟨s.name, s.annotations, [], s.span⟩
        (nameNode s.name :: s.resources.map Resource.print)).result = .ok s := by
      refine ok_bind (a := ⟨s.name, s.annotations, [], s.span⟩) rfl ?_
      refine ok_fold (fun done => Service.mk s.name s.annotations done s.span) ?_ []
      intro done r listed
      change (resource r.print >>= _).result = _
      exact ok_bind (resource_print (proper.resources r listed)).lowered rfl
    exact ok_bind (ok_bind annotated filled) rfl
  · apply Node.errorNodes_branch _ (by decide)
    refine List.forall_mem_append.mpr ⟨?_, ?_⟩
    · exact List.forall_mem_map.mpr fun a listed =>
        (annotation_print (proper.annotations a listed)).clean
    · exact List.forall_mem_cons.mpr ⟨errorNodes_nameNode _,
        List.forall_mem_map.mpr fun r listed => (resource_print (proper.resources r listed)).clean⟩

/-- Nothing that is printed holds an error node, so that the lowering is not refused beforehand. -/
theorem tree_print {t : Semantic.Tree} (proper : t.Proper) : (tree t.print).result = .ok t := by
  have split : t.print.root.significant = t.services.map Service.print := by
    apply Node.significant_branch
    exact List.forall_mem_map.mpr fun _ _ => rfl
  have clean : t.print.root.errorNodes = [] := by
    apply Node.errorNodes_branch _ (by decide)
    exact List.forall_mem_map.mpr fun s listed => (service_print (proper s listed)).clean
  have diagnostics : syntaxDiagnostics t.print = [] := by
    rw [syntaxDiagnostics, clean]
    rfl
  have kind : t.print.root.kind = .compilationUnit := rfl
  rw [tree, diagnostics]
  simp only
  rw [expectKind_bind, if_pos kind, split]
  have services : (each topLevel (t.services.map Service.print)).result = .ok t.services :=
    ok_each fun s listed => (service_print (proper s listed)).lowered
  exact ok_bind services rfl

/-- A semantic tree can be made from some syntax tree if and only if it is proper. -/
theorem lowering_image_iff_proper (a : Semantic.Tree) :
    (∃ t : Syntax.Tree, (tree t).result = .ok a) ↔ a.Proper := by
  constructor
  · rintro ⟨t, made⟩
    exact yields_tree t a made
  · intro proper
    exact ⟨a.print, tree_print proper⟩

end Lowering

end ServiceLang
