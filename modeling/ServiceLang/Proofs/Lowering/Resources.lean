import ServiceLang.Proofs.Lowering.Sequence
import ServiceLang.Proofs.Lowering.Soundness

/-!
# What a resource may hold

A resource is accepted exactly when it is written as documented: annotations, one name and one body
in any order, and in the body declarations before statements, all of them accepted. Everything that
is written is then kept, in source order and once.
-/

namespace ServiceLang.Lowering

open Syntax (Kind Node)
open Semantic
open Outcome

/-- The nodes are declarations and then statements. -/
structure DeclaresFirst (cs declarations statements : List Node) : Prop where
  split : cs = declarations ++ statements
  declared : ∀ d ∈ declarations, d.kind = .variableDeclaration
  stated : ∀ s ∈ statements, s.kind = .statement

namespace DeclaresFirst

variable {c : Node} {cs ds ss : List Node}

theorem nil : DeclaresFirst [] [] [] := ⟨rfl, List.forall_mem_nil _, List.forall_mem_nil _⟩

theorem declare (h : DeclaresFirst cs ds ss) (kind : c.kind = .variableDeclaration) :
    DeclaresFirst (c :: cs) (c :: ds) ss :=
  ⟨congrArg (c :: ·) h.split, List.forall_mem_cons.mpr ⟨kind, h.declared⟩, h.stated⟩

theorem state (h : DeclaresFirst cs [] ss) (kind : c.kind = .statement) :
    DeclaresFirst (c :: cs) [] (c :: ss) :=
  ⟨congrArg (c :: ·) h.split, List.forall_mem_nil _, List.forall_mem_cons.mpr ⟨kind, h.stated⟩⟩

/-- The first node is a declaration, or there are none. -/
theorem first (h : DeclaresFirst (c :: cs) ds ss) :
    (∃ ds', ds = c :: ds' ∧ c.kind = .variableDeclaration ∧ DeclaresFirst cs ds' ss) ∨
      ∃ ss', ds = [] ∧ ss = c :: ss' ∧ c.kind = .statement ∧ DeclaresFirst cs [] ss' := by
  obtain ⟨split, declared, stated⟩ := h
  cases ds with
  | nil =>
    change c :: cs = ss at split
    subst split
    obtain ⟨kind, rest⟩ := List.forall_mem_cons.mp stated
    exact .inr ⟨cs, rfl, rfl, kind, rfl, declared, rest⟩
  | cons d ds =>
    cases split
    obtain ⟨kind, rest⟩ := List.forall_mem_cons.mp declared
    exact .inl ⟨ds, rfl, kind, rfl, rest, stated⟩

end DeclaresFirst

/-- A child of a body is a declaration, as long as there is no statement, or a statement. -/
theorem addToBody_ok_iff {r r' : Resource} {c : Node} :
    (addToBody r c).result = .ok r' ↔
      (∃ v, c.kind = .variableDeclaration ∧ r.statements = [] ∧
        (declaration c).result = .ok v ∧ r' = r.withVariable v) ∨
      ∃ s, c.kind = .statement ∧ (statement c).result = .ok s ∧ r' = r.withStatement s := by
  rw [addToBody]
  constructor
  · intro added
    cases kind : c.kind with
    | variableDeclaration =>
      rw [kind] at added
      simp only at added
      by_cases early : r.statements.isEmpty = true
      · rw [if_pos early] at added
        obtain ⟨v, read, done⟩ := bind_ok_iff.mp added
        cases done
        exact .inl ⟨v, rfl, List.isEmpty_iff.mp early, read, rfl⟩
      · rw [if_neg early] at added
        cases added
    | statement =>
      rw [kind] at added
      obtain ⟨s, read, done⟩ := bind_ok_iff.mp added
      cases done
      exact .inr ⟨s, rfl, read, rfl⟩
    | _ =>
      rw [kind] at added
      cases added
  · rintro (⟨v, kind, early, read, rfl⟩ | ⟨s, kind, read, rfl⟩)
    · rw [kind, early]
      exact bind_ok_iff.mpr ⟨v, read, rfl⟩
    · rw [kind]
      exact bind_ok_iff.mpr ⟨s, read, rfl⟩

/-- A body is read when declarations come first, also after what the resource already holds. -/
theorem fold_addToBody_ok_iff {r r' : Resource} {cs : List Node} :
    (fold addToBody r cs).result = .ok r' ↔ ∃ ds ss vs ts, DeclaresFirst cs ds ss ∧
      (r.statements ≠ [] → ds = []) ∧ Results declaration ds vs ∧ Results statement ss ts ∧
      r' = { r with locals := r.locals ++ vs, statements := r.statements ++ ts } := by
  induction cs generalizing r with
  | nil =>
    constructor
    · intro made
      cases made
      refine ⟨[], [], [], [], .nil, fun _ => rfl, .nil, .nil, ?_⟩
      rw [List.append_nil, List.append_nil]
    · rintro ⟨ds, ss, vs, ts, ⟨split, -, -⟩, -, locals, statements, rfl⟩
      obtain ⟨rfl, rfl⟩ := List.append_eq_nil_iff.mp split.symm
      cases locals
      cases statements
      rw [List.append_nil, List.append_nil]
      rfl
  | cons c cs ih =>
    rw [fold, bind_ok_iff]
    constructor
    · rintro ⟨b, added, rest⟩
      obtain ⟨ds, ss, vs, ts, parts, late, locals, statements, rfl⟩ := ih.mp rest
      rcases addToBody_ok_iff.mp added with ⟨v, kind, early, read, rfl⟩ | ⟨s, kind, read, rfl⟩
      · refine ⟨c :: ds, ss, v :: vs, ts, parts.declare kind, fun some_ => absurd early some_,
          .cons read locals, statements, ?_⟩
        simp only [Resource.withVariable, List.append_assoc, List.singleton_append]
      · have noMore : ds = [] := late (by simp [Resource.withStatement])
        subst noMore
        refine ⟨[], c :: ss, vs, s :: ts, parts.state kind, fun _ => rfl, locals,
          .cons read statements, ?_⟩
        simp only [Resource.withStatement, List.append_assoc, List.singleton_append]
    · rintro ⟨ds, ss, vs, ts, parts, late, locals, statements, rfl⟩
      rcases parts.first with ⟨ds, rfl, kind, parts⟩ | ⟨ss, rfl, rfl, kind, parts⟩
      · have early : r.statements = [] := by
          by_contra some_
          cases late some_
        rcases locals with _ | @⟨_, v, _, vs, read, locals⟩
        refine ⟨r.withVariable v, addToBody_ok_iff.mpr (.inl ⟨v, kind, early, read, rfl⟩),
          ih.mpr ⟨ds, ss, vs, ts, parts, fun some_ => absurd early some_, locals, statements, ?_⟩⟩
        simp only [Resource.withVariable, List.append_assoc, List.singleton_append]
      · rcases statements with _ | @⟨_, t, _, ts, read, statements⟩
        refine ⟨r.withStatement t, addToBody_ok_iff.mpr (.inr ⟨t, kind, read, rfl⟩),
          ih.mpr ⟨[], ss, vs, ts, parts, fun _ => rfl, locals, statements, ?_⟩⟩
        simp only [Resource.withStatement, List.append_assoc, List.singleton_append]

/-- What bodies with these children give to their resource. -/
def BodyResults (cs : List Node) (locals : List Variable) (statements : List Statement) : Prop :=
  ∃ ds ss, DeclaresFirst cs ds ss ∧ Results declaration ds locals ∧ Results statement ss statements

/-- A child is added to what is there of a resource. -/
inductive Adds (p : PartialResource) (c : Node) : PartialResource → Prop
  | annotated {a : Annotation} (kind : c.kind = Kind.annotation)
    (read : (Lowering.annotation c).result = .ok a) :
    Adds p c { p with resource := p.resource.withAnnotation a }
  | name (kind : c.kind = .identifier) (first : p.named = false) : Adds p c { p with named := true }
  | body {r : Resource} (kind : c.kind = .functionBody) (first : p.bodied = false)
    (read : (fold addToBody p.resource c.significant).result = .ok r) :
    Adds p c { p with resource := r, bodied := true }

/-- Each kind of child is added in its own way, and all others are refused. -/
theorem addToResource_ok_iff {p q : PartialResource} {c : Node} :
    (addToResource p c).result = .ok q ↔ Adds p c q := by
  rw [addToResource]
  constructor
  · intro added
    cases kind : c.kind with
    | annotation =>
      rw [kind] at added
      obtain ⟨a, read, done⟩ := bind_ok_iff.mp added
      cases done
      exact .annotated kind read
    | identifier =>
      rw [kind] at added
      simp only at added
      cases first : p.named with
      | true =>
        rw [if_pos first] at added
        cases added
      | false =>
        rw [if_neg (by simp [first])] at added
        cases added
        exact .name kind first
    | functionBody =>
      rw [kind] at added
      simp only at added
      cases first : p.bodied with
      | true =>
        rw [if_pos first] at added
        cases added
      | false =>
        rw [if_neg (by simp [first])] at added
        obtain ⟨r, read, done⟩ := bind_ok_iff.mp added
        cases done
        exact .body kind first read
    | _ =>
      rw [kind] at added
      cases added
  · intro adds
    cases adds with
    | annotated kind read =>
      rw [kind]
      exact bind_ok_iff.mpr ⟨_, read, rfl⟩
    | name kind first =>
      rw [kind]
      simp only
      rw [if_neg (by simp [first])]
      rfl
    | body kind first read =>
      rw [kind]
      simp only
      rw [if_neg (by simp [first])]
      exact bind_ok_iff.mpr ⟨_, read, rfl⟩

/-- The node is of a kind that may stand in a resource. -/
def IsPart (c : Node) : Prop :=
  c.kind = Kind.annotation ∨ c.kind = .identifier ∨ c.kind = .functionBody

instance (c : Node) : Decidable (IsPart c) := inferInstanceAs (Decidable (_ ∨ _ ∨ _))

/-- What there is of a resource after the first children of its node. -/
structure MadeOf (name : String) (span : Span) (done : List Node) (p : PartialResource) : Prop where
  name : p.resource.name = name
  span : p.resource.span = span
  parts : ∀ c ∈ done, IsPart c
  annotations : Results annotation (done.filter (·.kind == Kind.annotation)) p.resource.annotations
  names : (done.filter (·.kind == .identifier)).length = p.named.toNat
  bodies : (done.filter (·.kind == .functionBody)).length = p.bodied.toNat
  contents : BodyResults ((done.filter (·.kind == .functionBody)).flatMap Node.significant)
    p.resource.locals p.resource.statements

theorem filter_push_same (done : List Node) {c : Node} {kind : Kind} (same : c.kind = kind) :
    (done ++ [c]).filter (·.kind == kind) = done.filter (·.kind == kind) ++ [c] := by
  have kept : [c].filter (·.kind == kind) = [c] := by simp [same]
  rw [List.filter_append, kept]

theorem filter_push_other (done : List Node) {c : Node} {kind : Kind} (other : c.kind ≠ kind) :
    (done ++ [c]).filter (·.kind == kind) = done.filter (·.kind == kind) := by
  have dropped : [c].filter (·.kind == kind) = [] := by simp [other]
  rw [List.filter_append, dropped, List.append_nil]

/-- One child of a resource more, with what has been made so far kept in step. -/
theorem MadeOf.adds {name : String} {span : Span} {done : List Node} {p q : PartialResource}
    {c : Node} (made : MadeOf name span done p) (adds : Adds p c q) :
    MadeOf name span (done ++ [c]) q := by
  have parts (part : IsPart c) : ∀ d ∈ done ++ [c], IsPart d := by
    intro d member
    rcases List.mem_append.mp member with before | here
    · exact made.parts d before
    · rw [List.mem_singleton.mp here]
      exact part
  have other {same kind : Kind} (h : c.kind = same) (apart : same ≠ kind) :
      (done ++ [c]).filter (·.kind == kind) = done.filter (·.kind == kind) :=
    filter_push_other done (h ▸ apart)
  cases adds with
  | annotated kind read =>
    refine ⟨made.name, made.span, parts (.inl kind), ?_, ?_, ?_, ?_⟩
    · rw [filter_push_same done kind]
      exact List.rel_append made.annotations (.cons read .nil)
    · rw [other kind (by decide)]
      exact made.names
    · rw [other kind (by decide)]
      exact made.bodies
    · rw [other kind (by decide)]
      exact made.contents
  | name kind first =>
    refine ⟨made.name, made.span, parts (.inr (.inl kind)), ?_, ?_, ?_, ?_⟩
    · rw [other kind (by decide)]
      exact made.annotations
    · rw [filter_push_same done kind, List.length_append, made.names, first]
      rfl
    · rw [other kind (by decide)]
      exact made.bodies
    · rw [other kind (by decide)]
      exact made.contents
  | body kind first read =>
    -- there is no other body, so nothing but this one has given locals or statements
    have bodies := made.bodies
    rw [first] at bodies
    have none_yet := List.eq_nil_of_length_eq_zero bodies
    obtain ⟨_, _, parts', locals, statements⟩ := made.contents
    rw [none_yet] at parts'
    obtain ⟨rfl, rfl⟩ := List.append_eq_nil_iff.mp parts'.split.symm
    have noLocals : p.resource.locals = [] := List.forall₂_nil_left_iff.mp locals
    have noStatements : p.resource.statements = [] := List.forall₂_nil_left_iff.mp statements
    obtain ⟨ds, ss, vs, ts, order, -, declared, stated, rfl⟩ := fold_addToBody_ok_iff.mp read
    refine ⟨made.name, made.span, parts (.inr (.inr kind)), ?_, ?_, ?_, ?_⟩
    · rw [other kind (by decide)]
      exact made.annotations
    · rw [other kind (by decide)]
      exact made.names
    · rw [filter_push_same done kind, List.length_append, made.bodies, first]
      rfl
    · rw [filter_push_same done kind, none_yet, noLocals, noStatements]
      change BodyResults (c.significant ++ []) vs ts
      rw [List.append_nil]
      exact ⟨ds, ss, order, declared, stated⟩

/-- If each step can be taken from what has been made so far, all can. -/
theorem accepted_fold {α γ : Type} {F : α → γ → Outcome α} {I : List γ → α → Prop} {all : List γ}
    (keeps : ∀ done c a, I done a → Yields (F a c) (I (done ++ [c])))
    (goesOn : ∀ done c rest a, done ++ c :: rest = all → I done a → Accepted (F a c))
    {done rest : List γ} {a : α} (split : done ++ rest = all) (start : I done a) :
    Accepted (fold F a rest) := by
  induction rest generalizing done a with
  | nil => exact ⟨a, rfl⟩
  | cons c rest ih =>
    obtain ⟨b, step⟩ := goesOn done c rest a split start
    have made := keeps done c a start b step
    obtain ⟨z, whole⟩ := ih (by rw [List.append_assoc]; exact split) made
    exact ⟨z, bind_ok_iff.mpr ⟨b, step, whole⟩⟩

/-- The node is written as a resource should be. -/
structure Documented (n name body : Node) (declarations statements : List Node) : Prop where
  parts : ∀ c ∈ n.significant, IsPart c
  named : n.childrenOf .identifier = [name]
  filled : name.textOrEmpty ≠ ""
  bodied : n.childrenOf .functionBody = [body]
  order : DeclaresFirst body.significant declarations statements

structure PartsAccepted (n : Node) (declarations statements : List Node) : Prop where
  annotations : ∀ c ∈ n.childrenOf Kind.annotation, Accepted (Lowering.annotation c)
  declarations : ∀ d ∈ declarations, Accepted (declaration d)
  statements : ∀ s ∈ statements, Accepted (statement s)

/-- The resource holds what is written, in the order in which it is written. -/
structure Transcribed (n name : Node) (declarations statements : List Node) (r : Resource) :
    Prop where
  name : r.name = name.textOrEmpty
  span : r.span = n.span
  annotations : Results annotation (n.childrenOf Kind.annotation) r.annotations
  locals : Results declaration declarations r.locals
  statements : Results statement statements r.statements

theorem Transcribed.parts {n name : Node} {ds ss : List Node} {r : Resource}
    (h : Transcribed n name ds ss r) : PartsAccepted n ds ss where
  annotations := results_iff_accepted.mp ⟨_, h.annotations⟩
  declarations := results_iff_accepted.mp ⟨_, h.locals⟩
  statements := results_iff_accepted.mp ⟨_, h.statements⟩

theorem MadeOf.keeps {name : String} {span : Span} (done : List Node) (c : Node)
    (p : PartialResource) (made : MadeOf name span done p) :
    Yields (addToResource p c) (MadeOf name span (done ++ [c])) :=
  fun _ added => made.adds (addToResource_ok_iff.mp added)

theorem MadeOf.start (name : String) (span : Span) :
    MadeOf name span [] ⟨Resource.empty name span, false, false⟩ :=
  ⟨rfl, rfl, List.forall_mem_nil _, .nil, rfl, rfl, [], [], .nil, .nil, .nil⟩

/-- What is accepted is a documented resource, and what is made of it transcribes it. -/
theorem documented_of_accepted {n : Node} {r : Resource} (isResource : n.kind = .resourceDefinition)
    (accepted : (resource n).result = .ok r) :
    ∃ name body ds ss, Documented n name body ds ss ∧ Transcribed n name ds ss r := by
  rw [resource, expectKind_bind, if_pos isResource] at accepted
  obtain ⟨name, read, added⟩ := bind_ok_iff.mp accepted
  obtain ⟨p, folded, finished⟩ := bind_ok_iff.mp added
  have made := Yields.foldPrefix MadeOf.keeps n.significant (.start name n.span) p folded
  rw [List.nil_append] at made
  obtain ⟨named, filled⟩ := named_of_nameOf read
  obtain ⟨identifier, first, rfl⟩ := Option.map_eq_some_iff.mp named
  have names := made.names
  have bodies := made.bodies
  have contents := made.contents
  have annotations := made.annotations
  rw [← Node.childrenOf_eq_filter n rfl] at names bodies contents annotations
  have onlyName : n.childrenOf .identifier = [identifier] := by
    rw [Node.child?_eq_head?] at first
    obtain ⟨others, listed⟩ := List.head?_eq_some_iff.mp first
    have atMost := Bool.toNat_le p.named
    rw [← names, listed, List.length_cons] at atMost
    rw [listed, List.eq_nil_of_length_eq_zero (by omega : others.length = 0)]
  cases bodied : p.bodied with
  | false =>
    rw [bodied] at finished
    cases finished
  | true =>
    rw [bodied] at finished bodies
    cases finished
    obtain ⟨body, onlyBody⟩ := List.length_eq_one_iff.mp bodies
    rw [onlyBody, List.flatMap_singleton] at contents
    obtain ⟨ds, ss, order, locals, statements⟩ := contents
    exact ⟨identifier, body, ds, ss, ⟨made.parts, onlyName, filled, onlyBody, order⟩,
      made.name, made.span, annotations, locals, statements⟩

/-- Before a child of a kind that is there once, there is none of that kind. -/
theorem none_before {all done rest : List Node} {c only : Node} {kind : Kind}
    (once : all.filter (·.kind == kind) = [only]) (split : done ++ c :: rest = all)
    (here : c.kind = kind) : done.filter (·.kind == kind) = [] ∧ c = only := by
  have kept : (c :: rest).filter (·.kind == kind) = c :: rest.filter (·.kind == kind) := by
    simp [here]
  rw [← split, List.filter_append, kept] at once
  rcases front : done.filter (·.kind == kind) with _ | ⟨d, others⟩
  · rw [front] at once
    exact ⟨front, (List.cons.inj once).1⟩
  · rw [front] at once
    have lengths := congrArg List.length once
    simp at lengths

theorem accepted_addToResource {n name body c : Node} {ds ss done rest : List Node}
    {p : PartialResource} {label : String} {span : Span}
    (documented : Documented n name body ds ss) (accepted : PartsAccepted n ds ss)
    (split : done ++ c :: rest = n.significant) (made : MadeOf label span done p) :
    Accepted (addToResource p c) := by
  have member : c ∈ n.significant := split ▸ List.mem_append_right done List.mem_cons_self
  rcases documented.parts c member with kind | kind | kind
  · have listed : c ∈ n.childrenOf Kind.annotation := by
      rw [Node.childrenOf_eq_filter n rfl]
      exact List.mem_filter.mpr ⟨member, beq_iff_eq.mpr kind⟩
    obtain ⟨a, read⟩ := accepted.annotations c listed
    exact ⟨_, addToResource_ok_iff.mpr (.annotated kind read)⟩
  · have once := documented.named
    rw [Node.childrenOf_eq_filter n rfl] at once
    obtain ⟨noName, -⟩ := none_before once split kind
    have names := made.names
    rw [noName] at names
    exact ⟨_, addToResource_ok_iff.mpr (.name kind (Bool.toNat_eq_zero.mp names.symm))⟩
  · have once := documented.bodied
    rw [Node.childrenOf_eq_filter n rfl] at once
    obtain ⟨noBody, rfl⟩ := none_before once split kind
    have bodies := made.bodies
    have contents := made.contents
    rw [noBody] at bodies contents
    obtain ⟨vs, locals⟩ := results_iff_accepted.mpr accepted.declarations
    obtain ⟨ts, statements⟩ := results_iff_accepted.mpr accepted.statements
    have noStatements : p.resource.statements = [] := by
      obtain ⟨_, _, order, -, stated⟩ := contents
      obtain ⟨-, rfl⟩ := List.append_eq_nil_iff.mp order.split.symm
      exact List.forall₂_nil_left_iff.mp stated
    have filled := fold_addToBody_ok_iff.mpr ⟨ds, ss, vs, ts, documented.order,
      fun some_ => absurd noStatements some_, locals, statements, rfl⟩
    exact ⟨_, addToResource_ok_iff.mpr (.body kind (Bool.toNat_eq_zero.mp bodies.symm) filled)⟩

/-- A documented resource whose parts are accepted is accepted. -/
theorem accepted_of_documented {n name body : Node} {ds ss : List Node}
    (isResource : n.kind = .resourceDefinition) (documented : Documented n name body ds ss)
    (accepted : PartsAccepted n ds ss) : Accepted (resource n) := by
  have named : Named name.textOrEmpty n := by
    rw [Named, Node.child?_eq_head?, documented.named]
    rfl
  have start := MadeOf.start name.textOrEmpty n.span
  obtain ⟨p, folded⟩ := accepted_fold MadeOf.keeps
    (fun done c rest p split made => accepted_addToResource documented accepted split made)
    (List.nil_append n.significant) start
  have made := Yields.foldPrefix MadeOf.keeps n.significant start p folded
  have bodied : p.bodied = true := by
    have bodies := made.bodies
    rw [List.nil_append, ← Node.childrenOf_eq_filter n rfl, documented.bodied] at bodies
    exact Bool.toNat_eq_one.mp bodies.symm
  rw [resource, expectKind_bind, if_pos isResource, nameOf_of_named documented.filled named,
    pure_bind]
  refine ⟨p.resource, bind_ok_iff.mpr ⟨p, folded, ?_⟩⟩
  rw [if_pos bodied]
  rfl

/-- Exactly the documented resources are accepted, and all that is written is kept in order. -/
theorem resource_accepted_iff_documented (n : Node) :
    (n.kind = .resourceDefinition →
      (Accepted (resource n) ↔
        ∃ name body ds ss, Documented n name body ds ss ∧ PartsAccepted n ds ss) ∧
      ∀ r, (resource n).result = .ok r →
        ∃ name body ds ss, Documented n name body ds ss ∧ Transcribed n name ds ss r) ∧
    (n.kind ≠ .resourceDefinition →
      resource n = flawed n.span (.wrongKind .resourceDefinition n.kind)) := by
  constructor
  · intro isResource
    refine ⟨⟨?_, ?_⟩, fun r => documented_of_accepted isResource⟩
    · rintro ⟨r, made⟩
      obtain ⟨name, body, ds, ss, documented, transcribed⟩ := documented_of_accepted isResource made
      exact ⟨name, body, ds, ss, documented, transcribed.parts⟩
    · rintro ⟨name, body, ds, ss, documented, parts⟩
      exact accepted_of_documented isResource documented parts
  · intro other
    rw [resource, expectKind_bind, if_neg other]

def bodyOfReply : Node :=
  .branch .functionBody .zero
    [.branch .variableDeclaration .zero [.leaf .typeName .zero "int", .leaf .identifier .zero "id"],
      .bare .comment .zero,
      .branch .statement .zero [.branch .replyStatement .zero [.bare .nullLiteral .zero]]]

/-- The body comes first and the annotation last, with some names between them. -/
def backwardNode (names : List String) : Node :=
  .branch .resourceDefinition .zero
    (bodyOfReply :: names.map (.leaf .identifier .zero) ++
      [.branch Kind.annotation .zero [.leaf .identifier .zero "@GET"]])

theorem backwardNode_accepted :
    Accepted (resource (backwardNode ["get"])) ∧
    ¬ Accepted (resource (backwardNode ["a", "b"])) := by
  constructor
  · have single := (resource_accepted_iff_documented (backwardNode ["get"])).1 rfl
    refine single.1.mpr ⟨.leaf .identifier .zero "get", bodyOfReply,
      bodyOfReply.significant.take 1, bodyOfReply.significant.drop 1, ?_, ?_⟩
    · exact ⟨by decide, rfl, by decide, rfl, rfl, by decide, by decide⟩
    · refine ⟨?_, ?_, ?_⟩
      · exact List.forall_mem_singleton.mpr ⟨_, rfl⟩
      · exact List.forall_mem_singleton.mpr ⟨_, rfl⟩
      · exact List.forall_mem_singleton.mpr ⟨_, rfl⟩
  · have double := (resource_accepted_iff_documented (backwardNode ["a", "b"])).1 rfl
    intro accepted
    obtain ⟨_, _, _, _, documented, -⟩ := double.1.mp accepted
    cases documented.named

end ServiceLang.Lowering
