import ServiceLang.Proofs.Lowering.Contents
import ServiceLang.Proofs.Lowering.Literals

/-!
# What a declaration may hold

Services, local variables, annotations and attributes have a name, and some have another part that
is there once. Of such a part the first one is taken and it is not asked whether there is another,
so that what is accepted need not be unambiguous. It is as if it were: the surplus can be left out,
with the same outcome, and then every part is there once and nothing else is.
-/

namespace ServiceLang.Lowering

open Syntax (Kind Node)
open Semantic
open Outcome

/-! ### Outlines -/

/-- The kinds of children of which a declaration has exactly one, at most one, or any number. -/
structure Outline where
  single : List Kind
  optional : List Kind
  several : List Kind

namespace Outline

def ofServices : Outline := ⟨[.identifier], [], [Kind.annotation, .resourceDefinition]⟩

def ofVariables : Outline := ⟨[.typeName, .identifier], [], []⟩

def ofAnnotations : Outline := ⟨[.identifier], [.stringLiteral], [.annotationAttribute]⟩

def ofAttributes : Outline := ⟨[.identifier, .stringLiteral], [], []⟩

def kinds (o : Outline) : List Kind := o.single ++ o.optional ++ o.several

/-- Of each kind there are as many children as there should be, and there are no others. -/
structure Unambiguous (o : Outline) (cs : List Node) : Prop where
  single : ∀ kind ∈ o.single, ∃ c, cs.filter (·.kind == kind) = [c]
  optional : ∀ kind ∈ o.optional, (cs.filter (·.kind == kind)).length ≤ 1
  nothingElse : ∀ c ∈ cs, c.kind ∈ o.kinds

/-- Nothing is missing, but of a single kind there may be more than one. -/
structure Complete (o : Outline) (cs : List Node) : Prop where
  single : ∀ kind ∈ o.single, cs.filter (·.kind == kind) ≠ []
  optional : ∀ kind ∈ o.optional, (cs.filter (·.kind == kind)).length ≤ 1

/-- The first child of each single kind and all of the other kinds. -/
def keep (o : Outline) : List Node → List Node
  | [] => []
  | c :: cs =>
    if c.kind ∈ o.single then c :: (keep o cs).filter (·.kind != c.kind)
    else if c.kind ∈ o.kinds then c :: keep o cs
    else keep o cs

def surplus (o : Outline) (cs : List Node) : List Node := cs.diff (o.keep cs)

/-- The node without its surplus. -/
def trimmed (o : Outline) (n : Node) : Node := { n with children := o.keep n.significant }

theorem mem_kinds_of_single {o : Outline} {kind : Kind} (h : kind ∈ o.single) : kind ∈ o.kinds :=
  List.mem_append_left _ (List.mem_append_left _ h)

variable (o : Outline)

/-- What is kept keeps its order. -/
theorem keep_sublist (cs : List Node) : (o.keep cs).Sublist cs := by
  induction cs with
  | nil => exact .slnil
  | cons c cs ih =>
    rw [keep]
    by_cases single : c.kind ∈ o.single
    · rw [if_pos single]
      exact (List.filter_sublist.trans ih).cons_cons c
    · rw [if_neg single]
      by_cases listed : c.kind ∈ o.kinds
      · rw [if_pos listed]
        exact ih.cons_cons c
      · rw [if_neg listed]
        exact ih.cons c

theorem keep_append_surplus (cs : List Node) : (o.keep cs ++ o.surplus cs).Perm cs :=
  List.subperm_append_diff_self_of_count_le fun c _ => (o.keep_sublist cs).count_le c

theorem surplus_eq_nil_iff (cs : List Node) : o.surplus cs = [] ↔ o.keep cs = cs := by
  have shares := (o.keep_append_surplus cs).length_eq
  rw [List.length_append] at shares
  constructor
  · intro nothing
    rw [nothing] at shares
    exact (o.keep_sublist cs).eq_of_length shares
  · intro whole
    rw [whole] at shares
    exact List.eq_nil_of_length_eq_zero (by omega)

theorem kind_of_keep {cs : List Node} {c : Node} (h : c ∈ o.keep cs) : c.kind ∈ o.kinds := by
  induction cs with
  | nil => cases h
  | cons d cs ih =>
    rw [keep] at h
    by_cases single : d.kind ∈ o.single
    · rw [if_pos single] at h
      rcases List.mem_cons.mp h with rfl | later
      · exact mem_kinds_of_single single
      · exact ih (List.mem_of_mem_filter later)
    · rw [if_neg single] at h
      by_cases listed : d.kind ∈ o.kinds
      · rw [if_pos listed] at h
        rcases List.mem_cons.mp h with rfl | later
        · exact listed
        · exact ih later
      · rw [if_neg listed] at h
        exact ih h

/-- A child that is not wanted does not matter to those that are. -/
theorem filter_keep_cons_neg {p : Kind → Bool} {c : Node} (unwanted : p c.kind = false)
    (cs : List Node) :
    (o.keep (c :: cs)).filter (p ·.kind) = (o.keep cs).filter (p ·.kind) := by
  have skip (ds : List Node) : (c :: ds).filter (p ·.kind) = ds.filter (p ·.kind) :=
    List.filter_cons_of_neg (by simp [unwanted])
  rw [keep]
  by_cases single : c.kind ∈ o.single
  · rw [if_pos single, skip, List.filter_filter]
    refine List.filter_congr fun d _ => ?_
    by_cases same : d.kind = c.kind
    · simp [same, unwanted]
    · simp [same]
  · rw [if_neg single]
    by_cases listed : c.kind ∈ o.kinds
    · rw [if_pos listed, skip]
    · rw [if_neg listed]

/-- Of a single kind the first one is kept. -/
theorem filter_keep_single {kind : Kind} (single : kind ∈ o.single) (cs : List Node) :
    (o.keep cs).filter (·.kind == kind) = (cs.filter (·.kind == kind)).take 1 := by
  induction cs with
  | nil => rfl
  | cons c cs ih =>
    by_cases here : c.kind = kind
    · subst here
      simp [keep, single, List.filter_filter]
    · have unwanted : (c.kind == kind) = false := beq_eq_false_iff_ne.mpr here
      have skip : (c :: cs).filter (·.kind == kind) = cs.filter (·.kind == kind) :=
        List.filter_cons_of_neg (by simp [unwanted])
      rw [o.filter_keep_cons_neg (p := (· == kind)) unwanted, ih, skip]

/-- Of the other kinds all are kept. -/
theorem filter_keep_other {p : Kind → Bool} {cs : List Node}
    (other : ∀ c ∈ cs, p c.kind = true → c.kind ∉ o.single ∧ c.kind ∈ o.kinds) :
    (o.keep cs).filter (p ·.kind) = cs.filter (p ·.kind) := by
  induction cs with
  | nil => rfl
  | cons c cs ih =>
    obtain ⟨here, later⟩ := List.forall_mem_cons.mp other
    cases wanted : p c.kind with
    | true =>
      obtain ⟨notSingle, listed⟩ := here wanted
      have take (ds : List Node) : (c :: ds).filter (p ·.kind) = c :: ds.filter (p ·.kind) :=
        List.filter_cons_of_pos (by simp [wanted])
      rw [keep, if_neg notSingle, if_pos listed, take, take, ih later]
    | false =>
      have skip : (c :: cs).filter (p ·.kind) = cs.filter (p ·.kind) :=
        List.filter_cons_of_neg (by simp [wanted])
      rw [o.filter_keep_cons_neg wanted, ih later, skip]

/-- What is listed and yet surplus is there for the second time. -/
theorem single_of_surplus {cs : List Node} {c : Node} (h : c ∈ o.surplus cs)
    (listed : c.kind ∈ o.kinds) : c.kind ∈ o.single := by
  by_contra notSingle
  have kept : (o.keep cs).filter (·.kind == c.kind) = cs.filter (·.kind == c.kind) :=
    o.filter_keep_other (p := (· == c.kind)) fun d _ same => by
      rw [beq_iff_eq.mp same]
      exact ⟨notSingle, listed⟩
  have shares := ((o.keep_append_surplus cs).filter (·.kind == c.kind)).length_eq
  rw [List.filter_append, List.length_append, kept] at shares
  have none_ : (o.surplus cs).filter (·.kind == c.kind) = [] :=
    List.eq_nil_of_length_eq_zero (by omega)
  exact List.filter_eq_nil_iff.mp none_ c h (beq_self_eq_true _)

/-- All children are of the listed kinds exactly when only second ones are surplus. -/
theorem listed_iff_surplus_single (cs : List Node) :
    (∀ c ∈ cs, c.kind ∈ o.kinds) ↔ ∀ c ∈ o.surplus cs, c.kind ∈ o.single := by
  have shares := o.keep_append_surplus cs
  constructor
  · intro listed c member
    exact o.single_of_surplus member (listed c (shares.subset (List.mem_append_right _ member)))
  · intro single c member
    rcases List.mem_append.mp (shares.symm.subset member) with kept | extra
    · exact o.kind_of_keep kept
    · exact mem_kinds_of_single (single c extra)

variable {o} {cs : List Node}

/-- What is kept of a complete list is unambiguous. -/
theorem Complete.keep (complete : o.Complete cs) : o.Unambiguous (o.keep cs) where
  single kind listed := by
    obtain ⟨c, rest, found⟩ := List.exists_cons_of_ne_nil (complete.single kind listed)
    exact ⟨c, by rw [o.filter_keep_single listed, found]; rfl⟩
  optional kind listed :=
    Nat.le_trans ((o.keep_sublist cs).filter _).length_le (complete.optional kind listed)
  nothingElse _ member := o.kind_of_keep member

/-- Of an unambiguous list everything is kept. -/
theorem Unambiguous.keep_eq (h : o.Unambiguous cs) : o.keep cs = cs := by
  have single := (o.listed_iff_surplus_single cs).mp h.nothingElse
  rw [← o.surplus_eq_nil_iff]
  refine List.eq_nil_iff_forall_not_mem.mpr fun c member => ?_
  -- the one child of its kind is kept, so there is none left over
  obtain ⟨only, found⟩ := h.single c.kind (single c member)
  have shares := ((o.keep_append_surplus cs).filter (·.kind == c.kind)).length_eq
  rw [List.filter_append, List.length_append, o.filter_keep_single (single c member), found]
    at shares
  have none_ : (o.surplus cs).filter (·.kind == c.kind) = [] :=
    List.eq_nil_of_length_eq_zero (by simpa using shares)
  exact List.filter_eq_nil_iff.mp none_ c member (beq_self_eq_true _)

/-- A complete list is unambiguous exactly when it has no surplus. -/
theorem Complete.unambiguous_iff (complete : o.Complete cs) :
    o.Unambiguous cs ↔ o.surplus cs = [] := by
  rw [surplus_eq_nil_iff]
  constructor
  · exact Unambiguous.keep_eq
  · intro whole
    have kept := complete.keep
    rw [whole] at kept
    exact kept

theorem significant_trimmed (o : Outline) (n : Node) :
    (o.trimmed n).significant = o.keep n.significant := by
  refine List.filter_eq_self.mpr fun c member => ?_
  have significant := (o.keep_sublist n.significant).subset member
  rw [(Node.mem_significant.mp significant).2]
  rfl

/-- The first child of a single kind is kept, and so it is found again. -/
theorem requiredChild_trimmed {kind : Kind} (single : kind ∈ o.single)
    (visible : kind.isTrivia = false) (n : Node) (subject : Subject) :
    requiredChild (o.trimmed n) kind subject = requiredChild n kind subject := by
  have same : (o.trimmed n).child? kind = n.child? kind := by
    rw [Node.child?_eq_find? _ visible, Node.child?_eq_find? _ visible, significant_trimmed,
      ← List.head?_filter, ← List.head?_filter, o.filter_keep_single single, List.head?_take,
      if_neg Nat.one_ne_zero]
  rw [requiredChild, requiredChild, same]
  rfl

theorem nameOf_trimmed (named : .identifier ∈ o.single) (n : Node) (subject : Subject) :
    nameOf (o.trimmed n) subject = nameOf n subject := by
  rw [nameOf, nameOf, requiredChild_trimmed named rfl]

theorem found_of_requiredChild {n : Node} {kind : Kind} {subject : Subject} {c : Node}
    (visible : kind.isTrivia = false) (found : (requiredChild n kind subject).result = .ok c) :
    n.significant.filter (·.kind == kind) ≠ [] := by
  have first := child?_of_requiredChild found
  rw [Node.child?_eq_find? n visible, ← List.head?_filter] at first
  intro none_
  rw [none_] at first
  cases first

end Outline

/-! ### Lowerings -/

section

variable {α : Type}

/-- The lowering takes the first child of each single kind. Others may be there as far as they are
tolerated, and make no difference. -/
structure TakesFirst (lower : Node → Outcome α) (o : Outline) (tolerated : Node → Prop) (n : Node) :
    Prop where
  accepted_iff : Accepted (lower n) ↔
    Accepted (lower (o.trimmed n)) ∧ ∀ c ∈ o.surplus n.significant, tolerated c
  complete : Accepted (lower n) → o.Complete n.significant
  same : Accepted (lower n) → lower (o.trimmed n) = lower n
  unambiguous : Accepted (lower n) → o.Unambiguous (o.trimmed n).significant
  unambiguous_iff : Accepted (lower n) →
    (o.Unambiguous n.significant ↔ o.surplus n.significant = [])

variable {lower : Node → Outcome α} {o : Outline} {n : Node}

theorem TakesFirst.of_trimmed {tolerated : Node → Prop}
    (complete : Accepted (lower n) → o.Complete n.significant)
    (harmless : Accepted (lower n) → ∀ c ∈ o.surplus n.significant, tolerated c)
    (same : (∀ c ∈ o.surplus n.significant, tolerated c) → lower (o.trimmed n) = lower n) :
    TakesFirst lower o tolerated n where
  accepted_iff := by
    constructor
    · intro accepted
      rw [same (harmless accepted)]
      exact ⟨accepted, harmless accepted⟩
    · rintro ⟨accepted, extra⟩
      rw [← same extra]
      exact accepted
  complete := complete
  same accepted := same (harmless accepted)
  unambiguous accepted := by
    rw [Outline.significant_trimmed]
    exact (complete accepted).keep
  unambiguous_iff accepted := (complete accepted).unambiguous_iff

/-- It is enough that all children are of the kinds that are listed. -/
theorem TakesFirst.of_listed
    (accepted : Accepted (lower n) →
      o.Complete n.significant ∧ ∀ c ∈ n.significant, c.kind ∈ o.kinds)
    (same : (∀ c ∈ n.significant, c.kind ∈ o.kinds) → lower (o.trimmed n) = lower n) :
    TakesFirst lower o (·.kind ∈ o.single) n :=
  .of_trimmed (fun h => (accepted h).1)
    (fun h => (o.listed_iff_surplus_single n.significant).mp (accepted h).2)
    (fun single => same ((o.listed_iff_surplus_single n.significant).mpr single))

theorem accepted_steps {γ : Type} {F : α → γ → Outcome α} {a : α} {cs : List γ}
    (h : Accepted (fold F a cs)) : ∀ c ∈ cs, ∃ b, Accepted (F b c) := by
  induction cs generalizing a with
  | nil => exact List.forall_mem_nil _
  | cons c cs ih =>
    obtain ⟨b, first, rest⟩ := accepted_first h
    exact List.forall_mem_cons.mpr ⟨⟨a, b, first⟩, ih rest⟩

/-- Children that add nothing may be left out before anything is added. -/
theorem fold_trimmed {F : α → Node → Outcome α}
    (skips : ∀ a c, c.kind ∈ o.single → F a c = pure a)
    (listed : ∀ c ∈ n.significant, c.kind ∈ o.kinds) (a : α) :
    fold F a (o.trimmed n).significant = fold F a n.significant := by
  have skips' (a : α) (c : Node) (single : (!decide (c.kind ∈ o.single)) = false) :
      F a c = pure a := skips a c (by simpa using single)
  rw [fold_skipping skips', fold_skipping skips' a n.significant, Outline.significant_trimmed,
    o.filter_keep_other (p := fun kind => !decide (kind ∈ o.single))]
  intro c member other
  exact ⟨by simpa using other, listed c member⟩

end

/-! ### Services and annotations -/

theorem kind_of_served {s : Service} {c : Node} (h : Accepted (addToService s c)) :
    c.kind ∈ Outline.ofServices.kinds := by
  obtain ⟨t, made⟩ := h
  rw [addToService] at made
  cases kind : c.kind <;> rw [kind] at made <;> first | decide | cases made

/-- An accepted service has a name, and nothing besides names, annotations and resources. -/
theorem accepted_service {n : Node} (h : Accepted (service n)) :
    Outline.ofServices.Complete n.significant ∧
      ∀ c ∈ n.significant, c.kind ∈ Outline.ofServices.kinds := by
  obtain ⟨-, h⟩ := accepted_guarded h
  obtain ⟨name, read, h⟩ := accepted_first h
  obtain ⟨identifier, found, -⟩ := accepted_first ⟨name, read⟩
  obtain ⟨s, folded, -⟩ := accepted_first h
  refine ⟨⟨?_, List.forall_mem_nil _⟩, fun c member => ?_⟩
  · exact List.forall_mem_singleton.mpr (Outline.found_of_requiredChild rfl found)
  · obtain ⟨t, accepted⟩ := accepted_steps ⟨s, folded⟩ c member
    exact kind_of_served accepted

/-- A second name adds nothing to a service. -/
theorem service_trimmed {n : Node}
    (listed : ∀ c ∈ n.significant, c.kind ∈ Outline.ofServices.kinds) :
    service (Outline.ofServices.trimmed n) = service n := by
  have skips (s : Service) (c : Node) (name : c.kind ∈ Outline.ofServices.single) :
      addToService s c = pure s := by
    rw [addToService, List.mem_singleton.mp name]
  rw [service, service, expectKind_bind, expectKind_bind,
    Outline.nameOf_trimmed (List.mem_singleton_self _)]
  simp only [fold_trimmed skips listed]
  rfl

theorem kind_of_annotated {a : Annotation} {c : Node}
    (h : Accepted (Lowering.addToAnnotation a c)) :
    c.kind ∈ Outline.ofAnnotations.kinds := by
  obtain ⟨b, made⟩ := h
  rw [Lowering.addToAnnotation] at made
  cases kind : c.kind <;> rw [kind] at made <;> first | decide | cases made

/-- An accepted annotation has a name, at most one value, and attributes. -/
theorem accepted_annotated {n : Node} (h : Accepted (Lowering.annotation n)) :
    Outline.ofAnnotations.Complete n.significant ∧
      ∀ c ∈ n.significant, c.kind ∈ Outline.ofAnnotations.kinds := by
  obtain ⟨a, made⟩ := h
  have strings := List.Forall₂.length_eq (annotation_collects made).value
  obtain ⟨-, h⟩ := accepted_guarded ⟨a, made⟩
  obtain ⟨raw, read, h⟩ := accepted_first h
  obtain ⟨identifier, found, -⟩ := accepted_first ⟨raw, read⟩
  refine ⟨⟨?_, ?_⟩, fun c member => ?_⟩
  · exact List.forall_mem_singleton.mpr (Outline.found_of_requiredChild rfl found)
  · refine List.forall_mem_singleton.mpr ?_
    rw [strings]
    exact Option.length_toList_le
  · by_cases empty : withoutAt raw = ""
    · rw [if_pos empty] at h
      obtain ⟨_, made⟩ := h
      cases made
    · rw [if_neg empty] at h
      obtain ⟨_, -, folded⟩ := accepted_first h
      obtain ⟨b, accepted⟩ := accepted_steps folded c member
      exact kind_of_annotated accepted

/-- A second name adds nothing to an annotation. -/
theorem annotation_trimmed {n : Node}
    (listed : ∀ c ∈ n.significant, c.kind ∈ Outline.ofAnnotations.kinds) :
    annotation (Outline.ofAnnotations.trimmed n) = annotation n := by
  have skips (a : Annotation) (c : Node) (name : c.kind ∈ Outline.ofAnnotations.single) :
      addToAnnotation a c = pure a := by
    rw [Lowering.addToAnnotation, List.mem_singleton.mp name]
  rw [Lowering.annotation, Lowering.annotation, expectKind_bind, expectKind_bind,
    Outline.nameOf_trimmed (List.mem_singleton_self _)]
  simp only [fold_trimmed skips listed]
  rfl

/-! ### Variables and attributes -/

theorem accepted_declaration {n : Node} (h : Accepted (declaration n)) :
    Outline.ofVariables.Complete n.significant := by
  obtain ⟨-, h⟩ := accepted_guarded h
  obtain ⟨typeNode, typed, h⟩ := accepted_first h
  obtain ⟨type, -, h⟩ := accepted_first h
  obtain ⟨name, read, -⟩ := accepted_first h
  obtain ⟨identifier, found, -⟩ := accepted_first ⟨name, read⟩
  refine ⟨?_, List.forall_mem_nil _⟩
  exact List.forall_mem_cons.mpr ⟨Outline.found_of_requiredChild rfl typed,
    List.forall_mem_singleton.mpr (Outline.found_of_requiredChild rfl found)⟩

/-- A declaration looks for its type and its name only. -/
theorem declaration_trimmed (n : Node) :
    declaration (Outline.ofVariables.trimmed n) = declaration n := by
  rw [declaration, declaration, Outline.nameOf_trimmed (by decide),
    Outline.requiredChild_trimmed (by decide) rfl]
  rfl

theorem accepted_attribute {n : Node} (h : Accepted (annotationAttribute n)) :
    Outline.ofAttributes.Complete n.significant := by
  obtain ⟨key, read, h⟩ := accepted_first h
  obtain ⟨identifier, found, -⟩ := accepted_first ⟨key, read⟩
  obtain ⟨value, valued, -⟩ := accepted_first h
  refine ⟨?_, List.forall_mem_nil _⟩
  exact List.forall_mem_cons.mpr ⟨Outline.found_of_requiredChild rfl found,
    List.forall_mem_singleton.mpr (Outline.found_of_requiredChild rfl valued)⟩

theorem attribute_trimmed (n : Node) :
    annotationAttribute (Outline.ofAttributes.trimmed n) = annotationAttribute n := by
  rw [annotationAttribute, annotationAttribute, Outline.nameOf_trimmed (by decide),
    Outline.requiredChild_trimmed (by decide) rfl]

/-- Of a name, of a type and of the value of an attribute the first one is taken. In a service and
in an annotation there may be other names and nothing else that does not belong there; in a variable
and in an attribute there may be anything. What is accepted is unambiguous when this surplus is left
out, which makes no difference to the outcome, and it is unambiguous itself only if there is no
surplus. -/
theorem declarations_take_first (n : Node) :
    TakesFirst service .ofServices (·.kind ∈ Outline.ofServices.single) n ∧
    TakesFirst annotation .ofAnnotations (·.kind ∈ Outline.ofAnnotations.single) n ∧
    TakesFirst declaration .ofVariables (fun _ => True) n ∧
    TakesFirst annotationAttribute .ofAttributes (fun _ => True) n := by
  refine ⟨?_, ?_, ?_, ?_⟩
  · exact .of_listed accepted_service service_trimmed
  · exact .of_listed accepted_annotated annotation_trimmed
  · exact .of_trimmed accepted_declaration (fun _ _ _ => trivial) fun _ => declaration_trimmed n
  · exact .of_trimmed accepted_attribute (fun _ _ _ => trivial) fun _ => attribute_trimmed n

/-- A service that has each of the names. -/
def serviceNamed (names : List String) : Node :=
  .branch .serviceDefinition .zero (names.map (.leaf .identifier .zero))

/-- An integer, with more behind its name. -/
def integerWith (more : List Node) : Node :=
  .branch .variableDeclaration .zero
    (.leaf .typeName .zero "int" :: .leaf .identifier .zero "n" :: more)

theorem ambiguous_declarations_accepted :
    (Accepted (service (serviceNamed ["Users", "Orders"])) ∧
      ¬ Outline.ofServices.Unambiguous (serviceNamed ["Users", "Orders"]).significant) ∧
    (Accepted (declaration (integerWith [.leaf .integerLiteral .zero "1"])) ∧
      ¬ Outline.ofVariables.Unambiguous
        (integerWith [.leaf .integerLiteral .zero "1"]).significant) := by
  refine ⟨⟨⟨_, rfl⟩, fun unambiguous => ?_⟩, ⟨⟨_, rfl⟩, fun unambiguous => ?_⟩⟩
  · obtain ⟨name, only⟩ := unambiguous.single .identifier (by decide)
    cases only
  · have listed := unambiguous.nothingElse (.leaf .integerLiteral .zero "1") (by decide)
    revert listed
    decide

theorem second_name_left_out :
    service (serviceNamed ["Users"]) = service (serviceNamed ["Users", "Orders"]) ∧
    ¬ Accepted (service ((serviceNamed ["Users"]).push (.bare .block .zero))) := by
  constructor
  · exact (declarations_take_first (serviceNamed ["Users", "Orders"])).1.same ⟨_, rfl⟩
  · intro accepted
    obtain ⟨services, -⟩ := declarations_take_first
      ((serviceNamed ["Users"]).push (.bare .block .zero))
    have tolerated := (services.accepted_iff.mp accepted).2 (.bare .block .zero) (by decide)
    revert tolerated
    decide

end ServiceLang.Lowering
