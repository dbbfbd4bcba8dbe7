import ServiceLang.Proofs.Lowering.Silence

/-!
# The log of a lowering

Events are met on the way down, before the parts of a node are looked at; the result is put together
on the way up. When a lowering succeeds the two agree: statements are reported in preorder,
annotations and declarations in the order in which they stand in the result, and a resource or a
service when it is complete. Before that, nothing but traces of its parts is in the log of a
resource.
-/

namespace ServiceLang

namespace Semantic

/-- The kind of node that a statement is written as. -/
def Statement.kind : Statement → Syntax.Kind
  | .assignment .. => .assignmentStatement
  | .return .. => .returnStatement
  | .reply .. => .replyStatement
  | .invocation .. => .functionInvocationStatement
  | .ifElse .. => .ifElseStatement
  | .while .. => .whileStatement
  | .block .. => .block

mutual

/-- A statement and then those in its bodies, the body of the first branch before the other. -/
def Statement.preorder : Statement → List Statement
  | .assignment target value span => [.assignment target value span]
  | .return values span => [.return values span]
  | .reply value span => [.reply value span]
  | .invocation call span => [.invocation call span]
  | .ifElse condition thenBody elseBody span =>
    .ifElse condition thenBody elseBody span ::
      (Statement.preorderAll thenBody ++ Statement.preorderElse elseBody)
  | .while condition body span => .while condition body span :: Statement.preorderAll body
  | .block statements span => .block statements span :: Statement.preorderAll statements

def Statement.preorderAll : List Statement → List Statement
  | [] => []
  | s :: ss => s.preorder ++ Statement.preorderAll ss

def Statement.preorderElse : Option (List Statement) → List Statement
  | none => []
  | some ss => Statement.preorderAll ss

end

theorem Statement.preorderAll_eq_flatMap (ss : List Statement) :
    Statement.preorderAll ss = ss.flatMap (·.preorder) := by
  induction ss with
  | nil => rfl
  | cons s ss ih => rw [Statement.preorderAll, ih, List.flatMap_cons]

end Semantic

namespace Lowering

open Syntax (Kind Node)
open Semantic
open Outcome

namespace Event

def annotation? : Event → Option String
  | Event.annotation name => some name
  | _ => none

def declaration? : Event → Option (String × String)
  | .declaration name type => some (name, type)
  | _ => none

def statement? : Event → Option Kind
  | .statement kind => some kind
  | _ => none

def isDebug (e : Event) : Bool := e.entry.level = .debug

/-- The event that a resource is complete. -/
def ofResource (r : Resource) : Event :=
  .resource r.name r.annotations.length r.locals.length r.statements.length

/-- The event that a service is complete. -/
def ofService (s : Service) : Event := .service s.name s.resources.length

end Event

/-- What is reported when a statement is lowered. -/
def statementLog (s : Statement) : List Event := s.preorder.map fun t => .statement t.kind

/-- What is reported for a list of statements is reported for them one after the other. -/
theorem map_preorderAll (ss : List Statement) :
    (Statement.preorderAll ss).map (fun t => Event.statement t.kind) = ss.flatMap statementLog := by
  rw [Statement.preorderAll_eq_flatMap, List.map_flatMap]
  rfl

/-- A conditional is reported before what is in its branches. -/
theorem statementLog_ifElse (condition : Expression) (thenBody : List Statement)
    (elseBody : Option (List Statement)) (span : Span) :
    statementLog (.ifElse condition thenBody elseBody span) = .statement .ifElseStatement ::
      (thenBody.flatMap statementLog ++ (elseBody.getD []).flatMap statementLog) := by
  rw [statementLog, Statement.preorder, List.map_cons, List.map_append, map_preorderAll]
  cases elseBody with
  | none => rfl
  | some ss => rw [Statement.preorderElse, map_preorderAll, Option.getD_some, Statement.kind]

theorem statementLog_while (condition : Expression) (body : List Statement) (span : Span) :
    statementLog (.while condition body span) =
      .statement .whileStatement :: body.flatMap statementLog := by
  rw [statementLog, Statement.preorder, List.map_cons, map_preorderAll, Statement.kind]

theorem statementLog_block (statements : List Statement) (span : Span) :
    statementLog (.block statements span) =
      .statement .block :: statements.flatMap statementLog := by
  rw [statementLog, Statement.preorder, List.map_cons, map_preorderAll, Statement.kind]

variable {α β γ δ : Type}

/-- All events of the outcome have a property, and if there is a value, it stands in a relation to
the events. -/
structure Logs (P : Event → Prop) (x : Outcome α) (Q : α → List Event → Prop) : Prop where
  all : ∀ e ∈ x.events, P e
  ok : ∀ a, x.result = .ok a → Q a x.events

namespace Logs

variable {P : Event → Prop}

/-- A log is the assertion that leaves errors open. -/
theorem meets {x : Outcome α} {Q : α → List Event → Prop} (h : Logs P x Q) :
    Meets P (fun _ => True) x Q :=
  ⟨h.all, fun _ _ => trivial, h.ok⟩

theorem of_meets {x : Outcome α} {Q : α → List Event → Prop} (h : Meets P (fun _ => True) x Q) :
    Logs P x Q :=
  ⟨h.events, h.value⟩

theorem pure {Q : α → List Event → Prop} {a : α} (holds : Q a []) : Logs P (Pure.pure a) Q :=
  of_meets (Meets.pure holds)

theorem flawed {Q : α → List Event → Prop} (span : Span) (flaw : Flaw) :
    Logs P (Outcome.flawed span flaw) Q :=
  of_meets (Meets.flawed trivial)

/-- The events of the second step are appended to those of the first. -/
theorem bind {x : Outcome α} {k : α → Outcome β} {Q : α → List Event → Prop}
    {R : β → List Event → Prop} (first : Logs P x Q)
    (then_ : ∀ a es, Q a es → Logs P (k a) fun b fs => R b (es ++ fs)) : Logs P (x >>= k) R :=
  of_meets (first.meets.bind fun a _ holds => (then_ a _ holds).meets)

theorem silent {x : Outcome α} {Q : α → List Event → Prop} (h : Silent x) (holds : ∀ a, Q a []) :
    Logs P x Q :=
  ⟨by rw [h]; exact List.forall_mem_nil _, fun a _ => by rw [h]; exact holds a⟩

/-- A step that reports nothing. -/
theorem after {x : Outcome α} {k : α → Outcome β} {R : β → List Event → Prop} (first : Silent x)
    (then_ : ∀ a, Logs P (k a) R) : Logs P (x >>= k) R := by
  have quiet : Logs P x fun _ es => es = [] := silent first fun _ => rfl
  refine quiet.bind fun a es none_ => ?_
  rw [none_]
  exact then_ a

/-- What is made of a value in the end reports nothing. -/
theorem map {x : Outcome α} {g : α → β} {Q : α → List Event → Prop} {R : β → List Event → Prop}
    (first : Logs P x Q) (then_ : ∀ a es, Q a es → R (g a) es) :
    Logs P (x >>= fun a => Pure.pure (g a)) R := by
  refine first.bind fun a es holds => pure ?_
  rw [List.append_nil]
  exact then_ a es holds

/-- More may be said of a log than is needed. -/
theorem mono {x : Outcome α} {Q R : α → List Event → Prop} (h : Logs P x Q)
    (weaker : ∀ a es, Q a es → R a es) : Logs P x R :=
  ⟨h.all, fun a done => weaker a _ (h.ok a done)⟩

/-- What kind of events there are may be forgotten. -/
theorem forget {x : Outcome α} {Q : α → List Event → Prop} (h : Logs P x Q) :
    Logs (fun _ => True) x Q :=
  ⟨fun _ _ => trivial, h.ok⟩

theorem guarded {n : Node} {kind : Kind} {k : Unit → Outcome α} {Q : α → List Event → Prop}
    (then_ : n.kind = kind → Logs P (k ()) Q) : Logs P (expectKind n kind >>= k) Q :=
  of_meets (Meets.guarded trivial fun same => (then_ same).meets)

/-- An event of its own stands in front of the log of the rest. -/
theorem emit {e : Event} {k : Unit → Outcome α} {Q : α → List Event → Prop} (fits : P e)
    (then_ : Logs P (k ()) fun a es => Q a (e :: es)) : Logs P (Outcome.emit e >>= k) Q := by
  have first : Logs P (Outcome.emit e) fun _ es => es = [e] := of_meets (Meets.emit fits rfl)
  refine first.bind fun _ es one => ?_
  rw [one]
  exact then_

/-- What is seen of the log of a list is what is seen of the logs of its members. -/
theorem each (view : List Event → List δ) (append : ∀ es fs, view (es ++ fs) = view es ++ view fs)
    {F : γ → Outcome α} {w : α → List δ} {cs : List γ}
    (h : ∀ c ∈ cs, Logs P (F c) fun a es => view es = w a) :
    Logs P (each F cs) fun as es => view es = as.flatMap w := by
  have nothing := append [] []
  rw [List.append_nil, List.self_eq_append_right] at nothing
  refine of_meets (Meets.each nothing (fun a es as fs first second => ?_)
    fun c member => (h c member).meets)
  rw [append, first, second, List.flatMap_cons]

/-- A relation to the whole log that every step keeps is kept to the end. -/
theorem fold (I : α → List Event → Prop) {F : α → γ → Outcome α} {cs : List γ}
    (h : ∀ c ∈ cs, ∀ a es, I a es → Logs P (F a c) fun b fs => I b (es ++ fs)) {a : α}
    {es : List Event} (start : I a es) : Logs P (fold F a cs) fun b fs => I b (es ++ fs) :=
  of_meets (Meets.fold I _ (fun c member a es holds => (h c member a es holds).meets) start)

end Logs

def Traced (e : Event) : Prop := e.entry.level = .trace

section

variable (n : Node)

/-- Expressions report nothing, so that all there is to report is the statement itself. -/
theorem logs_assignment : Logs Traced (assignmentOf n) fun s es =>
    .statement .assignmentStatement :: es = statementLog s := by
  rw [assignmentOf]
  split
  · split
    · refine Logs.after (silent_expression _) fun target => ?_
      refine Logs.after (silent_expression _) fun value => ?_
      exact Logs.pure rfl
    · exact Logs.flawed _ _
  · exact Logs.flawed _ _

theorem logs_return : Logs Traced (returnOf n) fun s es =>
    .statement .returnStatement :: es = statementLog s := by
  refine Logs.after (Silent.each fun c _ => silent_expression c) fun values => ?_
  exact Logs.pure rfl

theorem logs_reply : Logs Traced (replyOf n) fun s es =>
    .statement .replyStatement :: es = statementLog s := by
  rw [replyOf]
  split
  · exact Logs.after (silent_expression _) fun value => Logs.pure rfl
  · exact Logs.flawed _ _

theorem logs_invocation : Logs Traced (invocationOf n) fun s es =>
    .statement .functionInvocationStatement :: es = statementLog s := by
  refine Logs.after (Silent.requiredChild n _ _) fun callee => ?_
  refine Logs.after (silent_call fun c _ d _ => silent_expression d) fun call => ?_
  exact Logs.pure rfl

end

/-- What is reported for a node, read as a wrapper, as a statement and as a block. -/
structure Mirrored (n : Node) : Prop where
  wrapped : Logs Traced (statement n) fun s es => es = statementLog s
  concrete : Logs Traced (concreteStatement n) fun s es => es = statementLog s
  block : Logs Traced (block n) fun ss es => es = ss.flatMap statementLog

section

variable {n : Node} (children : ∀ c ∈ n.children, Mirrored c)

include children

theorem mirrored_bodies : ∀ c ∈ n.childrenOf .block, Mirrored c :=
  fun c member => children c (List.mem_filter.mp member).1

/-- The branches are lowered in order, and each reports its statements. -/
theorem logs_ifElse : Logs Traced (ifElseOf n (clausesOf n.children)) fun s es =>
    .statement .ifElseStatement :: es = statementLog s := by
  have bodies := mirrored_bodies children
  rw [ifElseOf_eq]
  refine Logs.after (silent_condition n _) fun condition => ?_
  rcases blocks : n.childrenOf .block with _ | ⟨first, _ | ⟨second, _ | ⟨extra, rest⟩⟩⟩
  · exact Logs.flawed _ _
  · rw [blocks] at bodies
    refine (bodies first (by simp)).block.map fun thenBody es log => ?_
    rw [log, statementLog_ifElse, Option.getD_none, List.flatMap_nil, List.append_nil]
  · rw [blocks] at bodies
    refine (bodies first (by simp)).block.bind fun thenBody es log => ?_
    refine (bodies second (by simp)).block.map fun elseBody fs log' => ?_
    rw [log, log', statementLog_ifElse, Option.getD_some]
  · rw [blocks] at bodies
    refine (bodies first (by simp)).block.bind fun thenBody es log => ?_
    exact (bodies second (by simp)).block.bind fun elseBody fs log' => Logs.flawed _ _

theorem logs_while : Logs Traced (whileOf n (clausesOf n.children)) fun s es =>
    .statement .whileStatement :: es = statementLog s := by
  have bodies := mirrored_bodies children
  rw [whileOf_eq]
  refine Logs.after (silent_condition n _) fun condition => ?_
  rcases blocks : n.childrenOf .block with _ | ⟨first, _ | ⟨extra, rest⟩⟩
  · exact Logs.flawed _ _
  · rw [blocks] at bodies
    refine (bodies first (by simp)).block.map fun body es log => ?_
    rw [log, statementLog_while]
  · rw [blocks] at bodies
    exact (bodies first (by simp)).block.bind fun body es log => Logs.flawed _ _

theorem logs_block_step : Logs Traced (block n) fun ss es => es = ss.flatMap statementLog := by
  rw [block_eq_each]
  refine Logs.guarded fun _ => Logs.each id (fun _ _ => rfl) fun c member => ?_
  exact (children c (Node.mem_children_of_significant member)).wrapped

/-- A wrapper reports nothing of its own. -/
theorem logs_wrapped_step : Logs Traced (statement n) fun s es => es = statementLog s := by
  rw [statement_eq_concrete]
  refine Logs.guarded fun _ => ?_
  rcases members : n.significant with _ | ⟨only, _ | ⟨extra, rest⟩⟩
  · exact Logs.flawed _ _
  · have member : only ∈ n.significant := members ▸ List.mem_cons_self
    exact (children only (Node.mem_children_of_significant member)).concrete
  · exact Logs.flawed _ _

theorem logs_concrete_step :
    Logs Traced (concreteStatement n) fun s es => es = statementLog s := by
  rw [concreteStatement_eq, concreteOf]
  refine Logs.emit rfl ?_
  cases kind : n.kind with
  | assignmentStatement => exact logs_assignment n
  | returnStatement => exact logs_return n
  | replyStatement => exact logs_reply n
  | functionInvocationStatement => exact logs_invocation n
  | ifElseStatement => exact logs_ifElse children
  | whileStatement => exact logs_while children
  | block =>
    simp only [← block_eq]
    refine (logs_block_step children).map fun statements es log => ?_
    rw [log, statementLog_block]
  | _ => exact Logs.flawed _ _

end

/-- Whatever is made of statements is reported as it is, in preorder. -/
theorem mirrored (n : Node) : Mirrored n := by
  induction n using Node.induction with
  | step n children =>
    exact ⟨logs_wrapped_step children, logs_concrete_step children, logs_block_step children⟩

theorem silent_attribute (n : Node) : Silent (annotationAttribute n) := by
  refine (Silent.nameOf n _).bind fun key => ?_
  refine (Silent.requiredChild n _ _).bind fun value => ?_
  exact (Silent.literal value _).made

theorem logs_addAnnotated (a : Annotation) (child : Node) :
    Logs Traced (Lowering.addToAnnotation a child) fun b es => es = [] ∧ b.name = a.name := by
  rw [Lowering.addToAnnotation]
  split
  · exact Logs.pure ⟨rfl, rfl⟩
  · exact Logs.after (Silent.literal child _) fun value => Logs.pure ⟨rfl, rfl⟩
  · exact Logs.after (silent_attribute child) fun new => Logs.pure ⟨rfl, rfl⟩
  · exact Logs.flawed _ _

/-- An annotation reports its name, once it is complete. -/
theorem logs_annotated (n : Node) :
    Logs Traced (Lowering.annotation n) fun a es => es = [Event.annotation a.name] := by
  rw [Lowering.annotation]
  refine Logs.guarded fun _ => Logs.after (Silent.nameOf n _) fun raw => ?_
  dsimp only
  split
  · exact Logs.flawed _ _
  · refine Logs.emit rfl ?_
    have silent : Logs Traced (fold addToAnnotation ⟨withoutAt raw, none, [], n.span⟩ n.significant)
        fun b es => es = [] ∧ b.name = withoutAt raw := by
      refine Logs.fold (fun (b : Annotation) es => es = [] ∧ b.name = withoutAt raw) ?_ ⟨rfl, rfl⟩
      rintro child - a es ⟨rfl, named⟩
      refine (logs_addAnnotated a child).mono fun b fs kept => ?_
      exact ⟨kept.1, kept.2.trans named⟩
    refine silent.mono fun b es kept => ?_
    rw [kept.1, kept.2]

/-- A declaration reports its name and the name of its type. -/
theorem logs_declaration (n : Node) :
    Logs Traced (declaration n) fun v es => es = [.declaration v.name v.type.name] := by
  rw [declaration]
  refine Logs.guarded fun _ => Logs.after (Silent.requiredChild n _ _) fun typeNode => ?_
  refine Logs.after (Silent.orFlaw _ _ _) fun type => ?_
  refine Logs.after (Silent.nameOf n _) fun name => ?_
  exact Logs.emit rfl (Logs.pure rfl)

/-- A log shows the annotations, local variables and statements of a resource, each in order. -/
structure Shows (log : List Event) (r : Resource) : Prop where
  annotations : log.filterMap Event.annotation? = r.annotations.map (·.name)
  locals : log.filterMap Event.declaration? = r.locals.map fun v => (v.name, v.type.name)
  statements : log.filterMap Event.statement? =
    (r.statements.flatMap (·.preorder)).map (·.kind)

namespace Shows

variable {log : List Event} {r : Resource}

theorem empty (name : String) (span : Span) : Shows [] (Resource.empty name span) :=
  ⟨rfl, rfl, rfl⟩

/-- A log that shows a resource shows it with one more annotation. -/
theorem withAnnotation (h : Shows log r) (a : Annotation) :
    Shows (log ++ [Event.annotation a.name]) (r.withAnnotation a) := by
  constructor
  · rw [List.filterMap_append, h.annotations, Resource.withAnnotation, List.map_append]
    rfl
  · rw [List.filterMap_append, h.locals]
    exact List.append_nil _
  · rw [List.filterMap_append, h.statements]
    exact List.append_nil _

theorem withVariable (h : Shows log r) (v : Variable) :
    Shows (log ++ [.declaration v.name v.type.name]) (r.withVariable v) := by
  constructor
  · rw [List.filterMap_append, h.annotations]
    exact List.append_nil _
  · rw [List.filterMap_append, h.locals, Resource.withVariable, List.map_append]
    rfl
  · rw [List.filterMap_append, h.statements]
    exact List.append_nil _

/-- A statement is reported together with all the statements in it. -/
theorem withStatement (h : Shows log r) (s : Statement) :
    Shows (log ++ statementLog s) (r.withStatement s) := by
  have others {β : Type} {f : Event → Option β} (none_ : ∀ kind, f (.statement kind) = none) :
      (statementLog s).filterMap f = [] := by
    rw [statementLog, List.filterMap_map, List.filterMap_eq_nil_iff]
    exact fun t _ => none_ t.kind
  have own : (statementLog s).filterMap Event.statement? = s.preorder.map (·.kind) := by
    rw [statementLog, List.filterMap_map, ← List.filterMap_eq_map]
    rfl
  constructor
  · rw [List.filterMap_append, h.annotations, others fun _ => rfl]
    exact List.append_nil _
  · rw [List.filterMap_append, h.locals, others fun _ => rfl]
    exact List.append_nil _
  · rw [List.filterMap_append, h.statements, own, Resource.withStatement, List.flatMap_append,
      List.map_append, List.flatMap_singleton]

end Shows

/-- One child of a body more, shown at the end of the log. -/
theorem logs_addToBody {r : Resource} {log : List Event} (shown : Shows log r) (child : Node) :
    Logs Traced (addToBody r child) fun r' es => Shows (log ++ es) r' := by
  rw [addToBody]
  split
  · split
    · refine (logs_declaration child).map fun v es one => ?_
      rw [one]
      exact shown.withVariable v
    · exact Logs.flawed _ _
  · refine (mirrored child).wrapped.map fun s es all => ?_
    rw [all]
    exact shown.withStatement s
  · exact Logs.flawed _ _

/-- One child of a resource more, shown at the end of the log. -/
theorem logs_addToResource {p : PartialResource} {log : List Event} (shown : Shows log p.resource)
    (child : Node) :
    Logs Traced (addToResource p child) fun p' es => Shows (log ++ es) p'.resource := by
  rw [addToResource]
  split
  · refine (logs_annotated child).map fun a es one => ?_
    rw [one]
    exact shown.withAnnotation a
  · split
    · exact Logs.flawed _ _
    · refine Logs.pure ?_
      rw [List.append_nil]
      exact shown
  · split
    · exact Logs.flawed _ _
    · have filled : Logs Traced (fold addToBody p.resource child.significant)
          fun r es => Shows (log ++ es) r :=
        Logs.fold (fun r es => Shows es r) (fun c _ r es shown => logs_addToBody shown c) shown
      exact filled.map fun r es shown => shown
  · exact Logs.flawed _ _

/-- Up to the report that a resource is complete, its log holds traces of its parts. -/
theorem resource_eq_parts (n : Node) :
    ∃ parts : Outcome PartialResource,
      Logs Traced parts (fun p es => Shows es p.resource) ∧
      resource n = parts >>= fun p : PartialResource =>
        if p.bodied then do
          emit (.ofResource p.resource)
          pure p.resource
        else flawed n.span (.missing .resource .functionBody) := by
  refine ⟨do
    expectKind n .resourceDefinition
    let name ← nameOf n .resource
    fold addToResource ⟨Resource.empty name n.span, false, false⟩ n.significant, ?_, ?_⟩
  · refine Logs.guarded fun _ => Logs.after (Silent.nameOf n _) fun name => ?_
    have start : Shows [] (PartialResource.mk (Resource.empty name n.span) false false).resource :=
      Shows.empty name n.span
    exact Logs.fold (fun (p : PartialResource) es => Shows es p.resource)
      (fun c _ p es shown => logs_addToResource shown c) start
  · rw [resource]
    simp only [bind_assoc]
    rfl

/-- The report that a resource is complete is no part of it. -/
theorem Shows.completed {log : List Event} {r : Resource} (h : Shows log r) :
    Shows (log ++ [.ofResource r]) r := by
  constructor
  · rw [List.filterMap_append, h.annotations]
    exact List.append_nil _
  · rw [List.filterMap_append, h.locals]
    exact List.append_nil _
  · rw [List.filterMap_append, h.statements]
    exact List.append_nil _

theorem filter_isDebug_of_traced {log : List Event} (traced : ∀ e ∈ log, Traced e) :
    log.filter Event.isDebug = [] := by
  rw [List.filter_eq_nil_iff]
  intro e member
  rw [Event.isDebug, traced e member]
  decide

/-- The log of a complete resource is that of its parts and then the report. -/
theorem resource_completed {n : Node} {r : Resource} (made : (resource n).result = .ok r) :
    ∃ parts, (resource n).events = parts ++ [.ofResource r] ∧ Shows parts r ∧
      ∀ e ∈ parts, Traced e := by
  obtain ⟨parts, logs, split⟩ := resource_eq_parts n
  rw [split] at made ⊢
  cases read : parts.result with
  | error e =>
    rw [bind_of_error _ read] at made
    cases made
  | ok p =>
    rw [bind_of_ok _ read] at made ⊢
    by_cases bodied : p.bodied = true
    · simp only [if_pos bodied] at made ⊢
      cases made
      exact ⟨parts.events, rfl, logs.ok p read, logs.all⟩
    · simp only [if_neg bodied] at made
      cases made

/-- A resource that fails leaves only traces of its parts. -/
theorem resource_failed {n : Node} {e : Error} (failed : (resource n).result = .error e) :
    ∀ event ∈ (resource n).events, Traced event := by
  obtain ⟨parts, logs, split⟩ := resource_eq_parts n
  rw [split] at failed ⊢
  cases read : parts.result with
  | error e =>
    rw [bind_of_error _ read]
    exact logs.all
  | ok p =>
    rw [bind_of_ok _ read] at failed ⊢
    by_cases bodied : p.bodied = true
    · simp only [if_pos bodied] at failed
      cases failed
    · simp only [if_neg bodied]
      exact List.forall_mem_append.mpr ⟨logs.all, List.forall_mem_nil _⟩

/-- What is left of a log when traces are dropped. -/
def debugged (log : List Event) : List Event := log.filter Event.isDebug

theorem logs_resource (n : Node) :
    Logs (fun _ => True) (resource n) fun r es => debugged es = [.ofResource r] where
  all _ _ := trivial
  ok r made := by
    obtain ⟨parts, events, -, traced⟩ := resource_completed made
    rw [debugged, events, List.filter_append, filter_isDebug_of_traced traced]
    rfl

theorem logs_addToService {s : Service} {log : List Event}
    (shown : debugged log = s.resources.map .ofResource) (child : Node) :
    Logs (fun _ => True) (addToService s child) fun s' es =>
      debugged (log ++ es) = s'.resources.map .ofResource := by
  rw [addToService]
  split
  · refine (logs_annotated child).forget.map fun a es one => ?_
    rw [one, debugged, List.filter_append]
    exact (List.append_nil _).trans shown
  · refine (logs_resource child).map fun r es one => ?_
    rw [debugged] at shown one
    rw [debugged, List.filter_append, List.map_append, shown, one]
    rfl
  · refine Logs.pure ?_
    rw [List.append_nil]
    exact shown
  · exact Logs.flawed _ _

/-- The reports on a service: one for each of its resources, then its own. -/
def serviceLog (s : Service) : List Event := s.resources.map .ofResource ++ [.ofService s]

/-- A service reports its resources and then itself. -/
theorem logs_service (n : Node) :
    Logs (fun _ => True) (service n) fun s es => debugged es = serviceLog s := by
  rw [service]
  refine Logs.guarded fun _ => Logs.after (Silent.nameOf n _) fun name => ?_
  have filled : Logs (fun _ => True) (fold addToService ⟨name, [], [], n.span⟩ n.significant)
      fun s es => debugged es = s.resources.map .ofResource := by
    have start : debugged [] = (Service.mk name [] [] n.span).resources.map .ofResource := rfl
    exact Logs.fold (fun (s : Service) es => debugged es = s.resources.map .ofResource)
      (fun c _ s es shown => logs_addToService shown c) start
  refine filled.bind fun s es shown => Logs.emit trivial (Logs.pure ?_)
  rw [debugged, List.filter_append, serviceLog]
  exact congrArg (· ++ [.ofService s]) shown

theorem logs_topLevel (n : Node) :
    Logs (fun _ => True) (topLevel n) fun s es => debugged es = serviceLog s := by
  rw [topLevel]
  split
  · exact logs_service n
  · exact Logs.flawed _ _

/-- A tree reports its services one after the other. -/
theorem logs_tree (t : Syntax.Tree) :
    Logs (fun _ => True) (tree t) fun a es => debugged es = a.services.flatMap serviceLog := by
  rw [tree]
  split
  · refine Logs.guarded fun _ => ?_
    have all := Logs.each debugged (fun es fs => List.filter_append es fs)
      fun c (_ : c ∈ t.root.significant) => logs_topLevel c
    exact all.map fun services es log => log
  · exact Logs.emit trivial ⟨fun _ _ => trivial, fun a made => by cases made⟩

/-- The log of a success mirrors the result. A statement reports its statements in preorder; the log
of a resource shows its annotations, local variables and statements in order and ends with the only
report above traces; a tree reports the resources of each service and then the service. The log of a
resource that fails holds nothing but traces. -/
theorem log_mirrors_result :
    (∀ n s, (statement n).result = .ok s →
      (statement n).events = s.preorder.map fun t => .statement t.kind) ∧
    (∀ n r, (resource n).result = .ok r →
      let log := (resource n).events
      let complete := Event.resource r.name r.annotations.length r.locals.length r.statements.length
      log.filterMap Event.annotation? = r.annotations.map (·.name) ∧
      log.filterMap Event.declaration? = r.locals.map (fun v => (v.name, v.type.name)) ∧
      log.filterMap Event.statement? = (r.statements.flatMap (·.preorder)).map (·.kind) ∧
      log.getLast? = some complete ∧ log.filter Event.isDebug = [complete]) ∧
    (∀ t a, (tree t).result = .ok a →
      (tree t).events.filter Event.isDebug = a.services.flatMap fun s =>
        s.resources.map Event.ofResource ++ [.service s.name s.resources.length]) ∧
    ∀ n e, (resource n).result = .error e →
      ∀ event ∈ (resource n).events, event.entry.level = .trace := by
  refine ⟨fun n => (mirrored n).wrapped.ok, ?_, fun t => (logs_tree t).ok, ?_⟩
  · intro n r made log complete
    obtain ⟨parts, events, shown, -⟩ := resource_completed made
    have all : Shows log r := by
      rw [show log = parts ++ [.ofResource r] from events]
      exact shown.completed
    refine ⟨all.annotations, all.locals, all.statements, ?_, (logs_resource n).ok r made⟩
    rw [show log = parts ++ [.ofResource r] from events]
    exact List.getLast?_concat
  · intro n e failed
    exact resource_failed failed

/-- A conditional whose second branch holds a loop and then another statement. -/
def branchingNode : Node :=
  .branch .statement .zero
    [.branch .ifElseStatement .zero
      [.leaf .booleanLiteral .zero "true",
        .branch .block .zero
          [.branch .statement .zero [.branch .replyStatement .zero [.bare .nullLiteral .zero]]],
        .branch .block .zero
          [.branch .statement .zero
            [.branch .whileStatement .zero
              [.leaf .booleanLiteral .zero "false", .bare .block .zero]],
            .branch .statement .zero [.bare .returnStatement .zero]]]]

def branchingStatement : Statement :=
  .ifElse (.boolean true) [.reply .null .zero]
    (some [.while (.boolean false) [] .zero, .return [] .zero]) .zero

def getNode : Node := .branch Kind.annotation .zero [.leaf .identifier .zero "@GET"]

/-- A resource with an annotation behind its body. -/
def listNode : Node :=
  .branch .resourceDefinition .zero
    [.leaf .identifier .zero "list",
      .branch .functionBody .zero
        [.branch .variableDeclaration .zero
          [.leaf .typeName .zero "int[]", .leaf .identifier .zero "ids"],
        branchingNode],
      getNode]

def listResource : Resource :=
  ⟨"list", [⟨"GET", none, [], .zero⟩], [⟨"ids", ⟨"int", 1⟩, .zero⟩], [branchingStatement], .zero⟩

def ordersTree : Syntax.Tree where
  root := .branch .compilationUnit .zero
    [.branch .serviceDefinition .zero [.leaf .identifier .zero "Orders", listNode, getNode]]
  errors := []

/-- The same resource without a body. -/
def bodilessNode : Node :=
  .branch .resourceDefinition .zero [.leaf .identifier .zero "list", getNode]

theorem ordersTree_log :
    let kinds : List Kind := [.ifElseStatement, .replyStatement, .whileStatement, .returnStatement]
    let log := (resource listNode).events
    (statement branchingNode).result = .ok branchingStatement ∧
    (statement branchingNode).events = kinds.map .statement ∧
    (resource listNode).result = .ok listResource ∧
    log.filterMap Event.annotation? = ["GET"] ∧
    log.filterMap Event.declaration? = [("ids", "int")] ∧
    log.filterMap Event.statement? = kinds ∧
    log.getLast? = some (.resource "list" 1 1 1) ∧
    log.filter Event.isDebug = [.resource "list" 1 1 1] ∧
    (tree ordersTree).events.filter Event.isDebug =
      [.resource "list" 1 1 1, .service "Orders" 1] ∧
    (resource bodilessNode).result =
      .error (.malformed (.missing .resource .functionBody) .zero) ∧
    ∀ event ∈ (resource bodilessNode).events, event.entry.level = .trace := by
  intro kinds log
  obtain ⟨statements, resources, trees, failures⟩ := log_mirrors_result
  have made : (resource listNode).result = .ok listResource := rfl
  have failed : (resource bodilessNode).result =
      .error (.malformed (.missing .resource .functionBody) .zero) := rfl
  have whole : (tree ordersTree).result =
      .ok ⟨[⟨"Orders", [⟨"GET", none, [], .zero⟩], [listResource], .zero⟩]⟩ := rfl
  obtain ⟨annotations, locals, shown, last, complete⟩ := resources listNode listResource made
  exact ⟨rfl, statements branchingNode branchingStatement rfl, made, annotations, locals, shown,
    last, complete, trees ordersTree _ whole, failed, failures bodilessNode _ failed⟩

end Lowering

end ServiceLang
