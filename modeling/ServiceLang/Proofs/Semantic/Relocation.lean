import ServiceLang.Lowering.Outcome
import ServiceLang.Semantic.Tree

/-!
# Moving spans

Semantic trees, errors and outcomes with a function applied to each of their spans. Everything else
stays: names, literals, the order of sequences, the wording of errors and the events. Moving no span
changes nothing.
-/

namespace ServiceLang

open Semantic

namespace Semantic

mutual

def Expression.relocate (f : Span → Span) : Expression → Expression
  | .integer value => .integer value
  | .float value => .float value
  | .string value => .string value
  | .boolean value => .boolean value
  | .null => .null
  | .variable name span => .variable name (f span)
  | .arrayElement name index span => .arrayElement name (index.relocate f) (f span)
  | .invocation package name arguments span =>
    .invocation package name (Expression.relocateAll f arguments) (f span)
  | .binary op left right span => .binary op (left.relocate f) (right.relocate f) (f span)
  | .unary op operand span => .unary op (operand.relocate f) (f span)

def Expression.relocateAll (f : Span → Span) : List Expression → List Expression
  | [] => []
  | e :: es => e.relocate f :: Expression.relocateAll f es

end

/-- Arguments are moved one by one. -/
theorem Expression.relocateAll_eq_map (f : Span → Span) (es : List Expression) :
    Expression.relocateAll f es = es.map (·.relocate f) := by
  induction es with
  | nil => rfl
  | cons e es ih => rw [Expression.relocateAll, ih, List.map_cons]

def Call.relocate (f : Span → Span) (c : Call) : Call :=
  { c with arguments := c.arguments.map (·.relocate f) }

mutual

def Statement.relocate (f : Span → Span) : Statement → Statement
  | .assignment target value span =>
    .assignment (target.relocate f) (value.relocate f) (f span)
  | .return values span => .return (values.map (·.relocate f)) (f span)
  | .reply value span => .reply (value.relocate f) (f span)
  | .invocation call span => .invocation (call.relocate f) (f span)
  | .ifElse condition thenBody elseBody span =>
    .ifElse (condition.relocate f) (Statement.relocateAll f thenBody)
      (Statement.relocateElse f elseBody) (f span)
  | .while condition body span =>
    .while (condition.relocate f) (Statement.relocateAll f body) (f span)
  | .block statements span => .block (Statement.relocateAll f statements) (f span)

def Statement.relocateAll (f : Span → Span) : List Statement → List Statement
  | [] => []
  | s :: ss => s.relocate f :: Statement.relocateAll f ss

def Statement.relocateElse (f : Span → Span) : Option (List Statement) → Option (List Statement)
  | none => none
  | some ss => some (Statement.relocateAll f ss)

end

theorem Statement.relocateAll_eq_map (f : Span → Span) (ss : List Statement) :
    Statement.relocateAll f ss = ss.map (·.relocate f) := by
  induction ss with
  | nil => rfl
  | cons s ss ih => rw [Statement.relocateAll, ih, List.map_cons]

def Annotation.relocate (f : Span → Span) (a : Annotation) : Annotation :=
  { a with span := f a.span }

def Variable.relocate (f : Span → Span) (v : Variable) : Variable := { v with span := f v.span }

def Resource.relocate (f : Span → Span) (r : Resource) : Resource where
  name := r.name
  annotations := r.annotations.map (·.relocate f)
  locals := r.locals.map (·.relocate f)
  statements := r.statements.map (·.relocate f)
  span := f r.span

def Service.relocate (f : Span → Span) (s : Service) : Service where
  name := s.name
  annotations := s.annotations.map (·.relocate f)
  resources := s.resources.map (·.relocate f)
  span := f s.span

def Tree.relocate (f : Span → Span) (t : Tree) : Tree := ⟨t.services.map (·.relocate f)⟩

mutual

/-- Moving nothing changes nothing. The recursion follows the expression and its lists of
arguments. -/
theorem Expression.relocate_id : ∀ e : Expression, e.relocate id = e
  | .integer _ | .float _ | .string _ | .boolean _ | .null | .variable _ _ => rfl
  | .arrayElement name index span => by
    rw [Expression.relocate, index.relocate_id, id]
  | .invocation package name arguments span => by
    rw [Expression.relocate, Expression.relocateAll_id arguments, id]
  | .binary op left right span => by
    rw [Expression.relocate, left.relocate_id, right.relocate_id, id]
  | .unary op operand span => by
    rw [Expression.relocate, operand.relocate_id, id]

theorem Expression.relocateAll_id : ∀ es : List Expression, Expression.relocateAll id es = es
  | [] => rfl
  | e :: es => by rw [Expression.relocateAll, e.relocate_id, Expression.relocateAll_id es]

end

theorem Expression.map_relocate_id (es : List Expression) : es.map (·.relocate id) = es := by
  rw [← Expression.relocateAll_eq_map, Expression.relocateAll_id]

theorem Call.relocate_id (c : Call) : c.relocate id = c := by
  rw [Call.relocate, Expression.map_relocate_id]

mutual

/-- Moving nothing changes nothing. The recursion follows the statement, its bodies and its else
branch. -/
theorem Statement.relocate_id : ∀ s : Statement, s.relocate id = s
  | .assignment target value span => by
    rw [Statement.relocate, target.relocate_id, value.relocate_id, id]
  | .return values span => by
    rw [Statement.relocate, Expression.map_relocate_id, id]
  | .reply value span => by
    rw [Statement.relocate, value.relocate_id, id]
  | .invocation call span => by
    rw [Statement.relocate, call.relocate_id, id]
  | .ifElse condition thenBody elseBody span => by
    rw [Statement.relocate, condition.relocate_id, Statement.relocateAll_id thenBody,
      Statement.relocateElse_id elseBody, id]
  | .while condition body span => by
    rw [Statement.relocate, condition.relocate_id, Statement.relocateAll_id body, id]
  | .block statements span => by
    rw [Statement.relocate, Statement.relocateAll_id statements, id]

theorem Statement.relocateAll_id : ∀ ss : List Statement, Statement.relocateAll id ss = ss
  | [] => rfl
  | s :: ss => by rw [Statement.relocateAll, s.relocate_id, Statement.relocateAll_id ss]

theorem Statement.relocateElse_id :
    ∀ ss : Option (List Statement), Statement.relocateElse id ss = ss
  | none => rfl
  | some ss => by rw [Statement.relocateElse, Statement.relocateAll_id ss]

end

theorem Resource.relocate_id (r : Resource) : r.relocate id = r := by
  have statements : r.statements.map (·.relocate id) = r.statements := by
    rw [← Statement.relocateAll_eq_map, Statement.relocateAll_id]
  have annotations : r.annotations.map (·.relocate id) = r.annotations := List.map_id _
  have locals : r.locals.map (·.relocate id) = r.locals := List.map_id _
  rw [Resource.relocate, statements, annotations, locals, id]

theorem Service.relocate_id (s : Service) : s.relocate id = s := by
  have resources : s.resources.map (·.relocate id) = s.resources := by
    rw [funext Resource.relocate_id]
    exact List.map_id _
  have annotations : s.annotations.map (·.relocate id) = s.annotations := List.map_id _
  rw [Service.relocate, resources, annotations, id]

/-- A semantic tree whose spans stay where they are is the same tree. -/
theorem Tree.relocate_id (t : Tree) : t.relocate id = t := by
  rw [Tree.relocate, funext Service.relocate_id]
  exact congrArg Tree.mk (List.map_id _)

end Semantic

def Diagnostic.relocate (f : Span → Span) (d : Diagnostic) : Diagnostic :=
  { d with span := f d.span }

namespace Lowering

def Error.relocate (f : Span → Span) : Error → Error
  | .syntaxErrors diagnostics => .syntaxErrors (diagnostics.map (·.relocate f))
  | .malformed flaw span => .malformed flaw (f span)
  | .invalidLiteral kind text span => .invalidLiteral kind text (f span)

theorem Error.relocate_id (e : Error) : e.relocate id = e := by
  cases e with
  | syntaxErrors diagnostics => exact congrArg Error.syntaxErrors (List.map_id _)
  | malformed flaw span => rfl
  | invalidLiteral kind text span => rfl

namespace Outcome

variable {α β γ δ : Type}

/-- The outcome with the spans of an error moved and the value changed as given. -/
def transport (f : Span → Span) (g : α → β) (x : Outcome α) : Outcome β where
  events := x.events
  result :=
    match x.result with
    | .ok a => .ok (g a)
    | .error e => .error (e.relocate f)

/-- An outcome transported by two identities is the same outcome. -/
theorem transport_id {g : α → α} (h : ∀ a, g a = a) (x : Outcome α) : transport id g x = x := by
  rcases x with ⟨events, e | a⟩
  · exact congrArg (Outcome.mk events <| .error ·) (Error.relocate_id e)
  · exact congrArg (Outcome.mk events <| .ok ·) (h a)

theorem transport_pure (f : Span → Span) (g : α → β) (a : α) :
    transport f g (pure a) = pure (g a) := rfl

theorem transport_flawed (f : Span → Span) (g : α → β) (span : Span) (flaw : Flaw) :
    transport f g (flawed span flaw) = flawed (f span) flaw := rfl

/-- Transport through the first step of a sequence: its value is changed, then the rest follows. -/
theorem bind_transport_of_ok {f : Span → Span} {g : α → β} {h : γ → δ} {x : Outcome α}
    {x' : Outcome β} {k : α → Outcome γ} {k' : β → Outcome δ} (hx : x' = transport f g x)
    (hk : ∀ a, x.result = .ok a → k' (g a) = transport f h (k a)) :
    (x' >>= k') = transport f h (x >>= k) := by
  subst hx
  rcases x with ⟨events, e | a⟩
  · rfl
  · change Outcome.mk (events ++ (k' (g a)).events) (k' (g a)).result = _
    rw [hk a rfl]
    rfl

/-- Transport through the first step of a sequence, whatever value it has. -/
theorem bind_transport {f : Span → Span} {g : α → β} {h : γ → δ} {x : Outcome α} {x' : Outcome β}
    {k : α → Outcome γ} {k' : β → Outcome δ} (hx : x' = transport f g x)
    (hk : ∀ a, k' (g a) = transport f h (k a)) : (x' >>= k') = transport f h (x >>= k) :=
  bind_transport_of_ok hx fun a _ => hk a

/-- Transport through a list: each member is read alike, so the first failure is at the same
place. -/
theorem each_transport {f : Span → Span} {g : α → β} {F : γ → Outcome α} {F' : δ → Outcome β}
    {φ : γ → δ} {cs : List γ} (h : ∀ c ∈ cs, F' (φ c) = transport f g (F c)) :
    each F' (cs.map φ) = transport f (List.map g) (each F cs) := by
  induction cs with
  | nil => rfl
  | cons c cs ih =>
    have rest := ih fun d hd => h d (List.mem_cons_of_mem c hd)
    refine bind_transport (h c List.mem_cons_self) fun a => ?_
    exact bind_transport rest fun as => rfl

/-- Transport through a fold, whose value so far is carried along. -/
theorem fold_transport {f : Span → Span} {g : α → β} {F : α → γ → Outcome α}
    {F' : β → δ → Outcome β} {φ : γ → δ} {cs : List γ}
    (h : ∀ c ∈ cs, ∀ a, F' (g a) (φ c) = transport f g (F a c)) (a : α) :
    fold F' (g a) (cs.map φ) = transport f g (fold F a cs) := by
  induction cs generalizing a with
  | nil => rfl
  | cons c cs ih =>
    refine bind_transport (h c List.mem_cons_self a) fun b => ?_
    exact ih (fun d hd => h d (List.mem_cons_of_mem c hd)) b

end Outcome

end Lowering

end ServiceLang
