import Mathlib.Data.List.Forall2
import ServiceLang.Proofs.Lowering.Silence

/-!
# Sequences of children

Blocks, returned values, arguments, the members of a service and the services of a tree are lowered
child by child. All of these are one traversal: the children are taken in source order, each gives
one result, and the first one that is refused ends the work with its error. What stands after it is
never looked at, so that it shows neither in the error nor in the log.
-/

namespace ServiceLang.Lowering

open Syntax (Kind Node)
open Semantic
open Outcome
open List (Forall₂)

variable {α β γ : Type}

def Accepted (x : Outcome α) : Prop := ∃ a, x.result = .ok a

/-- The values are the results for the members of the list, one for each and in their order. -/
def Results (lower : γ → Outcome α) (cs : List γ) (as : List α) : Prop :=
  Forall₂ (fun c a => (lower c).result = .ok a) cs as

/-- The member is refused with the error, and all before it are accepted. -/
structure FirstRefused (lower : γ → Outcome α) (front : List γ) (c : γ) (e : Error) : Prop where
  before : ∀ d ∈ front, Accepted (lower d)
  refused : (lower c).result = .error e

/-! ### Lists -/

theorem not_accepted {x : Outcome α} (h : ¬ Accepted x) : ∃ e, x.result = .error e := by
  cases result : x.result with
  | error e => exact ⟨e, rfl⟩
  | ok a => exact absurd ⟨a, result⟩ h

/-- There are results for a list exactly when each of its members is accepted. -/
theorem results_iff_accepted {lower : γ → Outcome α} {cs : List γ} :
    (∃ as, Results lower cs as) ↔ ∀ c ∈ cs, Accepted (lower c) := by
  constructor
  · rintro ⟨as, results⟩
    induction results with
    | nil => exact List.forall_mem_nil _
    | cons first _ ih => exact List.forall_mem_cons.mpr ⟨⟨_, first⟩, ih⟩
  · intro all
    induction cs with
    | nil => exact ⟨[], .nil⟩
    | cons c cs ih =>
      obtain ⟨⟨a, first⟩, rest⟩ := List.forall_mem_cons.mp all
      obtain ⟨as, results⟩ := ih rest
      exact ⟨a :: as, .cons first results⟩

/-- Either all members of a list are accepted or one of them is the first that is not. -/
theorem all_accepted_or_firstRefused (lower : γ → Outcome α) (cs : List γ) :
    (∀ c ∈ cs, Accepted (lower c)) ∨
      ∃ front c back e, cs = front ++ c :: back ∧ FirstRefused lower front c e := by
  induction cs with
  | nil => exact .inl (List.forall_mem_nil _)
  | cons c cs ih =>
    by_cases first : Accepted (lower c)
    · rcases ih with all | ⟨front, d, back, e, rfl, refused⟩
      · exact .inl (List.forall_mem_cons.mpr ⟨first, all⟩)
      · exact .inr ⟨c :: front, d, back, e, rfl,
          List.forall_mem_cons.mpr ⟨first, refused.before⟩, refused.refused⟩
    · obtain ⟨e, refused⟩ := not_accepted first
      exact .inr ⟨[], c, cs, e, rfl, List.forall_mem_nil _, refused⟩

/-- If all members are accepted, the traversal comes to their results and reports all their
events. -/
theorem each_of_results {lower : γ → Outcome α} {cs : List γ} {as : List α}
    (results : Results lower cs as) :
    each lower cs = ⟨cs.flatMap fun c => (lower c).events, .ok as⟩ := by
  induction results with
  | nil => rfl
  | @cons c a cs as first _ ih =>
    rw [each, bind_of_ok _ first, ih]
    change Outcome.mk ((lower c).events ++ (cs.flatMap (fun c => (lower c).events) ++ [])) _ = _
    rw [List.append_nil, List.flatMap_cons]
    rfl

/-- The first member to be refused ends the traversal, with its error and with the events up to it.
What stands behind it plays no part. -/
theorem each_of_firstRefused {lower : γ → Outcome α} {front : List γ} {c : γ} {e : Error}
    (first : FirstRefused lower front c e) (back : List γ) :
    each lower (front ++ c :: back) =
      ⟨(front ++ [c]).flatMap fun d => (lower d).events, .error e⟩ := by
  obtain ⟨before, refused⟩ := first
  induction front with
  | nil =>
    change each lower (c :: back) = _
    rw [each, bind_of_error _ refused]
    exact congrArg (Outcome.mk · _) (List.append_nil _).symm
  | cons d front ih =>
    obtain ⟨⟨a, accepted⟩, rest⟩ := List.forall_mem_cons.mp before
    change each lower (d :: (front ++ c :: back)) = _
    rw [each, bind_of_ok _ accepted, ih rest]
    rfl

/-- The traversal succeeds exactly with the results of its members. -/
theorem each_ok_iff {lower : γ → Outcome α} {cs : List γ} {as : List α} :
    (each lower cs).result = .ok as ↔ Results lower cs as := by
  constructor
  · intro made
    rcases all_accepted_or_firstRefused lower cs with all | ⟨front, c, back, e, rfl, first⟩
    · obtain ⟨bs, results⟩ := results_iff_accepted.mpr all
      rw [each_of_results results] at made
      cases made
      exact results
    · rw [each_of_firstRefused first] at made
      cases made
  · intro results
    rw [each_of_results results]

theorem each_append (lower : γ → Outcome α) (cs ds : List γ) :
    each lower (cs ++ ds) = (do
      let as ← each lower cs
      let bs ← each lower ds
      pure (as ++ bs)) := by
  induction cs with
  | nil => exact (bind_pure _).symm
  | cons c cs ih =>
    change (lower c >>= fun a => each lower (cs ++ ds) >>= fun as => pure (a :: as)) = _
    rw [ih, each]
    simp only [bind_assoc, pure_bind, List.cons_append]

/-! ### Nodes -/

/-- The nodes of the sort are lowered by handing their members to `lower` one after the other. The
outcome for the first that is refused is the outcome of all, after what was reported before, and it
is the same for all nodes of the sort with these members up to there. -/
structure StopsAtFirst (run : Node → Outcome β) (sort : Node → Prop) (opening : List Event)
    (lower : Node → Outcome α) (members : Node → List Node) : Prop where
  refused : ∀ n, sort n → ∀ front c back e, members n = front ++ c :: back →
    FirstRefused lower front c e →
    run n = ⟨opening ++ (front ++ [c]).flatMap fun d => (lower d).events, .error e⟩
  settled : ∀ n n', sort n → sort n' → ∀ front c back back' e, members n = front ++ c :: back →
    members n' = front ++ c :: back' → FirstRefused lower front c e → run n' = run n

/-- If moreover no member is refused, the node becomes what is made of their results. -/
structure TakesInOrder (run : Node → Outcome β) (sort : Node → Prop) (opening : List Event)
    (lower : Node → Outcome α) (members : Node → List Node) (made : Node → List α → β) : Prop
    extends StopsAtFirst run sort opening lower members where
  accepted : ∀ n, sort n → ∀ b,
    (run n).result = .ok b ↔ ∃ as, Results lower (members n) as ∧ b = made n as

/-- Report some events. -/
def announce (es : List Event) : Outcome Unit := ⟨es, .ok ()⟩

section

variable {run : Node → Outcome β} {sort : Node → Prop} {opening : List Event}
  {lower : Node → Outcome α} {members : Node → List Node}

theorem bind_of_map_error {x : Outcome α} {g : α → β} (k : α → Outcome γ) {es : List Event}
    {e : Error} (failed : (x >>= fun a => pure (g a)) = ⟨es, .error e⟩) :
    x >>= k = ⟨es, .error e⟩ := by
  cases result : x.result with
  | error e' =>
    rw [bind_of_error _ result] at failed ⊢
    cases failed
    rfl
  | ok a =>
    rw [bind_of_ok _ result] at failed
    cases failed

/-- It is enough that the traversal comes first, in whatever form its results are kept. -/
theorem StopsAtFirst.of_start
    (start : ∀ n, sort n → ∃ (kept : Type) (x : Outcome kept) (gather : kept → List α)
      (finish : kept → Outcome β), (x >>= fun k => pure (gather k)) = each lower (members n) ∧
      run n = announce opening >>= fun _ => x >>= finish) :
    StopsAtFirst run sort opening lower members := by
  have refused : ∀ n, sort n → ∀ front c back e, members n = front ++ c :: back →
      FirstRefused lower front c e →
      run n = ⟨opening ++ (front ++ [c]).flatMap fun d => (lower d).events, .error e⟩ := by
    intro n sorted front c back e split first
    obtain ⟨kept, x, gather, finish, gathered, whole⟩ := start n sorted
    rw [split, each_of_firstRefused first] at gathered
    rw [whole, bind_of_map_error finish gathered]
    rfl
  refine ⟨refused, ?_⟩
  intro n n' sorted sorted' front c back back' e split split' first
  rw [refused n sorted front c back e split first,
    refused n' sorted' front c back' e split' first]

/-- The traversal with nothing but reports around it. -/
theorem TakesInOrder.of_each {made : Node → List α → β} (closing : Node → List α → List Event)
    (whole : ∀ n, sort n → run n = announce opening >>= fun _ =>
      each lower (members n) >>= fun as => ⟨closing n as, .ok (made n as)⟩) :
    TakesInOrder run sort opening lower members made where
  toStopsAtFirst := .of_start fun n sorted =>
    ⟨List α, each lower (members n), id, _, bind_pure _, whole n sorted⟩
  accepted n sorted b := by
    rw [whole n sorted]
    constructor
    · intro done
      rcases all_accepted_or_firstRefused lower (members n) with all |
        ⟨front, c, back, e, split, first⟩
      · obtain ⟨as, results⟩ := results_iff_accepted.mpr all
        rw [each_of_results results] at done
        cases done
        exact ⟨as, results, rfl⟩
      · rw [split, each_of_firstRefused first] at done
        cases done
    · rintro ⟨as, results, rfl⟩
      rw [each_of_results results]
      rfl

end

/-! ### Statements and expressions -/

/-- A block takes its statements in order and reports nothing of its own. -/
theorem block_in_order :
    TakesInOrder block (·.kind = .block) [] statement Node.significant fun _ ss => ss := by
  refine .of_each (fun _ _ => []) fun n isBlock => ?_
  rw [block_eq_each, expectKind_bind, if_pos isBlock]
  exact (bind_pure _).symm

theorem blockStatement_in_order :
    TakesInOrder concreteStatement (·.kind = .block) [.statement .block] statement Node.significant
      fun n ss => .block ss n.span := by
  refine .of_each (fun _ _ => []) fun n isBlock => ?_
  rw [concreteStatement_eq, concreteOf, isBlock]
  change announce _ >>= (fun _ => blockOf n _ >>= _) = _
  rw [← block_eq, block_eq_each, expectKind_bind, if_pos isBlock]
  rfl

theorem return_in_order :
    TakesInOrder concreteStatement (·.kind = .returnStatement) [.statement .returnStatement]
      expression operandsOf fun n values => .return values n.span := by
  refine .of_each (fun _ _ => []) fun n isReturn => ?_
  rw [concreteStatement_eq, concreteOf, isReturn]
  rfl

/-- The text of the first identifier among the children is the name. -/
def Named (name : String) (n : Node) : Prop :=
  (n.child? .identifier).map (·.textOrEmpty) = some name

theorem nameOf_of_named {name : String} {n : Node} (filled : name ≠ "") (named : Named name n)
    (subject : Subject) : nameOf n subject = pure name := by
  obtain ⟨identifier, found, rfl⟩ := Option.map_eq_some_iff.mp named
  rw [nameOf, requiredChild, found]
  exact if_neg filled

theorem named_of_nameOf {n : Node} {subject : Subject} {name : String}
    (read : (nameOf n subject).result = .ok name) : Named name n ∧ name ≠ "" := by
  rw [nameOf] at read
  obtain ⟨identifier, found, read⟩ := bind_ok_iff.mp read
  by_cases empty : identifier.textOrEmpty = ""
  · rw [if_pos empty] at read
    cases read
  · rw [if_neg empty] at read
    cases read
    refine ⟨?_, empty⟩
    rw [Named, child?_of_requiredChild found]
    rfl

/-- The arguments of a call, none when it has no list of them. -/
def argumentNodes (n : Node) : List Node :=
  match n.child? .argumentList with
  | some list => list.significant
  | none => []

/-- A call without a list of arguments lowers an empty list. -/
theorem argumentsOf_eq_each (n : Node) : argumentsOf n = each expression (argumentNodes n) := by
  rw [argumentsOf, argumentNodes]
  cases n.child? .argumentList with
  | none => rfl
  | some list => rfl

theorem arguments_in_order :
    TakesInOrder arguments (fun _ => True) [] expression Node.significant fun _ es => es := by
  refine .of_each (fun _ _ => []) fun n _ => ?_
  rw [arguments_eq]
  exact (bind_pure _).symm

/-- Once the name is known, a call is the traversal of its arguments. -/
theorem call_eq_each {n : Node} {qualified name : String} {package : Option String}
    (filled : qualified ≠ "") (split : splitQualified qualified = some (package, name))
    (isCall : n.kind = .functionInvocation) (named : Named qualified n) :
    call n = each expression (argumentNodes n) >>= fun es => pure ⟨package, name, es⟩ := by
  rw [call_eq, expectKind_bind, if_pos isCall, nameOf_of_named filled named, pure_bind, split,
    argumentsOf_eq_each]
  rfl

theorem call_in_order {qualified name : String} {package : Option String} (filled : qualified ≠ "")
    (split : splitQualified qualified = some (package, name)) :
    TakesInOrder call (fun n => n.kind = .functionInvocation ∧ Named qualified n) [] expression
      argumentNodes fun _ es => ⟨package, name, es⟩ := by
  refine .of_each (fun _ _ => []) fun n ⟨isCall, named⟩ => ?_
  exact call_eq_each filled split isCall named

theorem invocation_in_order {qualified name : String} {package : Option String}
    (filled : qualified ≠ "") (split : splitQualified qualified = some (package, name)) :
    TakesInOrder expression (fun n => n.kind = .functionInvocation ∧ Named qualified n) []
      expression argumentNodes fun n es => .invocation package name es n.span := by
  refine .of_each (fun _ _ => []) fun n ⟨isCall, named⟩ => ?_
  rw [expression_eq, expressionOf, isCall]
  change (call n >>= fun c => pure (c.toExpression n.span)) = _
  rw [call_eq_each filled split isCall named, bind_assoc]
  rfl

/-! ### Bodies -/

theorem bind_of_silent {x : Outcome α} {a : α} (silent : Silent x) (ok : x.result = .ok a)
    (k : α → Outcome β) : x >>= k = k a := by
  rw [bind_of_ok k ok, silent]
  rfl

theorem block_of_mem {n body : Node} (member : body ∈ n.childrenOf .block) :
    block body = each statement body.significant := by
  have isBlock : body.kind = .block := by
    have kept := (List.mem_filter.mp member).2
    simpa using kept
  rw [block_eq_each, expectKind_bind, if_pos isBlock]

/-- The statements in the bodies of a node, of which as many are looked at as are given. -/
def bodyNodes (bodies : Nat) (n : Node) : List Node :=
  ((n.childrenOf .block).take bodies).flatMap Node.significant

theorem concrete_of_while {n : Node} (isWhile : n.kind = .whileStatement) :
    concreteStatement n =
      announce [.statement .whileStatement] >>= fun _ => whileOf n (clausesOf n.children) := by
  rw [concreteStatement_eq, concreteOf, isWhile]
  rfl

theorem concrete_of_ifElse {n : Node} (isIf : n.kind = .ifElseStatement) :
    concreteStatement n =
      announce [.statement .ifElseStatement] >>= fun _ => ifElseOf n (clausesOf n.children) := by
  rw [concreteStatement_eq, concreteOf, isIf]
  rfl

/-- A loop whose condition is accepted stops at the first statement refused in its body, before it
counts the bodies. -/
theorem while_stops :
    StopsAtFirst concreteStatement
      (fun n => n.kind = .whileStatement ∧ Accepted (conditionOf n .whileStatement))
      [.statement .whileStatement] statement (bodyNodes 1) := by
  refine .of_start fun n ⟨isWhile, condition, accepted⟩ => ?_
  rw [concrete_of_while isWhile, whileOf_eq, bind_of_silent (silent_condition n _) accepted,
    bodyNodes]
  rcases blocks : n.childrenOf .block with _ | ⟨first, others⟩
  · exact ⟨List Statement, pure [], id, fun _ => flawed n.span _, rfl, rfl⟩
  · have isFirst : block first = each statement first.significant :=
      block_of_mem (n := n) (by simp [blocks])
    refine ⟨List Statement, block first, id, _, ?_, rfl⟩
    rw [isFirst]
    simp

/-- A conditional whose condition is accepted stops at the first statement refused in its two
branches, before it counts them. -/
theorem ifElse_stops :
    StopsAtFirst concreteStatement
      (fun n => n.kind = .ifElseStatement ∧ Accepted (conditionOf n .ifStatement))
      [.statement .ifElseStatement] statement (bodyNodes 2) := by
  refine .of_start fun n ⟨isIf, condition, accepted⟩ => ?_
  rw [concrete_of_ifElse isIf, ifElseOf_eq, bind_of_silent (silent_condition n _) accepted,
    bodyNodes]
  rcases blocks : n.childrenOf .block with _ | ⟨first, _ | ⟨second, others⟩⟩
  · exact ⟨List Statement, pure [], id, fun _ => flawed n.span _, rfl, rfl⟩
  · have isFirst : block first = each statement first.significant :=
      block_of_mem (n := n) (by simp [blocks])
    refine ⟨List Statement, block first, id, _, ?_, rfl⟩
    rw [isFirst]
    simp
  · have isFirst : block first = each statement first.significant :=
      block_of_mem (n := n) (by simp [blocks])
    have isSecond : block second = each statement second.significant :=
      block_of_mem (n := n) (by simp [blocks])
    -- the bodies are kept apart, since what is made of them needs both
    refine ⟨List Statement × List Statement, block first >>= fun ts => block second >>= fun es =>
      pure (ts, es), fun bodies => bodies.1 ++ bodies.2, fun bodies => match others with
        | [] => pure (.ifElse condition bodies.1 (some bodies.2) n.span)
        | extra :: _ => flawed extra.span .extraBody, ?_, ?_⟩
    · simp only [isFirst, isSecond, List.take_succ_cons, List.take_zero, List.flatMap_cons,
        List.flatMap_nil, List.append_nil, each_append, bind_assoc, pure_bind]
    · simp only [bind_assoc, pure_bind]
      cases others <;> rfl

/-- A loop has one body, all of whose statements are accepted. -/
theorem while_ok_iff {n : Node} (isWhile : n.kind = .whileStatement) (s : Statement) :
    (concreteStatement n).result = .ok s ↔ ∃ condition body ss,
      (conditionOf n .whileStatement).result = .ok condition ∧ n.childrenOf .block = [body] ∧
      Results statement body.significant ss ∧ s = .while condition ss n.span := by
  rw [concrete_of_while isWhile, whileOf_eq]
  change (conditionOf n _ >>= _).result = _ ↔ _
  rw [bind_ok_iff]
  refine exists_congr fun condition => ?_
  rcases blocks : n.childrenOf .block with _ | ⟨first, _ | ⟨extra, others⟩⟩
  · constructor
    · rintro ⟨-, made⟩
      cases made
    · rintro ⟨body, ss, -, only, -⟩
      cases only
  · have isFirst : block first = each statement first.significant :=
      block_of_mem (n := n) (by simp [blocks])
    simp only [bind_ok_iff, isFirst, each_ok_iff]
    constructor
    · rintro ⟨accepted, ss, results, made⟩
      cases made
      exact ⟨first, ss, accepted, rfl, results, rfl⟩
    · rintro ⟨body, ss, accepted, only, results, rfl⟩
      cases only
      exact ⟨accepted, ss, results, rfl⟩
  · constructor
    · rintro ⟨-, made⟩
      obtain ⟨ss, -, made⟩ := bind_ok_iff.mp made
      cases made
    · rintro ⟨body, ss, -, only, -⟩
      cases only

/-- A conditional has one or two bodies, all of whose statements are accepted. -/
theorem ifElse_ok_iff {n : Node} (isIf : n.kind = .ifElseStatement) (s : Statement) :
    (concreteStatement n).result = .ok s ↔ ∃ condition first others ts es,
      (conditionOf n .ifStatement).result = .ok condition ∧
      n.childrenOf .block = first :: others ∧ Results statement first.significant ts ∧
      (others = [] ∧ es = none ∨ ∃ second ss, others = [second] ∧
        Results statement second.significant ss ∧ es = some ss) ∧
      s = .ifElse condition ts es n.span := by
  rw [concrete_of_ifElse isIf, ifElseOf_eq]
  change (conditionOf n _ >>= _).result = _ ↔ _
  rw [bind_ok_iff]
  refine exists_congr fun condition => ?_
  rcases blocks : n.childrenOf .block with _ | ⟨first, _ | ⟨second, _ | ⟨extra, others⟩⟩⟩
  · constructor
    · rintro ⟨-, made⟩
      cases made
    · rintro ⟨first, others, ts, es, -, listed, -⟩
      cases listed
  · have isFirst : block first = each statement first.significant :=
      block_of_mem (n := n) (by simp [blocks])
    simp only [bind_ok_iff, isFirst, each_ok_iff]
    constructor
    · rintro ⟨accepted, ts, results, made⟩
      cases made
      exact ⟨first, [], ts, none, accepted, rfl, results, .inl ⟨rfl, rfl⟩, rfl⟩
    · rintro ⟨first', others, ts, es, accepted, listed, results, alternative, rfl⟩
      cases listed
      rcases alternative with ⟨-, rfl⟩ | ⟨second, ss, listed, -⟩
      · exact ⟨accepted, ts, results, rfl⟩
      · cases listed
  · have isFirst : block first = each statement first.significant :=
      block_of_mem (n := n) (by simp [blocks])
    have isSecond : block second = each statement second.significant :=
      block_of_mem (n := n) (by simp [blocks])
    simp only [bind_ok_iff, isFirst, isSecond, each_ok_iff]
    constructor
    · rintro ⟨accepted, ts, results, ss, resultsElse, made⟩
      cases made
      exact ⟨first, [second], ts, some ss, accepted, rfl, results,
        .inr ⟨second, ss, rfl, resultsElse, rfl⟩, rfl⟩
    · rintro ⟨first', others, ts, es, accepted, listed, results, alternative, rfl⟩
      cases listed
      rcases alternative with ⟨listed, -⟩ | ⟨second', ss, listed, resultsElse, rfl⟩
      · cases listed
      · cases listed
        exact ⟨accepted, ts, results, ss, resultsElse, rfl⟩
  · constructor
    · rintro ⟨-, made⟩
      obtain ⟨ts, -, made⟩ := bind_ok_iff.mp made
      obtain ⟨ss, -, made⟩ := bind_ok_iff.mp made
      cases made
    · rintro ⟨first', others', ts, es, -, listed, -, alternative, -⟩
      cases listed
      rcases alternative with ⟨listed, -⟩ | ⟨second', ss, listed, -⟩
      · cases listed
      · cases listed

/-! ### Services and trees -/

/-- What a child adds to the service of the given name: an annotation, a resource or nothing. -/
def shareOf (name : String) (child : Node) : Outcome (List Annotation × List Resource) :=
  match child.kind with
  | Kind.annotation => do
    let new ← annotation child
    pure ([new], [])
  | .resourceDefinition => do
    let new ← resource child
    pure ([], [new])
  | .identifier => pure ([], [])
  | kind => flawed child.span (.unexpected kind (.service name))

/-- A service with more annotations and resources. -/
def withShares (s : Service) (shares : List (List Annotation × List Resource)) : Service :=
  { s with
    annotations := s.annotations ++ shares.flatMap (·.1)
    resources := s.resources ++ shares.flatMap (·.2) }

/-- What a child adds depends on the child and the name of the service alone, not on what has been
added before. -/
theorem addToService_eq_share (s : Service) (child : Node) :
    addToService s child = shareOf s.name child >>= fun share => pure (withShares s [share]) := by
  rw [addToService, shareOf]
  cases child.kind with
  | annotation =>
    simp only [bind_assoc, pure_bind, withShares, List.flatMap_singleton, List.append_nil]
  | resourceDefinition =>
    simp only [bind_assoc, pure_bind, withShares, List.flatMap_singleton, List.append_nil]
  | identifier =>
    simp only [pure_bind, withShares, List.flatMap_singleton, List.append_nil]
  | _ => rfl

/-- So a service is the traversal of its children, with their shares put together at the end. -/
theorem fold_addToService (s : Service) (cs : List Node) :
    fold addToService s cs =
      each (shareOf s.name) cs >>= fun shares => pure (withShares s shares) := by
  induction cs generalizing s with
  | nil =>
    rw [fold, each, pure_bind, withShares, List.flatMap_nil, List.append_nil, List.flatMap_nil,
      List.append_nil]
  | cons c cs ih =>
    have name (share : List Annotation × List Resource) : (withShares s [share]).name = s.name :=
      rfl
    have more (share : List Annotation × List Resource)
        (shares : List (List Annotation × List Resource)) :
        withShares (withShares s [share]) shares = withShares s (share :: shares) := by
      simp only [withShares, List.flatMap_cons, List.flatMap_nil, List.append_nil,
        List.append_assoc]
    rw [fold, addToService_eq_share, each]
    simp only [bind_assoc, pure_bind, ih, name, more]

theorem service_in_order {name : String} (filled : name ≠ "") :
    TakesInOrder service (fun n => n.kind = .serviceDefinition ∧ Named name n) [] (shareOf name)
      Node.significant fun n shares =>
        ⟨name, shares.flatMap (·.1), shares.flatMap (·.2), n.span⟩ := by
  refine .of_each (fun _ shares => [.service name (shares.flatMap (·.2)).length])
    fun n ⟨isService, named⟩ => ?_
  rw [service, expectKind_bind, if_pos isService, nameOf_of_named filled named, pure_bind,
    fold_addToService, bind_assoc]
  rfl

/-- The annotations and the resources of a service, each on their own. -/
theorem results_of_shares {name : String} {cs : List Node}
    {shares : List (List Annotation × List Resource)} (results : Results (shareOf name) cs shares) :
    Results annotation (cs.filter (·.kind == Kind.annotation)) (shares.flatMap (·.1)) ∧
    Results resource (cs.filter (·.kind == .resourceDefinition)) (shares.flatMap (·.2)) := by
  induction results with
  | nil => exact ⟨.nil, .nil⟩
  | @cons c share cs shares first _ ih =>
    obtain ⟨annotations, resources⟩ := ih
    rw [shareOf] at first
    rw [List.filter_cons, List.filter_cons, List.flatMap_cons, List.flatMap_cons]
    cases kind : c.kind with
    | annotation =>
      rw [kind] at first
      obtain ⟨new, made, done⟩ := bind_ok_iff.mp first
      cases done
      exact ⟨.cons made annotations, resources⟩
    | resourceDefinition =>
      rw [kind] at first
      obtain ⟨new, made, done⟩ := bind_ok_iff.mp first
      cases done
      exact ⟨annotations, .cons made resources⟩
    | identifier =>
      rw [kind] at first
      cases first
      exact ⟨annotations, resources⟩
    | _ =>
      rw [kind] at first
      cases first

/-- The annotations of a service are the results for its annotation nodes, and its resources those
for its resource nodes. -/
theorem results_of_service {n : Node} {s : Service} (made : (service n).result = .ok s) :
    Results annotation (n.childrenOf Kind.annotation) s.annotations ∧
    Results resource (n.childrenOf .resourceDefinition) s.resources := by
  rw [service, expectKind_bind] at made
  by_cases isService : n.kind = .serviceDefinition
  · rw [if_pos isService] at made
    obtain ⟨name, -, made⟩ := bind_ok_iff.mp made
    rw [fold_addToService] at made
    obtain ⟨t, folded, made⟩ := bind_ok_iff.mp made
    obtain ⟨shares, taken, done⟩ := bind_ok_iff.mp folded
    cases made
    cases done
    rw [Node.childrenOf_eq_filter n rfl, Node.childrenOf_eq_filter n rfl]
    exact results_of_shares (each_ok_iff.mp taken)
  · rw [if_neg isService] at made
    cases made

theorem tree_in_order :
    TakesInOrder (fun root => tree ⟨root, []⟩)
      (fun root => root.kind = .compilationUnit ∧ root.errorNodes = []) [] topLevel
      Node.significant fun _ services => ⟨services⟩ := by
  refine .of_each (fun _ _ => []) fun root ⟨isUnit, nothingSkipped⟩ => ?_
  have clean : syntaxDiagnostics ⟨root, []⟩ = [] := by
    rw [syntaxDiagnostics, nothingSkipped]
    rfl
  rw [tree, clean]
  simp only
  rw [expectKind_bind, if_pos isUnit]
  rfl

/-- Blocks, bodies, returned values, arguments, services and trees take their members in source
order, give one result for each if all are accepted, and else stop at the first that is refused. -/
theorem sequences_taken_in_order :
    TakesInOrder block (·.kind = .block) [] statement Node.significant (fun _ ss => ss) ∧
    TakesInOrder concreteStatement (·.kind = .block) [.statement .block] statement
      Node.significant (fun n ss => .block ss n.span) ∧
    StopsAtFirst concreteStatement
      (fun n => n.kind = .whileStatement ∧ Accepted (conditionOf n .whileStatement))
      [.statement .whileStatement] statement (bodyNodes 1) ∧
    (∀ n, n.kind = .whileStatement → ∀ s, (concreteStatement n).result = .ok s ↔
      ∃ condition body ss, (conditionOf n .whileStatement).result = .ok condition ∧
        n.childrenOf .block = [body] ∧ Results statement body.significant ss ∧
        s = .while condition ss n.span) ∧
    StopsAtFirst concreteStatement
      (fun n => n.kind = .ifElseStatement ∧ Accepted (conditionOf n .ifStatement))
      [.statement .ifElseStatement] statement (bodyNodes 2) ∧
    (∀ n, n.kind = .ifElseStatement → ∀ s, (concreteStatement n).result = .ok s ↔
      ∃ condition first others ts es, (conditionOf n .ifStatement).result = .ok condition ∧
        n.childrenOf .block = first :: others ∧ Results statement first.significant ts ∧
        (others = [] ∧ es = none ∨ ∃ second ss, others = [second] ∧
          Results statement second.significant ss ∧ es = some ss) ∧
        s = .ifElse condition ts es n.span) ∧
    TakesInOrder concreteStatement (·.kind = .returnStatement) [.statement .returnStatement]
      expression operandsOf (fun n values => .return values n.span) ∧
    TakesInOrder arguments (fun _ => True) [] expression Node.significant (fun _ es => es) ∧
    (∀ qualified package name, qualified ≠ "" → splitQualified qualified = some (package, name) →
      TakesInOrder call (fun n => n.kind = .functionInvocation ∧ Named qualified n) [] expression
        argumentNodes (fun _ es => ⟨package, name, es⟩) ∧
      TakesInOrder expression (fun n => n.kind = .functionInvocation ∧ Named qualified n) []
        expression argumentNodes (fun n es => .invocation package name es n.span)) ∧
    (∀ name, name ≠ "" →
      TakesInOrder service (fun n => n.kind = .serviceDefinition ∧ Named name n) [] (shareOf name)
        Node.significant
        (fun n shares => ⟨name, shares.flatMap (·.1), shares.flatMap (·.2), n.span⟩)) ∧
    (∀ n s, (service n).result = .ok s →
      Results annotation (n.childrenOf Kind.annotation) s.annotations ∧
      Results resource (n.childrenOf .resourceDefinition) s.resources) ∧
    TakesInOrder (fun root => tree ⟨root, []⟩)
      (fun root => root.kind = .compilationUnit ∧ root.errorNodes = []) [] topLevel
      Node.significant (fun _ services => ⟨services⟩) := by
  refine ⟨block_in_order, blockStatement_in_order, while_stops, fun n => while_ok_iff, ifElse_stops,
    fun n => ifElse_ok_iff, return_in_order, arguments_in_order, ?_, fun name => service_in_order,
    fun n s => results_of_service, tree_in_order⟩
  intro qualified package name filled split
  exact ⟨call_in_order filled split, invocation_in_order filled split⟩

def replyOfNull : Node :=
  .branch .statement .zero [.branch .replyStatement .zero [.bare .nullLiteral .zero]]

/-- A reply, a wrapper around nothing and whatever comes then. -/
def brokenBlock (rest : List Node) : Node :=
  .branch .block .zero (replyOfNull :: .bare .statement ⟨3, 4⟩ :: rest)

theorem brokenBlock_stops :
    block (brokenBlock []) =
      ⟨[.statement .replyStatement], .error (.malformed .emptyWrapper ⟨3, 4⟩)⟩ ∧
    block (brokenBlock [replyOfNull, .bare .error .zero]) = block (brokenBlock []) := by
  have first : FirstRefused statement [replyOfNull] (.bare .statement ⟨3, 4⟩)
      (.malformed .emptyWrapper ⟨3, 4⟩) := ⟨List.forall_mem_singleton.mpr ⟨_, rfl⟩, rfl⟩
  have blocks := sequences_taken_in_order.1
  exact ⟨blocks.refused _ rfl _ _ [] _ rfl first,
    blocks.settled _ _ rfl rfl _ _ [] [replyOfNull, .bare .error .zero] _ rfl rfl first⟩

end ServiceLang.Lowering
