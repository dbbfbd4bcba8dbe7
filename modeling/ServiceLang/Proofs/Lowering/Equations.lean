import ServiceLang.Lowering.Tree
import ServiceLang.Proofs.Syntax.Significant

/-!
# Equations of the lowering

The lowering of a node in terms of the lowering of its children. The readings that a node is handed
for its children are those of the lowering itself, so that each case can be written without them:
which children are asked for, in which order, and what is made of their results.
-/

namespace ServiceLang.Lowering

open Syntax (Kind Node)
open Semantic
open Outcome

/-- After a success the events of the rest follow those of the first step. -/
theorem bind_of_ok {α β : Type} {x : Outcome α} {a : α} (k : α → Outcome β) (h : x.result = .ok a) :
    x >>= k = ⟨x.events ++ (k a).events, (k a).result⟩ := by
  change Outcome.bind x k = _
  rw [Outcome.bind, h]

theorem bind_of_error {α β : Type} {x : Outcome α} {e : Error} (k : α → Outcome β)
    (h : x.result = .error e) : x >>= k = ⟨x.events, .error e⟩ := by
  change Outcome.bind x k = _
  rw [Outcome.bind, h]

/-- A sequence succeeds only if both its steps do. -/
theorem bind_ok_iff {α β : Type} {x : Outcome α} {k : α → Outcome β} {b : β} :
    (x >>= k).result = .ok b ↔ ∃ a, x.result = .ok a ∧ (k a).result = .ok b := by
  cases result : x.result with
  | error e =>
    rw [bind_of_error k result]
    constructor
    · intro done
      cases done
    · rintro ⟨a, done, -⟩
      cases done
  | ok a =>
    rw [bind_of_ok k result]
    constructor
    · intro done
      exact ⟨a, rfl, done⟩
    · rintro ⟨a', same, done⟩
      cases same
      exact done

theorem result_bind_pure {α β : Type} (x : Outcome α) (f : α → β) :
    (x >>= fun a => pure (f a)).result = x.result.map f := by
  cases result : x.result with
  | error e =>
    rw [bind_of_error _ result]
    rfl
  | ok a =>
    rw [bind_of_ok _ result]
    rfl

instance : LawfulMonad Outcome :=
  LawfulMonad.mk' Outcome
    (fun x => by
      rcases x with ⟨events, e | a⟩
      · rfl
      · change Outcome.mk (events ++ []) (Except.ok a) = _
        rw [List.append_nil])
    (fun _ _ => rfl)
    (fun x f g => by
      cases first : x.result with
      | error e => rw [bind_of_error f first, bind_of_error _ first, bind_of_error g rfl]
      | ok a =>
        rw [bind_of_ok f first, bind_of_ok _ first]
        cases second : (f a).result with
        | error e => rw [bind_of_error g second, bind_of_error g rfl]
        | ok b => rw [bind_of_ok g second, bind_of_ok g rfl, List.append_assoc])

/-- A fold over a list that is cut in two is one fold after the other. -/
theorem fold_append {α β : Type} (F : α → β → Outcome α) (a : α) (xs ys : List β) :
    fold F a (xs ++ ys) = fold F a xs >>= fun b => fold F b ys := by
  induction xs generalizing a with
  | nil => rfl
  | cons x xs ih =>
    change F a x >>= (fun b => fold F b (xs ++ ys)) =
      (F a x >>= fun b => fold F b xs) >>= fun b => fold F b ys
    rw [bind_assoc]
    simp only [ih]

/-- Members that change nothing may be left out of a fold. -/
theorem fold_skipping {α γ : Type} {F : α → γ → Outcome α} {kept : γ → Bool}
    (skips : ∀ a c, kept c = false → F a c = pure a) (a : α) (cs : List γ) :
    fold F a cs = fold F a (cs.filter kept) := by
  induction cs generalizing a with
  | nil => rfl
  | cons c cs ih =>
    cases keep : kept c with
    | false => rw [List.filter_cons_of_neg (by simp [keep]), fold, skips a c keep, pure_bind, ih]
    | true =>
      rw [List.filter_cons_of_pos keep, fold, fold]
      simp only [ih]

/-- A step in the middle decides alone, if nothing before or after it fails. -/
theorem result_fold_of_split {α γ δ : Type} {F : α → γ → Outcome α} {a b : α} {c : γ}
    {front back : List γ} {reading : Except Error δ} {f g : δ → α}
    (before : (fold F a front).result = .ok b) (here : (F b c).result = reading.map f)
    (after : ∀ d, (fold F (f d) back).result = .ok (g d)) :
    (fold F a (front ++ c :: back)).result = reading.map g := by
  rw [fold_append, bind_of_ok _ before, fold]
  cases reading with
  | error e =>
    rw [bind_of_error _ here]
    rfl
  | ok d =>
    rw [bind_of_ok _ here]
    exact after d

/-- A check of the kind is a branching: go on, or refuse the node at its own span. -/
theorem expectKind_bind {β : Type} (n : Node) (kind : Kind) (k : Unit → Outcome β) :
    (expectKind n kind >>= k) =
      if n.kind = kind then k () else flawed n.span (.wrongKind kind n.kind) := by
  rw [expectKind]
  by_cases same : n.kind = kind
  · rw [if_pos same, if_pos same]
    rfl
  · rw [if_neg same, if_neg same]
    rfl

theorem of_orFlaw {α : Type} {a? : Option α} {a : α} {span : Span} {flaw : Flaw}
    (h : (orFlaw a? span flaw).result = .ok a) : a? = some a := by
  cases a? with
  | none => cases h
  | some b =>
    cases h
    rfl

/-- A literal is lowered exactly when its text denotes a value. -/
theorem literal_ok_iff {α : Type} (n : Node) (read : String → Option α) (a : α) :
    (literal n read).result = .ok a ↔ read n.textOrEmpty = some a := by
  rw [literal]
  cases read n.textOrEmpty with
  | none => simp [fail]
  | some b => simp [Pure.pure, Outcome.pure]

theorem literal_of_none {α : Type} {n : Node} {read : String → Option α}
    (unread : read n.textOrEmpty = none) :
    literal n read = fail (.invalidLiteral n.kind n.textOrEmpty n.span) := by
  rw [literal, unread]

theorem child?_of_requiredChild {n c : Node} {kind : Kind} {subject : Subject}
    (h : (requiredChild n kind subject).result = .ok c) : n.child? kind = some c :=
  of_orFlaw h

theorem mem_children_of_operandsOf {n c : Node} (h : c ∈ operandsOf n) : c ∈ n.children :=
  Node.mem_children_of_significant (List.mem_filter.mp h).1

theorem significant_partsOf (n : Node) :
    Part.significant (partsOf n.children) =
      n.significant.map fun c => ⟨c, fun _ => expression c, fun _ => arguments c⟩ := by
  rw [Part.significant, partsOf_eq_map, List.filter_map]
  rfl

theorem operands_partsOf (n : Node) :
    Part.operands (partsOf n.children) =
      (operandsOf n).map fun c => ⟨c, fun _ => expression c, fun _ => arguments c⟩ := by
  rw [Part.operands, significant_partsOf, List.filter_map]
  rfl

/-- A binary operation without the readings that are handed to it: operator first, then the two
operands from left to right. -/
theorem binaryOf_eq (n : Node) :
    binaryOf n (partsOf n.children) = (do
      let symbol ← operatorOf n
      let op ← orFlaw (BinaryOp.ofSymbol? symbol) n.span (.unknownBinaryOperator symbol)
      match operandsOf n with
      | [left, right] =>
        let left ← expression left
        let right ← expression right
        pure (.binary op left right n.span)
      | _ => flawed n.span .binaryOperands) := by
  rw [binaryOf, operands_partsOf]
  rcases operandsOf n with _ | ⟨left, _ | ⟨right, _ | ⟨extra, rest⟩⟩⟩ <;> rfl

theorem unaryOf_eq (n : Node) :
    unaryOf n (partsOf n.children) = (do
      let symbol ← operatorOf n
      let op ← orFlaw (UnaryOp.ofSymbol? symbol) n.span (.unknownUnaryOperator symbol)
      match operandsOf n with
      | [operand] =>
        let operand ← expression operand
        pure (.unary op operand n.span)
      | _ => flawed n.span .unaryOperands) := by
  rw [unaryOf, operands_partsOf]
  rcases operandsOf n with _ | ⟨operand, _ | ⟨extra, rest⟩⟩ <;> rfl

/-- Parentheses hold one operand, and their value is its value. -/
theorem parenthesizedOf_eq (n : Node) :
    parenthesizedOf n (partsOf n.children) =
      match operandsOf n with
      | [inner] => expression inner
      | _ => flawed n.span .parenthesizedOperands := by
  rw [parenthesizedOf, operands_partsOf]
  rcases operandsOf n with _ | ⟨inner, _ | ⟨extra, rest⟩⟩ <;> rfl

/-- The index is the first expression among the significant children. Any further one is passed
over. -/
theorem arrayElementOf_eq (n : Node) :
    arrayElementOf n (partsOf n.children) = (do
      let name ← nameOf n .arrayElement
      let index ← orFlaw (n.significant.find? (·.kind.isExpression)) n.span (.missingIndex name)
      let index ← expression index
      pure (.arrayElement name index n.span)) := by
  rw [arrayElementOf, significant_partsOf, List.find?_map]
  simp only [Function.comp_def]
  cases n.significant.find? (·.kind.isExpression) <;> rfl

/-- The arguments of a call, none when it has no list of them. -/
def argumentsOf (n : Node) : Outcome (List Expression) :=
  match n.child? .argumentList with
  | some list => each expression list.significant
  | none => pure []

/-- The name is looked at before the arguments. -/
theorem call_eq (n : Node) :
    call n = (do
      expectKind n .functionInvocation
      let qualified ← nameOf n .functionInvocation
      let (package, name) ← orFlaw (splitQualified qualified) n.span (.badQualifiedName qualified)
      let arguments ← argumentsOf n
      pure ⟨package, name, arguments⟩) := by
  have found : (partsOf n.children).find? (·.node.kind == .argumentList) =
      (n.child? .argumentList).map fun c => ⟨c, fun _ => expression c, fun _ => arguments c⟩ := by
    rw [partsOf_eq_map, List.find?_map]
    rfl
  rw [call, callOf, argumentsOf, found]
  cases n.child? .argumentList with
  | none => rfl
  | some list => simp only [Option.map_some, arguments_eq]

theorem significant_clausesOf (n : Node) :
    Clause.significant (clausesOf n.children) = n.significant.map fun c =>
      ⟨c, fun _ => statement c, fun _ => concreteStatement c, fun _ => block c⟩ := by
  rw [Clause.significant, clausesOf_eq_map, List.filter_map]
  rfl

theorem blocks_clausesOf (n : Node) :
    Clause.blocks (clausesOf n.children) = (n.childrenOf .block).map fun c =>
      ⟨c, fun _ => statement c, fun _ => concreteStatement c, fun _ => block c⟩ := by
  rw [Clause.blocks, clausesOf_eq_map, List.filter_map]
  rfl

theorem block_eq_each (n : Node) :
    block n = (do
      expectKind n .block
      each statement n.significant) := by
  rw [block_eq, blockOf, significant_clausesOf, each_map]

/-- A third block is refused only after the first two have been lowered. -/
theorem ifElseOf_eq (n : Node) :
    ifElseOf n (clausesOf n.children) = (do
      let condition ← conditionOf n .ifStatement
      match n.childrenOf .block with
      | [] => flawed n.span .missingBody
      | [first] =>
        let thenBody ← block first
        pure (.ifElse condition thenBody none n.span)
      | first :: second :: others =>
        let thenBody ← block first
        let elseBody ← block second
        match others with
        | [] => pure (.ifElse condition thenBody (some elseBody) n.span)
        | extra :: _ => flawed extra.span .extraBody) := by
  rw [ifElseOf, blocks_clausesOf]
  rcases n.childrenOf .block with _ | ⟨first, _ | ⟨second, _ | ⟨extra, rest⟩⟩⟩ <;> rfl

/-- A second block is refused only after the first one has been lowered. -/
theorem whileOf_eq (n : Node) :
    whileOf n (clausesOf n.children) = (do
      let condition ← conditionOf n .whileStatement
      match n.childrenOf .block with
      | [] => flawed n.span (.missing .whileStatement .block)
      | first :: others =>
        let body ← block first
        match others with
        | [] => pure (.while condition body n.span)
        | extra :: _ => flawed extra.span .extraLoopBody) := by
  rw [whileOf, blocks_clausesOf]
  rcases n.childrenOf .block with _ | ⟨first, _ | ⟨extra, rest⟩⟩ <;> rfl

theorem statement_eq_concrete (n : Node) :
    statement n = (do
      expectKind n .statement
      match n.significant with
      | [] => flawed n.span .emptyWrapper
      | [inner] => concreteStatement inner
      | _ :: extra :: _ => flawed extra.span .crowdedWrapper) := by
  rw [statement_eq, wrappedOf, significant_clausesOf]
  rcases n.significant with _ | ⟨inner, _ | ⟨extra, rest⟩⟩ <;> rfl

end ServiceLang.Lowering
