import Mathlib.Data.List.Perm.Subperm
import ServiceLang.Proofs.Lowering.Lookup

/-!
# Looking for children

Some children are looked for by their kind, some by taking the first of a kind, and not everywhere
is it asked whether there are others. For every kind of node it is said here what is looked for and
what belongs in it. When what is found is what belongs there, the node holds nothing else exactly
if nothing is overlooked.
-/

namespace ServiceLang.Lowering

open Syntax (Kind Node)

/-! ### Looks -/

/-- Look for all children of a sort or for the first one only. -/
inductive Look where
  | all (sort : Kind → Bool)
  | first (sort : Kind → Bool)

namespace Look

def sort : Look → Kind → Bool
  | .all sort => sort
  | .first sort => sort

def find : Look → List Node → List Node
  | .all sort, cs => cs.filter (sort ·.kind)
  | .first sort, cs => (cs.find? (sort ·.kind)).toList

theorem find_first (sort : Kind → Bool) (cs : List Node) :
    (Look.first sort).find cs = (cs.filter (sort ·.kind)).take 1 := by
  rw [find, List.take_one, List.head?_filter]

/-- What is found is of the sort that was looked for, in the order in which it stands. -/
theorem find_sublist (l : Look) (cs : List Node) :
    (l.find cs).Sublist (cs.filter (l.sort ·.kind)) := by
  cases l with
  | all sort => exact List.Sublist.refl _
  | first sort =>
    rw [find_first]
    exact List.take_sublist _ _

theorem sort_of_mem {l : Look} {c : Node} {cs : List Node} (h : c ∈ l.find cs) :
    l.sort c.kind = true :=
  (List.mem_filter.mp ((l.find_sublist cs).subset h)).2

/-- How many are found does not depend on the order. -/
theorem length_find_perm (l : Look) {cs ds : List Node} (h : cs.Perm ds) :
    (l.find cs).length = (l.find ds).length := by
  have same := (h.filter (l.sort ·.kind)).length_eq
  cases l with
  | all sort => exact same
  | first sort =>
    rw [find_first, find_first, List.length_take, List.length_take]
    exact congrArg (min 1) same

/-- What another look is for does not matter. -/
theorem find_filter_other (l : Look) {p : Kind → Bool}
    (other : ∀ kind, p kind = true → l.sort kind = false) (cs : List Node) :
    l.find (cs.filter (!p ·.kind)) = l.find cs := by
  have same : (cs.filter (!p ·.kind)).filter (l.sort ·.kind) = cs.filter (l.sort ·.kind) := by
    rw [List.filter_filter]
    refine List.filter_congr fun c _ => ?_
    cases here : p c.kind with
    | false => simp
    | true => simp [other c.kind here]
  cases l with
  | all sort => exact same
  | first sort =>
    rw [find_first, find_first]
    exact congrArg (List.take 1) same

end Look

/-- No child is looked for twice. -/
def Apart (ls : List Look) : Prop :=
  ls.Pairwise fun l m => ∀ kind, l.sort kind = true → m.sort kind = false

def findAll (ls : List Look) (cs : List Node) : List Node := ls.flatMap (·.find cs)

/-- How many are found in all does not depend on the order. -/
theorem length_findAll_perm (ls : List Look) {cs ds : List Node} (h : cs.Perm ds) :
    (findAll ls cs).length = (findAll ls ds).length := by
  rw [findAll, findAll, List.length_flatMap, List.length_flatMap]
  exact congrArg List.sum (List.map_congr_left fun l _ => l.length_find_perm h)

/-- Looks that are apart find no child twice. -/
theorem findAll_subperm {ls : List Look} (apart : Apart ls) (cs : List Node) :
    (findAll ls cs).Subperm cs := by
  induction ls generalizing cs with
  | nil => exact List.nil_subperm
  | cons l ls ih =>
    obtain ⟨others, rest⟩ := List.pairwise_cons.mp apart
    -- the other looks find the same when what this one is for is taken away
    have elsewhere : findAll ls (cs.filter (!l.sort ·.kind)) = findAll ls cs :=
      List.flatMap_congr fun m member => m.find_filter_other (others m member) cs
    have shares := (l.find_sublist cs).subperm.append (ih rest (cs.filter (!l.sort ·.kind)))
    rw [elsewhere] at shares
    exact shares.trans (List.filter_append_perm _ cs).subperm

/-- What a look has found can be told from the rest. -/
theorem filter_findAll {ls : List Look} (apart : Apart ls) {l : Look} (member : l ∈ ls)
    (cs : List Node) : (findAll ls cs).filter (l.sort ·.kind) = l.find cs := by
  induction ls with
  | nil => cases member
  | cons m ls ih =>
    obtain ⟨others, rest⟩ := List.pairwise_cons.mp apart
    change (m.find cs ++ findAll ls cs).filter _ = _
    rw [List.filter_append]
    rcases List.mem_cons.mp member with rfl | later
    · have own : (l.find cs).filter (l.sort ·.kind) = l.find cs :=
        List.filter_eq_self.mpr fun c found => Look.sort_of_mem found
      have none_ : (findAll ls cs).filter (l.sort ·.kind) = [] := by
        refine List.filter_eq_nil_iff.mpr fun c found here => ?_
        obtain ⟨k, listed, found⟩ := List.mem_flatMap.mp found
        have := others k listed c.kind here
        rw [Look.sort_of_mem found] at this
        cases this
      rw [own, none_, List.append_nil]
    · have none_ : (m.find cs).filter (l.sort ·.kind) = [] := by
        refine List.filter_eq_nil_iff.mpr fun c found here => ?_
        rw [others l later c.kind (Look.sort_of_mem found)] at here
        cases here
      rw [none_, ih rest later, List.nil_append]

/-! ### The children of a node -/

/-- What is looked for in a node of the kind. -/
def looks : Kind → List Look
  | .statement | .block | .argumentList => [.all fun _ => true]
  | .assignmentStatement | .returnStatement | .replyStatement => [.all fun _ => true]
  | .functionInvocationStatement => [.first (· == .functionInvocation)]
  | .ifElseStatement | .whileStatement => [.all Kind.isExpression, .all (· == .block)]
  | .variableReference => [.first (· == .identifier)]
  | .arrayElementReference => [.first (· == .identifier), .first Kind.isExpression]
  | .functionInvocation => [.first (· == .identifier), .first (· == .argumentList)]
  | .binaryExpression | .unaryExpression =>
    [.first (· == .operator), .all fun kind => !kind == .operator]
  | .parenthesizedExpression => [.all fun kind => !kind == .operator]
  | _ => []

/-- What belongs in a node of the kind, in any order. -/
def contents : Kind → List Item
  | .statement => [.one IsStatement]
  | .assignmentStatement => [.one IsTarget, .one IsExpression]
  | .returnStatement | .argumentList => [.many IsExpression]
  | .replyStatement | .parenthesizedExpression => [.one IsExpression]
  | .functionInvocationStatement => [.one (Is .functionInvocation)]
  | .ifElseStatement => [.one IsExpression, .one (Is .block), .optional (Is .block)]
  | .whileStatement => [.one IsExpression, .one (Is .block)]
  | .block => [.many (Is .statement)]
  | .variableReference => [.one (Is .identifier)]
  | .arrayElementReference => [.one (Is .identifier), .one IsExpression]
  | .functionInvocation => [.one (Is .identifier), .optional (Is .argumentList)]
  | .binaryExpression => [.one (Is .operator), .one IsExpression, .one IsExpression]
  | .unaryExpression => [.one (Is .operator), .one IsExpression]
  | _ => []

/-- Statements in which operators do not count. -/
def skipsOperators : Kind → Bool
  | .assignmentStatement | .returnStatement | .replyStatement => true
  | _ => false

def counted (n : Node) : List Node :=
  if skipsOperators n.kind then operandsOf n else n.significant

def heeded (n : Node) : List Node := findAll (looks n.kind) (counted n)

def overlooked (n : Node) : List Node := (counted n).diff (heeded n)

/-- The node holds exactly what belongs in it. -/
def Whole (n : Node) : Prop := ∃ cs, cs.Perm (counted n) ∧ Matches (contents n.kind) cs

/-- No node looks for the same child twice. -/
theorem apart_looks (kind : Kind) : Apart (looks kind) := by
  cases kind with
  | ifElseStatement | whileStatement | arrayElementReference | functionInvocation
  | binaryExpression | unaryExpression =>
    refine List.pairwise_pair.mpr fun k => ?_
    cases k <;> decide
  | _ => first | exact List.Pairwise.nil | exact List.pairwise_singleton _ _

/-- Conditionals and loops look for the same. -/
theorem looks_of_branch {kind : Kind} (h : kind = .ifElseStatement ∨ kind = .whileStatement) :
    looks kind = [.all Kind.isExpression, .all (· == .block)] := by
  rcases h with rfl | rfl <;> rfl

theorem looks_of_operation {kind : Kind} (h : kind = .binaryExpression ∨
    kind = .unaryExpression ∨ kind = .parenthesizedExpression) :
    .all (fun k => !k == .operator) ∈ looks kind := by
  rcases h with rfl | rfl | rfl
  · exact List.mem_cons_of_mem _ List.mem_cons_self
  · exact List.mem_cons_of_mem _ List.mem_cons_self
  · exact List.mem_cons_self

theorem looks_of_skipsOperators {kind : Kind} (skips : skipsOperators kind = true) :
    looks kind = [.all fun _ => true] := by
  cases kind <;> first | rfl | cases skips

/-- What is found and what is overlooked make up all that counts. -/
theorem counted_perm (n : Node) : (heeded n ++ overlooked n).Perm (counted n) :=
  List.subperm_append_diff_self_of_count_le fun c _ =>
    (findAll_subperm (apart_looks n.kind) (counted n)).count_le c

theorem counted_eq_significant {n : Node} (other : skipsOperators n.kind = false) :
    counted n = n.significant := by
  rw [counted, other]
  rfl

/-- Except where operators are skipped, everything significant counts. -/
theorem heeded_of_kind {n : Node} {kind : Kind} (h : n.kind = kind)
    (other : skipsOperators kind = false) : heeded n = findAll (looks kind) n.significant := by
  rw [heeded, counted_eq_significant (by rw [h]; exact other), h]

theorem findAll_one (l : Look) (cs : List Node) : findAll [l] cs = l.find cs :=
  List.append_nil _

theorem findAll_two (l m : Look) (cs : List Node) :
    findAll [l, m] cs = l.find cs ++ m.find cs :=
  congrArg (l.find cs ++ ·) (List.append_nil _)

theorem findAll_all (cs : List Node) : findAll [.all fun _ => true] cs = cs := by
  rw [findAll_one, Look.find, List.filter_true]

theorem find_child (n : Node) {kind : Kind} (visible : kind.isTrivia = false) :
    (Look.first (· == kind)).find n.significant = (n.child? kind).toList := by
  rw [Look.find, Node.child?_eq_find? n visible]

/-- The looks for a kind find all of a list whose parts are what they look for. -/
theorem findAll_of_matches {kind : Kind} {cs : List Node} (fits : Matches (contents kind) cs) :
    findAll (looks kind) cs = cs := by
  cases kind with
  | statement | block | argumentList | assignmentStatement | returnStatement | replyStatement =>
    exact findAll_all cs
  | functionInvocationStatement | variableReference =>
    obtain ⟨c, _, rfl, found, rfl⟩ := fits
    have only : c.kind = _ := found
    simp [findAll, looks, Look.find, only]
  | parenthesizedExpression =>
    obtain ⟨c, _, rfl, inner, rfl⟩ := fits
    have operand : c.kind ≠ .operator := ne_of_isExpression inner rfl
    simp [findAll, looks, Look.find, operand]
  | whileStatement =>
    obtain ⟨c, _, rfl, condition, b, _, rfl, body, rfl⟩ := fits
    have bodies : ∀ d ∈ [b], d.kind = .block := List.forall_mem_singleton.mpr body
    obtain ⟨expressions, blocks⟩ := filter_condition condition bodies
    rw [looks, findAll_two, Look.find, Look.find, expressions, blocks]
    rfl
  | ifElseStatement =>
    obtain ⟨c, _, rfl, condition, b, rest, rfl, body, others⟩ := fits
    have bodies : ∀ d ∈ b :: rest, d.kind = .block := by
      refine List.forall_mem_cons.mpr ⟨body, ?_⟩
      rcases others with rfl | ⟨d, _, rfl, otherwise, rfl⟩
      · exact List.forall_mem_nil _
      · exact List.forall_mem_singleton.mpr otherwise
    obtain ⟨expressions, blocks⟩ := filter_condition condition bodies
    rw [looks, findAll_two, Look.find, Look.find, expressions, blocks]
    rfl
  | arrayElementReference =>
    obtain ⟨c, _, rfl, name, i, _, rfl, index, rfl⟩ := fits
    have first : c.kind = .identifier := name
    have notExpression : Kind.identifier.isExpression = false := rfl
    have second : i.kind.isExpression = true := index
    simp [findAll, looks, Look.find, first, notExpression, second]
  | functionInvocation =>
    obtain ⟨c, _, rfl, name, rest⟩ := fits
    have first : c.kind = .identifier := name
    rcases rest with rfl | ⟨l, _, rfl, list, rfl⟩
    · simp [findAll, looks, Look.find, first]
    · have second : l.kind = .argumentList := list
      simp [findAll, looks, Look.find, first, second]
  | binaryExpression =>
    obtain ⟨o, _, rfl, operator, l, _, rfl, left, r, _, rfl, right, rfl⟩ := fits
    have first : o.kind = .operator := operator
    have second : l.kind ≠ .operator := ne_of_isExpression left rfl
    have third : r.kind ≠ .operator := ne_of_isExpression right rfl
    simp [findAll, looks, Look.find, first, second, third]
  | unaryExpression =>
    obtain ⟨o, _, rfl, operator, e, _, rfl, operand, rfl⟩ := fits
    have first : o.kind = .operator := operator
    have second : e.kind ≠ .operator := ne_of_isExpression operand rfl
    simp [findAll, looks, Look.find, first, second]
  | _ =>
    cases fits
    rfl

/-- A node in which everything that belongs there has been found is whole if nothing else is
there. -/
theorem whole_iff {n : Node} (fits : Matches (contents n.kind) (heeded n)) :
    Whole n ↔ overlooked n = [] := by
  have shares := counted_perm n
  constructor
  · rintro ⟨cs, order, exact_⟩
    -- in the right order all would be found, and in any order as many are
    have all := length_findAll_perm (looks n.kind) order
    rw [findAll_of_matches exact_, order.length_eq] at all
    have sum := shares.length_eq
    rw [List.length_append, all] at sum
    change (heeded n).length + _ = (heeded n).length at sum
    exact List.eq_nil_of_length_eq_zero (by omega)
  · intro nothing
    rw [nothing, List.append_nil] at shares
    exact ⟨heeded n, shares, fits⟩

end ServiceLang.Lowering
