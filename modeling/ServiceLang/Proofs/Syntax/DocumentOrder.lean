import ServiceLang.Proofs.Syntax.Significant

/-!
# Document order

Every node of a tree stands at the end of exactly one path of child positions. Listed by their
paths, in lexicographic order, the nodes come parents before children and siblings from first to
last. The error nodes of a tree are listed in this order, whatever stands above them.
-/

namespace ServiceLang.Syntax.Node

mutual

/-- All nodes of a tree in document order, each with its path. -/
def located : Node → List (List Nat × Node)
  | ⟨kind, span, children, text⟩ => ([], ⟨kind, span, children, text⟩) :: locatedFrom 0 children

/-- The nodes in and below siblings of which the first one stands at the given position. -/
def locatedFrom : Nat → List Node → List (List Nat × Node)
  | _, [] => []
  | i, c :: cs => (located c).map (fun place => (i :: place.1, place.2)) ++ locatedFrom (i + 1) cs

end

theorem located_eq (n : Node) : n.located = ([], n) :: locatedFrom 0 n.children := by
  cases n
  rw [located]

theorem mem_locatedFrom {cs : List Node}
    (ih : ∀ c ∈ cs, ∀ path m, (path, m) ∈ c.located ↔ c.at? path = some m) (i : Nat)
    (path : List Nat) (m : Node) :
    (path, m) ∈ locatedFrom i cs ↔
      ∃ j rest, path = (i + j) :: rest ∧ (cs[j]?).bind (at? · rest) = some m := by
  induction cs generalizing i with
  | nil => simp [locatedFrom]
  | cons c cs rest =>
    have later := rest (fun d hd => ih d (List.mem_cons_of_mem c hd)) (i + 1)
    rw [locatedFrom, List.mem_append, later, List.mem_map]
    constructor
    · rintro (⟨⟨path', m'⟩, member, same⟩ | ⟨j, path', rfl, found⟩)
      · cases same
        exact ⟨0, path', rfl, (ih c List.mem_cons_self path' m').mp member⟩
      · exact ⟨j + 1, path', by rw [Nat.add_right_comm, Nat.add_assoc], found⟩
    · rintro ⟨j, path', rfl, found⟩
      cases j with
      | zero => exact Or.inl ⟨(path', m), (ih c List.mem_cons_self path' m).mpr found, rfl⟩
      | succ j => exact Or.inr ⟨j, path', by rw [Nat.add_right_comm, Nat.add_assoc], found⟩

/-- The list holds exactly the nodes that paths lead to. -/
theorem mem_located (n : Node) (path : List Nat) (m : Node) :
    (path, m) ∈ n.located ↔ n.at? path = some m := by
  induction n using Node.induction generalizing path m with
  | step n ih =>
    rw [located_eq, List.mem_cons, mem_locatedFrom ih]
    cases path with
    | nil =>
      rw [at?]
      simp [eq_comm]
    | cons i path =>
      rw [at?]
      constructor
      · rintro (here | ⟨j, rest, same, found⟩)
        · cases here
        · rw [Nat.zero_add] at same
          cases same
          exact found
      · intro found
        exact Or.inr ⟨i, path, by rw [Nat.zero_add], found⟩

/-- The paths of later siblings begin with greater positions. -/
theorem pairwise_locatedFrom {cs : List Node}
    (ih : ∀ c ∈ cs, (c.located.map Prod.fst).Pairwise (· < ·)) (i : Nat) :
    ((locatedFrom i cs).map Prod.fst).Pairwise (· < ·) ∧
    ∀ path ∈ (locatedFrom i cs).map Prod.fst, ∃ j rest, path = j :: rest ∧ i ≤ j := by
  induction cs generalizing i with
  | nil => exact ⟨List.Pairwise.nil, fun path member => absurd member List.not_mem_nil⟩
  | cons c cs rest =>
    obtain ⟨ordered, later⟩ := rest (fun d hd => ih d (List.mem_cons_of_mem c hd)) (i + 1)
    have first := ih c List.mem_cons_self
    have split : (locatedFrom i (c :: cs)).map Prod.fst =
        (c.located.map Prod.fst).map (i :: ·) ++ (locatedFrom (i + 1) cs).map Prod.fst := by
      rw [locatedFrom, List.map_append, List.map_map, List.map_map]
      rfl
    rw [split]
    constructor
    · rw [List.pairwise_append]
      refine ⟨?_, ordered, ?_⟩
      · rw [List.pairwise_map]
        exact first.imp fun less => List.cons_lt_cons_iff.mpr (Or.inr ⟨rfl, less⟩)
      · intro path member path' member'
        obtain ⟨tail, -, rfl⟩ := List.mem_map.mp member
        obtain ⟨j, tail', rfl, beyond⟩ := later path' member'
        exact List.cons_lt_cons_iff.mpr (Or.inl beyond)
    · intro path member
      rcases List.mem_append.mp member with here | beyond
      · obtain ⟨tail, -, rfl⟩ := List.mem_map.mp here
        exact ⟨i, tail, rfl, Nat.le_refl i⟩
      · obtain ⟨j, tail, rfl, bound⟩ := later path beyond
        exact ⟨j, tail, rfl, by omega⟩

/-- The list is in strict lexicographic order of the paths. -/
theorem pairwise_located (n : Node) : (n.located.map Prod.fst).Pairwise (· < ·) := by
  induction n using Node.induction with
  | step n ih =>
    obtain ⟨ordered, below⟩ := pairwise_locatedFrom ih 0
    rw [located_eq, List.map_cons, List.pairwise_cons]
    refine ⟨?_, ordered⟩
    intro path member
    obtain ⟨j, rest, rfl, -⟩ := below path member
    exact List.nil_lt_cons j rest

theorem errorNodesIn_eq_located {cs : List Node}
    (ih : ∀ c ∈ cs, c.errorNodes = (c.located.filter (·.2.isError)).map Prod.snd) (i : Nat) :
    errorNodesIn cs = ((locatedFrom i cs).filter (·.2.isError)).map Prod.snd := by
  induction cs generalizing i with
  | nil => rfl
  | cons c cs rest =>
    rw [errorNodesIn, locatedFrom, List.filter_append, List.map_append, List.filter_map,
      List.map_map, ih c List.mem_cons_self,
      rest (fun d hd => ih d (List.mem_cons_of_mem c hd)) (i + 1)]
    rfl

/-- The error nodes are collected in document order. -/
theorem errorNodes_eq_located (n : Node) :
    n.errorNodes = (n.located.filter (·.2.isError)).map Prod.snd := by
  induction n using Node.induction with
  | step n ih =>
    rw [errorNodes_eq, located_eq, errorNodesIn_eq_located ih 0, List.filter_cons]
    by_cases error : n.kind = .error
    · simp [error, isError]
    · simp [error, isError]

/-- The error nodes of a tree in document order, each with its path. -/
def errorPlaces (n : Node) : List (List Nat × Node) := n.located.filter (·.2.isError)

/-- The list holds exactly the error nodes that paths lead to, wherever they are. -/
theorem mem_errorPlaces (n : Node) (path : List Nat) (m : Node) :
    (path, m) ∈ n.errorPlaces ↔ n.at? path = some m ∧ m.kind = .error := by
  rw [errorPlaces, List.mem_filter, mem_located, isError, beq_iff_eq]

theorem pairwise_errorPlaces (n : Node) : (n.errorPlaces.map Prod.fst).Pairwise (· < ·) :=
  (pairwise_located n).sublist (List.filter_sublist.map Prod.fst)

end ServiceLang.Syntax.Node
