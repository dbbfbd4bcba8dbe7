import ServiceLang.Proofs.Json.Records

/-!
# Members in any order

A record is read from an object whatever the order of its members, and others may be among them
under names that are no fields. These are passed over, so that all that matters is that their values
are not broken off.
-/

namespace ServiceLang.Json

variable {α β σ τ : Type}

namespace Document

theorem completeMembers_iff (ms : List (Option String × Document)) :
    CompleteMembers ms ↔ ∀ m ∈ ms, m.2.Complete := by
  induction ms with
  | nil => exact ⟨fun _ => List.forall_mem_nil _, fun _ => trivial⟩
  | cons m ms ih => rw [CompleteMembers, ih, List.forall_mem_cons]

theorem completeItems_iff (ds : List Document) : CompleteItems ds ↔ ∀ d ∈ ds, d.Complete := by
  induction ds with
  | nil => exact ⟨fun _ => List.forall_mem_nil _, fun _ => trivial⟩
  | cons d ds ih => rw [CompleteItems, ih, List.forall_mem_cons]

/-- How deep an object goes does not depend on the order of its members. -/
theorem depthOfMembers_perm {ms ns : List (Option String × Document)} (perm : ms.Perm ns) :
    depthOfMembers ms = depthOfMembers ns := by
  induction perm with
  | nil => rfl
  | cons m _ ih => rw [depthOfMembers, depthOfMembers, ih]
  | swap m n ms =>
    rw [depthOfMembers, depthOfMembers, depthOfMembers, depthOfMembers, Nat.max_left_comm]
  | trans _ _ first second => exact first.trans second

mutual

/-- A complete document is skipped without complaint, whatever is in it. -/
theorem skip_complete (d : Document) (complete : d.Complete) : d.skip = .ok () := by
  cases d with
  | array items ending =>
    obtain ⟨rfl, complete⟩ := complete
    rw [skip, skipItems_complete items complete]
    rfl
  | object members ending =>
    obtain ⟨rfl, complete⟩ := complete
    rw [skip, skipMembers_complete members complete]
    · rfl
    · intro sound same
      cases same
  | fault f => exact complete.elim
  | _ => rfl

theorem skipItems_complete (ds : List Document) (complete : CompleteItems ds) :
    skipItems ds = .ok () := by
  cases ds with
  | nil => rfl
  | cons d ds =>
    rw [skipItems, skip_complete d complete.1]
    exact skipItems_complete ds complete.2

theorem skipMembers_complete (ms : List (Option String × Document))
    (complete : CompleteMembers ms) : skipMembers ms = .ok () := by
  cases ms with
  | nil => rfl
  | cons m ms =>
    obtain ⟨key, d⟩ := m
    rw [skipMembers, skip_complete d complete.1]
    exact skipMembers_complete ms complete.2

end

end Document

namespace Fields

open Reader

/-- The fields are read from the members of an object, in whatever order these stand. -/
def Collects (limit : Nat) (fs : Fields σ α) (ms : List (Option String × Document)) (a : α) :
    Prop :=
  ∀ ns, ns.Perm ms → fs.Gathers limit ns a

/-- A name that is absent is absent in any order. -/
theorem absent_perm {name : String} {ms ns : List (Option String × Document)} (perm : ms.Perm ns)
    (absent : Absent name ns) : Absent name ms := by
  intro member
  exact absent ((perm.map Prod.fst).mem_iff.mp member)

section

variable {limit : Nat} {name : String} {r : Reader α} {presence : Presence α}
  {others : Fields τ β} {ms : List (Option String × Document)}

/-- A member under the name of the first field is its value, and the others are read from the
rest. -/
theorem Collects.field {d : Document} {a : α} {b : β} (absent : Absent name ms)
    (value : Reads limit r d a) (rest : Collects limit others ms b) :
    Collects limit (Fields.field name r presence others) ((some name, d) :: ms) (a, b) := by
  intro ns perm
  have member : (some name, d) ∈ ns := perm.mem_iff.mpr List.mem_cons_self
  obtain ⟨front, back, rfl⟩ := List.append_of_mem member
  have around : (front ++ back).Perm ms := (List.perm_middle.symm.trans perm).cons_inv
  obtain ⟨absentFront, absentBack⟩ := (absent_append ..).mp (absent_perm around absent)
  exact Gathers.field absentFront absentBack value (rest _ around)

/-- Without a member under its name the first field has its default. -/
theorem Collects.default {a : α} {b : β} (absent : Absent name ms)
    (value : presence.inObject = some a) (rest : Collects limit others ms b) :
    Collects limit (Fields.field name r presence others) ms (a, b) := by
  intro ns perm
  exact Gathers.default (absent_perm perm absent) value (rest ns perm)

/-- Members under names that are no fields. -/
def Foreign (names : List String) (ms : List (Option String × Document)) : Prop :=
  ∀ m ∈ ms, ∃ name, m.1 = some name ∧ name ∉ names

/-- No field is named by a foreign member. -/
theorem Foreign.absent {names : List String} (foreign : Foreign names ms) (field : name ∈ names) :
    Absent name ms := by
  intro member
  obtain ⟨m, listed, same⟩ := List.mem_map.mp member
  obtain ⟨other, key, noField⟩ := foreign m listed
  rw [key] at same
  cases same
  exact noField field

theorem members_none {names : List String} (foreign : Foreign names ms)
    (complete : ∀ m ∈ ms, m.2.Complete) (budget : Nat) :
    Fields.none.members budget () ms = .ok () := by
  induction ms with
  | nil => rfl
  | cons m ms ih =>
    obtain ⟨key, d⟩ := m
    obtain ⟨⟨name, rfl, -⟩, others⟩ := List.forall_mem_cons.mp foreign
    obtain ⟨first, rest⟩ := List.forall_mem_cons.mp complete
    change (d.skip >>= fun _ => Fields.none.members budget () ms) = _
    rw [Document.skip_complete d first]
    exact ih others rest

/-- Foreign members are read past when nothing else is wanted. -/
theorem Collects.none {names : List String} (foreign : Foreign names ms)
    (complete : ∀ m ∈ ms, m.2.Complete) : Collects limit Fields.none ms () := by
  intro ns perm budget _ _
  have foreign : Foreign names ns := fun m member => foreign m (perm.mem_iff.mp member)
  have complete : ∀ m ∈ ns, m.2.Complete := fun m member => complete m (perm.mem_iff.mp member)
  exact ⟨(), members_none foreign complete budget, rfl⟩

end

/-- The document is an object with the given members, and with any number of others under names
that are no fields, in any order. -/
def Laid (names : List String) (core : List (Option String × Document)) (d : Document) : Prop :=
  ∃ ms others, d = .object ms .closed ∧ ms.Perm (core ++ others) ∧ Foreign names others

section

variable {names : List String} {core : List (Option String × Document)} {d : Document}

theorem Laid.complete_core (laid : Laid names core d) (complete : d.Complete) :
    ∀ m ∈ core, m.2.Complete := by
  obtain ⟨ms, others, rfl, perm, -⟩ := laid
  have all := (Document.completeMembers_iff ms).mp complete.2
  exact fun m member => all m (perm.mem_iff.mpr (List.mem_append_left others member))

/-- A record is read if its fields are collected from the given members and any others. -/
theorem Laid.reads {limit : Nat} {fs : Fields σ α} {a : α} (laid : Laid names core d)
    (complete : d.Complete)
    (collects : ∀ others, Foreign names others → (∀ m ∈ others, m.2.Complete) →
      Collects limit fs (core ++ others) a) (what : String) :
    Reads (limit + 1) (fs.reader what) d a := by
  obtain ⟨ms, others, rfl, perm, foreign⟩ := laid
  have all := (Document.completeMembers_iff ms).mp complete.2
  have sound : ∀ m ∈ others, m.2.Complete :=
    fun m member => all m (perm.mem_iff.mpr (List.mem_append_right core member))
  exact (collects others foreign sound ms perm).reads what

end

end Fields

end ServiceLang.Json
