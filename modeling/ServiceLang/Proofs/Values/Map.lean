import ServiceLang.Proofs.Values.History

/-!
# Arrays as maps

What the calls of a history that were not refused say about the array: how far it reaches and which
value was stored last at an index. Over conforming storage the array is exactly that map, whatever
the order of the calls and whichever growths were refused. The relation kept by every call covers
all slots of the storage, so that a slot beyond the size is known to be vacant when the size jumps
past it.
-/

namespace ServiceLang.Values

variable {σ α : Type}

/-- The index that a write was let through to. -/
def Event.reached? : Event α → Option Int
  | ⟨.add index _, .ok _⟩ => some index
  | ⟨.prepare index, .ok _⟩ => some index
  | _ => none

def Event.stored? : Event α → Option (Int × α)
  | ⟨.add index value, .ok _⟩ => some (index, value)
  | _ => none

namespace History

/-- One more than the largest index reached, zero if there is none. -/
def extent (log : List (Event α)) : Int :=
  match (log.filterMap Event.reached?).max? with
  | none => 0
  | some index => 1 + index

/-- A size is the extent of a log when every index reached lies below it and, if it is not zero, the
last one below it was reached. -/
theorem eq_extent {log : List (Event α)} {size : Nat}
    (bounded : ∀ i ∈ log.filterMap Event.reached?, 0 ≤ i ∧ i < size)
    (attained : 0 < size → (size : Int) - 1 ∈ log.filterMap Event.reached?) :
    (size : Int) = extent log := by
  rw [extent]
  generalize log.filterMap Event.reached? = reached at bounded attained
  cases largest : reached.max? with
  | none =>
    rw [List.max?_eq_none_iff] at largest
    subst largest
    by_cases empty : size = 0
    · simp [empty]
    · exact absurd (attained (by omega)) List.not_mem_nil
  | some index =>
    obtain ⟨mem, upper⟩ := List.max?_eq_some_iff.mp largest
    have below := bounded index mem
    have := upper _ (attained (by omega))
    simp only
    omega

/-- The value stored last at an index. -/
def latest (log : List (Event α)) (index : Int) : Option α :=
  (log.filterMap Event.stored?).reverse.lookup index

theorem latest_append (front back : List (Event α)) (index : Int) :
    latest (front ++ back) index = (latest back index).or (latest front index) := by
  simp only [latest, List.filterMap_append, List.reverse_append, List.lookup_append]

theorem latest_add (log : List (Event α)) (index : Int) (value : α) (answer : Answer α) (i : Int) :
    latest (log ++ [⟨.add index value, .ok answer⟩]) i =
      if i = index then some value else latest log i := by
  rw [latest_append]
  by_cases h : i = index
  · subst h
    simp [latest, Event.stored?]
  · have differ : (i == index) = false := by simp [h]
    simp [latest, Event.stored?, List.lookup_cons, h, differ]

/-- An event that stores nothing changes no value. -/
theorem latest_other {event : Event α} (log : List (Event α)) (h : event.stored? = none) (i : Int) :
    latest (log ++ [event]) i = latest log i := by
  rw [latest_append]
  simp [latest, h]

end History

open Limits GrowableArray History

/-- The array shows what a log says: it reaches as far, and each slot of its storage holds the value
stored last, or the default. -/
structure Represents (S : Storage σ α) (fill : α) (a : GrowableArray σ) (log : List (Event α)) :
    Prop where
  bounded : ∀ i ∈ log.filterMap Event.reached?, 0 ≤ i ∧ i < a.size
  attained : 0 < a.size → (a.size : Int) - 1 ∈ log.filterMap Event.reached?
  fits : a.size ≤ maxArraySize
  within : a.size ≤ S.capacity a.storage
  slot : ∀ i : Nat, i < S.capacity a.storage →
    S.slot? a.storage i = some ((latest log i).getD fill)

namespace Represents

variable {S : Storage σ α} {fill : α} {a b : GrowableArray σ} {log : List (Event α)}

theorem empty (hS : S.Conforms fill) : Represents S fill (GrowableArray.empty S) [] where
  bounded i h := by simp at h
  attained h := absurd h (Nat.lt_irrefl 0)
  fits := Nat.zero_le _
  within := Nat.zero_le _
  slot i h := by
    rw [GrowableArray.empty, hS.capacity_create] at h
    exact hS.slot_create _ i h

/-- Nothing has been stored where the array does not reach. -/
theorem vacant (h : Represents S fill a log) {i : Int} (beyond : a.size ≤ i) :
    latest log i = none := by
  cases stored : latest log i with
  | none => rfl
  | some value =>
    obtain ⟨front, back, split, -⟩ := List.lookup_eq_some_iff.mp stored
    have mem : (i, value) ∈ log.filterMap Event.stored? := by
      rw [← List.mem_reverse, split]
      simp
    obtain ⟨event, hevent, heq⟩ := List.mem_filterMap.mp mem
    have reached : i ∈ log.filterMap Event.reached? := by
      refine List.mem_filterMap.mpr ⟨event, hevent, ?_⟩
      rcases event with ⟨call | call | call | call, answer | answer⟩ <;>
        simp_all [Event.stored?, Event.reached?]
    have := h.bounded i reached
    omega

/-- A call that changes nothing and reaches nothing keeps what the array shows. -/
theorem unchanged (h : Represents S fill a log) (same : Unchanged S a b) {event : Event α}
    (reached : event.reached? = none) (stored : event.stored? = none) :
    Represents S fill b (log ++ [event]) where
  bounded i hi := by
    simp only [List.filterMap_append, List.filterMap_cons, reached, List.filterMap_nil,
      List.append_nil] at hi
    rw [same.size]
    exact h.bounded i hi
  attained hpos := by
    simp only [List.filterMap_append, List.filterMap_cons, reached, List.filterMap_nil,
      List.append_nil]
    rw [same.size] at hpos ⊢
    exact h.attained hpos
  fits := same.size ▸ h.fits
  within := by
    rw [same.size, same.storage.capacity]
    exact h.within
  slot i hi := by
    rw [same.storage.capacity] at hi
    rw [same.storage.slot, latest_other log stored]
    exact h.slot i hi

/-- The slots of a prepared array hold what they held before; those that are new were vacant. -/
theorem ready_slot (h : Represents S fill a log) {slot : Nat} (ready : Ready S fill a slot b)
    {i : Nat} (hi : i < S.capacity b.storage) :
    S.slot? b.storage i = some ((latest log i).getD fill) := by
  by_cases old : i < S.capacity a.storage
  · rw [ready.storage.kept i old]
    exact h.slot i old
  · have beyond : (a.size : Int) ≤ (i : Int) := by
      have := h.within
      omega
    rw [ready.storage.filled i (Nat.le_of_not_lt old) hi, h.vacant beyond]
    rfl

/-- A write that is let through extends the reach to its slot; the storage may differ from the
prepared one as long as its slots show the longer log. -/
theorem reach (h : Represents S fill a log) {slot : Nat} (ready : Ready S fill a slot b)
    {event : Event α} (reached : event.reached? = some (slot : Int)) {storage : σ}
    (capacity : S.capacity storage = S.capacity b.storage)
    (slots : ∀ i : Nat, i < S.capacity b.storage →
      S.slot? storage i = some ((latest (log ++ [event]) i).getD fill)) :
    Represents S fill { b with storage := storage } (log ++ [event]) where
  bounded i hi := by
    simp only [List.filterMap_append, List.filterMap_cons, reached, List.filterMap_nil,
      List.mem_append, List.mem_singleton] at hi
    have size := ready.size
    rcases hi with old | new
    · have := h.bounded i old
      simp only
      omega
    · simp only
      omega
  attained _ := by
    simp only [List.filterMap_append, List.filterMap_cons, reached, List.filterMap_nil,
      List.mem_append, List.mem_singleton]
    rw [ready.size]
    by_cases farther : a.size ≤ slot
    · exact .inr (by omega)
    · have same : max a.size (slot + 1) = a.size := by omega
      rw [same]
      exact .inl (h.attained (by omega))
  fits := by
    have := h.fits
    have := ready.fits
    have := ready.size
    simp only
    omega
  within := by
    have := h.within
    have := ready.inside
    have := ready.wider
    have := ready.size
    simp only [capacity]
    omega
  slot i hi := slots i (capacity ▸ hi)

/-- Every call keeps the relation between the array and the log. -/
theorem perform (hS : S.Conforms fill) (h : Represents S fill a log) (call : Call α) :
    Represents S fill (perform S a call).array (log ++ [⟨call, (perform S a call).result⟩]) := by
  cases call with
  | add index value =>
    rcases add_cases hS a index value with
      ⟨e, failed, same, -⟩ | ⟨slot, b, storage, growth, rfl, ready, written, -, added⟩
    · simp only [GrowableArray.perform, failed]
      exact h.unchanged same rfl rfl
    · simp only [GrowableArray.perform, added, Except.map]
      refine h.reach ready rfl (hS.capacity_write _ _ _ _ written) fun i hi => ?_
      rw [hS.slot_write _ _ _ _ written i, latest_add]
      by_cases target : i = slot
      · simp [target]
      · have differ : ¬ (i : Int) = (slot : Int) := by omega
        rw [if_neg target, if_neg differ]
        exact h.ready_slot ready hi
  | prepare index =>
    have prepared := prepareForAdd_prepared S a index
    rcases hp : prepareForAdd S a index with ⟨result, b, growth⟩
    rw [hp] at prepared
    simp only [GrowableArray.perform, hp]
    cases result with
    | error e => exact h.unchanged (prepared.unchanged hS rfl).1 rfl rfl
    | ok slot =>
      obtain ⟨rfl, ready⟩ := prepared.ready hS rfl
      refine h.reach ready rfl rfl fun i hi => ?_
      rw [latest_other log rfl]
      exact h.ready_slot ready hi
  | get index =>
    exact h.unchanged ⟨rfl, Storage.Alike.refl S a.storage⟩ rfl rfl
  | iterate =>
    exact h.unchanged ⟨rfl, Storage.Alike.refl S a.storage⟩ rfl rfl

theorem run (hS : S.Conforms fill) (h : Represents S fill a log) (calls : List (Call α)) :
    Represents S fill (run S a calls).array (log ++ (run S a calls).log) := by
  induction calls generalizing a log with
  | nil => simpa [GrowableArray.run] using h
  | cons call calls ih =>
    have next := ih (h.perform hS call)
    rw [List.append_assoc] at next
    exact next

theorem size_eq (h : Represents S fill a log) : (a.size : Int) = extent log :=
  eq_extent h.bounded h.attained

theorem get_slot (h : Represents S fill a log) {i : Nat} (inside : i < a.size) :
    get S a i = .ok ((latest log i).getD fill) :=
  get_of_slot (Nat.lt_of_lt_of_le inside h.fits) inside
    (h.slot i (Nat.lt_of_lt_of_le inside h.within))

theorem get_iff (h : Represents S fill a log) (index : Int) (value : α) :
    get S a index = .ok value ↔
      (0 ≤ index ∧ index < a.size) ∧ value = (latest log index).getD fill := by
  by_cases inside : 0 ≤ index ∧ index < a.size
  · have isSlot : index = (index.toNat : Int) := by omega
    rw [isSlot, h.get_slot (i := index.toNat) (by omega), ← isSlot]
    simp only [Except.ok.injEq, inside, and_self, true_and]
    exact eq_comm
  · obtain ⟨e, he⟩ := get_outside S inside
    simp [he, inside]

theorem filterMap_eq_map_of_mem {β γ : Type} {f : β → Option γ} {g : β → γ} {l : List β}
    (h : ∀ x ∈ l, f x = some (g x)) : l.filterMap f = l.map g := by
  induction l with
  | nil => rfl
  | cons x l ih =>
    rw [List.filterMap_cons, h x List.mem_cons_self, List.map_cons,
      ih fun y hy => h y (List.mem_cons_of_mem x hy)]

theorem elements_eq (h : Represents S fill a log) :
    (elements S a).map Except.ok = (List.range a.size).map fun i : Nat => get S a i := by
  have count : GrowableArray.count S a = a.size := Nat.min_eq_left h.within
  have held : ∀ i ∈ List.range a.size,
      S.slot? a.storage i = some ((latest log (i : Int)).getD fill) := fun i hi =>
    h.slot i (Nat.lt_of_lt_of_le (List.mem_range.mp hi) h.within)
  simp only [elements, window, count, Nat.sub_zero, Nat.min_self, ← List.range_eq_range']
  rw [filterMap_eq_map_of_mem held, List.map_map]
  exact List.map_congr_left fun i hi => (h.get_slot (List.mem_range.mp hi)).symm

end Represents

/-- An array over conforming storage is the map that its history describes. -/
theorem history_determines_array {S : Storage σ α} {fill : α} (hS : S.Conforms fill)
    (calls : List (Call α)) :
    let r := run S (GrowableArray.empty S) calls
    (r.array.size : Int) = extent r.log ∧
    (∀ index value, get S r.array index = .ok value ↔
      (0 ≤ index ∧ index < r.array.size) ∧ value = (latest r.log index).getD fill) ∧
    (elements S r.array).map Except.ok =
      (List.range r.array.size).map fun i : Nat => get S r.array i := by
  have represents := (Represents.empty hS).run hS calls
  rw [List.nil_append] at represents
  exact ⟨represents.size_eq, represents.get_iff, represents.elements_eq⟩

/-- A growth is refused, and the slots behind a jump of the size show the default. -/
theorem history_with_refusal :
    let S := Storage.scripted (Row.cells (α := Int)) [true, false]
    let r := run S (GrowableArray.empty S) [.add 150 4, .add 250 5, .add 150 7]
    S.Conforms 0 ∧ r.array.size = 151 ∧ get S r.array 150 = .ok 7 ∧ get S r.array 120 = .ok 0 := by
  intro S r
  have hS : S.Conforms 0 := Storage.scripted_conforms Row.cells_lawful _
  obtain ⟨size, get, -⟩ := history_determines_array hS [.add 150 4, .add 250 5, .add 150 7]
  have shown : (extent r.log, latest r.log 150, latest r.log 120) = (151, some 7, none) := by
    decide +kernel
  simp only [Prod.mk.injEq] at shown
  have size : r.array.size = 151 := Int.ofNat.inj (size.trans shown.1)
  refine ⟨hS, size, (get 150 7).mpr ⟨?_, ?_⟩, (get 120 0).mpr ⟨?_, ?_⟩⟩
  · rw [size]
    decide
  · rw [shown.2.1]
    rfl
  · rw [size]
    decide
  · rw [shown.2.2]
    rfl

end ServiceLang.Values
