import ServiceLang.Proofs.Values.Map

/-!
# Arrays over any storage

Nothing is assumed here of how storage is created and of how it grows: it may have any number of
slots to begin with, and asked to grow it may refuse, fall short, shrink, or change what it holds.
Only its capacity, its reads and its writes have to speak of the same slots. The array keeps its
limits all the same. What it asks of its storage is seen by a storage that keeps a record beside the
slots and is otherwise the same.
-/

namespace ServiceLang.Values

open Limits GrowableArray History

variable {σ ρ α : Type}

/-- The index that a call prepares for writing. -/
def Call.target? : Call α → Option Int
  | .add index _ => some index
  | .prepare index => some index
  | _ => none

namespace Storage

/-- The same storage with a record of the capacities that it is asked to grow to. -/
def recording (S : Storage σ α) : Storage (σ × List Nat) α where
  withCapacity n := (S.withCapacity n, [])
  capacity s := S.capacity s.1
  slot? s := S.slot? s.1
  write? s i a := (S.write? s.1 i a).map fun t => (t, s.2)
  grow s n := ((S.grow s.1 n).1, (S.grow s.1 n).2, s.2 ++ [n])

/-- Whatever the ration, capacity, reads and writes are those of the row. -/
theorem rationed_coherent {R : Row ρ α} {fill : α} (hR : R.Lawful fill) (ration : Ration) :
    (rationed R ration).Coherent where
  slot_isSome s := hR.slot_isSome s.row
  write_isSome s i a := by
    simp only [rationed, Option.isSome_map]
    exact hR.write_isSome s.row i a
  capacity_write s i a t h := by
    obtain ⟨row, hrow, rfl⟩ := Option.map_eq_some_iff.mp h
    exact hR.size_write s.row i a row hrow
  slot_write s i a t h := by
    obtain ⟨row, hrow, rfl⟩ := Option.map_eq_some_iff.mp h
    exact hR.slot_write s.row i a row hrow

end Storage

namespace GrowableArray

def recorded (a : GrowableArray σ) (asked : List Nat) : GrowableArray (σ × List Nat) :=
  ⟨a.size, a.storage, asked⟩

/-- The capacities that storage is asked to grow to in the course of a call. -/
def requests (S : Storage σ α) (a : GrowableArray σ) (call : Call α) : List Nat :=
  (perform S.recording (a.recorded []) call).array.storage.2

/-- The capacities asked for in the course of a history. -/
def requested (S : Storage σ α) (a : GrowableArray σ) : List (Call α) → List Nat
  | [] => []
  | call :: calls => requests S a call ++ requested S (perform S a call).array calls

/-- The preparation that a call begins with, and what comes of it. -/
def preparation (S : Storage σ α) (a : GrowableArray σ) (call : Call α) : List (Event α) :=
  call.target?.toList.map fun index =>
    ⟨.prepare index, (prepareForAdd S a index).result.map .slot⟩

/-- The preparations made in the course of a history. -/
def preparations (S : Storage σ α) (a : GrowableArray σ) : List (Call α) → List (Event α)
  | [] => []
  | call :: calls => preparation S a call ++ preparations S (perform S a call).array calls

/-- The size and all slots but one are the same, and that one holds a value. -/
structure Stored (S : Storage σ α) (slot : Nat) (value : α) (a b : GrowableArray σ) : Prop where
  size : b.size = a.size
  capacity : capacity S b = capacity S a
  slot : ∀ i, S.slot? b.storage i = if i = slot then some value else S.slot? a.storage i

section

variable (S : Storage σ α) (a : GrowableArray σ)

/-- What a call may ask for: nothing, or once a capacity within the limit that is larger than what
is there and holds the slot. -/
def AsksAtMostOnce (target? : Option Int) (asked : List Nat) : Prop :=
  asked = [] ∨ ∃ slot n : Nat, target? = some (slot : Int) ∧ asked = [n] ∧
    slot < n ∧ n ≤ maxArraySize ∧ capacity S a < n

/-- Keeping a record changes nothing else about a preparation. -/
theorem prepareForAdd_recording (index : Int) :
    let s := prepareForAdd S a index
    ∃ new, AsksAtMostOnce S a (some index) new ∧ ∀ asked,
      prepareForAdd S.recording (a.recorded asked) index =
        ⟨s.result, s.array.recorded (asked ++ new), s.growth⟩ := by
  rcases slotFor_cases index a.size with ⟨e, he, -⟩ | ⟨slot, hslot, rfl, -⟩
  · refine ⟨[], .inl rfl, fun asked => ?_⟩
    simp only [prepareForAdd, recorded, he, List.append_nil]
  by_cases above : maxArraySize ≤ slot
  · have exceeded : requiredCapacity slot (S.capacity a.storage) =
        .error (.sizeExceeded slot maxArraySize) := if_pos above
    refine ⟨[], .inl rfl, fun asked => ?_⟩
    simp only [prepareForAdd, recorded, Storage.recording, hslot, exceeded, List.append_nil]
  have fits : slot < maxArraySize := Nat.not_le.mp above
  rcases requiredCapacity_cases (S.capacity a.storage) fits with ⟨h, -⟩ | ⟨h, short⟩
  · refine ⟨[], .inl rfl, fun asked => ?_⟩
    simp only [prepareForAdd, recorded, Storage.recording, hslot, h, reach, List.append_nil]
  · refine ⟨[blockEnd slot], .inr ⟨slot, blockEnd slot, rfl, rfl, lt_blockEnd fits,
      Nat.min_le_right _ _, short⟩, fun asked => ?_⟩
    rcases grow : S.grow a.storage (blockEnd slot) with ⟨result, storage⟩
    cases result with
    | error e => simp only [prepareForAdd, recorded, Storage.recording, hslot, h, grow]
    | ok => simp only [prepareForAdd, recorded, Storage.recording, hslot, h, grow, reach]

theorem perform_recording (call : Call α) :
    let s := perform S a call
    ∃ new, AsksAtMostOnce S a call.target? new ∧ ∀ asked,
      perform S.recording (a.recorded asked) call =
        ⟨s.result, s.array.recorded (asked ++ new), s.growth⟩ := by
  cases call with
  | add index value =>
    obtain ⟨new, once, prepared⟩ := prepareForAdd_recording S a index
    refine ⟨new, once, fun asked => ?_⟩
    simp only [perform, add, prepared asked]
    cases (prepareForAdd S a index).result with
    | error e => rfl
    | ok slot =>
      simp only [recorded, Storage.recording]
      cases S.write? (prepareForAdd S a index).array.storage slot value <;> rfl
  | prepare index =>
    obtain ⟨new, once, prepared⟩ := prepareForAdd_recording S a index
    exact ⟨new, once, fun asked => by simp only [perform, prepared asked]⟩
  | get index => exact ⟨[], .inl rfl, fun asked => by rw [List.append_nil]; rfl⟩
  | iterate => exact ⟨[], .inl rfl, fun asked => by rw [List.append_nil]; rfl⟩

theorem requests_once (call : Call α) : AsksAtMostOnce S a call.target? (requests S a call) := by
  obtain ⟨new, once, performed⟩ := perform_recording S a call
  rw [requests, performed []]
  exact once

theorem perform_recorded (call : Call α) (asked : List Nat) :
    let s := perform S a call
    perform S.recording (a.recorded asked) call =
      ⟨s.result, s.array.recorded (asked ++ requests S a call), s.growth⟩ := by
  obtain ⟨new, -, performed⟩ := perform_recording S a call
  have same : requests S a call = new := by rw [requests, performed []]; rfl
  rw [same]
  exact performed asked

/-- A history with a record is the history without it, beside all that was asked for. -/
theorem run_recorded (calls : List (Call α)) (asked : List Nat) :
    let r := run S a calls
    run S.recording (a.recorded asked) calls =
      ⟨r.array.recorded (asked ++ requested S a calls), r.log, r.growths⟩ := by
  induction calls generalizing a asked with
  | nil => simp only [run, requested, List.append_nil]
  | cons call calls ih =>
    simp only [run, requested, perform_recorded, ih, List.append_assoc]

/-- A preparation that fails keeps the size; one that succeeds extends it to the slot. -/
theorem prepareForAdd_size (index : Int) :
    let s := prepareForAdd S a index
    (∃ e, s.result = .error e ∧ s.array.size = a.size) ∨
    ∃ slot : Nat, index = slot ∧ slot < maxArraySize ∧ s.result = .ok slot ∧
      s.array.size = max a.size (slot + 1) := by
  have prepared := prepareForAdd_prepared S a index
  generalize prepareForAdd S a index = s at prepared
  cases prepared with
  | unfit e unfit => exact .inl ⟨e, rfl, rfl⟩
  | present slot isSlot fits inside => exact .inr ⟨slot, isSlot, fits, rfl, rfl⟩
  | refused slot isSlot fits short e storage grow => exact .inl ⟨e, rfl, rfl⟩
  | grown slot isSlot fits short storage grow => exact .inr ⟨slot, isSlot, fits, rfl, rfl⟩

theorem add_size (index : Int) (value : α) :
    (add S a index value).array.size = (prepareForAdd S a index).array.size := by
  rw [add]
  cases (prepareForAdd S a index).result with
  | error e => rfl
  | ok slot =>
    cases written : S.write? (prepareForAdd S a index).array.storage slot value with
    | none => simp only [written]
    | some storage => simp only [written]

end

/-- The array reaches exactly as far as the preparations in a log that succeeded. -/
structure Covers (a : GrowableArray σ) (log : List (Event α)) : Prop where
  bounded : ∀ i ∈ log.filterMap Event.reached?, 0 ≤ i ∧ i < a.size
  attained : 0 < a.size → (a.size : Int) - 1 ∈ log.filterMap Event.reached?
  fits : a.size ≤ maxArraySize

namespace Covers

variable {S : Storage σ α} {a b : GrowableArray σ} {log : List (Event α)}

theorem empty (S : Storage σ α) : Covers (GrowableArray.empty S) ([] : List (Event α)) where
  bounded i h := by simp at h
  attained h := absurd h (Nat.lt_irrefl 0)
  fits := Nat.zero_le _

/-- Something that reaches nothing and keeps the size keeps the reach. -/
theorem unchanged (h : Covers a log) (same : b.size = a.size) {new : List (Event α)}
    (reached : new.filterMap Event.reached? = []) : Covers b (log ++ new) where
  bounded i hi := by
    rw [List.filterMap_append, reached, List.append_nil] at hi
    rw [same]
    exact h.bounded i hi
  attained pos := by
    rw [List.filterMap_append, reached, List.append_nil]
    rw [same] at pos ⊢
    exact h.attained pos
  fits := same ▸ h.fits

theorem extended (h : Covers a log) {slot : Nat} (fits : slot < maxArraySize)
    (size : b.size = max a.size (slot + 1)) {new : List (Event α)}
    (reached : new.filterMap Event.reached? = [(slot : Int)]) : Covers b (log ++ new) where
  bounded i hi := by
    rw [List.filterMap_append, reached, List.mem_append, List.mem_singleton] at hi
    rcases hi with old | new
    · have := h.bounded i old
      omega
    · omega
  attained _ := by
    rw [List.filterMap_append, reached, List.mem_append, List.mem_singleton, size]
    by_cases farther : a.size ≤ slot
    · exact .inr (by omega)
    · have same : max a.size (slot + 1) = a.size := by omega
      rw [same]
      exact .inl (h.attained (by omega))
  fits := by
    have := h.fits
    omega

theorem prepared (h : Covers a log) (index : Int)
    (same : b.size = (prepareForAdd S a index).array.size) :
    Covers b (log ++ [⟨.prepare index, (prepareForAdd S a index).result.map .slot⟩]) := by
  rcases prepareForAdd_size S a index with ⟨e, failed, size⟩ | ⟨slot, rfl, fits, done, size⟩
  · rw [failed]
    exact h.unchanged (same.trans size) rfl
  · rw [done]
    exact h.extended fits (same.trans size) rfl

theorem perform (h : Covers a log) (call : Call α) :
    Covers (perform S a call).array (log ++ preparation S a call) := by
  cases call with
  | add index value => exact h.prepared index (add_size S a index value)
  | prepare index => exact h.prepared index rfl
  | get index => exact h.unchanged rfl rfl
  | iterate => exact h.unchanged rfl rfl

theorem run (h : Covers a log) (calls : List (Call α)) :
    Covers (run S a calls).array (log ++ preparations S a calls) := by
  induction calls generalizing a log with
  | nil =>
    rw [preparations, List.append_nil]
    exact h
  | cons call calls ih =>
    rw [preparations, ← List.append_assoc]
    exact ih (h.perform call)

end Covers

section

variable {S : Storage σ α} {a : GrowableArray σ}

theorem size_le_prepareForAdd (S : Storage σ α) (a : GrowableArray σ) (index : Int) :
    a.size ≤ (prepareForAdd S a index).array.size := by
  rcases prepareForAdd_size S a index with ⟨e, -, size⟩ | ⟨slot, -, -, -, size⟩
  · exact Nat.le_of_eq size.symm
  · rw [size]
    exact Nat.le_max_left _ _

theorem size_le_perform (S : Storage σ α) (a : GrowableArray σ) (call : Call α) :
    a.size ≤ (perform S a call).array.size := by
  cases call with
  | add index value =>
    have prepared := size_le_prepareForAdd S a index
    rw [← add_size S a index value] at prepared
    exact prepared
  | prepare index => exact size_le_prepareForAdd S a index
  | get index => exact Nat.le_refl _
  | iterate => exact Nat.le_refl _

/-- A read gives what the slot holds, if the index is below the size and the slot is there. -/
theorem get_iff_slot (hS : S.Coherent) (fits : a.size ≤ maxArraySize) (index : Int) (value : α) :
    get S a index = .ok value ↔
      (0 ≤ index ∧ index < min a.size (capacity S a)) ∧
        S.slot? a.storage index.toNat = some value := by
  by_cases inside : 0 ≤ index ∧ index < a.size
  · have isSlot : index = (index.toNat : Int) := by omega
    have below : index.toNat < a.size := by omega
    have there := hS.slot_isSome a.storage index.toNat
    cases held : S.slot? a.storage index.toNat with
    | none =>
      have absent : get S a index = .error (.indexOutOfRange index a.size) := by
        rw [isSlot, get, slotWithin_of_lt (by omega) below]
        simp only [held]
      simp [absent]
    | some stored =>
      rw [held] at there
      have reach : index.toNat < S.capacity a.storage := there.mp rfl
      have within : 0 ≤ index ∧ index < min a.size (capacity S a) := by
        rw [capacity]
        omega
      have present : get S a index = .ok stored := by
        rw [isSlot]
        exact get_of_slot (by omega) below held
      rw [present]
      constructor
      · intro same
        cases same
        exact ⟨within, rfl⟩
      · rintro ⟨-, same⟩
        cases same
        rfl
  · obtain ⟨e, outside⟩ := get_outside S inside
    rw [outside]
    constructor
    · intro done
      cases done
    · rintro ⟨within, -⟩
      exact absurd ⟨within.1, by omega⟩ inside

theorem get_isOk_iff (hS : S.Coherent) (fits : a.size ≤ maxArraySize) (index : Int) :
    (get S a index).isOk = true ↔ 0 ≤ index ∧ index < min a.size (capacity S a) := by
  constructor
  · intro done
    cases got : get S a index with
    | error e =>
      rw [got] at done
      cases done
    | ok value => exact ((get_iff_slot hS fits index value).mp got).1
  · intro within
    have there : index.toNat < S.capacity a.storage := by
      have := within.2
      rw [capacity] at this
      omega
    obtain ⟨value, held⟩ := Option.isSome_iff_exists.mp ((hS.slot_isSome _ _).mpr there)
    rw [(get_iff_slot hS fits index value).mpr ⟨within, held⟩]
    rfl

/-- Going through the array gives the slots below its size, as far as they are there. -/
theorem elements_slots (hS : S.Coherent) (a : GrowableArray σ) :
    (elements S a).map some =
      (List.range (min a.size (capacity S a))).map (S.slot? a.storage) := by
  have held : ∀ slot ∈ (List.range (min a.size (capacity S a))).map (S.slot? a.storage),
      slot.isSome = true := by
    intro slot member
    obtain ⟨i, inside, rfl⟩ := List.mem_map.mp member
    rw [List.mem_range, capacity] at inside
    exact (hS.slot_isSome _ _).mpr (by omega)
  simp only [elements, window, Nat.sub_zero, Nat.min_self, ← List.range_eq_range']
  rw [List.map_filterMap_some_eq_filter_map_isSome]
  exact List.filter_eq_self.mpr held

/-- Once its index is prepared, a write depends on whether the slot is there and on nothing else. -/
theorem add_of_ready (hS : S.Coherent) {index : Int} {slot : Nat} (value : α)
    (prepared : (prepareForAdd S a index).result = .ok slot) :
    let b := (prepareForAdd S a index).array
    let s := add S a index value
    (s.result = .ok () ∧ slot < capacity S b ∧ Stored S slot value b s.array) ∨
    (s.result = .error (.indexOutOfRange index b.size) ∧ ¬ slot < capacity S b ∧ s.array = b) := by
  intro b s
  have there := hS.write_isSome b.storage slot value
  cases written : S.write? b.storage slot value with
  | none =>
    rw [written] at there
    have absent : ¬ slot < capacity S b := fun inside => by cases there.mpr inside
    have failed : s =
        ⟨.error (.indexOutOfRange index b.size), b, (prepareForAdd S a index).growth⟩ := by
      simp only [s, add, prepared, b, written]
    rw [failed]
    exact .inr ⟨rfl, absent, rfl⟩
  | some storage =>
    rw [written] at there
    have done : s =
        ⟨.ok (), { b with storage := storage }, (prepareForAdd S a index).growth⟩ := by
      simp only [s, add, prepared, b, written]
    rw [done]
    exact .inl ⟨rfl, there.mp rfl, rfl, hS.capacity_write _ _ _ _ written,
      hS.slot_write _ _ _ _ written⟩

/-- Whatever storage does when it is created or asked to grow, after any history the array is as
large as the farthest preparation made it and no larger than the limit. A call asks storage at most
once to grow, and for no more than the limit; a read gives a slot that is there, and a write changes
the slot of its index or says that it is not there. -/
theorem limits_hold_over_any_storage (hS : S.Coherent) (calls : List (Call α)) :
    let r := run S (empty S) calls
    let a := r.array
    a.size ≤ maxArraySize ∧
    (a.size : Int) = extent (preparations S (empty S) calls) ∧
    (∀ call, a.size ≤ (perform S a call).array.size) ∧
    run S.recording (empty S.recording) calls =
      ⟨a.recorded (requested S (empty S) calls), r.log, r.growths⟩ ∧
    (∀ call, AsksAtMostOnce S a call.target? (requests S a call)) ∧
    (∀ index, (get S a index).isOk = true ↔ 0 ≤ index ∧ index < min a.size (capacity S a)) ∧
    (∀ index value, get S a index = .ok value → S.slot? a.storage index.toNat = some value) ∧
    (elements S a).map some =
      (List.range (min a.size (capacity S a))).map (S.slot? a.storage) ∧
    ∀ index slot value, (prepareForAdd S a index).result = .ok slot →
      let b := (prepareForAdd S a index).array
      let s := add S a index value
      (index = slot ∧ b.size = max a.size (slot + 1)) ∧
      ((s.result = .ok () ∧ slot < capacity S b ∧ Stored S slot value b s.array) ∨
      (s.result = .error (.indexOutOfRange index b.size) ∧ ¬ slot < capacity S b ∧
        s.array = b)) := by
  intro r a
  have covers : Covers a (preparations S (empty S) calls) := (Covers.empty S).run calls
  refine ⟨covers.fits, eq_extent covers.bounded covers.attained, size_le_perform S a,
    run_recorded S (empty S) calls [], requests_once S a, get_isOk_iff hS covers.fits,
    fun index value got => ((get_iff_slot hS covers.fits index value).mp got).2,
    elements_slots hS a, ?_⟩
  intro index slot value prepared b s
  refine ⟨?_, add_of_ready hS value prepared⟩
  rcases prepareForAdd_size S a index with
    ⟨e, failed, -⟩ | ⟨slot', isSlot, -, done, size⟩
  · rw [prepared] at failed
    cases failed
  · rw [prepared] at done
    cases done
    exact ⟨isSlot, size⟩

/-- Storage that starts with 7 slots and resizes to 150 fewer than it is asked for: it loses all
slots, gets 150, and would fall back to 50 for a write to the last of them. -/
theorem shrinking_storage_limits :
    let S := Storage.rationed (Row.cells (α := Int)) ⟨some 7, none, 150⟩
    let calls : List (Call Int) := [.add 3 5, .prepare 250, .get 7]
    let a := (run S (empty S) calls).array
    S.Coherent ∧ a.size = 251 ∧ capacity S a = 150 ∧
    (run S.recording (empty S.recording) calls).array.storage.2 = [100, 300] ∧
    AsksAtMostOnce S a (some 149) [200] ∧ (get S a 149).isOk = true ∧ (get S a 150).isOk = false ∧
    (elements S a).length = 150 ∧
    (add S a 149 1).result = .error (.indexOutOfRange 149 251) ∧
    capacity S (add S a 149 1).array = 50 := by
  intro S calls a
  have hS : S.Coherent := Storage.rationed_coherent Row.cells_lawful _
  obtain ⟨-, size, -, recorded, once, reads, -, elements, writes⟩ :=
    limits_hold_over_any_storage hS calls
  have reach : a.size = 251 := by
    have shown : extent (preparations S (empty S) calls) = 251 := by decide +kernel
    exact Int.ofNat.inj (size.trans shown)
  have slots : capacity S a = 150 := by decide +kernel
  have asked : requested S (empty S) calls = [100, 300] := by decide +kernel
  have next : requests S a (.add 149 1) = [200] := by decide +kernel
  have prepared : (prepareForAdd S a 149).result = .ok 149 := by
    have shown : (prepareForAdd S a 149).result.toOption = some 149 := by decide +kernel
    cases result : (prepareForAdd S a 149).result <;> rw [result] at shown <;> cases shown
    rfl
  have left : capacity S (prepareForAdd S a 149).array = 50 := by decide +kernel
  have length := congrArg List.length elements
  simp only [List.length_map, List.length_range] at length
  obtain ⟨⟨-, size'⟩, ⟨-, inside, -⟩ | ⟨failed, -, array⟩⟩ := writes 149 149 1 prepared
  · rw [left] at inside
    exact absurd inside (by decide)
  refine ⟨hS, reach, slots, ?_, next ▸ once (.add 149 1), ?_, ?_, ?_, ?_, ?_⟩
  · rw [recorded]
    exact asked
  · rw [reads, reach, slots]
    decide
  · rw [← Bool.not_eq_true, reads, reach, slots]
    decide
  · rw [length, reach, slots]
    rfl
  · rw [failed, size', reach]
    rfl
  · rw [array]
    exact left

end

end GrowableArray

end ServiceLang.Values
