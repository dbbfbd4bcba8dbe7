import Mathlib.Algebra.Order.Floor.Div
import ServiceLang.Number.Binary64
import ServiceLang.Proofs.Values.Map

/-!
# Capacity of an array

Over conforming storage the capacity is no state of its own: it is the least number of whole blocks
that holds the size, never less than one block and cut off at the limit. Writes below the size,
jumps past it, refused growths and the last block, which is not whole, all keep this. Nothing is
assumed of when a growth is refused.
-/

namespace ServiceLang.Values

open Limits GrowableArray

variable {σ α : Type}

/-- The capacity that goes with a size. -/
def capacityFor (size : Nat) : Nat := min (blockSize * max 1 (size ⌈/⌉ blockSize)) maxArraySize

/-- The same number by division: whole blocks, at least one, up to the limit. -/
theorem capacityFor_eq (size : Nat) :
    capacityFor size = min (100 * max 1 ((size + 99) / 100)) maxArraySize := by
  rw [capacityFor, Nat.ceilDiv_eq_add_pred_div]
  rfl

theorem capacityFor_le (size : Nat) : capacityFor size ≤ maxArraySize := Nat.min_le_right _ _

/-- Only at the limit is the capacity no whole number of blocks. -/
theorem capacityFor_aligned (size : Nat) :
    isBlockAligned (capacityFor size) = true ∨ capacityFor size = maxArraySize := by
  by_cases whole : blockSize * max 1 (size ⌈/⌉ blockSize) ≤ maxArraySize
  · left
    rw [capacityFor, Nat.min_eq_left whole, isBlockAligned, Nat.mul_mod_right]
    rfl
  · right
    exact Nat.min_eq_right (Nat.le_of_not_le whole)

/-- A slot that is there already asks for no other capacity. -/
theorem capacityFor_inside {size slot : Nat} (inside : slot < capacityFor size) :
    capacityFor (max size (slot + 1)) = capacityFor size := by
  rw [capacityFor_eq] at inside ⊢
  rw [capacityFor_eq]
  by_cases below : slot + 1 ≤ size
  · rw [Nat.max_eq_left below]
  · rw [Nat.max_eq_right (by omega)]
    omega

/-- A slot whose block is not there lies beyond the size, so its block becomes the last one. -/
theorem capacityFor_beyond {size slot : Nat} (short : capacityFor size < blockEnd slot) :
    capacityFor (max size (slot + 1)) = blockEnd slot := by
  have ended : blockEnd slot = min ((slot / 100 + 1) * 100) maxArraySize := rfl
  rw [ended] at short ⊢
  rw [capacityFor_eq] at short ⊢
  have beyond : size ≤ slot := by omega
  rw [Nat.max_eq_right (by omega)]
  omega

/-- The storage has exactly the slots that go with the size. -/
def Fitted (S : Storage σ α) (a : GrowableArray σ) : Prop := capacity S a = capacityFor a.size

namespace Fitted

variable {S : Storage σ α} {fill : α} {a b : GrowableArray σ}

theorem empty (hS : S.Conforms fill) : Fitted S (GrowableArray.empty S) := by
  have oneBlock : capacityFor 0 = defaultCapacity := by decide
  rw [Fitted, capacity, GrowableArray.empty, hS.capacity_create]
  exact oneBlock.symm

theorem unchanged (h : Fitted S a) (same : Unchanged S a b) : Fitted S b := by
  rw [Fitted, capacity, same.storage.capacity, same.size]
  exact h

/-- Whether or not the storage grows, the slots are those that go with the new size. -/
theorem prepared (hS : S.Conforms fill) (h : Fitted S a) {index : Int} {s : Step σ Nat}
    (step : Prepared S a index s) : Fitted S s.array := by
  rw [Fitted, capacity] at h
  cases step with
  | unfit e unfit => exact h
  | present slot isSlot fits inside =>
    rw [h] at inside
    exact h.trans (capacityFor_inside inside).symm
  | refused slot isSlot fits short e storage grow =>
    have same := hS.refused a.storage _ e storage short grow
    exact same.capacity.trans h
  | grown slot isSlot fits short storage grow =>
    have extended := hS.granted a.storage _ storage short grow
    rw [h] at short
    exact extended.capacity.trans (capacityFor_beyond short).symm

theorem perform (hS : S.Conforms fill) (h : Fitted S a) (call : Call α) :
    Fitted S (perform S a call).array := by
  cases call with
  | add index value =>
    rcases add_cases hS a index value with
      ⟨e, failed, same, -⟩ | ⟨slot, b, storage, growth, -, -, written, preparedTo, added⟩
    · exact h.unchanged same
    · have ready : Fitted S b := by
        have step := prepareForAdd_prepared S a index
        rw [preparedTo] at step
        exact h.prepared hS step
      simp only [GrowableArray.perform, added]
      exact (hS.capacity_write _ _ _ _ written).trans ready
  | prepare index => exact h.prepared hS (prepareForAdd_prepared S a index)
  | get index => exact h
  | iterate => exact h

/-- A whole history keeps the slots in step with the size. -/
theorem run (hS : S.Conforms fill) (h : Fitted S a) (calls : List (Call α)) :
    Fitted S (run S a calls).array := by
  induction calls generalizing a with
  | nil => exact h
  | cons call calls ih => exact ih (h.perform hS call)

end Fitted

section

variable {S : Storage σ α} {fill : α}

theorem capacity_le_perform (hS : S.Conforms fill) (a : GrowableArray σ) (call : Call α) :
    capacity S a ≤ capacity S (perform S a call).array := by
  cases call with
  | add index value =>
    rcases add_cases hS a index value with
      ⟨e, failed, same, -⟩ | ⟨slot, b, storage, growth, -, ready, written, -, added⟩
    · exact Nat.le_of_eq same.storage.capacity.symm
    · simp only [GrowableArray.perform, added]
      change S.capacity a.storage ≤ S.capacity storage
      rw [hS.capacity_write _ _ _ _ written]
      exact ready.wider
  | prepare index =>
    have step := prepareForAdd_prepared S a index
    cases result : (prepareForAdd S a index).result with
    | error e => exact Nat.le_of_eq (step.unchanged hS result).1.storage.capacity.symm
    | ok slot => exact (step.ready hS result).2.wider
  | get index => exact Nat.le_refl _
  | iterate => exact Nat.le_refl _

/-- No history makes the capacity smaller. -/
theorem capacity_le_run (hS : S.Conforms fill) (a : GrowableArray σ) (calls : List (Call α)) :
    capacity S a ≤ capacity S (run S a calls).array := by
  induction calls generalizing a with
  | nil => exact Nat.le_refl _
  | cons call calls ih => exact Nat.le_trans (capacity_le_perform hS a call) (ih _)

/-- After any history the capacity is the one that goes with the size, and the slots between the two
are vacant. Whatever is done next, the capacity does not become smaller. Storage of integers, of
floating point numbers, of strings and of references conforms, whatever growths memory grants. -/
theorem capacity_determined_by_size (hS : S.Conforms fill) (calls : List (Call α)) :
    let a := (run S (empty S) calls).array
    capacity S a = min (blockSize * max 1 (a.size ⌈/⌉ blockSize)) maxArraySize ∧
    a.size ≤ capacity S a ∧ capacity S a ≤ maxArraySize ∧
    (isBlockAligned (capacity S a) = true ∨ capacity S a = maxArraySize) ∧
    (∀ more, capacity S a ≤ capacity S (run S a more).array) ∧
    (∀ i, a.size ≤ i → i < capacity S a → S.slot? a.storage i = some fill) ∧
    ∀ grants : Nat → Bool,
      (Storage.steady (Row.cells (α := Int64)) grants).Conforms 0 ∧
      (Storage.steady (Row.cells (α := Binary64)) grants).Conforms ⟨0⟩ ∧
      (Storage.steady (Row.cells (α := String)) grants).Conforms "" ∧
      ∀ τ : Type, (Storage.steady (Row.cells (α := Option τ)) grants).Conforms none := by
  intro a
  have fitted : capacity S a = capacityFor a.size := (Fitted.empty hS).run hS calls
  have represents := (Represents.empty hS).run hS calls
  refine ⟨fitted, represents.within, ?_, ?_, capacity_le_run hS a, ?_, ?_⟩
  · rw [fitted]
    exact capacityFor_le _
  · rw [fitted]
    exact capacityFor_aligned _
  · intro i beyond inside
    have vacant := represents.vacant (Int.ofNat_le.mpr beyond)
    rw [represents.slot i inside, vacant]
    rfl
  · intro grants
    exact ⟨Storage.steady_conforms Row.cells_lawful grants,
      Storage.steady_conforms Row.cells_lawful grants,
      Storage.steady_conforms Row.cells_lawful grants,
      fun τ => Storage.steady_conforms Row.cells_lawful grants⟩

/-- Up to the last block, which is not whole: a growth to the limit is refused first, granted then,
and a slot at the limit is out of reach. -/
theorem capacity_at_limit :
    let S := Storage.scripted Row.count [false, true]
    let a := (run S (empty S)
      [.prepare 2147483638, .add 2147483610 (), .prepare 2147483639, .add 7 ()]).array
    S.Conforms () ∧ a.size = 2147483611 ∧ capacity S a = maxArraySize ∧
    S.slot? a.storage 2147483638 = some () := by
  intro S a
  have hS : S.Conforms () := Storage.scripted_conforms Row.count_lawful _
  obtain ⟨closed, -, -, -, -, vacant, -⟩ := capacity_determined_by_size hS
    [.prepare 2147483638, .add 2147483610 (), .prepare 2147483639, .add 7 ()]
  have size : a.size = 2147483611 := by decide +kernel
  have full : capacity S a = maxArraySize := by
    change capacity S a = min (blockSize * max 1 (a.size ⌈/⌉ blockSize)) maxArraySize at closed
    rw [closed, size]
    decide
  refine ⟨hS, size, full, vacant 2147483638 ?_ ?_⟩
  · change a.size ≤ _
    rw [size]
    decide
  · change _ < capacity S a
    rw [full]
    decide

end

end ServiceLang.Values
