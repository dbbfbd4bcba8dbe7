import ServiceLang.Proofs.Values.Contract
import ServiceLang.Values.GrowableArray

/-!
# Histories of an array

A history is a list of calls, each with any index and any value, made one after the other on one
array. Running it keeps what every call answered and which growths there were. What preparing an
index can come to is said once, in `Prepared`, for any storage at all; a preparation that succeeds
leads to an array whose storage holds the slot as soon as the storage conforms.
-/

namespace ServiceLang.Values

open Limits

variable {σ α : Type}

inductive Call (α : Type) where
  | add (index : Int) (value : α)
  | prepare (index : Int)
  | get (index : Int)
  | iterate

inductive Answer (α : Type) where
  | done
  | slot (slot : Nat)
  | value (value : α)
  | elements (values : List α)

/-- A call and what came of it. -/
structure Event (α : Type) where
  call : Call α
  answer : Except AccessError (Answer α)

/-- The array after a history, what was answered on the way, and the growths. -/
structure Run (σ α : Type) where
  array : GrowableArray σ
  log : List (Event α)
  growths : List Growth

namespace GrowableArray

def perform (S : Storage σ α) (a : GrowableArray σ) : Call α → Step σ (Answer α)
  | .add index value =>
    let s := add S a index value
    ⟨s.result.map fun _ => .done, s.array, s.growth⟩
  | .prepare index =>
    let s := prepareForAdd S a index
    ⟨s.result.map .slot, s.array, s.growth⟩
  | .get index => ⟨(get S a index).map .value, a, none⟩
  | .iterate => ⟨.ok (.elements (elements S a)), a, none⟩

def run (S : Storage σ α) (a : GrowableArray σ) : List (Call α) → Run σ α
  | [] => ⟨a, [], []⟩
  | call :: calls =>
    let s := perform S a call
    let rest := run S s.array calls
    ⟨rest.array, ⟨call, s.result⟩ :: rest.log, s.growth.toList ++ rest.growths⟩

/-- Why an index is refused before the storage is asked for anything. -/
inductive Unfit (size : Nat) (index : Int) : AccessError → Prop where
  | tooLarge (h : inIndexRange index = false) : Unfit size index (.indexTooLarge index)
  | negative (h : inIndexRange index = true) (below : index < 0) :
    Unfit size index (.indexOutOfRange index size)
  | exceeded (h : inIndexRange index = true) (above : (maxArraySize : Int) ≤ index) :
    Unfit size index (.sizeExceeded index.toNat maxArraySize)

/-- What preparing an index comes to: the index is unfit, its slot needs no growth, or the storage
is asked to reach the end of its block and either refuses or grows. -/
inductive Prepared (S : Storage σ α) (a : GrowableArray σ) (index : Int) : Step σ Nat → Prop where
  | unfit (e : AccessError) (h : Unfit a.size index e) : Prepared S a index ⟨.error e, a, none⟩
  | present (slot : Nat) (h : index = slot) (fits : slot < maxArraySize)
    (inside : slot < S.capacity a.storage) : Prepared S a index ⟨.ok slot, a.reach slot, none⟩
  | refused (slot : Nat) (h : index = slot) (fits : slot < maxArraySize)
    (short : S.capacity a.storage < blockEnd slot) (e : AccessError) (storage : σ)
    (grow : S.grow a.storage (blockEnd slot) = (.error e, storage)) :
    Prepared S a index ⟨.error e, { a with storage := storage }, none⟩
  | grown (slot : Nat) (h : index = slot) (fits : slot < maxArraySize)
    (short : S.capacity a.storage < blockEnd slot) (storage : σ)
    (grow : S.grow a.storage (blockEnd slot) = (.ok (), storage)) :
    Prepared S a index ⟨.ok slot, { a with storage := storage }.reach slot,
      some ⟨S.capacity a.storage, blockEnd slot, index⟩⟩

theorem lt_blockEnd {slot : Nat} (fits : slot < maxArraySize) : slot < blockEnd slot := by
  simp only [blockEnd, blockIndex, blockSize]
  omega

/-- Nothing is asked for only where the slot is there already. What is asked for is the end of its
block. -/
theorem requiredCapacity_cases {slot : Nat} (capacity : Nat) (fits : slot < maxArraySize) :
    (requiredCapacity slot capacity = .ok none ∧ slot < capacity) ∨
    (requiredCapacity slot capacity = .ok (some (blockEnd slot)) ∧ capacity < blockEnd slot) := by
  have next := lt_blockEnd fits
  rw [requiredCapacity, if_neg (Nat.not_le.mpr fits)]
  by_cases block : blockIndex slot < blockIndex capacity
  · rw [if_pos block]
    simp only [blockIndex, blockSize] at block
    exact .inl ⟨rfl, by omega⟩
  · rw [if_neg block]
    by_cases short : capacity < blockEnd slot
    · rw [if_pos short]
      exact .inr ⟨rfl, short⟩
    · rw [if_neg short]
      exact .inl ⟨rfl, by omega⟩

/-- An index is refused, or it is the number of a slot. -/
theorem slotFor_cases (index : Int) (size : Nat) :
    (∃ e, slotFor index size = .error e ∧ Unfit size index e) ∨
    (∃ slot : Nat, slotFor index size = .ok slot ∧ index = slot ∧ inIndexRange index = true) := by
  rw [slotFor]
  by_cases range : inIndexRange index = true
  · by_cases below : index < 0
    · refine .inl ⟨_, ?_, .negative range below⟩
      simp only [range, below, Bool.not_true, Bool.false_eq_true, if_false, if_true]
    · refine .inr ⟨index.toNat, ?_, by omega, range⟩
      simp only [range, below, Bool.not_true, Bool.false_eq_true, if_false]
  · exact .inl ⟨_, by simp only [range, Bool.not_false, if_true], .tooLarge (by simpa using range)⟩

/-- The three ways to prepare an index are all there are. -/
theorem prepareForAdd_prepared (S : Storage σ α) (a : GrowableArray σ) (index : Int) :
    Prepared S a index (prepareForAdd S a index) := by
  rw [prepareForAdd]
  rcases slotFor_cases index a.size with ⟨e, he, unfit⟩ | ⟨slot, hslot, isSlot, range⟩
  · rw [he]
    exact .unfit e unfit
  rw [hslot]
  by_cases above : maxArraySize ≤ slot
  · have refusal : requiredCapacity slot (S.capacity a.storage) =
        .error (.sizeExceeded slot maxArraySize) := if_pos above
    simp only [refusal]
    have same : slot = index.toNat := by omega
    rw [same]
    exact .unfit _ (.exceeded range (by omega))
  have fits : slot < maxArraySize := Nat.not_le.mp above
  rcases requiredCapacity_cases (S.capacity a.storage) fits with ⟨h, inside⟩ | ⟨h, short⟩
  · simp only [h]
    exact .present slot isSlot fits inside
  · simp only [h]
    rcases grow : S.grow a.storage (blockEnd slot) with ⟨result, storage⟩
    cases result with
    | error e => exact .refused slot isSlot fits short e storage grow
    | ok => exact .grown slot isSlot fits short storage grow

theorem inIndexRange_of_lt {slot : Nat} (h : slot < maxArraySize) :
    inIndexRange (slot : Int) = true := by
  simp only [maxArraySize] at h
  simp only [inIndexRange, Bool.and_eq_true, decide_eq_true_eq]
  omega

theorem slotWithin_of_lt {slot size : Nat} (fits : slot < maxArraySize) (h : slot < size) :
    slotWithin slot size = .ok slot := by
  have range := inIndexRange_of_lt fits
  have above : ¬ (slot : Int) < 0 := by omega
  simp only [slotWithin, slotFor, range, above, Bool.not_true, Bool.false_eq_true, if_false,
    Int.toNat_natCast, h, if_true]

/-- Outside the size there is no slot, for whatever reason. -/
theorem slotWithin_outside {index : Int} {size : Nat} (h : ¬ (0 ≤ index ∧ index < size)) :
    ∃ e, slotWithin index size = .error e := by
  rcases slotFor_cases index size with ⟨e, he, -⟩ | ⟨slot, hslot, rfl, -⟩
  · exact ⟨e, by rw [slotWithin, he]⟩
  · have outside : ¬ slot < size := by omega
    exact ⟨_, by rw [slotWithin, hslot]; exact if_neg outside⟩

theorem get_of_slot {S : Storage σ α} {a : GrowableArray σ} {slot : Nat} {value : α}
    (fits : slot < maxArraySize) (h : slot < a.size) (held : S.slot? a.storage slot = some value) :
    get S a slot = .ok value := by
  rw [get, slotWithin_of_lt fits h]
  simp only [held]

theorem get_outside (S : Storage σ α) {a : GrowableArray σ} {index : Int}
    (h : ¬ (0 ≤ index ∧ index < a.size)) : ∃ e, get S a index = .error e := by
  obtain ⟨e, he⟩ := slotWithin_outside h
  exact ⟨e, by rw [get, he]⟩

/-- The array `b` is `a` made ready for a write to a slot. -/
structure Ready (S : Storage σ α) (fill : α) (a : GrowableArray σ) (slot : Nat)
    (b : GrowableArray σ) : Prop where
  fits : slot < maxArraySize
  inside : slot < S.capacity b.storage
  size : b.size = max a.size (slot + 1)
  wider : S.capacity a.storage ≤ S.capacity b.storage
  storage : S.Extends fill (S.capacity b.storage) a.storage b.storage

/-- The same size and the same slots. -/
structure Unchanged (S : Storage σ α) (a b : GrowableArray σ) : Prop where
  size : b.size = a.size
  storage : S.Alike a.storage b.storage

variable {S : Storage σ α} {fill : α} {a : GrowableArray σ} {index : Int}

/-- On conforming storage a prepared slot is there to be written, and everything written before is
kept. -/
theorem Prepared.ready (hS : S.Conforms fill) {s : Step σ Nat} {slot : Nat}
    (h : Prepared S a index s) (ok : s.result = .ok slot) :
    index = slot ∧ Ready S fill a slot s.array := by
  cases h with
  | unfit e unfit => cases ok
  | present slot' isSlot fits inside =>
    cases ok
    exact ⟨isSlot, fits, inside, rfl, Nat.le_refl _, Storage.Extends.refl S fill a.storage⟩
  | refused slot' isSlot fits short e storage grow => cases ok
  | grown slot' isSlot fits short storage grow =>
    cases ok
    have extended := hS.granted a.storage _ storage short grow
    refine ⟨isSlot, fits, ?_, rfl, ?_, ?_⟩
    · change slot < S.capacity storage
      rw [extended.capacity]
      exact lt_blockEnd fits
    · change S.capacity a.storage ≤ S.capacity storage
      rw [extended.capacity]
      exact Nat.le_of_lt short
    · change S.Extends fill (S.capacity storage) a.storage storage
      rw [extended.capacity]
      exact extended

/-- On conforming storage a failure leaves no trace. -/
theorem Prepared.unchanged (hS : S.Conforms fill) {s : Step σ Nat} {e : AccessError}
    (h : Prepared S a index s) (failed : s.result = .error e) :
    Unchanged S a s.array ∧ s.growth = none := by
  cases h with
  | unfit e' unfit => exact ⟨⟨rfl, Storage.Alike.refl S a.storage⟩, rfl⟩
  | present slot isSlot fits inside => cases failed
  | refused slot isSlot fits short e' storage grow =>
    exact ⟨⟨rfl, hS.refused a.storage _ e' storage short grow⟩, rfl⟩
  | grown slot isSlot fits short storage grow => cases failed

/-- Adding to conforming storage is preparing and then writing: what is prepared can be written. -/
theorem add_cases (hS : S.Conforms fill) (a : GrowableArray σ) (index : Int) (value : α) :
    (∃ e, (add S a index value).result = .error e ∧ Unchanged S a (add S a index value).array ∧
      (add S a index value).growth = none) ∨
    (∃ slot b storage growth, index = (slot : Nat) ∧ Ready S fill a slot b ∧
      S.write? b.storage slot value = some storage ∧
      prepareForAdd S a index = ⟨.ok slot, b, growth⟩ ∧
      add S a index value = ⟨.ok (), { b with storage := storage }, growth⟩) := by
  have prepared := prepareForAdd_prepared S a index
  rw [add]
  rcases h : prepareForAdd S a index with ⟨result, b, growth⟩
  rw [h] at prepared
  cases result with
  | error e =>
    have unchanged := prepared.unchanged hS rfl
    exact .inl ⟨e, rfl, unchanged⟩
  | ok slot =>
    obtain ⟨isSlot, ready⟩ := prepared.ready hS rfl
    obtain ⟨storage, written⟩ := hS.exists_write value ready.inside
    refine .inr ⟨slot, b, storage, growth, isSlot, ready, written, rfl, ?_⟩
    simp only [written]

end GrowableArray

end ServiceLang.Values
