import ServiceLang.Proofs.Values.Capacity
import ServiceLang.Proofs.Values.Failure
import ServiceLang.Proofs.Values.Robustness

/-!
# Outcomes of array accesses

How an access ends is read off the index, the size and the capacity. The checks come in a fixed
order: the 32-bit range, the sign, the limit, and only then the slots that are there. That blocks
are compared and not slots makes no difference to an array whose capacity goes with its size, also
in the last block, which is not whole: storage is asked to grow exactly for the slots it lacks.
-/

namespace ServiceLang.Values

open Limits GrowableArray History

variable {σ α : Type}

/-- Not the value of a signed 32-bit integer. -/
def TooLarge (index : Int) : Prop := index < -2147483648 ∨ 2147483647 < index

instance (index : Int) : Decidable (TooLarge index) := inferInstanceAs (Decidable (_ ∨ _))

/-- The capacities that a write asks storage to grow to, and the slot it comes to or the error it
meets. -/
def writeOutcome (S : Storage σ α) (a : GrowableArray σ) (index : Int) :
    List Nat × Except AccessError Nat :=
  if TooLarge index then ([], .error (.indexTooLarge index))
  else if index < 0 then ([], .error (.indexOutOfRange index a.size))
  else if maxArraySize ≤ index then ([], .error (.sizeExceeded index.toNat maxArraySize))
  else if capacity S a ≤ index then
    let target := min ((index.toNat / 100 + 1) * 100) maxArraySize
    ([target], (S.grow a.storage target).1.map fun _ => index.toNat)
  else ([], .ok index.toNat)

/-- The value that a read gives, which is the latest one stored, or the error it meets. -/
def readOutcome (fill : α) (size : Nat) (latest : Option α) (index : Int) :
    Except AccessError α :=
  if TooLarge index then .error (.indexTooLarge index)
  else if index < 0 ∨ size ≤ index then .error (.indexOutOfRange index size)
  else .ok (latest.getD fill)

theorem inIndexRange_eq_false_iff (index : Int) : inIndexRange index = false ↔ TooLarge index := by
  rw [inIndexRange, TooLarge, Bool.and_eq_false_iff, decide_eq_false_iff_not,
    decide_eq_false_iff_not]
  omega

theorem inIndexRange_eq_true_iff (index : Int) : inIndexRange index = true ↔ ¬ TooLarge index := by
  rw [← inIndexRange_eq_false_iff, Bool.not_eq_false]

/-- A slot whose block storage does not reach beyond is not there at all. -/
theorem capacityFor_le_of_short {size slot : Nat} (short : capacityFor size < blockEnd slot) :
    capacityFor size ≤ slot := by
  have ended : blockEnd slot = min ((slot / 100 + 1) * 100) maxArraySize := rfl
  rw [ended] at short
  rw [capacityFor_eq] at short ⊢
  omega

namespace GrowableArray

variable {S : Storage σ α} {fill : α} {a : GrowableArray σ} {index : Int}

theorem Unfit.outcome {e : AccessError} (unfit : Unfit a.size index e) :
    writeOutcome S a index = ([], .error e) := by
  rw [writeOutcome]
  cases unfit with
  | tooLarge range => rw [if_pos ((inIndexRange_eq_false_iff index).mp range)]
  | negative range below =>
    rw [if_neg ((inIndexRange_eq_true_iff index).mp range), if_pos below]
  | exceeded range above =>
    have positive : ¬ index < 0 := by omega
    rw [if_neg ((inIndexRange_eq_true_iff index).mp range), if_neg positive, if_pos above]

/-- For a slot within the limit the outcome depends on whether it is there. -/
theorem writeOutcome_slot {slot : Nat} (fits : slot < maxArraySize) :
    writeOutcome S a slot =
      if capacity S a ≤ slot then
        ([blockEnd slot], (S.grow a.storage (blockEnd slot)).1.map fun _ => slot)
      else ([], .ok slot) := by
  have range : ¬ TooLarge slot := (inIndexRange_eq_true_iff slot).mp (inIndexRange_of_lt fits)
  have positive : ¬ (slot : Int) < 0 := by omega
  have within : ¬ (maxArraySize : Int) ≤ slot := by omega
  rw [writeOutcome, if_neg range, if_neg positive, if_neg within]
  simp only [Int.ofNat_le]
  rfl

/-- A preparation with a record of what it asks for comes to the outcome. -/
theorem Prepared.outcome (fitted : Fitted S a) {s : Step (σ × List Nat) Nat}
    (h : Prepared S.recording (a.recorded []) index s) :
    (s.array.storage.2, s.result) = writeOutcome S a index := by
  have missing {slot : Nat} (short : capacity S a < blockEnd slot) : capacity S a ≤ slot := by
    rw [fitted] at short ⊢
    exact capacityFor_le_of_short short
  cases h with
  | unfit e unfit => exact (Unfit.outcome (S := S) (a := a) unfit).symm
  | present slot isSlot fits inside =>
    have there : ¬ capacity S a ≤ slot := Nat.not_le.mpr inside
    rw [isSlot, writeOutcome_slot fits, if_neg there]
    rfl
  | refused slot isSlot fits short e storage grow =>
    have answer : (S.grow a.storage (blockEnd slot)).1 = .error e := congrArg Prod.fst grow
    have asked : [blockEnd slot] = storage.2 := congrArg (·.2.2) grow
    rw [isSlot, writeOutcome_slot fits, if_pos (missing short), answer, asked]
    rfl
  | grown slot isSlot fits short storage grow =>
    have answer : (S.grow a.storage (blockEnd slot)).1 = .ok () := congrArg Prod.fst grow
    have asked : [blockEnd slot] = storage.2 := congrArg (·.2.2) grow
    rw [isSlot, writeOutcome_slot fits, if_pos (missing short), answer, asked]
    rfl

theorem prepareForAdd_outcome (fitted : Fitted S a) (index : Int) :
    (requests S a (.prepare index), (prepareForAdd S a index).result) = writeOutcome S a index := by
  obtain ⟨asked, -, recorded⟩ := prepareForAdd_recording S a index
  have outcome := (prepareForAdd_prepared S.recording (a.recorded []) index).outcome fitted
  rw [← outcome, requests, perform, recorded]

/-- Writing the value asks for nothing beyond the preparation. -/
theorem requests_add (index : Int) (value : α) :
    requests S a (.add index value) = requests S a (.prepare index) := by
  simp only [requests, perform, add]
  cases (prepareForAdd S.recording (a.recorded []) index).result with
  | error e => rfl
  | ok slot =>
    cases written : S.recording.write?
        (prepareForAdd S.recording (a.recorded []) index).array.storage slot value with
    | none => simp only [written]
    | some storage =>
      obtain ⟨row, -, rfl⟩ := Option.map_eq_some_iff.mp written
      simp only [written]

theorem add_result (hS : S.Conforms fill) (index : Int) (value : α) :
    (add S a index value).result = (prepareForAdd S a index).result.map fun _ => () := by
  cases prepared : (prepareForAdd S a index).result with
  | error e => rw [add_of_unprepared value prepared]; rfl
  | ok slot => rw [add_of_prepared hS value prepared]; rfl

/-- A read gives what was stored last, below the size and nowhere else. -/
theorem get_outcome {log : List (Event α)} (represents : Represents S fill a log) (index : Int) :
    get S a index = readOutcome fill a.size (latest log index) index := by
  rw [readOutcome]
  by_cases range : TooLarge index
  · have outside : inIndexRange index = false := (inIndexRange_eq_false_iff index).mpr range
    simp only [get, slotWithin, slotFor, outside, range, Bool.not_false, if_true]
  have inRange : inIndexRange index = true := (inIndexRange_eq_true_iff index).mpr range
  rw [if_neg range]
  by_cases inside : 0 ≤ index ∧ index < a.size
  · have there : ¬ (index < 0 ∨ a.size ≤ index) := by omega
    rw [if_neg there]
    exact (represents.get_iff index _).mpr ⟨inside, rfl⟩
  · have absent : index < 0 ∨ a.size ≤ index := by omega
    rw [if_pos absent]
    by_cases below : index < 0
    · simp only [get, slotWithin, slotFor, inRange, below, Bool.not_true, Bool.false_eq_true,
        if_false, if_true]
    · have beyond : ¬ index.toNat < a.size := by omega
      simp only [get, slotWithin, slotFor, inRange, below, beyond, Bool.not_true,
        Bool.false_eq_true, if_false]

/-- How every access to an array ends, and what it asks of storage, after any history. -/
theorem access_outcomes_exact (hS : S.Conforms fill) (calls : List (Call α)) (index : Int)
    (value : α) :
    let r := run S (empty S) calls
    (requests S r.array (.prepare index), (prepareForAdd S r.array index).result) =
      writeOutcome S r.array index ∧
    (requests S r.array (.add index value), (add S r.array index value).result) =
      ((writeOutcome S r.array index).1, (writeOutcome S r.array index).2.map fun _ => ()) ∧
    get S r.array index = readOutcome fill r.array.size (latest r.log index) index := by
  intro r
  have fitted : Fitted S r.array := (Fitted.empty hS).run hS calls
  have represents := (Represents.empty hS).run hS calls
  rw [List.nil_append] at represents
  have prepared := prepareForAdd_outcome fitted index
  refine ⟨prepared, ?_, get_outcome represents index⟩
  rw [← prepared, requests_add, add_result hS]

/-- A growth that is refused, and the last block once it is there: its slots need no growth, the
limit stays out of reach, and a slot that is there but not below the size cannot be read. -/
theorem access_outcomes_at_limit :
    let S := Storage.scripted Row.count [false, true]
    let calls : List (Call Unit) := [.prepare 2147483638, .add 2147483600 ()]
    let a := (run S (empty S) calls).array
    S.Conforms () ∧ capacity S a = maxArraySize ∧
    (requests S (empty S) (.add 150 ()), (add S (empty S) 150 ()).result) =
      ([200], .error (.allocationFailure 200)) ∧
    (requests S a (.add 2147483638 ()), (add S a 2147483638 ()).result) = ([], .ok ()) ∧
    (requests S a (.prepare 2147483639), (prepareForAdd S a 2147483639).result) =
      ([], .error (.sizeExceeded 2147483639 maxArraySize)) ∧
    get S a 2147483638 = .error (.indexOutOfRange 2147483638 2147483601) := by
  intro S calls a
  have hS : S.Conforms () := Storage.scripted_conforms Row.count_lawful _
  have size : a.size = 2147483601 := by decide +kernel
  have full : capacity S a = maxArraySize := by decide +kernel
  obtain ⟨-, refused, -⟩ := access_outcomes_exact hS [] 150 ()
  obtain ⟨-, written, read⟩ := access_outcomes_exact hS calls 2147483638 ()
  obtain ⟨prepared, -, -⟩ := access_outcomes_exact hS calls 2147483639 ()
  have last : writeOutcome S a 2147483638 = ([], .ok 2147483638) := by
    rw [writeOutcome, full]
    rfl
  refine ⟨hS, full, refused, ?_, prepared, ?_⟩
  · refine written.trans ?_
    change ((writeOutcome S a 2147483638).1, (writeOutcome S a 2147483638).2.map fun _ => ()) = _
    rw [last]
    rfl
  · refine read.trans ?_
    change readOutcome () a.size _ 2147483638 = _
    rw [size]
    rfl

end GrowableArray

end ServiceLang.Values
