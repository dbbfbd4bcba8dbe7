import Mathlib.Order.Bounds.Defs
import ServiceLang.Proofs.Values.Access

/-!
# Growth of an array

Which capacity a slot asks for, given any capacity at all, and what the growths of a history are in
order. Looking at blocks comes to looking at the end of the slot's block, so a block that is there
only in part is asked for again, also for the slots that are there. An array never has such a block:
its growths lead from one whole capacity to the next one that holds the index, and none of them is
made without need.
-/

namespace ServiceLang.Values

open Limits GrowableArray

variable {σ α β γ : Type}

/-- A number of slots that storage may be asked for: whole blocks, or all that there can be. -/
def Rounded (n : Nat) : Prop := isBlockAligned n = true ∨ n = maxArraySize

theorem rounded_iff (n : Nat) : Rounded n ↔ n % 100 = 0 ∨ n = maxArraySize := by
  rw [Rounded, isBlockAligned, beq_iff_eq]
  rfl

/-! ### The capacity for one slot -/

theorem blockEnd_eq (slot : Nat) : blockEnd slot = min ((slot / 100 + 1) * 100) maxArraySize := rfl

theorem rounded_blockEnd (slot : Nat) : Rounded (blockEnd slot) := by
  rw [rounded_iff, blockEnd_eq]
  omega

theorem blockEnd_isLeast {slot : Nat} (fits : slot < maxArraySize) :
    IsLeast {n | slot < n ∧ Rounded n} (blockEnd slot) := by
  refine ⟨⟨lt_blockEnd fits, rounded_blockEnd slot⟩, ?_⟩
  rintro n ⟨beyond, rounded⟩
  rw [rounded_iff] at rounded
  rw [blockEnd_eq]
  omega

/-- The comparison of blocks, the limit and the last comparison are one comparison. -/
theorem requiredCapacity_of_lt {slot : Nat} (fits : slot < maxArraySize) (capacity : Nat) :
    requiredCapacity slot capacity =
      .ok (if blockEnd slot ≤ capacity then none else some (blockEnd slot)) := by
  rw [requiredCapacity, if_neg (Nat.not_le.mpr fits)]
  by_cases block : blockIndex slot < blockIndex capacity
  · have ended : blockEnd slot ≤ capacity := by
      simp only [blockIndex, blockSize] at block
      rw [blockEnd_eq]
      omega
    rw [if_pos block, if_pos ended]
  · rw [if_neg block]
    by_cases short : capacity < blockEnd slot
    · rw [if_pos short, if_neg (Nat.not_le.mpr short)]
    · rw [if_neg short, if_pos (Nat.not_lt.mp short)]

/-- A slot is refused beyond the limit. Otherwise it asks for the least rounded capacity that holds
it, unless there is as much already. That is enough to know whether the slot is there, except if the
capacity ends inside the slot's block and behind the slot. -/
theorem required_capacity_rounds_up (slot capacity : Nat) :
    (∀ e, requiredCapacity slot capacity = .error e ↔
      maxArraySize ≤ slot ∧ e = .sizeExceeded slot maxArraySize) ∧
    (slot < maxArraySize → ∃ t, IsLeast {n | slot < n ∧ Rounded n} t ∧
      requiredCapacity slot capacity = .ok (if t ≤ capacity then none else some t) ∧
      ((requiredCapacity slot capacity = .ok none ↔ slot < capacity) ↔
        ¬ (slot < capacity ∧ capacity < t))) ∧
    (slot < maxArraySize → isBlockAligned capacity = true ∨ maxArraySize ≤ capacity →
      (requiredCapacity slot capacity = .ok none ↔ slot < capacity)) := by
  by_cases above : maxArraySize ≤ slot
  · have refused : requiredCapacity slot capacity = .error (.sizeExceeded slot maxArraySize) :=
      if_pos above
    refine ⟨fun e => ?_, fun fits => absurd above (Nat.not_le.mpr fits),
      fun fits => absurd above (Nat.not_le.mpr fits)⟩
    rw [refused, Except.error.injEq]
    exact ⟨fun same => ⟨above, same.symm⟩, fun same => same.2.symm⟩
  have fits : slot < maxArraySize := Nat.not_le.mp above
  have asked := requiredCapacity_of_lt fits capacity
  have beyond := lt_blockEnd fits
  have enough : requiredCapacity slot capacity = .ok none ↔ blockEnd slot ≤ capacity := by
    rw [asked]
    by_cases ended : blockEnd slot ≤ capacity
    · simp [ended]
    · simp [ended]
  refine ⟨fun e => ?_, fun _ => ⟨blockEnd slot, blockEnd_isLeast fits, asked, ?_⟩,
    fun _ whole => ?_⟩
  · rw [asked]
    exact ⟨fun wrong => (nomatch wrong), fun wrong => absurd wrong.1 above⟩
  · rw [enough]
    omega
  · rw [enough]
    refine ⟨fun ended => Nat.lt_of_lt_of_le beyond ended, fun inside => ?_⟩
    rcases whole with whole | full
    · exact (blockEnd_isLeast fits).2 ⟨inside, .inl whole⟩
    · exact Nat.le_trans (Nat.min_le_right _ _) full

/-- The slot is there, and yet it asks for the rest of its block. -/
theorem slot_in_partial_block_asks :
    requiredCapacity 110 120 = .ok (some 200) ∧
    ¬ (requiredCapacity 110 120 = .ok none ↔ 110 < 120) := by
  have asks : requiredCapacity 110 120 = .ok (some 200) := rfl
  refine ⟨asks, fun enough => ?_⟩
  rw [asks] at enough
  cases enough.mpr (by decide)

/-- The last slot that there can be, and the first one that there cannot. -/
theorem capacities_around_last_slot :
    requiredCapacity 2147483638 2147483650 = .ok none ∧
    requiredCapacity 2147483638 2147483600 ≠ .ok none ∧
    requiredCapacity 2147483639 0 = .error (.sizeExceeded 2147483639 maxArraySize) := by
  obtain ⟨-, -, beyond⟩ := required_capacity_rounds_up 2147483638 2147483650
  obtain ⟨-, -, short⟩ := required_capacity_rounds_up 2147483638 2147483600
  obtain ⟨refused, -, -⟩ := required_capacity_rounds_up 2147483639 0
  refine ⟨(beyond (by decide) (.inr (by decide))).mpr (by decide), ?_,
    (refused _).mpr ⟨by decide, rfl⟩⟩
  rw [Ne, short (by decide) (.inl (by decide))]
  decide

/-! ### The growths of a history -/

/-- A growth for an index that was not there, to no more than the end of its block. -/
structure Growth.Tight (g : Growth) : Prop where
  missing : (g.before : Int) ≤ g.index
  held : g.index < g.after
  longer : g.before < g.after
  fits : g.after ≤ maxArraySize
  rounded : Rounded g.after
  near : g.after - g.index ≤ blockSize

/-- The growths lead from the first capacity to the last one, each from where the one before it
ended. -/
inductive Chained : Nat → List Growth → Nat → Prop where
  | nil (capacity : Nat) : Chained capacity [] capacity
  | cons {before after last : Nat} (index : Int) {gs : List Growth} (rest : Chained after gs last) :
    Chained before (⟨before, after, index⟩ :: gs) last

/-- Every growth adds a block at least. -/
theorem Chained.length_le {first last : Nat} {gs : List Growth} (chain : Chained first gs last)
    (tight : ∀ g ∈ gs, g.Tight) (rounded : Rounded first) :
    gs.length + first ⌈/⌉ blockSize ≤ last ⌈/⌉ blockSize := by
  induction chain with
  | nil capacity => exact Nat.le_of_eq (Nat.zero_add _)
  | @cons before after last index gs rest ih =>
    obtain ⟨here, later⟩ := List.forall_mem_cons.mp tight
    have further := ih later here.rounded
    have longer : before < after := here.longer
    have fits : after ≤ maxArraySize := here.fits
    -- a capacity that grows is not yet the limit, so it is a number of whole blocks
    have whole : before % 100 = 0 := by
      rcases (rounded_iff before).mp rounded with whole | full
      · exact whole
      · omega
    rw [Nat.ceilDiv_eq_add_pred_div, Nat.ceilDiv_eq_add_pred_div] at further ⊢
    simp only [blockSize, List.length_cons] at further ⊢
    omega

/-- What is reported of an operation: no growth and the capacity is the same, or the growth that
made the difference, for the index asked for and in an operation that succeeded. -/
inductive Reports (S : Storage σ α) (a : GrowableArray σ) (target? : Option Int) (s : Step σ β) :
    Prop where
  | silent (none_ : s.growth = none) (same : capacity S s.array = capacity S a)
  | growth (index : Int) (asked : target? = some index) (done : s.result.isOk = true)
    (reported : s.growth = some ⟨capacity S a, capacity S s.array, index⟩)
    (tight : Growth.Tight ⟨capacity S a, capacity S s.array, index⟩)

namespace Reports

variable {S : Storage σ α} {a : GrowableArray σ} {target? : Option Int} {s : Step σ β}

/-- What an operation does besides does not matter to the report. -/
theorem of_same {s' : Step σ γ} (h : Reports S a target? s) (growth : s'.growth = s.growth)
    (kept : capacity S s'.array = capacity S s.array)
    (done : s.result.isOk = true → s'.result.isOk = true) : Reports S a target? s' := by
  cases h with
  | silent none_ same => exact .silent (growth.trans none_) (kept.trans same)
  | growth index asked ok reported tight =>
    rw [← kept] at reported tight
    exact .growth index asked (done ok) (growth.trans reported) tight

theorem isSome_iff (h : Reports S a target? s) :
    s.growth.isSome = true ↔ capacity S s.array ≠ capacity S a := by
  cases h with
  | silent none_ same => simp [none_, same]
  | growth index asked done reported tight =>
    have longer : capacity S a < capacity S s.array := tight.longer
    simp [reported, Nat.ne_of_gt longer]

theorem ends (h : Reports S a target? s) (g : Growth) (reported : s.growth = some g) :
    g.before = capacity S a ∧ g.after = capacity S s.array := by
  cases h with
  | silent none_ same =>
    rw [none_] at reported
    cases reported
  | growth index asked done here tight =>
    cases here.symm.trans reported
    exact ⟨rfl, rfl⟩

theorem of_failed (h : Reports S a target? s) (failed : s.result.isOk = false) :
    s.growth = none := by
  cases h with
  | silent none_ same => exact none_
  | growth index asked done reported tight =>
    rw [failed] at done
    cases done

theorem of_reading (h : Reports S a target? s) (reads : target? = none) : s.growth = none := by
  cases h with
  | silent none_ same => exact none_
  | growth index asked done reported tight =>
    rw [reads] at asked
    cases asked

end Reports

namespace GrowableArray

variable {S : Storage σ α} {fill : α} {a : GrowableArray σ}

theorem tight_blockEnd (fitted : Fitted S a) {slot : Nat} (fits : slot < maxArraySize)
    (short : capacity S a < blockEnd slot) : Growth.Tight ⟨capacity S a, blockEnd slot, slot⟩ where
  missing := by
    rw [fitted] at short ⊢
    exact Int.ofNat_le.mpr (capacityFor_le_of_short short)
  held := Int.ofNat_lt.mpr (lt_blockEnd fits)
  longer := short
  fits := Nat.min_le_right _ _
  rounded := rounded_blockEnd slot
  near := by
    simp only [blockEnd_eq, blockSize]
    omega

theorem Prepared.reports (hS : S.Conforms fill) (fitted : Fitted S a) {index : Int}
    {s : Step σ Nat} (step : Prepared S a index s) : Reports S a (some index) s := by
  cases step with
  | unfit e unfit => exact .silent rfl rfl
  | present slot isSlot fits inside => exact .silent rfl rfl
  | refused slot isSlot fits short e storage grow =>
    exact .silent rfl (hS.refused a.storage _ e storage short grow).capacity
  | grown slot isSlot fits short storage grow =>
    have reached : S.capacity storage = blockEnd slot :=
      (hS.granted a.storage _ storage short grow).capacity
    refine .growth index rfl rfl ?_ ?_
    · exact congrArg (fun n => some (Growth.mk (S.capacity a.storage) n index)) reached.symm
    · change Growth.Tight ⟨capacity S a, S.capacity storage, index⟩
      rw [reached, isSlot]
      exact tight_blockEnd fitted fits short

theorem perform_reports (hS : S.Conforms fill) (fitted : Fitted S a) (call : Call α) :
    Reports S a call.target? (perform S a call) := by
  cases call with
  | add index value =>
    have step := (prepareForAdd_prepared S a index).reports hS fitted
    rcases add_cases hS a index value with
      ⟨e, failed, same, silent⟩ | ⟨slot, b, storage, growth, -, -, written, prepared, added⟩
    · exact .silent silent same.storage.capacity
    · rw [prepared] at step
      simp only [perform, added]
      exact step.of_same rfl (hS.capacity_write _ _ _ _ written) id
  | prepare index =>
    have step := (prepareForAdd_prepared S a index).reports hS fitted
    refine step.of_same rfl rfl fun done => ?_
    simp only [perform]
    cases result : (prepareForAdd S a index).result with
    | error e =>
      rw [result] at done
      cases done
    | ok slot => rfl
  | get index => exact .silent rfl rfl
  | iterate => exact .silent rfl rfl

theorem run_chained (hS : S.Conforms fill) (fitted : Fitted S a) (calls : List (Call α)) :
    let r := run S a calls
    Chained (capacity S a) r.growths (capacity S r.array) ∧ ∀ g ∈ r.growths, g.Tight := by
  induction calls generalizing a with
  | nil => exact ⟨.nil _, List.forall_mem_nil _⟩
  | cons call calls ih =>
    obtain ⟨chain, tight⟩ := ih (fitted.perform hS call)
    cases perform_reports hS fitted call with
    | silent none_ same =>
      rw [same] at chain
      simp only [run, none_, Option.toList_none, List.nil_append]
      exact ⟨chain, tight⟩
    | growth index asked done reported here =>
      simp only [run, reported, Option.toList_some, List.singleton_append]
      exact ⟨.cons index chain, List.forall_mem_cons.mpr ⟨here, tight⟩⟩

/-- The growths of a history lead from one block to the capacity that there is, each made for an
index that was not there and to the end of its block. An operation reports a growth exactly if the
capacity changes; one that fails or only reads reports none. There are no more growths than blocks
behind the first. -/
theorem growths_form_chain (hS : S.Conforms fill) (calls : List (Call α)) :
    let r := run S (empty S) calls
    Chained defaultCapacity r.growths (capacity S r.array) ∧
    (∀ g ∈ r.growths, g.Tight) ∧
    (∀ call, let s := perform S r.array call
      (s.growth.isSome = true ↔ capacity S s.array ≠ capacity S r.array) ∧
      (∀ g, s.growth = some g → g.before = capacity S r.array ∧ g.after = capacity S s.array) ∧
      (s.result.isOk = false → s.growth = none) ∧
      (call.target? = none → s.growth = none)) ∧
    r.growths.length + 1 ≤ capacity S r.array ⌈/⌉ blockSize := by
  intro r
  have fitted : Fitted S (empty S) := Fitted.empty hS
  have start : capacity S (empty S) = defaultCapacity := hS.capacity_create _
  obtain ⟨chain, tight⟩ := run_chained hS fitted calls
  rw [start] at chain
  refine ⟨chain, tight, fun call => ?_, chain.length_le tight (.inl rfl)⟩
  have reports := perform_reports hS (fitted.run hS calls) call
  exact ⟨reports.isSome_iff, reports.ends, reports.of_failed, reports.of_reading⟩

/-- A growth is refused, a read lies between, an index jumps back, and the last growth is to the
limit. -/
theorem growths_up_to_limit :
    let S := Storage.scripted Row.count [true, false]
    let r := run S (empty S)
      [.add 150 (), .get 7, .add 999 (), .prepare 420, .add 310 (), .prepare 2147483600]
    S.Conforms () ∧
    r.growths = [⟨100, 200, 150⟩, ⟨200, 500, 420⟩, ⟨500, maxArraySize, 2147483600⟩] ∧
    Chained defaultCapacity r.growths maxArraySize ∧ ∀ g ∈ r.growths, g.Tight := by
  intro S r
  have hS : S.Conforms () := Storage.scripted_conforms Row.count_lawful _
  obtain ⟨chain, tight, -⟩ := growths_form_chain hS
    [.add 150 (), .get 7, .add 999 (), .prepare 420, .add 310 (), .prepare 2147483600]
  have full : capacity S r.array = maxArraySize := by decide +kernel
  change Chained _ r.growths (capacity S r.array) at chain
  rw [full] at chain
  exact ⟨hS, by decide +kernel, chain, tight⟩

end GrowableArray

end ServiceLang.Values
