import ServiceLang.Values.Storage

/-!
# The contract of array storage

Storage is coherent when its capacity, its reads and its writes speak of the same slots. It
conforms when in addition a new storage is filled with the default, and growing beyond the capacity
either gives exactly the slots asked for or is refused. Slots are all that is looked at: a refusal
may leave a trace that no slot shows, so that one and the same growth can be refused once and
granted later.
-/

namespace ServiceLang.Values

variable {σ ρ α : Type}

namespace Storage

structure Coherent (S : Storage σ α) : Prop where
  slot_isSome : ∀ s i, (S.slot? s i).isSome ↔ i < S.capacity s
  write_isSome : ∀ s i a, (S.write? s i a).isSome ↔ i < S.capacity s
  capacity_write : ∀ s i a t, S.write? s i a = some t → S.capacity t = S.capacity s
  slot_write : ∀ s i a t, S.write? s i a = some t →
    ∀ j, S.slot? t j = if j = i then some a else S.slot? s j

/-- Two states that show the same slots. -/
structure Alike (S : Storage σ α) (s t : σ) : Prop where
  capacity : S.capacity t = S.capacity s
  slot : ∀ i, S.slot? t i = S.slot? s i

/-- The second state shows `n` slots: those of the first where they were, the default behind
them. -/
structure Extends (S : Storage σ α) (fill : α) (n : Nat) (s t : σ) : Prop where
  capacity : S.capacity t = n
  kept : ∀ i, i < S.capacity s → S.slot? t i = S.slot? s i
  filled : ∀ i, S.capacity s ≤ i → i < n → S.slot? t i = some fill

structure Conforms (S : Storage σ α) (fill : α) : Prop extends S.Coherent where
  capacity_create : ∀ n, S.capacity (S.withCapacity n) = n
  slot_create : ∀ n i, i < n → S.slot? (S.withCapacity n) i = some fill
  granted : ∀ s n t, S.capacity s < n → S.grow s n = (.ok (), t) → S.Extends fill n s t
  refused : ∀ s n e t, S.capacity s < n → S.grow s n = (.error e, t) → S.Alike s t

theorem Alike.refl (S : Storage σ α) (s : σ) : S.Alike s s := ⟨rfl, fun _ => rfl⟩

theorem Alike.trans {S : Storage σ α} {s t u : σ} (hst : S.Alike s t) (htu : S.Alike t u) :
    S.Alike s u :=
  ⟨htu.capacity.trans hst.capacity, fun i => (htu.slot i).trans (hst.slot i)⟩

theorem Extends.refl (S : Storage σ α) (fill : α) (s : σ) : S.Extends fill (S.capacity s) s s :=
  ⟨rfl, fun _ _ => rfl, fun _ outside inside => absurd inside (Nat.not_lt.mpr outside)⟩

theorem Coherent.exists_write {S : Storage σ α} (hS : S.Coherent) {s : σ} {i : Nat} (a : α)
    (h : i < S.capacity s) : ∃ t, S.write? s i a = some t :=
  Option.isSome_iff_exists.mp ((hS.write_isSome s i a).mpr h)

end Storage

/-- What a row has to keep for storage over it to conform. -/
structure Row.Lawful (R : Row ρ α) (fill : α) : Prop where
  slot_isSome : ∀ r i, (R.slot? r i).isSome ↔ i < R.size r
  write_isSome : ∀ r i a, (R.write? r i a).isSome ↔ i < R.size r
  size_write : ∀ r i a t, R.write? r i a = some t → R.size t = R.size r
  slot_write : ∀ r i a t, R.write? r i a = some t →
    ∀ j, R.slot? t j = if j = i then some a else R.slot? r j
  size_create : ∀ n, R.size (R.ofSize n) = n
  slot_create : ∀ n i, i < n → R.slot? (R.ofSize n) i = some fill
  size_resize : ∀ r n, R.size r < n → R.size (R.resize r n) = n
  slot_kept : ∀ r n i, R.size r < n → i < R.size r → R.slot? (R.resize r n) i = R.slot? r i
  slot_filled : ∀ r n i, R.size r < n → R.size r ≤ i → i < n →
    R.slot? (R.resize r n) i = some fill

/-- A row of units is its length. -/
theorem Row.count_lawful : Row.count.Lawful () where
  slot_isSome n i := by simp [Row.count]
  write_isSome n i a := by simp [Row.count]
  size_write n i a t h := by
    simp only [Row.count, Option.ite_none_right_eq_some, Option.some.injEq] at h
    exact h.2.symm
  slot_write n i a t h j := by
    simp only [Row.count, Option.ite_none_right_eq_some, Option.some.injEq] at h
    obtain ⟨inside, rfl⟩ := h
    by_cases hj : j = i
    · subst hj
      simp [Row.count, inside]
    · simp [Row.count, hj]
  size_create n := rfl
  slot_create n i h := by simp [Row.count, h]
  size_resize r n h := rfl
  slot_kept r n i h old := by
    have inside : i < n := Nat.lt_trans old h
    simp only [Row.count] at old ⊢
    simp only [inside, old, if_true]
  slot_filled r n i h new inside := by simp [Row.count, inside]

section Cells

variable [Inhabited α]

/-- To resize an array upwards is to append defaults. -/
theorem Row.resize_cells {cells : Array α} {n : Nat} (h : cells.size < n) :
    Row.cells.resize cells n = cells ++ Array.replicate (n - cells.size) default :=
  if_neg (Nat.not_le.mpr h)

/-- A row of cells keeps the rules, with the default of its type behind what was there. -/
theorem Row.cells_lawful : (Row.cells (α := α)).Lawful default where
  slot_isSome cells i := by simp [Row.cells]
  write_isSome cells i a := by simp [Row.cells]
  size_write cells i a t h := by
    simp only [Row.cells, Option.ite_none_right_eq_some, Option.some.injEq] at h
    obtain ⟨_, rfl⟩ := h
    exact Array.size_setIfInBounds
  slot_write cells i a t h j := by
    simp only [Row.cells, Option.ite_none_right_eq_some, Option.some.injEq] at h
    obtain ⟨inside, rfl⟩ := h
    by_cases hj : j = i
    · subst hj
      simp [Row.cells, inside]
    · have apart : i ≠ j := fun e => hj e.symm
      simp [Row.cells, hj, Array.getElem?_setIfInBounds_ne apart]
  size_create n := by simp [Row.cells]
  slot_create n i h := by simp [Row.cells, h]
  size_resize cells n h := by
    rw [resize_cells h]
    simp only [Row.cells] at h ⊢
    simp only [Array.size_append, Array.size_replicate]
    omega
  slot_kept cells n i h old := by
    rw [resize_cells h]
    exact Array.getElem?_append_left old
  slot_filled cells n i h new inside := by
    rw [resize_cells h]
    simp only [Row.cells] at h new ⊢
    have within : i - cells.size < n - cells.size := by omega
    simp only [Array.getElem?_append_right new, Array.getElem?_replicate, within, if_true]

end Cells

namespace Storage

/-- Storage over a row that grows, or is refused, as memory grants. -/
theorem steady_conforms {R : Row ρ α} {fill : α} (hR : R.Lawful fill) (grants : Nat → Bool) :
    (steady R grants).Conforms fill where
  slot_isSome := hR.slot_isSome
  write_isSome := hR.write_isSome
  capacity_write := hR.size_write
  slot_write := hR.slot_write
  capacity_create := hR.size_create
  slot_create := hR.slot_create
  granted r n t hn h := by
    have longer : ¬ n ≤ R.size r := Nat.not_le.mpr hn
    simp only [steady, longer, if_false] at h
    split at h
    · cases h
      exact ⟨hR.size_resize r n hn, fun i => hR.slot_kept r n i hn,
        fun i => hR.slot_filled r n i hn⟩
    · cases h
  refused r n e t hn h := by
    have longer : ¬ n ≤ R.size r := Nat.not_le.mpr hn
    simp only [steady, longer, if_false] at h
    split at h
    · cases h
    · cases h
      exact Alike.refl _ _

/-- Storage over a row whose growths are granted or refused as a script says, whatever they ask for.
Behind the end of the script all are granted. -/
def scripted (R : Row ρ α) (script : List Bool) : Storage (ρ × List Bool) α where
  withCapacity n := (R.ofSize n, script)
  capacity s := R.size s.1
  slot? s := R.slot? s.1
  write? s i a := (R.write? s.1 i a).map fun row => (row, s.2)
  grow s n :=
    if n ≤ R.size s.1 then (.ok (), s)
    else if s.2.headD true then (.ok (), (R.resize s.1 n, s.2.tail))
    else (.error (.allocationFailure n), (s.1, s.2.tail))

/-- A script that refuses growths at will still makes conforming storage. -/
theorem scripted_conforms {R : Row ρ α} {fill : α} (hR : R.Lawful fill) (script : List Bool) :
    (scripted R script).Conforms fill where
  slot_isSome s := hR.slot_isSome s.1
  write_isSome s i a := by
    simp only [scripted, Option.isSome_map]
    exact hR.write_isSome s.1 i a
  capacity_write s i a t h := by
    obtain ⟨row, hrow, rfl⟩ := Option.map_eq_some_iff.mp h
    exact hR.size_write s.1 i a row hrow
  slot_write s i a t h := by
    obtain ⟨row, hrow, rfl⟩ := Option.map_eq_some_iff.mp h
    exact hR.slot_write s.1 i a row hrow
  capacity_create := hR.size_create
  slot_create := hR.slot_create
  granted s n t hn h := by
    have longer : ¬ n ≤ R.size s.1 := Nat.not_le.mpr hn
    simp only [scripted, longer, if_false] at h
    split at h
    · cases h
      exact ⟨hR.size_resize s.1 n hn, fun i => hR.slot_kept s.1 n i hn,
        fun i => hR.slot_filled s.1 n i hn⟩
    · cases h
  refused s n e t hn h := by
    have longer : ¬ n ≤ R.size s.1 := Nat.not_le.mpr hn
    simp only [scripted, longer, if_false] at h
    split at h
    · cases h
    · cases h
      exact ⟨rfl, fun _ => rfl⟩

end Storage

end ServiceLang.Values
