import Mathlib.Algebra.Order.Field.Power
import Mathlib.Order.Monotone.Basic
import Mathlib.Tactic.FieldSimp
import Mathlib.Tactic.Linarith
import Mathlib.Tactic.Positivity
import Mathlib.Tactic.Ring
import ServiceLang.Number.Binary64

/-!
# Rounding to the nearest number

What rounding is, said apart from how it is computed: no number is nearer to the size than the one
it is rounded to, and another one just as near gives way to an even one. Infinity takes part as the
number after the largest finite one. A size is rounded to one number only, so this settles every
bit of the result, the overflow to infinity included.
-/

namespace ServiceLang.Binary64

/-- The units of a number by its bits below the sign. -/
def unitsAt (m : Nat) : Nat :=
  if m / leadingBit = 0 then m % leadingBit
  else (leadingBit + m % leadingBit) * 2 ^ (m / leadingBit - 1)

theorem units_eq (x : Binary64) : x.units = unitsAt x.magnitudeBits := rfl

theorem div_leadingBit {s : Nat} (g : Nat) (below : s < leadingBit) :
    (g * leadingBit + s) / leadingBit = g := by
  simp only [leadingBit] at *
  omega

theorem mod_leadingBit {s : Nat} (g : Nat) (below : s < leadingBit) :
    (g * leadingBit + s) % leadingBit = s := by
  simp only [leadingBit] at *
  omega

theorem unitsAt_subnormal {s : Nat} (below : s < leadingBit) : unitsAt s = s := by
  rw [unitsAt, if_pos (Nat.div_eq_of_lt below), Nat.mod_eq_of_lt below]

theorem unitsAt_normal {s : Nat} (g : Nat) (below : s < leadingBit) :
    unitsAt ((g + 1) * leadingBit + s) = (leadingBit + s) * 2 ^ g := by
  rw [unitsAt, div_leadingBit (g + 1) below, mod_leadingBit (g + 1) below,
    if_neg (Nat.succ_ne_zero g), Nat.add_sub_cancel]

/-- A significand, its leading bit added to the exponent, has its units on the grid of that
exponent. The case of a full carry is the one that rounding up produces. -/
theorem unitsAt_grid {g s : Nat} (within : s ≤ 2 * leadingBit) (normal : g = 0 ∨ leadingBit ≤ s) :
    unitsAt (g * leadingBit + s) = s * 2 ^ g := by
  by_cases small : s < leadingBit
  · obtain rfl : g = 0 := by omega
    rw [Nat.zero_mul, Nat.zero_add, unitsAt_subnormal small, Nat.pow_zero, Nat.mul_one]
  · obtain ⟨t, rfl⟩ : ∃ t, s = leadingBit + t := ⟨s - leadingBit, by omega⟩
    rw [← Nat.add_assoc, ← Nat.succ_mul]
    by_cases carried : t < leadingBit
    · exact unitsAt_normal g carried
    · obtain rfl : t = leadingBit := by omega
      have next := unitsAt_normal (g + 1) (show 0 < leadingBit by decide)
      rw [Nat.add_zero, Nat.succ_mul] at next
      rw [next, Nat.pow_succ]
      ring

/-- All bits below the sign are an exponent and a significand. -/
theorem exists_grid (m : Nat) :
    ∃ g s, m = g * leadingBit + s ∧ s < 2 * leadingBit ∧ (g = 0 ∨ leadingBit ≤ s) := by
  refine ⟨m / leadingBit - 1, m - (m / leadingBit - 1) * leadingBit, ?_⟩
  simp only [leadingBit]
  omega

/-- The numbers stand in the order of their bits: the next one is a step of the grid ahead. -/
theorem unitsAt_strictMono : StrictMono unitsAt := by
  refine strictMono_nat_of_lt_succ fun m => ?_
  obtain ⟨g, s, rfl, within, normal⟩ := exists_grid m
  rw [Nat.add_assoc, unitsAt_grid (by omega) (by omega), unitsAt_grid (by omega) (by omega)]
  exact Nat.mul_lt_mul_of_pos_right (Nat.lt_succ_self s) (Nat.two_pow_pos g)

/-- Seen from a grid, a number lies on it or below all that are rounded on it. -/
theorem unitsAt_on_grid_or_below (m g : Nat) :
    (∃ k, unitsAt m = k * 2 ^ g) ∨ 0 < g ∧ unitsAt m < leadingBit * 2 ^ g := by
  obtain ⟨h, s, rfl, within, normal⟩ := exists_grid m
  rw [unitsAt_grid within.le normal]
  by_cases finer : h < g
  · right
    refine ⟨by omega, ?_⟩
    calc s * 2 ^ h < 2 * leadingBit * 2 ^ h :=
          Nat.mul_lt_mul_of_pos_right within (Nat.two_pow_pos h)
      _ = leadingBit * 2 ^ (h + 1) := by rw [Nat.pow_succ]; ring
      _ ≤ leadingBit * 2 ^ g := Nat.mul_le_mul_left _ (Nat.pow_le_pow_right (by decide) finer)
  · left
    refine ⟨s * 2 ^ (h - g), ?_⟩
    rw [Nat.mul_assoc, ← Nat.pow_add, Nat.sub_add_cancel (by omega)]

/-- The number is the one nearest to a size counted in units. -/
structure Rounds (v : ℚ) (x : Binary64) : Prop where
  positive : x.bits.toNat ≤ infinityBits
  closest : ∀ y : Binary64, y.isNaN = false → |v - x.units| ≤ |v - y.units|
  even : ∀ y : Binary64, y.isNaN = false → y.units ≠ x.units → |v - x.units| = |v - y.units| →
    x.bits.toNat % 2 = 0

theorem eq_of_toNat {x y : Binary64} (bits : x.bits.toNat = y.bits.toNat) : x = y := by
  cases x
  cases y
  exact congrArg Binary64.mk (UInt64.toNat_inj.mp bits)

theorem magnitudeBits_of_le {x : Binary64} (positive : x.bits.toNat ≤ infinityBits) :
    x.magnitudeBits = x.bits.toNat := by
  simp only [magnitudeBits, infinityBits, signBit] at *
  omega

theorem toNat_ofNat {m : Nat} (within : m ≤ infinityBits) : (UInt64.ofNat m).toNat = m := by
  simp only [infinityBits] at within
  exact UInt64.toNat_ofNat_of_lt' (by simp only [UInt64.size]; omega)

/-- A number made from bits below those of infinity has their units. -/
theorem units_ofNat {m : Nat} (within : m ≤ infinityBits) :
    units ⟨UInt64.ofNat m⟩ = unitsAt m := by
  have bits := toNat_ofNat within
  rw [units_eq, magnitudeBits_of_le (by rw [bits]; exact within), bits]

theorem isNaN_ofNat {m : Nat} (within : m ≤ infinityBits) :
    isNaN ⟨UInt64.ofNat m⟩ = false := by
  have bits := toNat_ofNat within
  rw [isNaN, magnitudeBits_of_le (by rw [bits]; exact within), bits]
  exact decide_eq_false (by omega)

theorem magnitudeBits_le_of_isNaN {x : Binary64} (number : x.isNaN = false) :
    x.magnitudeBits ≤ infinityBits := by
  simpa [isNaN] using number

theorem isNaN_of_le {x : Binary64} (positive : x.bits.toNat ≤ infinityBits) :
    x.isNaN = false := by
  rw [isNaN, magnitudeBits_of_le positive]
  exact decide_eq_false (Nat.not_lt.mpr positive)

/-- A number between two that are equally near is nearer than both. -/
theorem nearer_between {v a b c : ℚ} (low : a < b) (high : b < c) (same : |v - a| = |v - c|) :
    |v - b| < |v - a| := by
  have middle : v - a = -(v - c) := by
    rcases abs_eq_abs.mp same with equal | opposite
    · linarith
    · exact opposite
  have right : |v - a| = v - a := abs_of_nonneg (by linarith)
  rw [right, abs_lt]
  constructor <;> linarith

/-- Two numbers nearest to one size would be equally near and both even, and a number between them
would be nearer than either. -/
theorem Rounds.not_lt {v : ℚ} {x y : Binary64} (first : Rounds v x) (second : Rounds v y) :
    ¬ x.bits.toNat < y.bits.toNat := by
  intro less
  have lower : x.units = unitsAt x.bits.toNat := by
    rw [units_eq, magnitudeBits_of_le first.positive]
  have upper : y.units = unitsAt y.bits.toNat := by
    rw [units_eq, magnitudeBits_of_le second.positive]
  have apart : x.units < y.units := by
    rw [lower, upper]
    exact unitsAt_strictMono less
  have same : |v - x.units| = |v - y.units| :=
    le_antisymm (first.closest y (isNaN_of_le second.positive))
      (second.closest x (isNaN_of_le first.positive))
  have evenLow := first.even y (isNaN_of_le second.positive) apart.ne' same
  have evenHigh := second.even x (isNaN_of_le first.positive) apart.ne same.symm
  have beyond : x.bits.toNat + 1 < y.bits.toNat := by omega
  have within : x.bits.toNat + 1 ≤ infinityBits := by
    have := second.positive
    omega
  have nearer := first.closest ⟨UInt64.ofNat (x.bits.toNat + 1)⟩ (isNaN_ofNat within)
  have low : x.units < unitsAt (x.bits.toNat + 1) := by
    rw [lower]
    exact unitsAt_strictMono (Nat.lt_succ_self _)
  have high : unitsAt (x.bits.toNat + 1) < y.units := by
    rw [upper]
    exact unitsAt_strictMono beyond
  rw [units_ofNat within] at nearer
  have between : |v - unitsAt (x.bits.toNat + 1)| < |v - x.units| :=
    nearer_between (by exact_mod_cast low) (by exact_mod_cast high) same
  exact absurd nearer (not_le.mpr between)

/-- One size is rounded to one number. -/
theorem Rounds.unique {v : ℚ} {x y : Binary64} (first : Rounds v x) (second : Rounds v y) :
    x = y :=
  eq_of_toNat (Nat.le_antisymm (Nat.not_lt.mp (second.not_lt first))
    (Nat.not_lt.mp (first.not_lt second)))

/-- Two sizes that are rounded to one number are rounded alike. -/
theorem Rounds.iff_of_same {v w : ℚ} {x y : Binary64} (first : Rounds v y) (second : Rounds w y) :
    Rounds v x ↔ Rounds w x := by
  constructor
  · intro rounds
    rw [rounds.unique first]
    exact second
  · intro rounds
    rw [rounds.unique second]
    exact first

/-- The rounded quotient is off by half at most, and by a half only when it is even. -/
theorem roundQuotient_near (num : Nat) {den : Nat} (pos : 0 < den) :
    |(num : ℚ) / den - roundQuotient num den| ≤ 1 / 2 ∧
      (|(num : ℚ) / den - roundQuotient num den| = 1 / 2 → roundQuotient num den % 2 = 0) := by
  have denominator : (0 : ℚ) < den := by exact_mod_cast pos
  have whole : (den : ℚ) * (num / den : Nat) + (num % den : Nat) = num := by
    exact_mod_cast Nat.div_add_mod num den
  obtain ⟨t, rest⟩ : ∃ t : ℚ, t = (num % den : Nat) / den := ⟨_, rfl⟩
  have split : (num : ℚ) / den = (num / den : Nat) + t := by
    rw [rest, ← whole]
    field_simp
  have lower : 0 ≤ t := by
    rw [rest]
    positivity
  have upper : t < 1 := by
    rw [rest, div_lt_one denominator]
    exact_mod_cast Nat.mod_lt num pos
  have below : 2 * (num % den) < den ↔ t < 1 / 2 := by
    rw [rest, div_lt_div_iff₀ denominator two_pos, one_mul, mul_comm]
    exact_mod_cast Iff.rfl
  have above : den < 2 * (num % den) ↔ 1 / 2 < t := by
    rw [rest, div_lt_div_iff₀ two_pos denominator, one_mul, mul_comm]
    exact_mod_cast Iff.rfl
  have down : |(num / den : Nat) + t - (num / den : Nat)| = t := by
    rw [add_sub_cancel_left, abs_of_nonneg lower]
  have up : |(num / den : Nat) + t - (num / den + 1 : Nat)| = 1 - t := by
    rw [Nat.cast_succ, add_sub_add_left_eq_sub, abs_sub_comm, abs_of_nonneg (by linarith)]
  rw [split, roundQuotient]
  by_cases less : 2 * (num % den) < den
  · rw [if_pos less, down]
    have := below.mp less
    exact ⟨by linarith, fun half => absurd half (by linarith)⟩
  · rw [if_neg less]
    by_cases more : den < 2 * (num % den)
    · rw [if_pos more, up]
      have := above.mp more
      exact ⟨by linarith, fun half => absurd half (by linarith)⟩
    · rw [if_neg more]
      have tie : t = 1 / 2 :=
        le_antisymm (not_lt.mp (mt above.mpr more)) (not_lt.mp (mt below.mpr less))
      by_cases even : num / den % 2 = 0
      · rw [if_pos even, down]
        exact ⟨tie.le, fun _ => even⟩
      · rw [if_neg even, up]
        exact ⟨by linarith, fun _ => by omega⟩

/-- The multiple of the grid that is off by half a step at most is the nearest multiple. -/
theorem closest_on_grid {v h : ℚ} {s : Nat} (step : 0 < h) (near : |v - s * h| ≤ h / 2) {k : Nat}
    (other : k ≠ s) : h / 2 ≤ |v - k * h| := by
  have apart : (1 : ℚ) ≤ |(s : ℚ) - k| := by
    have : (1 : Int) ≤ |(s : Int) - k| := Int.one_le_abs (by omega)
    exact_mod_cast this
  have spaced : |s * h - k * h| = |(s : ℚ) - k| * h := by
    rw [← sub_mul, abs_mul, abs_of_pos step]
  have triangle := abs_sub_le (s * h) v (k * h)
  rw [spaced, abs_sub_comm (s * h) v] at triangle
  have far := mul_le_mul_of_nonneg_right apart step.le
  linarith

/-- Rounding on a grid is rounding among all numbers when what lies below the grid's range is out of
reach. -/
theorem rounds_of_grid {v : ℚ} {g s : Nat} {x : Binary64} (bits : x.bits.toNat = g * leadingBit + s)
    (positive : x.bits.toNat ≤ infinityBits) (within : s ≤ 2 * leadingBit)
    (normal : g = 0 ∨ leadingBit ≤ s) (above : 0 < g → (leadingBit * 2 ^ g : Nat) ≤ v)
    (near : |v - s * 2 ^ g| ≤ 2 ^ g / 2) (tie : |v - s * 2 ^ g| = 2 ^ g / 2 → s % 2 = 0) :
    Rounds v x := by
  have step : (0 : ℚ) < 2 ^ g := by positivity
  have units : (x.units : ℚ) = s * 2 ^ g := by
    rw [units_eq, magnitudeBits_of_le positive, bits, unitsAt_grid within normal]
    exact_mod_cast rfl
  have parity : s % 2 = 0 → x.bits.toNat % 2 = 0 := by
    rw [bits]
    simp only [leadingBit]
    omega
  -- a number below the grid's range is further off than the multiple at which the range begins
  have outside (m : Nat) (pos : 0 < g) (below : unitsAt m < leadingBit * 2 ^ g) :
      |v - s * 2 ^ g| < |v - unitsAt m| := by
    have start := above pos
    have low : (unitsAt m : ℚ) < (leadingBit * 2 ^ g : Nat) := by exact_mod_cast below
    have edge : |v - s * 2 ^ g| ≤ |v - (leadingBit * 2 ^ g : Nat)| := by
      by_cases same : leadingBit = s
      · rw [← same]
        exact le_of_eq (by push_cast; rfl)
      · have := closest_on_grid step near same
        push_cast
        linarith
    rw [abs_of_nonneg (sub_nonneg.mpr start)] at edge
    rw [abs_of_pos (by linarith : 0 < v - unitsAt m)]
    linarith
  refine ⟨positive, fun y number => ?_, fun y number apart same => ?_⟩
  · rw [units, units_eq y]
    rcases unitsAt_on_grid_or_below y.magnitudeBits g with ⟨k, multiple⟩ | ⟨pos, below⟩
    · rw [multiple]
      push_cast
      by_cases same : k = s
      · rw [same]
      · exact near.trans (closest_on_grid step near same)
    · exact (outside _ pos below).le
  · rw [units, units_eq y] at same
    rcases unitsAt_on_grid_or_below y.magnitudeBits g with ⟨k, multiple⟩ | ⟨pos, below⟩
    · have other : k ≠ s := by
        rintro rfl
        apply apart
        rw [units_eq y, multiple]
        exact_mod_cast units.symm
      rw [multiple] at same
      push_cast at same
      have far := closest_on_grid step near other
      exact parity (tie (le_antisymm near (by rw [same]; exact far)))
    · exact absurd same (outside _ pos below).ne

theorem twoTo_eq (n : Nat) : twoTo n = 2 ^ n := rfl

theorem tenTo_eq (n : Nat) : tenTo n = 10 ^ n := rfl

theorem cast_twoTo (n : Nat) : (twoTo n : ℚ) = 2 ^ n := by
  rw [twoTo_eq, Nat.cast_pow, Nat.cast_ofNat]

theorem cast_tenTo (n : Nat) : (tenTo n : ℚ) = 10 ^ n := by
  rw [tenTo_eq, Nat.cast_pow, Nat.cast_ofNat]

theorem twoTo_pos (n : Nat) : 0 < twoTo n := Nat.two_pow_pos n

theorem twoTo_add (m n : Nat) : twoTo (m + n) = twoTo m * twoTo n := Nat.pow_add 2 m n

theorem twoTo_le {m n : Nat} (less : m ≤ n) : twoTo m ≤ twoTo n :=
  Nat.pow_le_pow_right (by decide) less

theorem twoTo_le_tenTo (n : Nat) : twoTo n ≤ tenTo n := Nat.pow_le_pow_left (by decide) n

theorem twoTo_triple_le_tenTo (n : Nat) : twoTo (3 * n) ≤ tenTo n :=
  calc twoTo (3 * n) = (2 ^ 3) ^ n := Nat.pow_mul 2 3 n
    _ ≤ tenTo n := Nat.pow_le_pow_left (by decide) n

theorem tenTo_add (m n : Nat) : tenTo (m + n) = tenTo m * tenTo n := Nat.pow_add 10 m n

theorem tenTo_le {m n : Nat} (less : m ≤ n) : tenTo m ≤ tenTo n :=
  Nat.pow_le_pow_right (by decide) less

theorem scale_pos : 0 < scale := twoTo_pos 1074

theorem cast_scale_ne_zero : (scale : ℚ) ≠ 0 := by exact_mod_cast scale_pos.ne'

/-- Infinity stands where the number after the largest finite one would. -/
theorem units_infinity : (unitsAt infinityBits : ℚ) = 2 ^ 1024 * scale := by
  have units : unitsAt infinityBits = leadingBit * 2 ^ 2046 :=
    unitsAt_grid (g := 2046) (s := leadingBit) (by decide) (.inr le_rfl)
  have bit : (leadingBit : ℚ) = 2 ^ 52 := cast_twoTo 52
  rw [units, Nat.cast_mul, Nat.cast_pow, Nat.cast_ofNat, bit, scale, cast_twoTo, ← pow_add,
    ← pow_add]

/-- The largest finite number. -/
theorem units_largest : (unitsAt (infinityBits - 1) : ℚ) = (2 ^ 1024 - 2 ^ 971) * scale := by
  have units : unitsAt (infinityBits - 1) = (2 * leadingBit - 1) * 2 ^ 2045 :=
    unitsAt_grid (g := 2045) (s := 2 * leadingBit - 1) (by decide) (.inr (by decide))
  have bit : ((2 * leadingBit - 1 : Nat) : ℚ) = 2 ^ 53 - 1 := by norm_num [leadingBit]
  have high : (2 : ℚ) ^ 1024 = 2 ^ 53 * 2 ^ 971 := by rw [← pow_add]
  have grid : (2 : ℚ) ^ 2045 = 2 ^ 971 * 2 ^ 1074 := by rw [← pow_add]
  rw [units, Nat.cast_mul, Nat.cast_pow, Nat.cast_ofNat, bit, scale, cast_twoTo, grid, high]
  generalize (2 : ℚ) ^ 971 = step
  generalize (2 : ℚ) ^ 1074 = units
  ring

/-- A size from the place of infinity on is rounded to infinity. -/
theorem rounds_infinity {v : ℚ} (large : 2 ^ 1024 * scale ≤ v) :
    Rounds v ⟨UInt64.ofNat infinityBits⟩ := by
  have bits := toNat_ofNat (le_refl infinityBits)
  have units := units_ofNat (le_refl infinityBits)
  rw [← units_infinity] at large
  refine ⟨bits.le, fun y number => ?_, fun _ _ _ _ => ?_⟩
  · have most := unitsAt_strictMono.monotone (magnitudeBits_le_of_isNaN number)
    have limit : (y.units : ℚ) ≤ unitsAt infinityBits := by exact_mod_cast most
    rw [units, abs_of_nonneg (by linarith), abs_of_nonneg (by linarith)]
    linarith
  · rw [bits]
    rfl

/-- Half a unit and less is rounded to zero. -/
theorem rounds_zero {v : ℚ} (positive : 0 ≤ v) (small : v ≤ 1 / 2) : Rounds v zero := by
  refine rounds_of_grid (g := 0) (s := 0) rfl (by decide) (by decide) (.inl rfl) (by simp) ?_ ?_
  · rw [Nat.cast_zero, zero_mul, sub_zero, abs_of_nonneg positive, pow_zero]
    exact small
  · exact fun _ => rfl

/-- The grid that `nearest` rounds on has room for the quotient, and the quotient is not below the
grid's range. -/
theorem grid_bounds {num den g : Nat} (grid : g = (num / den).log2 - 52) :
    num / (den * 2 ^ g) < 2 * leadingBit ∧ (g = 0 ∨ leadingBit ≤ num / (den * 2 ^ g)) := by
  have bit : leadingBit = 2 ^ 52 := rfl
  rw [← Nat.div_div_eq_div_mul, bit]
  constructor
  · rw [Nat.div_lt_iff_lt_mul (Nat.two_pow_pos g), ← Nat.pow_succ', ← Nat.pow_add]
    calc num / den < 2 ^ ((num / den).log2 + 1) := Nat.lt_log2_self
      _ ≤ 2 ^ (52 + 1 + g) := Nat.pow_le_pow_right (by decide) (by omega)
  · by_cases none : g = 0
    · exact .inl none
    · right
      have nonzero : num / den ≠ 0 := by
        intro zero
        rw [zero] at grid
        exact none grid
      rw [Nat.le_div_iff_mul_le (Nat.two_pow_pos g), ← Nat.pow_add]
      have exponent : 52 + g = (num / den).log2 := by omega
      rw [exponent]
      exact Nat.log2_self_le nonzero

/-- A quotient is rounded to the whole number below it or to the next one. -/
theorem roundQuotient_cases (num den : Nat) :
    roundQuotient num den = num / den ∨ roundQuotient num den = num / den + 1 := by
  simp only [roundQuotient]
  split_ifs <;> simp

/-- On a grid a quotient is rounded to a multiple that is off by half a step at most. -/
theorem roundQuotient_near_on_grid (num g : Nat) {den : Nat} (pos : 0 < den) :
    |(num : ℚ) / den - roundQuotient num (den * 2 ^ g) * 2 ^ g| ≤ 2 ^ g / 2 ∧
      (|(num : ℚ) / den - roundQuotient num (den * 2 ^ g) * 2 ^ g| = 2 ^ g / 2 →
        roundQuotient num (den * 2 ^ g) % 2 = 0) := by
  have step : (0 : ℚ) < 2 ^ g := by positivity
  have whole : 0 < den * 2 ^ g := by positivity
  obtain ⟨near, tie⟩ := roundQuotient_near num whole
  generalize roundQuotient num (den * 2 ^ g) = s at *
  have scaled : |(num : ℚ) / den - s * 2 ^ g| =
      |(num : ℚ) / (den * 2 ^ g : Nat) - s| * 2 ^ g := by
    rw [← abs_of_pos step, ← abs_mul, abs_of_pos step]
    congr 1
    push_cast
    field_simp
  constructor
  · rw [scaled]
    linarith [mul_le_mul_of_nonneg_right near step.le]
  · intro half
    rw [scaled] at half
    exact tie (mul_right_cancel₀ step.ne' (by linarith))

/-- Bits past those of infinity belong to a grid whose range starts from the place of infinity. -/
theorem grid_past_infinity {g s : Nat} (within : s ≤ 2 * leadingBit)
    (past : infinityBits < g * leadingBit + s) :
    0 < g ∧ unitsAt infinityBits ≤ leadingBit * 2 ^ g := by
  have carried : infinityBits ≤ g * leadingBit + leadingBit := by
    simp only [infinityBits, leadingBit] at past within ⊢
    omega
  constructor
  · simp only [infinityBits, leadingBit] at carried
    omega
  · rw [← unitsAt_grid (by omega) (.inr le_rfl)]
    exact unitsAt_strictMono.monotone carried

/-- `nearest` finds the number nearest to its quotient. -/
theorem rounds_nearest (num : Nat) {den : Nat} (pos : 0 < den) :
    Rounds ((num : ℚ) / den) (nearest num den) := by
  obtain ⟨g, grid⟩ : ∃ g, g = (num / den).log2 - 52 := ⟨_, rfl⟩
  obtain ⟨s, significand⟩ : ∃ s, s = roundQuotient num (den * 2 ^ g) := ⟨_, rfl⟩
  have found : nearest num den = ⟨UInt64.ofNat (min (g * leadingBit + s) infinityBits)⟩ := by
    rw [significand, grid]
    rfl
  have bits := toNat_ofNat (min_le_right (g * leadingBit + s) infinityBits)
  obtain ⟨room, range⟩ := grid_bounds grid
  have within : s ≤ 2 * leadingBit ∧ (g = 0 ∨ leadingBit ≤ s) := by
    rcases roundQuotient_cases num (den * 2 ^ g) with same | same <;> omega
  have above : 0 < g → (leadingBit * 2 ^ g : Nat) ≤ (num : ℚ) / den := by
    intro some
    have start := range.resolve_left some.ne'
    rw [Nat.le_div_iff_mul_le (by positivity)] at start
    rw [le_div_iff₀ (by exact_mod_cast pos)]
    have : leadingBit * 2 ^ g * den ≤ num := by linarith
    exact_mod_cast this
  rw [found]
  by_cases fits : g * leadingBit + s ≤ infinityBits
  · obtain ⟨near, tie⟩ := roundQuotient_near_on_grid num g pos
    rw [← significand] at near tie
    rw [min_eq_left fits] at bits ⊢
    exact rounds_of_grid bits (bits.le.trans fits) within.1 within.2 above near tie
  · rw [min_eq_right (not_le.mp fits).le]
    obtain ⟨some, start⟩ := grid_past_infinity within.1 (not_le.mp fits)
    refine rounds_infinity (le_trans ?_ (above some))
    rw [← units_infinity]
    exact_mod_cast start

/-- A size is rounded to a finite number when it is below the middle between the largest one and
infinity; the middle itself goes to infinity, the even one of the two. -/
theorem Rounds.isFinite_iff_middle {v : ℚ} {x : Binary64} (rounds : Rounds v x) :
    x.isFinite = true ↔
      v < ((unitsAt (infinityBits - 1) : ℚ) + unitsAt infinityBits) / 2 := by
  have units : x.units = unitsAt x.bits.toNat := by
    rw [units_eq, magnitudeBits_of_le rounds.positive]
  have gap : (unitsAt (infinityBits - 1) : ℚ) < unitsAt infinityBits := by
    exact_mod_cast unitsAt_strictMono (show infinityBits - 1 < infinityBits by decide)
  rw [isFinite, decide_eq_true_iff, magnitudeBits_of_le rounds.positive]
  constructor
  · intro finite
    by_contra beyond
    have most := unitsAt_strictMono.monotone (Nat.le_pred_of_lt finite)
    have limit : (x.units : ℚ) ≤ unitsAt (infinityBits - 1) := by
      rw [units]
      exact_mod_cast most
    have number := isNaN_ofNat (le_refl infinityBits)
    have nearer := rounds.closest _ number
    have tie := rounds.even _ number
    rw [units_ofNat le_rfl] at nearer tie
    rw [abs_of_pos (by linarith : 0 < v - x.units)] at nearer tie
    rcases le_total (unitsAt infinityBits : ℚ) v with past | short
    · rw [abs_of_nonneg (by linarith)] at nearer
      linarith
    · rw [abs_of_nonpos (by linarith)] at nearer tie
      have last : (x.units : ℚ) = unitsAt (infinityBits - 1) := by linarith
      have even := tie (by intro same; rw [same] at gap; linarith) (by linarith)
      rw [units] at last
      have bits := unitsAt_strictMono.injective (Nat.cast_injective last)
      rw [bits] at even
      exact absurd even (by decide)
  · intro below
    by_contra infinite
    have bits := Nat.le_antisymm rounds.positive (Nat.not_lt.mp infinite)
    have nearer := rounds.closest _ (isNaN_ofNat (show infinityBits - 1 ≤ infinityBits by decide))
    rw [units_ofNat (by decide), units, bits, abs_of_neg (by linarith)] at nearer
    rcases abs_cases (v - unitsAt (infinityBits - 1)) with ⟨same, _⟩ | ⟨same, _⟩ <;> linarith

/-- A size is rounded to a finite number below the middle between the largest one and infinity. -/
theorem Rounds.isFinite_iff {v : ℚ} {x : Binary64} (rounds : Rounds v x) :
    x.isFinite = true ↔ v < (2 ^ 1024 - 2 ^ 970) * scale := by
  have steps : (2 : ℚ) ^ 971 = 2 ^ 970 * 2 := pow_succ _ _
  have middle : ((unitsAt (infinityBits - 1) : ℚ) + unitsAt infinityBits) / 2 =
      (2 ^ 1024 - 2 ^ 970) * scale := by
    rw [units_largest, units_infinity, steps]
    generalize (2 : ℚ) ^ 970 = step
    generalize (2 : ℚ) ^ 1024 = limit
    ring
  rw [rounds.isFinite_iff_middle, middle]

/-- A number is rounded to itself. -/
theorem rounds_units {x : Binary64} (positive : x.bits.toNat ≤ infinityBits) :
    Rounds x.units x := by
  refine ⟨positive, fun y _ => ?_, fun y _ apart same => ?_⟩
  · rw [sub_self, abs_zero]
    exact abs_nonneg _
  · rw [sub_self, abs_zero, eq_comm, abs_eq_zero, sub_eq_zero] at same
    exact absurd (by exact_mod_cast same.symm) apart

/-- A number up to `2 ^ 53` reaches the leading bit by a shift. -/
theorem exists_shift {n : Nat} (some : n ≠ 0) (short : n ≤ 2 * leadingBit) :
    ∃ c ≤ 52, leadingBit ≤ n * 2 ^ c ∧ n * 2 ^ c ≤ 2 * leadingBit := by
  have bit : leadingBit = 2 ^ 52 := rfl
  have low := Nat.log2_self_le some
  have high : n < 2 ^ (n.log2 + 1) := Nat.lt_log2_self
  by_cases full : n.log2 ≤ 52
  · refine ⟨52 - n.log2, Nat.sub_le _ _, ?_, ?_⟩
    · calc leadingBit = 2 ^ n.log2 * 2 ^ (52 - n.log2) := by
            rw [← Nat.pow_add, Nat.add_sub_cancel' full, bit]
        _ ≤ n * 2 ^ (52 - n.log2) := Nat.mul_le_mul_right _ low
    · calc n * 2 ^ (52 - n.log2) ≤ 2 ^ (n.log2 + 1) * 2 ^ (52 - n.log2) :=
            Nat.mul_le_mul_right _ high.le
        _ = 2 * leadingBit := by
            rw [← Nat.pow_add, bit, ← Nat.pow_succ']
            congr 1
            omega
  · refine ⟨0, Nat.zero_le _, ?_, by simpa using short⟩
    calc leadingBit ≤ 2 ^ n.log2 := by
          rw [bit]
          exact Nat.pow_le_pow_right (by decide) (by omega)
      _ ≤ n * 2 ^ 0 := by simpa using low

/-- What is up to `2 ^ 53`, times a power of two, is the size of a number. -/
theorem exists_units {n j : Nat} (short : n ≤ 2 * leadingBit) (fine : 52 ≤ j) (within : j ≤ 2044) :
    ∃ x : Binary64, x.bits.toNat ≤ infinityBits ∧ x.units = n * 2 ^ j := by
  by_cases none : n = 0
  · refine ⟨zero, by decide, ?_⟩
    rw [none, Nat.zero_mul]
    rfl
  · obtain ⟨c, less, low, high⟩ := exists_shift none short
    have bound : (j - c) * leadingBit + n * 2 ^ c ≤ infinityBits := by
      have grid : (j - c) * leadingBit ≤ 2044 * leadingBit := Nat.mul_le_mul_right _ (by omega)
      have top : 2044 * leadingBit + 2 * leadingBit ≤ infinityBits := by decide
      omega
    refine ⟨⟨UInt64.ofNat ((j - c) * leadingBit + n * 2 ^ c)⟩,
      (toNat_ofNat bound).le.trans bound, ?_⟩
    rw [units_ofNat bound, unitsAt_grid high (.inr low), Nat.mul_assoc, ← Nat.pow_add]
    congr 2
    omega

/-- What is up to `2 ^ 53`, times a power of two, is not rounded off. -/
theorem Rounds.units_eq_of_short {n j : Nat} {x : Binary64} (rounds : Rounds (n * 2 ^ j : Nat) x)
    (short : n ≤ 2 * leadingBit) (fine : 52 ≤ j) (within : j ≤ 2044) : x.units = n * 2 ^ j := by
  obtain ⟨y, positive, units⟩ := exists_units short fine within
  rw [← units] at rounds
  rw [rounds.unique (rounds_units positive), units]

/-- A natural number is rounded as what it is. -/
theorem rounds_ofNat (n : Nat) : Rounds (n * scale) (ofNat n) := by
  have rounds := rounds_nearest (n * scale) Nat.one_pos
  rw [Nat.cast_mul, Nat.cast_one, div_one] at rounds
  exact rounds

theorem units_ofNat_of_short {n : Nat} (short : n ≤ 2 * leadingBit) :
    (ofNat n).units = n * scale := by
  have rounds := rounds_ofNat n
  rw [← Nat.cast_mul, scale, twoTo_eq] at rounds
  rw [scale, twoTo_eq]
  exact rounds.units_eq_of_short short (by decide) (by decide)

/-- A product of sizes in units is one unit too many. -/
theorem rounds_times (x y : Binary64) :
    Rounds ((x.units : ℚ) * y.units / scale) (times x y) := by
  have rounds := rounds_nearest (x.units * y.units) scale_pos
  rw [Nat.cast_mul] at rounds
  exact rounds

/-- A quotient of sizes in units is a number, and still has to be counted in units. -/
theorem rounds_dividedBy (x : Binary64) {y : Binary64} (nonzero : 0 < y.units) :
    Rounds ((x.units : ℚ) / y.units * scale) (dividedBy x y) := by
  have rounds := rounds_nearest (x.units * scale) nonzero
  rw [Nat.cast_mul, mul_div_right_comm] at rounds
  exact rounds

/-- A power of ten is a numerator or a denominator. -/
theorem zpow_eq_div (exponent : Int) :
    (10 : ℚ) ^ exponent = (tenTo exponent.toNat : ℚ) / tenTo (-exponent).toNat := by
  rw [cast_tenTo, cast_tenTo]
  rcases le_total 0 exponent with positive | negative
  · obtain ⟨n, rfl⟩ := Int.eq_ofNat_of_zero_le positive
    have none : (-(n : Int)).toNat = 0 := by omega
    rw [none, pow_zero, div_one, zpow_natCast, Int.toNat_natCast]
  · obtain ⟨n, same⟩ := Int.eq_ofNat_of_zero_le (neg_nonneg.mpr negative)
    obtain rfl : exponent = -(n : Int) := by omega
    have none : (-(n : Int)).toNat = 0 := by omega
    rw [none, pow_zero, neg_neg, Int.toNat_natCast, zpow_neg, zpow_natCast, one_div]

/-- A unit and its multiples are decimals. -/
theorem units_eq_decimal (u n : Nat) :
    ((u * 5 ^ n : Nat) : ℚ) * 10 ^ (-(n : Int)) * twoTo n = u := by
  have ten : (10 : ℚ) ^ n = 5 ^ n * 2 ^ n := by
    rw [← mul_pow]
    norm_num
  rw [cast_twoTo, zpow_neg, zpow_natCast, ten]
  push_cast
  field_simp

/-- Every power of ten from `10 ^ 400` on is past the place of infinity. -/
theorem rounds_huge {digits : Nat} {exponent : Int} (some : digits ≠ 0) (high : 400 < exponent) :
    Rounds (digits * 10 ^ exponent * scale) ⟨UInt64.ofNat infinityBits⟩ := by
  have one : (1 : ℚ) ≤ digits := by exact_mod_cast Nat.pos_of_ne_zero some
  refine rounds_infinity (mul_le_mul_of_nonneg_right ?_ (Nat.cast_nonneg scale))
  calc (2 : ℚ) ^ 1024 ≤ 2 ^ (3 * 400) := pow_le_pow_right₀ (by norm_num) (by decide)
    _ = (2 ^ 3) ^ 400 := pow_mul 2 3 400
    _ ≤ 10 ^ 400 := pow_le_pow_left₀ (by norm_num) (by norm_num) 400
    _ = 10 ^ (400 : Int) := (zpow_natCast 10 400).symm
    _ ≤ 10 ^ exponent := zpow_le_zpow_right₀ (by norm_num) high.le
    _ ≤ digits * 10 ^ exponent := le_mul_of_one_le_left (by positivity) one

/-- A decimal below `2 ^ (-1200)` is below half a unit. -/
theorem rounds_tiny {digits n : Nat} (tiny : digits * twoTo 1200 ≤ tenTo n) :
    Rounds (digits * 10 ^ (-(n : Int)) * scale) zero := by
  have unit : scale * 2 ≤ twoTo 1200 := by
    have two : twoTo 1 = 2 := rfl
    rw [scale, ← two, ← twoTo_add]
    exact twoTo_le (by decide)
  have positive : (0 : ℚ) < tenTo n := by
    rw [cast_tenTo]
    positivity
  have size : digits * (scale * 2) ≤ tenTo n := (Nat.mul_le_mul_left digits unit).trans tiny
  have bound : (digits : ℚ) * (scale * 2) ≤ tenTo n := by exact_mod_cast size
  rw [zpow_neg, zpow_natCast, ← cast_tenTo, ← div_eq_mul_inv, div_mul_eq_mul_div]
  have numerator : (0 : ℚ) ≤ digits * (scale : ℚ) :=
    mul_nonneg (Nat.cast_nonneg _) (Nat.cast_nonneg _)
  refine rounds_zero (div_nonneg numerator positive.le) ?_
  rw [div_le_iff₀ positive]
  linarith

/-- A decimal is rounded to the nearest number, also where its exponent settles the answer. -/
theorem rounds_ofDecimal (digits : Nat) (exponent : Int) :
    Rounds (digits * 10 ^ exponent * scale) (ofDecimal digits exponent) := by
  rw [ofDecimal]
  by_cases none : digits = 0
  · rw [if_pos none, none, Nat.cast_zero, zero_mul, zero_mul]
    exact rounds_zero le_rfl (by norm_num)
  rw [if_neg none]
  by_cases high : 400 < exponent
  · rw [if_pos high]
    exact rounds_huge none high
  rw [if_neg high]
  by_cases low : (digits.log2 : Int) + 1200 < -exponent
  · rw [if_pos low]
    obtain ⟨n, rfl⟩ : ∃ n : Nat, exponent = -(n : Int) := ⟨(-exponent).toNat, by omega⟩
    refine rounds_tiny ?_
    calc digits * twoTo 1200 ≤ twoTo (digits.log2 + 1) * twoTo 1200 :=
          Nat.mul_le_mul_right _ Nat.lt_log2_self.le
      _ = twoTo (digits.log2 + 1 + 1200) := (twoTo_add _ 1200).symm
      _ ≤ twoTo n := twoTo_le (by omega)
      _ ≤ tenTo n := twoTo_le_tenTo n
  rw [if_neg low]
  have positive : 0 < tenTo (-exponent).toNat := Nat.pow_pos (by decide)
  have rounds := rounds_nearest (digits * tenTo exponent.toNat * scale) positive
  rw [zpow_eq_div, mul_div_assoc', div_mul_eq_mul_div]
  push_cast at rounds
  exact rounds

/-- The sign is one bit, apart from those of the size. -/
theorem magnitudeBits_neg (x : Binary64) : x.neg.magnitudeBits = x.magnitudeBits := by
  have power : signBit = 2 ^ 63 := rfl
  have bit : (0x8000000000000000 : UInt64).toNat % 2 ^ 63 = 0 := by decide
  rw [magnitudeBits, neg, UInt64.toNat_xor, power, Nat.xor_mod_two_pow, bit, Nat.xor_zero]
  rfl

theorem withSign_true (x : Binary64) : x.withSign true = x.neg := rfl

theorem withSign_false (x : Binary64) : x.withSign false = x := rfl

/-- Whether a number is finite does not depend on its sign. -/
theorem isFinite_withSign (negative : Bool) (x : Binary64) :
    (x.withSign negative).isFinite = x.isFinite := by
  cases negative with
  | false => rfl
  | true => exact congrArg (fun m => decide (m < infinityBits)) (magnitudeBits_neg x)

/-- The sign is added where there is none. -/
theorem toNat_neg {x : Binary64} (positive : x.bits.toNat < signBit) :
    x.neg.bits.toNat = signBit + x.bits.toNat := by
  have bit : (0x8000000000000000 : UInt64).toNat / 2 ^ 63 = 1 := by decide
  have small : x.bits.toNat / 2 ^ 63 = 0 := Nat.div_eq_of_lt positive
  have high : x.neg.bits.toNat / 2 ^ 63 = 1 := by
    rw [neg, UInt64.toNat_xor, Nat.xor_div_two_pow, small, bit, Nat.zero_xor]
  have low := magnitudeBits_neg x
  simp only [magnitudeBits, signBit] at *
  omega

/-- What is rounded to has no sign of its own, so the sign that it is given is the one it has. -/
theorem Rounds.isNegative_withSign {v : ℚ} {x : Binary64} (rounds : Rounds v x) (negative : Bool) :
    (x.withSign negative).isNegative = negative := by
  have positive : x.bits.toNat < signBit := Nat.lt_of_le_of_lt rounds.positive (by decide)
  cases negative with
  | false => exact decide_eq_false (Nat.not_le.mpr positive)
  | true => exact decide_eq_true (toNat_neg positive ▸ Nat.le_add_right _ _)

theorem isNaN_of_isFinite {x : Binary64} (finite : x.isFinite = true) : x.isNaN = false := by
  simp only [isFinite, isNaN, decide_eq_true_eq, decide_eq_false_iff_not] at *
  omega

/-- A number that is no NaN is the sign of its size. -/
theorem exists_withSign {x : Binary64} (number : x.isNaN = false) :
    ∃ size, Rounds x.units size ∧ x = size.withSign x.isNegative := by
  have within := magnitudeBits_le_of_isNaN number
  have word := x.bits.toNat_lt
  obtain ⟨size, bits⟩ : ∃ size : Binary64, size.bits.toNat = x.magnitudeBits :=
    ⟨⟨UInt64.ofNat x.magnitudeBits⟩, toNat_ofNat within⟩
  refine ⟨size, ?_, eq_of_toNat ?_⟩
  · have rounds := rounds_units (x := size) (by rw [bits]; exact within)
    rw [units_eq, magnitudeBits_of_le (by rw [bits]; exact within), bits, ← units_eq] at rounds
    exact rounds
  · by_cases negative : signBit ≤ x.bits.toNat
    · have positive : size.bits.toNat < signBit := by
        rw [bits]
        exact Nat.lt_of_le_of_lt within (by decide)
      rw [isNegative, decide_eq_true negative, withSign_true, toNat_neg positive, bits]
      simp only [magnitudeBits, signBit] at *
      omega
    · rw [isNegative, decide_eq_false negative, withSign_false, bits]
      exact (Nat.mod_eq_of_lt (Nat.not_le.mp negative)).symm

end ServiceLang.Binary64
