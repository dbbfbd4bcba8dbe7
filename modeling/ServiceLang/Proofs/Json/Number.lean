import ServiceLang.Json.Number
import ServiceLang.Proofs.Number.Rounding

/-!
# Numerals that are read as the nearest number

The reader of JSON texts rounds three times: the digits, the power of ten, and what it makes of
both. The first two are no rounding when the digits and the power are numbers themselves, and then
the result is the number nearest to what is written.
-/

namespace ServiceLang.Json

open Binary64

/-- Powers of ten up to `10 ^ 22` are numbers: the power of five in them is below `2 ^ 53`. -/
theorem units_powerOfTen {k : Nat} (close : k ≤ 22) :
    (powerOfTen k).units = tenTo k * scale := by
  have rounds := rounds_ofDecimal 1 k
  have split : tenTo k * scale = 5 ^ k * 2 ^ (k + 1074) := by
    rw [tenTo_eq, scale, twoTo_eq, Nat.pow_add, ← Nat.mul_assoc, ← Nat.mul_pow]
  have short : 5 ^ k ≤ 2 * leadingBit :=
    (Nat.pow_le_pow_right (by decide) close).trans (by decide)
  rw [Nat.cast_one, one_mul, zpow_natCast, ← cast_tenTo, ← Nat.cast_mul, split] at rounds
  rw [powerOfTen, split]
  exact rounds.units_eq_of_short short (by omega) (by omega)

/-- Neither factor is rounded off, so the product is rounded once. -/
theorem times_powerOfTen {n k : Nat} (short : n ≤ 2 * leadingBit) (close : k ≤ 22) :
    (ofNat n).times (powerOfTen k) = ofDecimal n k := by
  have rounds := rounds_times (ofNat n) (powerOfTen k)
  have direct := rounds_ofDecimal n k
  have size : ((n * scale : Nat) : ℚ) * (tenTo k * scale : Nat) / scale =
      n * 10 ^ (k : Int) * scale := by
    rw [Nat.cast_mul, Nat.cast_mul, cast_tenTo, zpow_natCast, ← mul_assoc,
      mul_div_cancel_right₀ _ cast_scale_ne_zero, mul_right_comm]
  rw [units_ofNat_of_short short, units_powerOfTen close, size] at rounds
  exact rounds.unique direct

theorem dividedBy_powerOfTen {n k : Nat} (short : n ≤ 2 * leadingBit) (close : k ≤ 22) :
    (ofNat n).dividedBy (powerOfTen k) = ofDecimal n (-(k : Int)) := by
  have ten : 0 < tenTo k := Nat.pow_pos (by decide)
  have positive : 0 < (powerOfTen k).units := by
    rw [units_powerOfTen close]
    exact Nat.mul_pos ten scale_pos
  have rounds := rounds_dividedBy (ofNat n) positive
  have direct := rounds_ofDecimal n (-(k : Int))
  have size : ((n * scale : Nat) : ℚ) / (tenTo k * scale : Nat) * scale =
      n * 10 ^ (-(k : Int)) * scale := by
    rw [Nat.cast_mul, Nat.cast_mul, mul_div_mul_right _ _ cast_scale_ne_zero, cast_tenTo, zpow_neg,
      zpow_natCast, div_eq_mul_inv]
  rw [units_ofNat_of_short short, units_powerOfTen close, size] at rounds
  exact rounds.unique direct

/-- A product of this size is far below infinity. -/
theorem isFinite_ofDecimal {n k : Nat} (short : n ≤ 2 * leadingBit) (close : k ≤ 22) :
    (ofDecimal n k).isFinite = true := by
  rw [(rounds_ofDecimal n k).isFinite_iff]
  refine mul_lt_mul_of_pos_right ?_ (by exact_mod_cast scale_pos)
  have size : n * 10 ^ k < 2 ^ 200 :=
    calc n * 10 ^ k ≤ 2 * leadingBit * 10 ^ 22 :=
          Nat.mul_le_mul short (Nat.pow_le_pow_right (by decide) close)
      _ < 2 ^ 200 := by decide
  rw [zpow_natCast]
  calc (n : ℚ) * 10 ^ k < 2 ^ 200 := by exact_mod_cast size
    _ ≤ 2 ^ 970 := pow_le_pow_right₀ (by norm_num) (by decide)
    _ ≤ 2 ^ 970 * (2 ^ 54 - 1) := le_mul_of_one_le_right (pow_nonneg (by norm_num) _) (by norm_num)
    _ = 2 ^ 1024 - 2 ^ 970 := by rw [mul_sub, mul_one, ← pow_add]

/-- A significand up to `2 ^ 53` and a power of ten up to `10 ^ 22` are read as the nearest
number. -/
theorem scaled?_of_short {n : Nat} {exponent : Int} (short : n ≤ 2 * leadingBit)
    (close : exponent.natAbs ≤ 22) :
    scaled? n exponent = some (ofDecimal n exponent) := by
  rw [scaled?]
  by_cases negative : exponent < 0
  · have small : exponent.natAbs ≤ maxTenExponent := close.trans (by decide)
    have same : -(exponent.natAbs : Int) = exponent := by omega
    rw [if_pos negative, scaleDown, if_pos small, dividedBy_powerOfTen short close, same]
  · obtain ⟨k, rfl⟩ := Int.eq_ofNat_of_zero_le (Int.not_lt.mp negative)
    rw [Int.natAbs_natCast] at close
    have small : (k : Int) ≤ maxTenExponent := Int.ofNat_le.mpr (close.trans (by decide))
    rw [if_neg negative, if_pos small, Int.toNat_natCast, times_powerOfTen short close,
      Option.filter_some, if_pos (isFinite_ofDecimal short close)]

/-- The bounds cannot be raised: the next power of ten is rounded off, and so is the number
after `2 ^ 53`. -/
example : scaled? 3 23 ≠ some (ofDecimal 3 23) ∧
    scaled? (2 * leadingBit + 1) 1 ≠ some (ofDecimal (2 * leadingBit + 1) 1) := by
  decide +kernel

/-- The number with digits written behind its own. -/
def appendDigits (n : Nat) (digits : List Nat) : Nat :=
  digits.foldl (fun v d => v * 10 + d) n

theorem le_appendDigits (n : Nat) (digits : List Nat) : n ≤ appendDigits n digits := by
  induction digits generalizing n with
  | nil => exact le_rfl
  | cons d ds ih => exact (by omega : n ≤ n * 10 + d).trans (ih (n * 10 + d))

/-- Digits that fit 64 bits are taken without exception. -/
theorem gather_of_fits {n : Nat} {digits : List Nat} (fits : appendDigits n digits < UInt64.size) :
    gather n digits = (appendDigits n digits, []) := by
  induction digits generalizing n with
  | nil => rfl
  | cons d ds ih =>
    have next : n * 10 + d < UInt64.size := (le_appendDigits (n * 10 + d) ds).trans_lt fits
    rw [gather, if_pos next]
    exact ih fits

namespace Numeral

/-- The digits of the fraction, the first one first. -/
def places (n : Numeral) : List Nat := (n.fraction.getD []).reverse

/-- The value of all digits, the point left out. -/
def significand (n : Numeral) : Nat := appendDigits n.wholeValue n.places

/-- The power of ten that stands for the point and the exponent. -/
def power (n : Numeral) : Int := n.written - n.places.length

/-- A numeral with a significand up to `2 ^ 53`, at a power of ten up to `10 ^ 22`, is read as the
nearest number. -/
theorem float?_of_short {n : Numeral} (short : n.significand ≤ 2 * leadingBit)
    (close : n.power.natAbs ≤ 22) :
    n.float? = some ((ofDecimal n.significand n.power).withSign n.negative) := by
  have fits : n.significand < UInt64.size := short.trans_lt (by decide)
  have whole : gather 0 n.whole.reverse = (n.wholeValue, []) :=
    gather_of_fits ((le_appendDigits n.wholeValue n.places).trans_lt fits)
  have fraction : gather n.wholeValue (n.fraction.getD []).reverse = (n.significand, []) :=
    gather_of_fits fits
  have exponent : ((([] : List Nat).length : Int) -
      (((n.fraction.getD []).reverse.length - ([] : List Nat).length : Nat) : Int) + n.written) =
      n.power := by
    simp only [power, places, List.length_nil]
    omega
  rw [float?, whole]
  dsimp only
  rw [fraction]
  dsimp only
  rw [exponent, scaled?_of_short short close, Option.map_some]

end Numeral

end ServiceLang.Json
