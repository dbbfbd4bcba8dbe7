import Mathlib.Data.Nat.Digits.Defs
import Mathlib.Data.List.Forall2
import Mathlib.Tactic.IntervalCases
import Mathlib.Tactic.Ring
import ServiceLang.Number.Digits

/-!
# Numerals

What digits of a base denote, as a sum of powers of the base and not digit by digit, and which
signed numbers are written with them. Leading zeros are digits like any other, a sign needs a digit
behind it, and the numbers have no bound: only the last step, to a 64-bit word, asks for a range.
-/

namespace ServiceLang.Digits

def lowerDigits : List Char :=
  ['0', '1', '2', '3', '4', '5', '6', '7', '8', '9', 'a', 'b', 'c', 'd', 'e', 'f']

def upperDigits : List Char :=
  ['0', '1', '2', '3', '4', '5', '6', '7', '8', '9', 'A', 'B', 'C', 'D', 'E', 'F']

/-- The character is the digit of that value, in either case. -/
def IsDigit (base : Nat) (c : Char) (d : Nat) : Prop :=
  d < base ∧ (lowerDigits[d]? = some c ∨ upperDigits[d]? = some c)

instance (base : Nat) (c : Char) (d : Nat) : Decidable (IsDigit base c d) :=
  inferInstanceAs (Decidable (_ ∧ _))

/-- One or more digits and the number they denote, the last digit counting least. -/
def Unsigned (base : Nat) (cs : List Char) (n : Nat) : Prop :=
  cs ≠ [] ∧ ∃ ds, List.Forall₂ (IsDigit base) cs ds ∧ n = Nat.ofDigits base ds.reverse

/-- Digits, possibly behind one sign. -/
inductive Signed (base : Nat) : List Char → Int → Prop where
  | bare {cs : List Char} {n : Nat} (digits : Unsigned base cs n) : Signed base cs n
  | plus {cs : List Char} {n : Nat} (digits : Unsigned base cs n) : Signed base ('+' :: cs) n
  | minus {cs : List Char} {n : Nat} (digits : Unsigned base cs n) : Signed base ('-' :: cs) (-n)

theorem isDigit_of_value? {base : Nat} {c : Char} {d : Nat} (read : value? base c = some d) :
    IsDigit base c d := by
  obtain ⟨n, code⟩ : ∃ n, c.toNat = n := ⟨_, rfl⟩
  have char : c = Char.ofNat n := by rw [← code, Char.ofNat_toNat]
  simp only [value?, code, Option.ite_none_right_eq_some, Option.some.injEq] at read
  have ranges : (48 ≤ n ∧ n ≤ 57) ∨ (97 ≤ n ∧ n ≤ 102) ∨ (65 ≤ n ∧ n ≤ 70) := by
    by_contra outside
    obtain ⟨decimal, lower, upper⟩ : ¬ (48 ≤ n ∧ n ≤ 57) ∧ ¬ (97 ≤ n ∧ n ≤ 102) ∧
        ¬ (65 ≤ n ∧ n ≤ 70) := by simpa only [not_or] using outside
    rw [if_neg decimal, if_neg lower, if_neg upper] at read
    exact Nat.lt_irrefl base read.1
  obtain ⟨below, rfl⟩ := read
  refine ⟨below, ?_⟩
  rw [char]
  rcases ranges with ⟨low, high⟩ | ⟨low, high⟩ | ⟨low, high⟩
  · exact .inl (by interval_cases n <;> rfl)
  · exact .inl (by interval_cases n <;> rfl)
  · exact .inr (by interval_cases n <;> rfl)

theorem value?_eq_some_iff {base : Nat} (small : base ≤ 16) (c : Char) (d : Nat) :
    value? base c = some d ↔ IsDigit base c d := by
  refine ⟨isDigit_of_value?, ?_⟩
  rintro ⟨below, written⟩
  have within : d < 16 := by omega
  interval_cases d <;> rcases written with same | same <;> cases same <;> simp [value?, below]

theorem natural?_eq_some_iff {base : Nat} (small : base ≤ 16) (sofar : Nat) (cs : List Char)
    (n : Nat) :
    natural? base sofar cs = some n ↔
      ∃ ds, List.Forall₂ (IsDigit base) cs ds ∧
        n = sofar * base ^ cs.length + Nat.ofDigits base ds.reverse := by
  induction cs generalizing sofar with
  | nil => simp [natural?, eq_comm (a := sofar)]
  | cons c cs ih =>
    simp only [natural?, Option.bind_eq_some_iff, value?_eq_some_iff small, ih]
    constructor
    · rintro ⟨d, digit, ds, digits, rfl⟩
      refine ⟨d :: ds, .cons digit digits, ?_⟩
      rw [List.reverse_cons, Nat.ofDigits_append, Nat.ofDigits_singleton, List.length_reverse,
        ← digits.length_eq, List.length_cons]
      ring
    · rintro ⟨_, _ | ⟨digit, digits⟩, rfl⟩
      refine ⟨_, digit, _, digits, ?_⟩
      rw [List.reverse_cons, Nat.ofDigits_append, Nat.ofDigits_singleton, List.length_reverse,
        ← digits.length_eq, List.length_cons]
      ring

theorem unsigned?_eq_some_iff {base : Nat} (small : base ≤ 16) (cs : List Char) (n : Nat) :
    unsigned? base cs = some n ↔ Unsigned base cs n := by
  cases cs with
  | nil => simp [unsigned?, Unsigned]
  | cons c cs =>
    rw [unsigned?, natural?_eq_some_iff small, Unsigned]
    · simp
    · exact List.cons_ne_nil c cs

/-- A sign is no digit, so digits alone are not taken for a sign with digits behind it. -/
theorem Unsigned.ne_cons {base : Nat} {cs rest : List Char} {n : Nat} (digits : Unsigned base cs n)
    {sign : Char} (isSign : sign = '-' ∨ sign = '+') : cs ≠ sign :: rest := by
  rintro rfl
  obtain ⟨-, _, _ | ⟨⟨-, listed⟩, -⟩, -⟩ := digits
  have member : sign ∈ lowerDigits ∨ sign ∈ upperDigits :=
    listed.imp List.mem_of_getElem? List.mem_of_getElem?
  rcases isSign with rfl | rfl
  · exact absurd member (by decide)
  · exact absurd member (by decide)

/-- So many digits stay below that power of the base. -/
theorem Unsigned.lt {base : Nat} (two : 1 < base) {cs : List Char} {n : Nat}
    (number : Unsigned base cs n) : n < base ^ cs.length := by
  obtain ⟨-, ds, digits, rfl⟩ := number
  have small : ∀ d ∈ ds, d < base := by
    induction digits with
    | nil => exact fun _ member => absurd member List.not_mem_nil
    | cons digit _ ih =>
      intro d member
      rcases List.mem_cons.mp member with rfl | member
      · exact digit.1
      · exact ih d member
  rw [digits.length_eq, ← List.length_reverse]
  exact Nat.ofDigits_lt_base_pow_length two fun d member => small d (List.mem_reverse.mp member)

/-- The number that is read is that of the digits, behind whatever sign. -/
theorem exists_of_map_cast {n? : Option Nat} {f : Int → Int} {i : Int}
    (h : (do let n ← n?; pure (n : Int)).map f = some i) : ∃ n : Nat, n? = some n ∧ f n = i := by
  obtain ⟨size, found, same⟩ := Option.map_eq_some_iff.mp h
  obtain ⟨n, read, cast⟩ := Option.bind_eq_some_iff.mp found
  cases cast
  exact ⟨n, read, same⟩

theorem signed?_eq_some_iff {base : Nat} (small : base ≤ 16) (cs : List Char) (i : Int) :
    signed? base cs = some i ↔ Signed base cs i := by
  constructor
  · intro read
    unfold signed? at read
    split at read
    · obtain ⟨n, found, rfl⟩ := exists_of_map_cast read
      exact .minus ((unsigned?_eq_some_iff small _ n).mp found)
    · obtain ⟨n, found, rfl⟩ := exists_of_map_cast read
      exact .plus ((unsigned?_eq_some_iff small _ n).mp found)
    · obtain ⟨n, found, rfl⟩ := exists_of_map_cast read
      exact .bare ((unsigned?_eq_some_iff small _ n).mp found)
  · intro written
    cases written with
    | bare digits =>
      rw [signed?, (unsigned?_eq_some_iff small _ _).mpr digits]
      · rfl
      · exact fun _ => digits.ne_cons (.inl rfl)
      · exact fun _ => digits.ne_cons (.inr rfl)
    | plus digits => rw [signed?, (unsigned?_eq_some_iff small _ _).mpr digits]; rfl
    | minus digits => rw [signed?, (unsigned?_eq_some_iff small _ _).mpr digits]; rfl

/-- A word is found for every integer in range, and it is that integer. -/
theorem toInt64?_eq_some_iff (i : Int) (v : Int64) : toInt64? i = some v ↔ v.toInt = i := by
  have high : Int64.maxValue.toInt = 2 ^ 63 - 1 := rfl
  rw [toInt64?]
  by_cases range : Int64.minValue.toInt ≤ i ∧ i ≤ Int64.maxValue.toInt
  · rw [if_pos range, Option.some.injEq]
    constructor
    · rintro rfl
      exact Int64.toInt_ofInt_of_le range.1 (by omega)
    · rintro rfl
      exact Int64.ofInt_toInt v
  · rw [if_neg range]
    constructor
    · intro none
      cases none
    · rintro rfl
      exact absurd ⟨v.minValue_le_toInt, v.toInt_le⟩ range

theorem toInt64?_eq_none_iff (i : Int) :
    toInt64? i = none ↔ ¬ (-9223372036854775808 ≤ i ∧ i ≤ 9223372036854775807) := by
  have low : Int64.minValue.toInt = -9223372036854775808 := by decide
  have high : Int64.maxValue.toInt = 9223372036854775807 := by decide
  rw [toInt64?, low, high]
  simp

end ServiceLang.Digits
