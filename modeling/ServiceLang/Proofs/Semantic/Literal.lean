import ServiceLang.Proofs.Semantic.LiteralGrammar

/-!
# Spelling of literals

Texts that are read as given values: decimal digits for integers, and quotes with escapes between
them for strings. How a floating point number is to be written is left open; any text that is read
as the number will do.
-/

namespace ServiceLang

namespace Digits

/-- A decimal digit has its place in the row of digits as its value. -/
theorem value?_digit {c : Char} (digit : c.isDigit = true) :
    value? 10 c = some (c.toNat - '0'.toNat) := by
  have range : 48 ≤ c.toNat ∧ c.toNat ≤ 57 := Char.isDigit_iff_toNat.mp digit
  have small : c.toNat - 48 < 10 := by omega
  rw [value?]
  simp only [range, and_self, if_true, small]
  rfl

/-- Digits are taken in one by one, as the standard library does. -/
theorem natural?_digits {cs : List Char} (digits : ∀ c ∈ cs, c.isDigit = true) (sofar : Nat) :
    natural? 10 sofar cs = some (Nat.ofDigitChars 10 cs sofar) := by
  induction cs generalizing sofar with
  | nil => rfl
  | cons c cs ih =>
    have rest := ih fun d member => digits d (List.mem_cons_of_mem c member)
    rw [natural?, value?_digit (digits c List.mem_cons_self), Option.bind_some, rest,
      Nat.ofDigitChars_cons, Nat.mul_comm]

theorem isDigit_of_mem_decimal {n : Nat} {c : Char} (member : c ∈ decimal n) : c.isDigit = true :=
  Nat.isDigit_of_mem_toDigits (by decide) (by decide) member

/-- The decimal digits of a number are read as that number. -/
theorem unsigned?_decimal (n : Nat) : unsigned? 10 (decimal n) = some n := by
  have read := natural?_digits (fun c member => isDigit_of_mem_decimal (n := n) member) 0
  rw [decimal, Nat.ofDigitChars_ten_toDigits] at read
  rw [unsigned?, decimal]
  · exact read
  · exact Nat.toDigits_ne_nil

theorem signed?_decimal (n : Nat) : signed? 10 (decimal n) = some (n : Int) := by
  rw [signed?, unsigned?_decimal]
  · rfl
  · intro cs negative
    have digit := isDigit_of_mem_decimal (n := n) (negative ▸ List.mem_cons_self)
    cases digit
  · intro cs positive
    have digit := isDigit_of_mem_decimal (n := n) (positive ▸ List.mem_cons_self)
    cases digit

/-- A sign and the digits of the size are read as the number. -/
theorem signed?_decimalInt (i : Int) : signed? 10 (decimalInt i) = some i := by
  rw [decimalInt]
  by_cases negative : i < 0
  · rw [if_pos negative, signed?, unsigned?_decimal]
    have size : -(i.natAbs : Int) = i := by omega
    exact congrArg some size
  · rw [if_neg negative, signed?_decimal, Int.natAbs_of_nonneg (by omega)]

end Digits

namespace Semantic.Literal

open Digits

/-- Decimal digits are not read as hexadecimal ones: no digit is an `x`. -/
theorem isNumeral_decimalInt (i : Int) : IsNumeral (decimalInt i) i := by
  refine .decimal ?_ ((signed?_eq_some_iff (by decide) _ i).mp (signed?_decimalInt i))
  intro mark body marked written
  have other : mark.isDigit = false := by rcases marked with rfl | rfl <;> rfl
  rw [decimalInt] at written
  split at written
  · cases written
  · have member : mark ∈ decimal i.natAbs := by simp [written]
    rw [isDigit_of_mem_decimal member] at other
    cases other

/-- Every word has a decimal text that is read as it. -/
theorem integer?_decimalInt (v : Int64) :
    integer? (String.ofList (decimalInt v.toInt)) = some v := by
  rw [integer?_eq_some_iff, String.toList_ofList]
  exact isNumeral_decimalInt v.toInt

theorem boolean?_toString (b : Bool) : boolean? (toString b) = some b :=
  (boolean?_eq_some_iff _ b).mpr rfl

def escaped (c : Char) : List Char := if c = '"' ∨ c = '\\' then ['\\', c] else [c]

/-- A string between quotes, with quotes and backslashes escaped. -/
def quoted (s : String) : String := String.ofList ('"' :: (s.toList.flatMap escaped ++ ['"']))

/-- What a character is written as is one of its forms. -/
theorem form_escaped (c : Char) : Form c (escaped c) := by
  rw [escaped]
  by_cases special : c = '"' ∨ c = '\\'
  · rw [if_pos special]
    refine .escaped ?_
    rcases special with rfl | rfl <;> decide
  · rw [if_neg special]
    exact .raw fun backslash => special (.inr backslash)

/-- Every string has a text that is read as it. -/
theorem string?_quoted (s : String) : string? (quoted s) = some s := by
  refine (string?_eq_some_iff _ s).mpr ⟨s.toList.map escaped, ?_, ?_⟩
  · exact List.forall₂_map_right_iff.mpr (List.forall₂_same.mpr fun c _ => form_escaped c)
  · rw [quoted, String.toList_ofList, List.flatMap_def]

/-- Some text that is read as the number, if there is one. -/
noncomputable def spelling (x : Binary64) : String :=
  Classical.epsilon fun text => float? text = some x

theorem float?_spelling {x : Binary64} (readable : ∃ text, float? text = some x) :
    float? (spelling x) = some x :=
  Classical.epsilon_spec readable

theorem isFinite_of_float? {text : String} {x : Binary64} (read : float? text = some x) :
    x.isFinite = true := by
  rw [float?] at read
  exact (Option.filter_eq_some_iff.mp read).2

end Semantic.Literal

end ServiceLang
