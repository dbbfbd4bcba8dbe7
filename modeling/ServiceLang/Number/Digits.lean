/-!
# Digits

Digits of a base up to sixteen, of either case, and the signed integers that are written with them:
at most one sign and then at least one digit, nothing else. Integers are read without a bound and
only then compared with the range of a signed 64-bit word.
-/

namespace ServiceLang.Digits

def value? (base : Nat) (c : Char) : Option Nat :=
  let n := c.toNat
  let v :=
    if 48 ≤ n ∧ n ≤ 57 then n - 48
    else if 97 ≤ n ∧ n ≤ 102 then n - 87
    else if 65 ≤ n ∧ n ≤ 70 then n - 55
    else base
  if v < base then some v else none

/-- The number that follows `sofar` when the digits of `cs` are appended to it. -/
def natural? (base : Nat) (sofar : Nat) : List Char → Option Nat
  | [] => some sofar
  | c :: cs => (value? base c).bind fun d => natural? base (sofar * base + d) cs

/-- One or more digits. -/
def unsigned? (base : Nat) : List Char → Option Nat
  | [] => none
  | cs => natural? base 0 cs

/-- One or more digits, possibly behind one sign. -/
def signed? (base : Nat) : List Char → Option Int
  | '-' :: cs => (unsigned? base cs).map fun n => -(n : Int)
  | '+' :: cs => (unsigned? base cs).map fun n => (n : Int)
  | cs => (unsigned? base cs).map fun n => (n : Int)

/-- The 64-bit word for an integer that fits one. -/
def toInt64? (i : Int) : Option Int64 :=
  if Int64.minValue.toInt ≤ i ∧ i ≤ Int64.maxValue.toInt then some (Int64.ofInt i) else none

/-- A natural number in decimal digits. -/
def decimal (n : Nat) : List Char := Nat.toDigits 10 n

/-- An integer in decimal digits, behind a sign when it is negative. -/
def decimalInt (i : Int) : List Char :=
  if i < 0 then '-' :: decimal i.natAbs else decimal i.natAbs

end ServiceLang.Digits
