import ServiceLang.Number.Binary64

/-!
# Numbers in JSON texts

A numeral is the digits of a number as they stand in a text. A numeral without fraction and exponent
that fits 64 bits, signed or unsigned, is an integer; `-0` and everything else is a floating point
number. Its value is not the nearest number in all cases: the leading digits that fit 64 bits are
rounded to a floating point number first and then multiplied by or divided by a rounded power of
ten. A numeral whose value is too large has none.
-/

namespace ServiceLang.Json

/-- Digits are kept with the last one first. -/
structure Numeral where
  negative : Bool
  whole : List Nat
  fraction : Option (List Nat)
  exponent : Option (Bool × Nat)
  deriving DecidableEq, Inhabited

inductive Number where
  | integer (i : Int)
  | float (x : Binary64)
  deriving DecidableEq, Inhabited

/-- Append digits to a natural number as long as the result fits 64 bits. The second component holds
the digits that are left. -/
def gather : Nat → List Nat → Nat × List Nat
  | n, [] => (n, [])
  | n, d :: ds => if n * 10 + d < UInt64.size then gather (n * 10 + d) ds else (n, d :: ds)

/-- The largest power of ten that is a finite number has this exponent. -/
def maxTenExponent : Nat := 308

def powerOfTen (k : Nat) : Binary64 := Binary64.ofDecimal 1 k

/-- Division by a power of ten, in steps of the largest one. -/
def scaleDown (x : Binary64) (k : Nat) : Binary64 :=
  if k ≤ maxTenExponent then x.dividedBy (powerOfTen k)
  else if x.isZero then x
  else scaleDown (x.dividedBy (powerOfTen maxTenExponent)) (k - maxTenExponent)
termination_by k
decreasing_by simp only [maxTenExponent] at *; omega

/-- A significand times a power of ten, unless that is too large. -/
def scaled? (significand : Nat) (exponent : Int) : Option Binary64 :=
  let x := Binary64.ofNat significand
  if exponent < 0 then some (scaleDown x exponent.natAbs)
  else if exponent ≤ maxTenExponent then
    some (x.times (powerOfTen exponent.toNat)) |>.filter Binary64.isFinite
  else if x.isZero then some x
  else none

namespace Numeral

/-- The value of the digits in front of the point, whatever their number. -/
def wholeValue (n : Numeral) : Nat := n.whole.reverse.foldl (fun v d => v * 10 + d) 0

/-- The exponent as it is written, zero if there is none. -/
def written (n : Numeral) : Int :=
  match n.exponent with
  | none => 0
  | some (true, e) => -(e : Int)
  | some (false, e) => e

def float? (n : Numeral) : Option Binary64 :=
  let whole := gather 0 n.whole.reverse
  let digits := (n.fraction.getD []).reverse
  let fraction := gather whole.1 digits
  let taken : Nat := digits.length - fraction.2.length
  (scaled? fraction.1 ((whole.2.length : Int) - taken + n.written)).map
    (Binary64.withSign n.negative)

def value? (n : Numeral) : Option Number :=
  if n.fraction.isNone ∧ n.exponent.isNone then
    let v := n.wholeValue
    if n.negative = false ∧ v < UInt64.size then some (.integer v)
    else if n.negative = true ∧ 0 < v ∧ Int64.minValue.toInt ≤ -(v : Int) then
      some (.integer (-(v : Int)))
    else n.float?.map .float
  else n.float?.map .float

end Numeral

end ServiceLang.Json
