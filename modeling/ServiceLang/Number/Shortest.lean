import ServiceLang.Number.Binary64

/-!
# Shortest decimals

The decimal text of a finite number has the fewest digits that read back to it, and of those the
digits nearest to it, the even ones on a tie. It is positional while the leading digit stands
between the fifth place after the point and the sixteenth before it, always with at least one digit
on each side of the point; outside it has an exponent, always signed.
-/

namespace ServiceLang.Binary64

/-- The value `digits * 10 ^ exponent`. -/
structure Decimal where
  digits : Nat
  exponent : Int
  deriving DecidableEq, Inhabited

/-- Whether so many units are less than `10 ^ k`. -/
def unitsBelow (u : Nat) (k : Int) : Bool :=
  u * tenTo (-k).toNat < tenTo k.toNat * scale

/-- The least `k` such that the size is below `10 ^ k`, found near the estimate that the binary
logarithm gives. -/
def decimalExponent (u : Nat) : Int :=
  let estimate : Int := ((u.log2 : Int) - 1074) * 30103 / 100000 - 1
  let candidates := (List.range 5).map fun (i : Nat) => estimate + (i : Int)
  (candidates.find? (unitsBelow u)).getD (estimate + 5)

/-- The better of the two neighbours of `u` units on the grid of multiples of `10 ^ k` that read
back to `x`, if one of them does. -/
def onGrid? (x : Nat → Int → Bool) (u : Nat) (k : Int) : Option Decimal :=
  let num := u * tenTo (-k).toNat
  let den := tenTo k.toNat * scale
  let low := num / den
  let closer := roundQuotient num den
  let other := if closer = low then low + 1 else low
  if x closer k then some ⟨closer, k⟩
  else if x other k then some ⟨other, k⟩
  else none

/-- The shortest decimal of the size of a finite number other than zero. -/
def shortest (x : Binary64) : Decimal :=
  let u := x.units
  let top := decimalExponent u
  let readsBack (d : Nat) (k : Int) : Bool := (ofDecimal d k).magnitudeBits == x.magnitudeBits
  ((List.range 17).findSome? fun (n : Nat) => onGrid? readsBack u (top - 1 - (n : Int))).getD
    ⟨u * Nat.pow 5 1074, -1074⟩

/-- Zeros at the end of the digits, moved into the exponent. -/
def Decimal.strip : Nat → Decimal → Decimal
  | 0, d => d
  | n + 1, d =>
    if d.digits % 10 = 0 ∧ d.digits ≠ 0 then strip n ⟨d.digits / 10, d.exponent + 1⟩ else d

private def zeros (n : Nat) : String := String.ofList (List.replicate n '0')

/-- A decimal written out. -/
def Decimal.text (d : Decimal) : String :=
  let ds := Nat.toDigits 10 d.digits
  let count : Int := ds.length
  let lead : Int := d.exponent + count - 1
  if 0 ≤ d.exponent ∧ lead < 16 then
    String.ofList ds ++ zeros d.exponent.toNat ++ ".0"
  else if 0 ≤ lead ∧ lead < 16 then
    String.ofList (ds.take (lead + 1).toNat) ++ "." ++ String.ofList (ds.drop (lead + 1).toNat)
  else if -5 ≤ lead ∧ lead < 0 then
    "0." ++ zeros (-lead - 1).toNat ++ String.ofList ds
  else
    String.ofList (ds.take 1) ++
      (if ds.length = 1 then "" else "." ++ String.ofList (ds.drop 1)) ++
      (if lead < 0 then "e-" else "e+") ++ toString lead.natAbs

/-- The text of a finite number. -/
def text (x : Binary64) : String :=
  (if x.isNegative then "-" else "") ++
    if x.isZero then "0.0" else (x.shortest.strip 40).text

end ServiceLang.Binary64
