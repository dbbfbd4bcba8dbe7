/-!
# Binary floating point numbers

A number is its 64 bits: a sign, eleven bits of exponent, fifty-two bits of fraction. Every finite
number is a natural multiple of the least positive one, `2 ^ (-1074)`, so that sizes are compared
and rounded as natural numbers, in these units. `nearest` is the only place where anything is
rounded: to the nearest number, to the even significand on a tie, and to infinity past the largest
number.
-/

namespace ServiceLang

structure Binary64 where
  bits : UInt64
  deriving DecidableEq, Inhabited

namespace Binary64

def twoTo (n : Nat) : Nat := Nat.pow 2 n

def tenTo (n : Nat) : Nat := Nat.pow 10 n

/-- Units are fractions `1 / scale`. -/
def scale : Nat := twoTo 1074

/-- The weight of the sign. -/
def signBit : Nat := 0x8000000000000000

/-- The weight of the least exponent, and of a significand's leading bit, which is not stored. -/
def leadingBit : Nat := 0x10000000000000

def infinityBits : Nat := 0x7FF0000000000000

def isNegative (x : Binary64) : Bool := signBit ≤ x.bits.toNat

/-- The bits below the sign. -/
def magnitudeBits (x : Binary64) : Nat := x.bits.toNat % signBit

def isFinite (x : Binary64) : Bool := x.magnitudeBits < infinityBits

def isNaN (x : Binary64) : Bool := infinityBits < x.magnitudeBits

def isZero (x : Binary64) : Bool := x.magnitudeBits == 0

/-- The size of a finite number, counted in units. -/
def units (x : Binary64) : Nat :=
  let exponent := x.magnitudeBits / leadingBit
  let fraction := x.magnitudeBits % leadingBit
  if exponent = 0 then fraction else (leadingBit + fraction) * twoTo (exponent - 1)

/-- A quotient rounded to the nearest natural number, a half to the even one. -/
def roundQuotient (num den : Nat) : Nat :=
  let q := num / den
  let r := num % den
  if 2 * r < den then q
  else if den < 2 * r then q + 1
  else if q % 2 = 0 then q else q + 1

/-- The non-negative number nearest to `num / den` units. -/
def nearest (num den : Nat) : Binary64 :=
  let grid := (num / den).log2 - 52
  let significand := roundQuotient num (den * twoTo grid)
  ⟨UInt64.ofNat (min (grid * leadingBit + significand) infinityBits)⟩

def zero : Binary64 := ⟨0⟩

def neg (x : Binary64) : Binary64 := ⟨x.bits ^^^ 0x8000000000000000⟩

def withSign (negative : Bool) (x : Binary64) : Binary64 := if negative then x.neg else x

def ofNat (n : Nat) : Binary64 := nearest (n * scale) 1

def ofInt (i : Int) : Binary64 := withSign (i < 0) (ofNat i.natAbs)

/-- The product of the sizes of two finite numbers. -/
def times (x y : Binary64) : Binary64 := nearest (x.units * y.units) scale

/-- The quotient of the sizes of two finite numbers, the second not zero. -/
def dividedBy (x y : Binary64) : Binary64 := nearest (x.units * scale) y.units

/-- The number nearest to `digits * 10 ^ exponent`. Exponents far outside the range of sizes are
answered at once: above `10 ^ 400` lies infinity, and `2 ^ (-1200)` is below half a unit. -/
def ofDecimal (digits : Nat) (exponent : Int) : Binary64 :=
  if digits = 0 then zero
  else if 400 < exponent then ⟨UInt64.ofNat infinityBits⟩
  else if (digits.log2 : Int) + 1200 < -exponent then zero
  else nearest (digits * tenTo exponent.toNat * scale) (tenTo (-exponent).toNat)

/-- Equality of numbers: the two zeros are equal, and what is not a number equals nothing. -/
def equal (x y : Binary64) : Bool :=
  !x.isNaN && !y.isNaN && (x.bits == y.bits || x.isZero && y.isZero)

instance : BEq Binary64 := ⟨equal⟩

end Binary64

end ServiceLang
