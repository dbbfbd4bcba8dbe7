import ServiceLang.Limits

/-!
# Bounds of array accesses

The checks that stand between an index and a slot, and the capacity that a write needs. An index is
any integer; only those of a signed 32-bit integer are looked at, and of these only the non-negative
ones are slots. Capacity is compared by blocks: a write into a block that storage already reaches
beyond asks for nothing.
-/

namespace ServiceLang.Values

open Limits

inductive AccessError where
  | indexTooLarge (index : Int)
  | indexOutOfRange (index : Int) (size : Nat)
  | sizeExceeded (slot limit : Nat)
  | allocationFailure (requested : Nat)
  deriving DecidableEq

def AccessError.message : AccessError → String
  | .indexTooLarge index => "index number too large: " ++ toString index
  | .indexOutOfRange index size =>
    "array index out of range: index: " ++ toString index ++ ", size: " ++ toString size
  | .sizeExceeded slot limit =>
    "array size exceeded: index " ++ toString slot ++ " does not fit in " ++ toString limit ++
      " slots"
  | .allocationFailure requested =>
    "failed to allocate array storage of " ++ toString requested ++ " slots"

/-- The slot of an index, for writing. The size is only mentioned in the error. -/
def slotFor (index : Int) (size : Nat) : Except AccessError Nat :=
  if !inIndexRange index then .error (.indexTooLarge index)
  else if index < 0 then .error (.indexOutOfRange index size)
  else .ok index.toNat

/-- The slot of an index, for reading: it has to lie below the size. -/
def slotWithin (index : Int) (size : Nat) : Except AccessError Nat :=
  match slotFor index size with
  | .error e => .error e
  | .ok slot => if slot < size then .ok slot else .error (.indexOutOfRange index size)

/-- The first slot behind the block of a slot, or the limit if that comes first. -/
def blockEnd (slot : Nat) : Nat := min ((blockIndex slot + 1) * blockSize) maxArraySize

/-- The capacity that storage has to grow to before a write, if it has to grow. -/
def requiredCapacity (slot capacity : Nat) : Except AccessError (Option Nat) :=
  if maxArraySize ≤ slot then .error (.sizeExceeded slot maxArraySize)
  else if blockIndex slot < blockIndex capacity then .ok none
  else if capacity < blockEnd slot then .ok (some (blockEnd slot))
  else .ok none

end ServiceLang.Values
