/-!
# Fixed limits

Array storage is handed out in whole blocks of `blockSize` slots and never beyond `maxArraySize`
slots. The two byte counts at the end say how much native stack a deep traversal wants: it asks for
another `stackSegment` bytes whenever fewer than `stackReserve` bytes are left.
-/

namespace ServiceLang.Limits

def blockSize : Nat := 100

/-- Slots of an array on which nothing has been done yet. -/
def defaultCapacity : Nat := blockSize

/-- The largest 32-bit signed number, less eight. -/
def maxArraySize : Nat := 2147483639

def stackReserve : Nat := 64 * 1024

def stackSegment : Nat := 1024 * 1024

/-- Which block a slot number belongs to. -/
def blockIndex (n : Nat) : Nat := n / blockSize

/-- Whether a slot number is the first of its block. -/
def isBlockAligned (n : Nat) : Bool := n % blockSize == 0

/-- Slot numbers that a signed 32-bit integer can hold. -/
def inIndexRange (i : Int) : Bool := -2147483648 ≤ i && i ≤ 2147483647

end ServiceLang.Limits
