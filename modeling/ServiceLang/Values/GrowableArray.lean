import ServiceLang.Log
import ServiceLang.Values.Storage

/-!
# Growable arrays

An array is a size and a storage. The size is one more than the highest index prepared for writing;
the storage may reach beyond it, and for storage that grows too little it may also fall short of it.
A write first prepares its index: it checks the bounds, lets the storage grow if the block of the
slot is not there, and extends the size. Every operation says what became of the array, also on
failure, and whether the storage grew.
-/

namespace ServiceLang.Values

open Limits

structure GrowableArray (σ : Type) where
  size : Nat
  storage : σ

instance {σ : Type} [BEq σ] : BEq (GrowableArray σ) :=
  ⟨fun a b => a.size == b.size && a.storage == b.storage⟩

/-- One growth of the storage, and the index that made it necessary. -/
structure Growth where
  before : Nat
  after : Nat
  index : Int
  deriving DecidableEq

def Growth.entry (g : Growth) : Log.Entry :=
  ⟨.debug, "array grown",
    [("from", toString g.before), ("index", toString g.index), ("to", toString g.after)]⟩

/-- The result of an operation, the array after it, and the growth if there was one. -/
structure Step (σ β : Type) where
  result : Except AccessError β
  array : GrowableArray σ
  growth : Option Growth

namespace GrowableArray

variable {σ α : Type}

/-- The empty array, with storage of one block asked for. -/
def empty (S : Storage σ α) : GrowableArray σ := ⟨0, S.withCapacity defaultCapacity⟩

def isEmpty (a : GrowableArray σ) : Bool := a.size == 0

def capacity (S : Storage σ α) (a : GrowableArray σ) : Nat := S.capacity a.storage

/-- The array with its size extended to include a slot. -/
def reach (a : GrowableArray σ) (slot : Nat) : GrowableArray σ :=
  { a with size := max a.size (slot + 1) }

def prepareForAdd (S : Storage σ α) (a : GrowableArray σ) (index : Int) : Step σ Nat :=
  match slotFor index a.size with
  | .error e => ⟨.error e, a, none⟩
  | .ok slot =>
    match requiredCapacity slot (S.capacity a.storage) with
    | .error e => ⟨.error e, a, none⟩
    | .ok none => ⟨.ok slot, a.reach slot, none⟩
    | .ok (some target) =>
      match S.grow a.storage target with
      | (.error e, storage) => ⟨.error e, { a with storage := storage }, none⟩
      | (.ok (), storage) =>
        ⟨.ok slot, { a with storage := storage }.reach slot,
          some ⟨S.capacity a.storage, target, index⟩⟩

/-- Write a value at an index. When the storage has grown too little, the size is extended and
nothing is written. -/
def add (S : Storage σ α) (a : GrowableArray σ) (index : Int) (value : α) : Step σ Unit :=
  let prepared := prepareForAdd S a index
  match prepared.result with
  | .error e => ⟨.error e, prepared.array, prepared.growth⟩
  | .ok slot =>
    match S.write? prepared.array.storage slot value with
    | some storage => ⟨.ok (), { prepared.array with storage := storage }, prepared.growth⟩
    | none =>
      ⟨.error (.indexOutOfRange index prepared.array.size), prepared.array, prepared.growth⟩

def get (S : Storage σ α) (a : GrowableArray σ) (index : Int) : Except AccessError α :=
  match slotWithin index a.size with
  | .error e => .error e
  | .ok slot =>
    match S.slot? a.storage slot with
    | some value => .ok value
    | none => .error (.indexOutOfRange index a.size)

/-- How many elements there are to go through: those below the size that storage holds. -/
def count (S : Storage σ α) (a : GrowableArray σ) : Nat := min a.size (S.capacity a.storage)

/-- The elements from a position on, at most so many. -/
def window (S : Storage σ α) (a : GrowableArray σ) (skip take : Nat) : List α :=
  (List.range' skip (min take (count S a - skip))).filterMap (S.slot? a.storage)

/-- All elements in order. -/
def elements (S : Storage σ α) (a : GrowableArray σ) : List α := window S a 0 (count S a)

end GrowableArray

end ServiceLang.Values
