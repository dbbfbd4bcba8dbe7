import ServiceLang.Values.Bounds

/-!
# Array storage

Storage is a row of slots behind a small interface: it is created with a capacity, tells it, reads
and writes single slots, and tries to grow. Growing may fail, and nothing in the interface promises
what it does to the slots. A `Row` is the part without policy: slots that can be resized. Storage
for which every new slot is the default, nothing shrinks and a failure changes nothing is
`Storage.steady`; `Storage.rationed` breaks each of these rules on demand.
-/

namespace ServiceLang.Values

/-- Slots that can be resized, and how slots of a new or longer row look. -/
structure Row (ρ α : Type) where
  ofSize : Nat → ρ
  size : ρ → Nat
  slot? : ρ → Nat → Option α
  write? : ρ → Nat → α → Option ρ
  resize : ρ → Nat → ρ

/-- A row that holds a value in each slot. -/
def Row.cells {α : Type} [Inhabited α] : Row (Array α) α where
  ofSize n := Array.replicate n default
  size := Array.size
  slot? cells i := cells[i]?
  write? cells i a := if i < cells.size then some (cells.setIfInBounds i a) else none
  resize cells n :=
    if n ≤ cells.size then cells.take n else cells ++ Array.replicate (n - cells.size) default

/-- A row of slots that hold nothing, known by their number alone. -/
def Row.count : Row Nat Unit where
  ofSize n := n
  size n := n
  slot? n i := if i < n then some () else none
  write? n i _ := if i < n then some n else none
  resize _ n := n

/-- What a growable array asks of its storage. -/
structure Storage (σ α : Type) where
  withCapacity : Nat → σ
  capacity : σ → Nat
  slot? : σ → Nat → Option α
  write? : σ → Nat → α → Option σ
  grow : σ → Nat → Except AccessError Unit × σ

namespace Storage

variable {ρ σ α : Type}

/-- All slots in order. -/
def slots (S : Storage σ α) (s : σ) : List α := (List.range (S.capacity s)).filterMap (S.slot? s)

/-- What memory grants when a slot takes eight bytes of a 63-bit address space. -/
def addressable (n : Nat) : Bool := n < 0x1000000000000000

/-- Storage that only ever grows, to exactly the size asked for or not at all. -/
def steady (R : Row ρ α) (grants : Nat → Bool) : Storage ρ α where
  withCapacity := R.ofSize
  capacity := R.size
  slot? := R.slot?
  write? := R.write?
  grow row n :=
    if n ≤ R.size row then (.ok (), row)
    else if grants n then (.ok (), R.resize row n)
    else (.error (.allocationFailure n), row)

end Storage

/-- How rationed storage deviates from what it is asked for. -/
structure Ration where
  start : Option Nat
  limit : Option Nat
  short : Nat
  deriving DecidableEq, Inhabited

/-- A row with the ration that it lives under. -/
structure Rationed (ρ : Type) where
  row : ρ
  ration : Ration
  deriving DecidableEq

/-- Storage that starts with `start` slots, grants nothing beyond `limit`, and otherwise resizes to
`short` slots fewer than it was asked for, even if that makes it smaller. -/
def Storage.rationed {ρ α : Type} (R : Row ρ α) (ration : Ration) : Storage (Rationed ρ) α where
  withCapacity n := ⟨R.ofSize (ration.start.getD n), ration⟩
  capacity s := R.size s.row
  slot? s := R.slot? s.row
  write? s i a := (R.write? s.row i a).map fun row => { s with row := row }
  grow s n :=
    if s.ration.limit.any (· < n) then (.error (.allocationFailure n), s)
    else (.ok (), { s with row := R.resize s.row (n - s.ration.short) })

end ServiceLang.Values
