import ServiceLang.Proofs.Values.Capacity
import ServiceLang.Proofs.Values.Failure

/-!
# Equality of arrays

Two arrays are compared by their sizes and by all slots of their storage, also those that no index
reaches yet. On arrays made by calls this is extensional all the same: the capacity goes with the
size, and a slot beyond the size holds the default. How elements are compared is left open, except
that the default has to equal itself; other elements need not, as floating point numbers show. Each
call comes with the growths that memory grants while it is made.
-/

namespace ServiceLang.Values

open Limits GrowableArray History

variable {α : Type}

deriving instance DecidableEq for Answer

deriving instance DecidableEq for Event

/-- A default that equals itself. -/
class ReflexiveDefault (α : Type) [Inhabited α] [BEq α] : Prop where
  beq_default : ((default : α) == default) = true

instance : ReflexiveDefault Int64 := ⟨by decide⟩

instance : ReflexiveDefault Binary64 := ⟨by decide⟩

instance : ReflexiveDefault String := ⟨by decide⟩

instance {τ : Type} [BEq τ] : ReflexiveDefault (Option τ) := ⟨rfl⟩

namespace History

/-- The calls that were let through to an index. -/
def effects (log : List (Event α)) : List (Event α) := log.filter (·.reached?.isSome)

/-- The values stored at an index, in order. -/
def storedAt (log : List (Event α)) (index : Int) : List α :=
  ((log.filterMap Event.stored?).filter (·.1 == index)).map Prod.snd

/-- The value that is shown at an index that the array reaches. -/
def shown [Inhabited α] (log : List (Event α)) (index : Int) : α :=
  (latest log index).getD default

/-- Two logs that leave the same behind: how far they reach and what is shown at each index. -/
structure SameEffect [Inhabited α] (log log' : List (Event α)) : Prop where
  extent : extent log = extent log'
  shown : ∀ i, shown log i = shown log' i

theorem lookup_eq_head? (writes : List (Int × α)) (index : Int) :
    writes.lookup index = ((writes.filter (·.1 == index)).map Prod.snd).head? := by
  induction writes with
  | nil => rfl
  | cons write writes ih =>
    obtain ⟨i, value⟩ := write
    by_cases same : i = index
    · subst same
      simp
    · have differ : (index == i) = false := beq_eq_false_iff_ne.mpr fun h => same h.symm
      simpa [List.lookup_cons, differ, same] using ih

theorem latest_eq_getLast? (log : List (Event α)) (index : Int) :
    latest log index = (storedAt log index).getLast? := by
  rw [latest, lookup_eq_head?, List.filter_reverse, List.map_reverse, List.head?_reverse]
  rfl

theorem filterMap_effects {β : Type} {f : Event α → Option β}
    (only : ∀ e, (f e).isSome → e.reached?.isSome) (log : List (Event α)) :
    (effects log).filterMap f = log.filterMap f := by
  induction log with
  | nil => rfl
  | cons e log ih =>
    by_cases reached : e.reached?.isSome
    · have kept : effects (e :: log) = e :: effects log := List.filter_cons_of_pos reached
      rw [kept, List.filterMap_cons, List.filterMap_cons, ih]
    · have dropped : effects (e :: log) = effects log := List.filter_cons_of_neg reached
      have nothing : f e = none := Option.not_isSome_iff_eq_none.mp fun h => reached (only e h)
      rw [dropped, List.filterMap_cons_none nothing, ih]

theorem reached?_of_stored? (e : Event α) (stored : e.stored?.isSome) : e.reached?.isSome := by
  rcases e with ⟨call | call | call | call, answer | answer⟩
  all_goals first | rfl | cases stored

theorem filterMap_reached?_effects (log : List (Event α)) :
    (effects log).filterMap Event.reached? = log.filterMap Event.reached? :=
  filterMap_effects (fun _ h => h) log

/-- Calls that were not let through store nothing. -/
theorem storedAt_effects (log : List (Event α)) (index : Int) :
    storedAt (effects log) index = storedAt log index := by
  rw [storedAt, filterMap_effects reached?_of_stored?]
  rfl

/-- How far a log reaches depends on which indices are reached, not on the order or how often. -/
theorem extent_congr {log log' : List (Event α)}
    (same : ∀ i, i ∈ log.filterMap Event.reached? ↔ i ∈ log'.filterMap Event.reached?) :
    extent log = extent log' := by
  have largest : (log.filterMap Event.reached?).max? = (log'.filterMap Event.reached?).max? := by
    apply Option.ext
    intro i
    simp only [List.max?_eq_some_iff, same]
  rw [extent, extent, largest]

section

variable {log log' : List (Event α)}

/-- Writes to distinct indices have no order to keep. -/
theorem storedAt_of_distinct (reordered : (effects log).Perm (effects log'))
    (distinct : ((log.filterMap Event.stored?).map Prod.fst).Nodup) (index : Int) :
    storedAt log index = storedAt log' index := by
  have permuted : (storedAt log index).Perm (storedAt log' index) := by
    rw [← storedAt_effects log, ← storedAt_effects log']
    exact (((reordered.filterMap Event.stored?).filter _).map _)
  have few : (storedAt log index).length ≤ 1 := by
    have once := List.nodup_iff_count_le_one.mp distinct index
    rw [List.count_eq_countP, List.countP_map, List.countP_eq_length_filter] at once
    rw [storedAt, List.length_map]
    exact once
  rcases listed : storedAt log index with _ | ⟨value, _ | ⟨next, rest⟩⟩
  · rw [listed] at permuted
    exact (List.nil_perm.mp permuted).symm
  · rw [listed] at permuted
    exact List.singleton_perm.mp permuted
  · rw [listed] at few
    simp at few

variable [Inhabited α]

/-- Calls may be made in any order as long as the writes to each index keep theirs. -/
theorem SameEffect.of_reordered (reordered : (effects log).Perm (effects log'))
    (sameOrder : ∀ i, storedAt log i = storedAt log' i) : SameEffect log log' where
  extent := by
    apply extent_congr
    intro i
    rw [← filterMap_reached?_effects log, ← filterMap_reached?_effects log']
    exact (reordered.filterMap Event.reached?).mem_iff
  shown i := by
    rw [History.shown, History.shown, latest_eq_getLast?, latest_eq_getLast?, sameOrder]

/-- Where the default is shown already, preparing the index does as much as adding the default. -/
theorem SameEffect.of_prepared {front back : List (Event α)} {index : Int}
    {answer answer' : Answer α} (vacant : History.shown front index = default)
    (added : effects log = front ++ ⟨.add index default, .ok answer⟩ :: back)
    (prepared : effects log' = front ++ ⟨.prepare index, .ok answer'⟩ :: back) :
    SameEffect log log' where
  extent := by
    apply extent_congr
    intro i
    rw [← filterMap_reached?_effects log, ← filterMap_reached?_effects log', added, prepared]
    simp [Event.reached?]
  shown i := by
    have effect (l : List (Event α)) : latest (effects l) i = latest l i := by
      rw [latest_eq_getLast?, latest_eq_getLast?, storedAt_effects]
    have split (e : Event α) : front ++ e :: back = (front ++ [e]) ++ back := by simp
    rw [History.shown, History.shown, ← effect log, ← effect log', added, prepared, split,
      split, latest_append, latest_append _ back, latest_add, latest_other front rfl]
    cases latest back i with
    | some value => rfl
    | none =>
      simp only [Option.none_or]
      by_cases here : i = index
      · subst here
        rw [if_pos rfl]
        exact vacant.symm
      · rw [if_neg here]

end

end History

section

variable {σ : Type} {S : Storage σ α} {fill : α} {a : GrowableArray σ} {log : List (Event α)}

theorem Represents.growingBy {f g : Growing σ} (h : Represents (S.growingBy f) fill a log) :
    Represents (S.growingBy g) fill a log :=
  ⟨h.bounded, h.attained, h.fits, h.within, h.slot⟩

theorem Represents.attempts {ts : List (Attempt σ α)} (h : Represents S fill a log)
    (conforms : ∀ t ∈ ts, (S.growingBy t.grow).Conforms fill) :
    Represents S fill (attempts S a ts).array (log ++ (attempts S a ts).log) := by
  induction ts generalizing a log with
  | nil => simpa [GrowableArray.attempts] using h
  | cons t ts ih =>
    have here : Represents (S.growingBy t.grow) fill a log :=
      ⟨h.bounded, h.attained, h.fits, h.within, h.slot⟩
    have next := here.perform (conforms t List.mem_cons_self) t.call
    have rest := ih (next.growingBy (g := S.grow)) fun u member =>
      conforms u (List.mem_cons_of_mem t member)
    rw [List.append_assoc] at rest
    exact rest

theorem Fitted.attempts {ts : List (Attempt σ α)} (h : Fitted S a)
    (conforms : ∀ t ∈ ts, (S.growingBy t.grow).Conforms fill) :
    Fitted S (attempts S a ts).array := by
  induction ts generalizing a with
  | nil => exact h
  | cons t ts ih =>
    have here : Fitted (S.growingBy t.grow) a := h
    have next : Fitted S (t.make S a).array := here.perform (conforms t List.mem_cons_self) t.call
    exact ih next fun u member => conforms u (List.mem_cons_of_mem t member)

end

/-- A call, and which growths memory grants while it is made. -/
structure Request (α : Type) where
  call : Call α
  grants : Nat → Bool

section

variable [Inhabited α]

/-- Storage of cells. What it grows to while a call is made is up to the request. -/
def cellStorage : Storage (Array α) α := Storage.steady Row.cells fun _ => true

def Request.attempt (r : Request α) : Attempt (Array α) α :=
  ⟨r.call, (Storage.steady Row.cells r.grants).grow⟩

/-- What comes of requests made one after the other on a new array. -/
def serve (rs : List (Request α)) : Run (Array α) α :=
  attempts cellStorage (empty cellStorage) (rs.map Request.attempt)

theorem cellStorage_conforms : (cellStorage (α := α)).Conforms default :=
  Storage.steady_conforms Row.cells_lawful _

theorem attempt_conforms (rs : List (Request α)) :
    ∀ t ∈ rs.map Request.attempt, (cellStorage.growingBy t.grow).Conforms default := by
  intro t member
  obtain ⟨r, -, rfl⟩ := List.mem_map.mp member
  exact Storage.steady_conforms Row.cells_lawful r.grants

/-- What requests come to shows what their log says. -/
theorem serve_represents (rs : List (Request α)) :
    Represents cellStorage default (serve rs).array (serve rs).log :=
  (Represents.empty cellStorage_conforms).attempts (attempt_conforms rs)

theorem serve_fitted (rs : List (Request α)) : Fitted cellStorage (serve rs).array :=
  (Fitted.empty cellStorage_conforms).attempts (attempt_conforms rs)

theorem serve_size (rs : List (Request α)) :
    ((serve rs).array.size : Int) = extent (serve rs).log :=
  (serve_represents rs).size_eq

/-- The cell of each slot, reached or not. -/
theorem serve_cell (rs : List (Request α)) {i : Nat} (inside : i < (serve rs).array.storage.size) :
    (serve rs).array.storage[i] = shown (serve rs).log i := by
  have held : (serve rs).array.storage[i]? = some (shown (serve rs).log i) :=
    (serve_represents rs).slot i inside
  rw [Array.getElem?_eq_getElem inside] at held
  exact Option.some.inj held

theorem serve_shown_beyond (rs : List (Request α)) {i : Nat}
    (beyond : (serve rs).array.size ≤ i) : shown (serve rs).log i = default := by
  rw [shown, (serve_represents rs).vacant (Int.ofNat_le.mpr beyond)]
  rfl

/-- Arrays of one size have one capacity, whatever happened to them before. -/
theorem serve_capacity {rs ts : List (Request α)}
    (size : (serve rs).array.size = (serve ts).array.size) :
    capacity cellStorage (serve rs).array = capacity cellStorage (serve ts).array := by
  have left : capacity cellStorage (serve rs).array = capacityFor (serve rs).array.size :=
    serve_fitted rs
  have right : capacity cellStorage (serve ts).array = capacityFor (serve ts).array.size :=
    serve_fitted ts
  rw [left, right, size]

/-- An array is equal to another one if it is as long and shows equal elements. -/
theorem serve_beq_iff [BEq α] [ReflexiveDefault α] (rs ts : List (Request α)) :
    ((serve rs).array == (serve ts).array) = true ↔
      (serve rs).array.size = (serve ts).array.size ∧
      ∀ i : Nat, i < (serve rs).array.size →
        (shown (serve rs).log i == shown (serve ts).log i) = true := by
  have both : ((serve rs).array == (serve ts).array) = true ↔
      (serve rs).array.size = (serve ts).array.size ∧
      ((serve rs).array.storage == (serve ts).array.storage) = true := by
    change ((_ == _) && _) = true ↔ _
    rw [Bool.and_eq_true, beq_iff_eq]
  rw [both]
  refine and_congr_right fun size => ?_
  have capacity : (serve rs).array.storage.size = (serve ts).array.storage.size :=
    serve_capacity size
  have cells : ((serve rs).array.storage == (serve ts).array.storage) = true ↔
      ∃ h : (serve rs).array.storage.size = (serve ts).array.storage.size,
        ∀ i (inside : i < (serve rs).array.storage.size),
          ((serve rs).array.storage[i] == (serve ts).array.storage[i]) = true :=
    Array.isEqv_iff_rel
  rw [cells]
  constructor
  · rintro ⟨-, equal⟩ i reached
    have inside := Nat.lt_of_lt_of_le reached (serve_represents rs).within
    have cell := equal i inside
    rw [serve_cell rs inside, serve_cell ts (capacity ▸ inside)] at cell
    exact cell
  · intro equal
    refine ⟨capacity, fun i inside => ?_⟩
    rw [serve_cell rs inside, serve_cell ts (capacity ▸ inside)]
    by_cases reached : i < (serve rs).array.size
    · exact equal i reached
    · rw [serve_shown_beyond rs (Nat.le_of_not_lt reached),
        serve_shown_beyond ts (by omega)]
      exact ReflexiveDefault.beq_default

theorem serve_get_iff (rs : List (Request α)) (index : Int) (value : α) :
    get cellStorage (serve rs).array index = .ok value ↔
      (0 ≤ index ∧ index < (serve rs).array.size) ∧ value = shown (serve rs).log index :=
  (serve_represents rs).get_iff index value

theorem serve_get (rs : List (Request α)) {i : Nat} (reached : i < (serve rs).array.size) :
    get cellStorage (serve rs).array i = .ok (shown (serve rs).log i) :=
  (serve_get_iff rs i _).mpr ⟨⟨by omega, by omega⟩, rfl⟩

/-- Logs that leave the same behind make arrays of one size that show the same elements. -/
theorem serve_sameEffect [BEq α] [ReflexiveDefault α] {rs ts : List (Request α)}
    (same : SameEffect (serve rs).log (serve ts).log) :
    (serve rs).array.size = (serve ts).array.size ∧
    capacity cellStorage (serve rs).array = capacity cellStorage (serve ts).array ∧
    ((∀ i value, get cellStorage (serve rs).array i = .ok value → (value == value) = true) →
      ((serve rs).array == (serve ts).array) = true) := by
  have size : (serve rs).array.size = (serve ts).array.size := by
    have left := serve_size rs
    have right := serve_size ts
    have reach := same.extent
    omega
  refine ⟨size, serve_capacity size, fun reflexive => ?_⟩
  rw [serve_beq_iff]
  refine ⟨size, fun i reached => ?_⟩
  rw [← same.shown]
  exact reflexive i _ (serve_get rs reached)

end

/-- Arrays are equal when they have one size and equal elements below it. Calls that leave the same
behind make arrays of the same size and capacity, which are equal unless an element differs from
itself: so do calls in another order that keeps the order of the writes to each index, in any order
at all if no two of them write to one index, and with an index prepared in place of adding the
default where nothing else is shown. This holds of integers, of floating point numbers, of strings
and of references, whatever growths memory refuses. -/
theorem equality_extensional [Inhabited α] [BEq α] [ReflexiveDefault α]
    (xs ys : List (Request α)) :
    let a := serve xs
    let b := serve ys
    ((a.array == b.array) = true ↔
      a.array.size = b.array.size ∧
      ∀ i : Nat, i < a.array.size → ∃ x y,
        get cellStorage a.array i = .ok x ∧ get cellStorage b.array i = .ok y ∧
        (x == y) = true) ∧
    (SameEffect a.log b.log →
      a.array.size = b.array.size ∧
      capacity cellStorage a.array = capacity cellStorage b.array ∧
      ((∀ i x, get cellStorage a.array i = .ok x → (x == x) = true) →
        (a.array == b.array) = true)) ∧
    ((effects a.log).Perm (effects b.log) →
      (∀ i, storedAt a.log i = storedAt b.log i) → SameEffect a.log b.log) ∧
    ((effects a.log).Perm (effects b.log) →
      ((a.log.filterMap Event.stored?).map Prod.fst).Nodup → SameEffect a.log b.log) ∧
    (∀ front back index slot,
      effects a.log = front ++ ⟨.add index default, .ok .done⟩ :: back →
      effects b.log = front ++ ⟨.prepare index, .ok (.slot slot)⟩ :: back →
      shown front index = default → SameEffect a.log b.log) ∧
    ReflexiveDefault Int64 ∧ ReflexiveDefault Binary64 ∧ ReflexiveDefault String ∧
    ∀ (τ : Type) [BEq τ], ReflexiveDefault (Option τ) := by
  intro a b
  refine ⟨?_, serve_sameEffect, SameEffect.of_reordered, ?_, ?_, inferInstance, inferInstance,
    inferInstance, fun τ _ => inferInstance⟩
  · rw [serve_beq_iff]
    refine and_congr_right fun size => ?_
    constructor
    · intro equal i reached
      exact ⟨_, _, serve_get xs reached, serve_get ys (size ▸ reached), equal i reached⟩
    · intro equal i reached
      obtain ⟨x, y, left, right, same⟩ := equal i reached
      rw [((serve_get_iff xs i x).mp left).2, ((serve_get_iff ys i y).mp right).2] at same
      exact same
  · intro reordered distinct
    exact .of_reordered reordered (storedAt_of_distinct reordered distinct)
  · intro front back index slot added prepared vacant
    exact .of_prepared vacant added prepared

/-- Two writes in either order; in the second history the growth for one of them is refused once. -/
theorem writes_commute :
    let granted (call : Call Int64) : Request Int64 := ⟨call, fun _ => true⟩
    let refused (call : Call Int64) : Request Int64 := ⟨call, fun _ => false⟩
    let a := serve [granted (.add 100 7), granted (.add 3 5)]
    let b := serve [refused (.add 100 9), granted (.add 3 5), granted (.add 100 7)]
    ReflexiveDefault Int64 ∧ (effects a.log).Perm (effects b.log) ∧
    ((a.log.filterMap Event.stored?).map Prod.fst).Nodup ∧
    (b.log.map Event.succeeded) = [false, true, true] ∧
    a.array.size = b.array.size ∧ capacity cellStorage a.array = capacity cellStorage b.array ∧
    (a.array == b.array) = true := by
  intro granted refused a b
  obtain ⟨-, alike, -, distinctly, -, reflexive, -⟩ := equality_extensional
    [granted (.add 100 7), granted (.add 3 5)]
    [refused (.add 100 9), granted (.add 3 5), granted (.add 100 7)]
  have reordered : (effects a.log).Perm (effects b.log) := by decide +kernel
  have distinct : ((a.log.filterMap Event.stored?).map Prod.fst).Nodup := by decide +kernel
  obtain ⟨size, capacity, equal⟩ := alike (distinctly reordered distinct)
  exact ⟨reflexive, reordered, distinct, by decide +kernel, size, capacity,
    equal fun _ x _ => beq_self_eq_true x⟩

/-- An array that holds what is no number does not equal itself. -/
example :
    let a := serve [⟨.add 0 ⟨0x7FF8000000000000⟩, fun _ => true⟩]
    ((a.array : GrowableArray (Array Binary64)) == a.array) = false := by decide +kernel

end ServiceLang.Values
