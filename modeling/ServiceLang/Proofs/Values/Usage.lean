import ServiceLang.Number.Binary64
import ServiceLang.Proofs.Values.Contract

/-!
# Uses of storage

Storage without an array around it: it is asked to grow to any number of slots, be that more or
fewer than there are, and its slots are written, all in any order. Whether memory grants a growth is
decided anew each time. The log of what came of it all says what the storage shows in the end: as
many slots as the largest growth that succeeded, and in each of them the value written there last.
-/

namespace ServiceLang.Values

variable {ρ α : Type}

/-- One use of storage. A growth comes with whether memory would grant it. -/
inductive Use (α : Type) where
  | grow (target : Nat) (granted : Bool)
  | write (slot : Nat) (value : α)

/-- What came of a use. A write is held if there is such a slot. -/
inductive Used (α : Type) where
  | grow (target : Nat) (answer : Except AccessError Unit)
  | write (slot : Nat) (value : α) (held : Bool)

/-- The number of slots that a growth was to lead to, if it succeeded. -/
def Used.grown? : Used α → Option Nat
  | .grow target (.ok ()) => some target
  | _ => none

def Used.written? : Used α → Option (Nat × α)
  | .write slot value true => some (slot, value)
  | _ => none

/-- The numbers of slots that storage has grown to when asked, in order. -/
def growths (log : List (Used α)) : List Nat := log.filterMap Used.grown?

/-- The value written last in a slot. -/
def lastWritten (log : List (Used α)) (slot : Nat) : Option α :=
  (log.filterMap Used.written?).reverse.lookup slot

theorem growths_append (log : List (Used α)) (entry : Used α) :
    growths (log ++ [entry]) = growths log ++ entry.grown?.toList := by
  cases grown : entry.grown? <;> simp [growths, grown]

theorem lastWritten_other {entry : Used α} (log : List (Used α)) (h : entry.written? = none)
    (i : Nat) : lastWritten (log ++ [entry]) i = lastWritten log i := by
  simp [lastWritten, h]

/-- The latest write to a slot decides what was written there last. -/
theorem lastWritten_write (log : List (Used α)) (slot : Nat) (value : α) (i : Nat) :
    lastWritten (log ++ [.write slot value true]) i =
      if i = slot then some value else lastWritten log i := by
  by_cases same : i = slot
  · subst same
    simp [lastWritten, Used.written?]
  · have differ : (i == slot) = false := by simp [same]
    simp [lastWritten, Used.written?, List.lookup_cons, same, differ]

namespace Row

/-- Use steady storage over a row once. -/
def use (R : Row ρ α) (row : ρ) : Use α → Used α × ρ
  | .grow target granted =>
    let (answer, next) := (Storage.steady R fun _ => granted).grow row target
    (.grow target answer, next)
  | .write slot value =>
    match R.write? row slot value with
    | some next => (.write slot value true, next)
    | none => (.write slot value false, row)

/-- Use it again and again, and keep a log. -/
def uses (R : Row ρ α) (row : ρ) : List (Use α) → List (Used α) × ρ
  | [] => ([], row)
  | u :: us =>
    let first := use R row u
    let rest := uses R first.2 us
    (first.1 :: rest.1, rest.2)

/-- What a use comes to. -/
inductive Made (R : Row ρ α) (row : ρ) : Use α → Used α × ρ → Prop where
  | enough {target : Nat} (granted : Bool) (enough : target ≤ R.size row) :
    Made R row (.grow target granted) (.grow target (.ok ()), row)
  | grown {target : Nat} (short : R.size row < target) :
    Made R row (.grow target true) (.grow target (.ok ()), R.resize row target)
  | refused {target : Nat} (short : R.size row < target) :
    Made R row (.grow target false) (.grow target (.error (.allocationFailure target)), row)
  | held {slot : Nat} {value : α} {next : ρ} (write : R.write? row slot value = some next) :
    Made R row (.write slot value) (.write slot value true, next)
  | missing {slot : Nat} (value : α) (outside : R.size row ≤ slot) :
    Made R row (.write slot value) (.write slot value false, row)

variable {R : Row ρ α} {fill : α} {row : ρ} {log : List (Used α)} {start : Nat}

/-- Only slots that are there are written. -/
theorem Lawful.lt_of_write (hR : R.Lawful fill) {slot : Nat} {value : α} {next : ρ}
    (write : R.write? row slot value = some next) : slot < R.size row := by
  apply (hR.write_isSome row slot value).mp
  rw [write]
  rfl

/-- The ways a use can turn out are all there are. -/
theorem use_made (hR : R.Lawful fill) (row : ρ) (u : Use α) : Made R row u (use R row u) := by
  cases u with
  | grow target granted =>
    by_cases enough : target ≤ R.size row
    · simp only [use, Storage.steady, if_pos enough]
      exact .enough granted enough
    · have short : R.size row < target := by omega
      cases granted with
      | false =>
        simp only [use, Storage.steady, if_neg enough, Bool.false_eq_true, if_false]
        exact .refused short
      | true =>
        simp only [use, Storage.steady, if_neg enough, if_true]
        exact .grown short
  | write slot value =>
    rw [use]
    cases written : R.write? row slot value with
    | some next => exact .held written
    | none =>
      have isSome := hR.write_isSome row slot value
      rw [written] at isSome
      refine .missing value (Nat.le_of_not_lt fun inside => ?_)
      cases isSome.mpr inside

namespace Made

variable {target slot : Nat} {granted : Bool} {value : α} {result : Used α × ρ}

/-- A growth to no more slots than there are succeeds and changes nothing. -/
theorem of_enough (made : Made R row (.grow target granted) result) (enough : target ≤ R.size row) :
    result = (.grow target (.ok ()), row) := by
  cases made with
  | enough _ _ => rfl
  | grown short => omega
  | refused short => omega

/-- A growth fails only when it asks for more slots than there are and memory refuses them, and then
nothing changes. -/
theorem error_iff (made : Made R row (.grow target granted) result) (e : AccessError) (next : ρ) :
    result = (.grow target (.error e), next) ↔
      (R.size row < target ∧ granted = false) ∧ e = .allocationFailure target ∧ next = row := by
  constructor
  · rintro rfl
    cases made with
    | refused short => exact ⟨⟨short, rfl⟩, rfl, rfl⟩
  · rintro ⟨⟨short, rfl⟩, rfl, rfl⟩
    cases made with
    | enough _ enough => omega
    | refused _ => rfl

theorem write_fst (hR : R.Lawful fill) (made : Made R row (.write slot value) result) :
    result.1 = .write slot value (decide (slot < R.size row)) := by
  cases made with
  | held write => rw [decide_eq_true (hR.lt_of_write write)]
  | missing _ outside => rw [decide_eq_false (Nat.not_lt.mpr outside)]

end Made

/-- The row shows what the log says, beginning with so many slots: it has as many as the largest
growth, each shows the value written there last, and nothing has been written behind them. -/
structure Shows (R : Row ρ α) (fill : α) (start : Nat) (log : List (Used α)) (row : ρ) : Prop where
  size : R.size row = (growths log).foldl max start
  slot : ∀ i, i < R.size row → R.slot? row i = some ((lastWritten log i).getD fill)
  vacant : ∀ i, R.size row ≤ i → lastWritten log i = none

namespace Shows

theorem create (hR : R.Lawful fill) (start : Nat) : Shows R fill start [] (R.ofSize start) where
  size := hR.size_create start
  slot i inside := by
    rw [hR.size_create] at inside
    exact hR.slot_create start i inside
  vacant i outside := rfl

/-- A use that leaves the row as it is, unless it is a growth to more slots than there are. -/
theorem same (h : Shows R fill start log row) {entry : Used α}
    (within : ∀ n ∈ entry.grown?, n ≤ R.size row) (nothing : entry.written? = none) :
    Shows R fill start (log ++ [entry]) row where
  size := by
    rw [growths_append, List.foldl_append, ← h.size]
    cases grown : entry.grown? with
    | none => rfl
    | some n => exact (Nat.max_eq_left (within n grown)).symm
  slot i inside := by
    rw [lastWritten_other log nothing]
    exact h.slot i inside
  vacant i outside := by
    rw [lastWritten_other log nothing]
    exact h.vacant i outside

/-- New slots show the default, since nothing can have been written there before. -/
theorem grown (hR : R.Lawful fill) (h : Shows R fill start log row) {target : Nat}
    (short : R.size row < target) :
    Shows R fill start (log ++ [.grow target (.ok ())]) (R.resize row target) where
  size := by
    rw [growths_append, List.foldl_append, ← h.size, hR.size_resize row target short]
    exact (Nat.max_eq_right (Nat.le_of_lt short)).symm
  slot i inside := by
    rw [hR.size_resize row target short] at inside
    rw [lastWritten_other log rfl]
    by_cases old : i < R.size row
    · rw [hR.slot_kept row target i short old]
      exact h.slot i old
    · have new : R.size row ≤ i := by omega
      rw [hR.slot_filled row target i short new inside, h.vacant i new]
      rfl
  vacant i outside := by
    rw [hR.size_resize row target short] at outside
    rw [lastWritten_other log rfl]
    exact h.vacant i (by omega)

theorem held (hR : R.Lawful fill) (h : Shows R fill start log row) {slot : Nat} {value : α}
    {next : ρ} (write : R.write? row slot value = some next) :
    Shows R fill start (log ++ [.write slot value true]) next := by
  have size := hR.size_write row slot value next write
  have there := hR.lt_of_write write
  constructor
  · rw [size, growths_append, List.foldl_append, ← h.size]
    rfl
  · intro i inside
    rw [size] at inside
    rw [hR.slot_write row slot value next write i, lastWritten_write]
    by_cases target : i = slot
    · rw [if_pos target, if_pos target]
      rfl
    · rw [if_neg target, if_neg target]
      exact h.slot i inside
  · intro i outside
    rw [size] at outside
    have differ : i ≠ slot := by omega
    rw [lastWritten_write, if_neg differ]
    exact h.vacant i outside

/-- One use, whatever it comes to, keeps the row in step with the log. -/
theorem made (hR : R.Lawful fill) (h : Shows R fill start log row) {u : Use α}
    {result : Used α × ρ} (made : Made R row u result) :
    Shows R fill start (log ++ [result.1]) result.2 := by
  cases made with
  | enough granted enough =>
    refine h.same ?_ rfl
    rintro n ⟨⟩
    exact enough
  | grown short => exact h.grown hR short
  | refused short => exact h.same (fun _ member => nomatch member) rfl
  | held write => exact h.held hR write
  | missing value outside => exact h.same (fun _ member => nomatch member) rfl

theorem uses (hR : R.Lawful fill) (h : Shows R fill start log row) (us : List (Use α)) :
    Shows R fill start (log ++ (R.uses row us).1) (R.uses row us).2 := by
  induction us generalizing log row with
  | nil =>
    rw [Row.uses, List.append_nil]
    exact h
  | cons u us ih =>
    have next := ih (h.made hR (use_made hR row u))
    rw [List.append_assoc] at next
    exact next

/-- So each slot shows what was written last in it, or the default. -/
theorem slot_eq (hR : R.Lawful fill) (h : Shows R fill start log row) (i : Nat) :
    R.slot? row i = if i < R.size row then some ((lastWritten log i).getD fill) else none := by
  by_cases inside : i < R.size row
  · rw [if_pos inside]
    exact h.slot i inside
  · rw [if_neg inside]
    have isSome := hR.slot_isSome row i
    exact Option.not_isSome_iff_eq_none.mp fun held => inside (isSome.mp held)

end Shows

end Row

/-- After any uses of new storage there are as many slots as at first or as the largest growth that
succeeded, and each shows the value written there last, or the default. To grow to no more slots
than there are succeeds and changes nothing. To grow to more fails exactly if memory does not grant
it, and that changes nothing either. A write is held exactly if there is such a slot. The default of
integers and of floating point numbers is zero, of strings the empty one, and of references none. -/
theorem storage_shows_uses [Inhabited α] (start : Nat) (us : List (Use α)) :
    let run := Row.cells.uses (Row.cells.ofSize start) us
    run.2.size = (growths run.1).foldl max start ∧
    (∀ i, run.2[i]? = if i < run.2.size then some ((lastWritten run.1 i).getD default) else none) ∧
    (∀ target granted, target ≤ run.2.size →
      Row.cells.use run.2 (.grow target granted) = (.grow target (.ok ()), run.2)) ∧
    (∀ target granted e next,
      Row.cells.use run.2 (.grow target granted) = (.grow target (.error e), next) ↔
        (run.2.size < target ∧ granted = false) ∧ e = .allocationFailure target ∧ next = run.2) ∧
    (∀ slot value, (Row.cells.use run.2 (.write slot value)).1 =
      .write slot value (decide (slot < run.2.size))) ∧
    (default : Int64) = 0 ∧ (default : Binary64) = ⟨0⟩ ∧ (default : String) = "" ∧
    ∀ τ : Type, (default : Option τ) = none := by
  intro run
  have hR : (Row.cells (α := α)).Lawful default := Row.cells_lawful
  have shows : Row.cells.Shows default start run.1 run.2 := (Row.Shows.create hR start).uses hR us
  have made := Row.use_made hR run.2
  refine ⟨shows.size, shows.slot_eq hR, ?_, ?_, ?_, rfl, rfl, rfl, fun _ => rfl⟩
  · intro target granted enough
    exact (made _).of_enough enough
  · intro target granted e next
    exact (made _).error_iff e next
  · intro slot value
    exact (made _).write_fst hR

/-- Of the growths from two slots one is granted, one asks for fewer slots, and one is refused; the
second write comes too early. -/
example :
    Row.cells.uses (Row.cells.ofSize 2)
      [.write 1 "a", .write 3 "b", .grow 4 true, .write 3 "c", .grow 1 false, .grow 5 false] =
    ([.write 1 "a" true, .write 3 "b" false, .grow 4 (.ok ()), .write 3 "c" true,
      .grow 1 (.ok ()), .grow 5 (.error (.allocationFailure 5))], #["", "a", "", "c"]) := rfl

end ServiceLang.Values
