import ServiceLang.Proofs.Values.History

/-!
# Failed calls

Whether memory is granted is no matter of the storage alone: one and the same growth may be refused
now and granted later. A call is therefore taken together with the way in which storage grows while
it is made, and a history of such attempts can refuse growths in any pattern. A failed call leaves
no trace in the array, so that the other calls are answered as if it had never been made: by any
storage that shows the same slots, and with the very same storage at the end if a refused growth
does not touch it at all.
-/

namespace ServiceLang.Values

open GrowableArray

variable {σ ρ α : Type}

/-- How storage grows while a call is made. -/
abbrev Growing (σ : Type) : Type := σ → Nat → Except AccessError Unit × σ

namespace Storage

def growingBy (S : Storage σ α) (grow : Growing σ) : Storage σ α := { S with grow := grow }

/-- Conforming storage that is granted every growth. -/
structure Granting (S : Storage σ α) (fill : α) : Prop extends S.Conforms fill where
  grants : ∀ s n, (S.grow s n).1 = .ok ()

section

variable {S : Storage σ α} {fill : α} {s t s' t' : σ}

/-- How storage grows is no matter of what it shows. -/
theorem Alike.growingBy {f g : Growing σ} (h : (S.growingBy f).Alike s t) :
    (S.growingBy g).Alike s t :=
  ⟨h.capacity, h.slot⟩

theorem Extends.growingBy {f g : Growing σ} {n : Nat} (h : (S.growingBy f).Extends fill n s t) :
    (S.growingBy g).Extends fill n s t :=
  ⟨h.capacity, h.kept, h.filled⟩

/-- Storage that shows the same slots shows the same ones after the same growth. -/
theorem Alike.extended (same : S.Alike s t) (hS : S.Coherent) {n : Nat}
    (hs : S.Extends fill n s s') (ht : S.Extends fill n t t') : S.Alike s' t' := by
  refine ⟨ht.capacity.trans hs.capacity.symm, fun i => ?_⟩
  have capacity := same.capacity
  by_cases old : i < S.capacity s
  · rw [hs.kept i old, ht.kept i (by omega), same.slot i]
  by_cases new : i < n
  · rw [hs.filled i (by omega) new, ht.filled i (by omega) new]
  · have beyond {u : σ} (full : S.capacity u = n) : S.slot? u i = none := by
      have isSome := hS.slot_isSome u i
      rw [full] at isSome
      exact Option.not_isSome_iff_eq_none.mp fun held => new (isSome.mp held)
    rw [beyond hs.capacity, beyond ht.capacity]

theorem Alike.written (same : S.Alike s t) (hS : S.Coherent) {i : Nat} {a : α}
    (hs : S.write? s i a = some s') (ht : S.write? t i a = some t') : S.Alike s' t' := by
  refine ⟨?_, fun j => ?_⟩
  · rw [hS.capacity_write _ _ _ _ hs, hS.capacity_write _ _ _ _ ht, same.capacity]
  · rw [hS.slot_write _ _ _ _ hs, hS.slot_write _ _ _ _ ht, same.slot]

end

/-- Storage that conforms and that a refused growth leaves as it was, slots or not. -/
structure Atomic (S : Storage σ α) (fill : α) : Prop extends S.Conforms fill where
  untouched : ∀ s n e t, S.capacity s < n → S.grow s n = (.error e, t) → t = s

/-- Storage over a row decides on a growth before it touches anything. -/
theorem steady_atomic {R : Row ρ α} {fill : α} (hR : R.Lawful fill) (grants : Nat → Bool) :
    (steady R grants).Atomic fill where
  toConforms := steady_conforms hR grants
  untouched r n e t short refused := by
    have longer : ¬ n ≤ R.size r := Nat.not_le.mpr short
    simp only [steady, longer, if_false] at refused
    split at refused
    · cases refused
    · cases refused
      rfl

theorem steady_granting {R : Row ρ α} {fill : α} (hR : R.Lawful fill) :
    (steady R fun _ => true).Granting fill where
  toConforms := steady_conforms hR _
  grants r n := by
    by_cases short : n ≤ R.size r
    · simp only [steady, short, if_true]
    · simp only [steady, short, if_false, if_true]

end Storage

deriving instance DecidableEq for Call

/-- A call, and how storage grows while it is made. -/
structure Attempt (σ α : Type) where
  call : Call α
  grow : Growing σ

def Attempt.make (S : Storage σ α) (a : GrowableArray σ) (t : Attempt σ α) : Step σ (Answer α) :=
  perform (S.growingBy t.grow) a t.call

def Event.succeeded (event : Event α) : Bool := event.answer.isOk

namespace GrowableArray

/-- Make attempts one after the other on one array. -/
def attempts (S : Storage σ α) (a : GrowableArray σ) : List (Attempt σ α) → Run σ α
  | [] => ⟨a, [], []⟩
  | t :: ts =>
    let s := t.make S a
    let rest := attempts S s.array ts
    ⟨rest.array, ⟨t.call, s.result⟩ :: rest.log, s.growth.toList ++ rest.growths⟩

/-- Those of the attempts that do not fail when all of them are made. -/
def successes (S : Storage σ α) (a : GrowableArray σ) : List (Attempt σ α) → List (Attempt σ α)
  | [] => []
  | t :: ts =>
    let s := t.make S a
    if s.result.isOk then t :: successes S s.array ts else successes S s.array ts

theorem short_of_requiredCapacity {slot capacity target : Nat}
    (h : requiredCapacity slot capacity = .ok (some target)) : capacity < target := by
  unfold requiredCapacity at h
  split at h
  · cases h
  split at h
  · cases h
  split at h
  · cases h
    assumption
  · cases h

section

variable {S : Storage σ α} {fill : α} {a b : GrowableArray σ} {index : Int}

theorem Unchanged.trans {c : GrowableArray σ} (first : Unchanged S a b) (second : Unchanged S b c) :
    Unchanged S a c :=
  ⟨second.size.trans first.size, first.storage.trans second.storage⟩

theorem Unchanged.growingBy {f g : Growing σ} (h : Unchanged (S.growingBy f) a b) :
    Unchanged (S.growingBy g) a b :=
  ⟨h.size, h.storage.growingBy⟩

theorem Unchanged.symm (h : Unchanged S a b) : Unchanged S b a :=
  ⟨h.size.symm, h.storage.capacity.symm, fun i => (h.storage.slot i).symm⟩

/-- On conforming storage a prepared slot is written. -/
theorem add_of_prepared {slot : Nat} (hS : S.Conforms fill) (value : α)
    (prepared : (prepareForAdd S a index).result = .ok slot) :
    (add S a index value).result = .ok () := by
  have ready := ((prepareForAdd_prepared S a index).ready hS prepared).2
  obtain ⟨storage, written⟩ := hS.exists_write value ready.inside
  simp only [add, prepared, written]

theorem add_of_unprepared {e : AccessError} (value : α)
    (failed : (prepareForAdd S a index).result = .error e) :
    add S a index value =
      ⟨.error e, (prepareForAdd S a index).array, (prepareForAdd S a index).growth⟩ := by
  simp only [add, failed]

/-- A call fails because its index cannot be prepared, or because all it does is read. -/
theorem perform_failed (hS : S.Conforms fill) {call : Call α} {e : AccessError}
    (failed : (perform S a call).result = .error e) :
    (∃ index e', (prepareForAdd S a index).result = .error e' ∧
      (perform S a call).array = (prepareForAdd S a index).array ∧
      (perform S a call).growth = (prepareForAdd S a index).growth) ∨
    ((perform S a call).array = a ∧ (perform S a call).growth = none) := by
  cases call with
  | add index value =>
    cases prepared : (prepareForAdd S a index).result with
    | error e' =>
      simp only [perform, add_of_unprepared value prepared]
      exact .inl ⟨index, e', prepared, rfl, rfl⟩
    | ok slot =>
      simp only [perform, add_of_prepared hS value prepared] at failed
      cases failed
  | prepare index =>
    cases prepared : (prepareForAdd S a index).result with
    | error e' => exact .inl ⟨index, e', prepared, rfl, rfl⟩
    | ok slot =>
      simp only [perform, prepared] at failed
      cases failed
  | get index => exact .inr ⟨rfl, rfl⟩
  | iterate => exact .inr ⟨rfl, rfl⟩

/-- A call that fails leaves the size and the slots as they are, and no growth is reported. -/
theorem perform_unchanged (hS : S.Conforms fill) {call : Call α} {e : AccessError}
    (failed : (perform S a call).result = .error e) :
    Unchanged S a (perform S a call).array ∧ (perform S a call).growth = none := by
  rcases perform_failed hS failed with ⟨index, e', unprepared, array, growth⟩ | ⟨array, growth⟩
  · rw [array, growth]
    exact (prepareForAdd_prepared S a index).unchanged hS unprepared
  · rw [array, growth]
    exact ⟨⟨rfl, Storage.Alike.refl S a.storage⟩, rfl⟩

section

variable {f g : Growing σ}

/-- What has been prepared once is prepared in the same way in an array that shows the same slots,
if growths are granted there. -/
theorem prepareForAdd_alike (hf : (S.growingBy f).Conforms fill)
    (hg : (S.growingBy g).Granting fill) (same : Unchanged S a b) {slot : Nat}
    (prepared : (prepareForAdd (S.growingBy f) a index).result = .ok slot) :
    (prepareForAdd (S.growingBy g) b index).result = .ok slot ∧
    (prepareForAdd (S.growingBy g) b index).growth =
      (prepareForAdd (S.growingBy f) a index).growth ∧
    Unchanged S (prepareForAdd (S.growingBy f) a index).array
      (prepareForAdd (S.growingBy g) b index).array := by
  have capacity : (S.growingBy g).capacity b.storage = (S.growingBy f).capacity a.storage :=
    same.storage.capacity
  unfold prepareForAdd at prepared ⊢
  rw [same.size, capacity]
  cases slots : slotFor index a.size with
  | error e =>
    rw [slots] at prepared
    cases prepared
  | ok slot' =>
    rw [slots] at prepared
    simp only at prepared ⊢
    cases required : requiredCapacity slot' ((S.growingBy f).capacity a.storage) with
    | error e =>
      rw [required] at prepared
      cases prepared
    | ok target? =>
      rw [required] at prepared
      cases target? with
      | none =>
        cases prepared
        exact ⟨rfl, rfl, congrArg (max · (slot + 1)) same.size, same.storage⟩
      | some target =>
        have short := short_of_requiredCapacity required
        have granted := hg.grants b.storage target
        rcases first : (S.growingBy f).grow a.storage target with ⟨result, s⟩
        rcases second : (S.growingBy g).grow b.storage target with ⟨result', t⟩
        rw [second] at granted
        subst granted
        simp only [first] at prepared
        simp only [first, second]
        cases result with
        | error e => cases prepared
        | ok =>
          cases prepared
          have left := hf.granted a.storage target s short first
          have right := hg.granted b.storage target t (capacity ▸ short) second
          have before : (S.growingBy f).Alike a.storage b.storage := same.storage.growingBy
          have alike := before.extended hf.toCoherent left right.growingBy
          exact ⟨rfl, rfl, rfl, alike.growingBy⟩

/-- A read depends on nothing but the size and the slots. -/
theorem get_alike (same : Unchanged S a b) (index : Int) : get S b index = get S a index := by
  unfold get
  rw [same.size]
  cases slotWithin index a.size with
  | error e => rfl
  | ok slot => simp only [same.storage.slot]

theorem elements_alike (same : Unchanged S a b) : elements S b = elements S a := by
  have slots : S.slot? b.storage = S.slot? a.storage := funext same.storage.slot
  simp only [elements, window, GrowableArray.count, same.size, same.storage.capacity, slots]

/-- A call that succeeds does so again where the same slots are shown and every growth is
granted. -/
theorem perform_alike (hf : (S.growingBy f).Conforms fill) (hg : (S.growingBy g).Granting fill)
    (same : Unchanged S a b) {call : Call α} {answer : Answer α}
    (done : (perform (S.growingBy f) a call).result = .ok answer) :
    (perform (S.growingBy g) b call).result = .ok answer ∧
    (perform (S.growingBy g) b call).growth = (perform (S.growingBy f) a call).growth ∧
    Unchanged S (perform (S.growingBy f) a call).array
      (perform (S.growingBy g) b call).array := by
  cases call with
  | add index value =>
    rcases add_cases hf a index value with
      ⟨e, failed, -⟩ | ⟨slot, a', s, growth, -, -, written, prepared, added⟩
    · simp only [perform, failed] at done
      cases done
    have alike := prepareForAdd_alike hf hg same (congrArg Step.result prepared)
    rcases add_cases hg.toConforms b index value with
      ⟨e, failed, -⟩ | ⟨slot', b', t, growth', -, -, written', prepared', added'⟩
    · rw [add_of_prepared hg.toConforms value alike.1] at failed
      cases failed
    rw [prepared, prepared'] at alike
    obtain ⟨sameSlot, sameGrowth, sameArray⟩ := alike
    cases sameSlot
    simp only [perform, added, added'] at done ⊢
    have storage := sameArray.storage.growingBy.written hf.toCoherent written written'
    exact ⟨done, sameGrowth, sameArray.size, storage.growingBy⟩
  | prepare index =>
    cases prepared : (prepareForAdd (S.growingBy f) a index).result with
    | error e =>
      simp only [perform, prepared] at done
      cases done
    | ok slot =>
      obtain ⟨sameSlot, sameGrowth, sameArray⟩ := prepareForAdd_alike hf hg same prepared
      simp only [perform, prepared] at done
      simp only [perform, sameSlot]
      exact ⟨done, sameGrowth, sameArray⟩
  | get index =>
    refine ⟨?_, rfl, same⟩
    change (get S b index).map Answer.value = .ok answer
    rw [get_alike same]
    exact done
  | iterate =>
    refine ⟨?_, rfl, same⟩
    change Except.ok (Answer.elements (elements S b)) = Except.ok answer
    rw [elements_alike same]
    exact done

end

theorem successes_of_error {t : Attempt σ α} {e : AccessError}
    (failed : (t.make S a).result = .error e) (ts : List (Attempt σ α)) :
    successes S a (t :: ts) = successes S (t.make S a).array ts := by
  change (if (t.make S a).result.isOk then _ else successes S (t.make S a).array ts) = _
  rw [failed]
  rfl

theorem successes_of_ok {t : Attempt σ α} {answer : Answer α}
    (done : (t.make S a).result = .ok answer) (ts : List (Attempt σ α)) :
    successes S a (t :: ts) = t :: successes S (t.make S a).array ts := by
  change (if (t.make S a).result.isOk then _ else _) = _
  rw [done]
  rfl

/-- The calls that do not fail, made on an array that shows the same slots and with every growth
granted, are answered as they were among the others. -/
theorem attempts_alike {ts us : List (Attempt σ α)}
    (conforms : ∀ t ∈ ts, (S.growingBy t.grow).Conforms fill)
    (granting : ∀ u ∈ us, (S.growingBy u.grow).Granting fill)
    (calls : us.map Attempt.call = (successes S a ts).map Attempt.call) (same : Unchanged S a b) :
    (attempts S b us).log = (attempts S a ts).log.filter Event.succeeded ∧
    (attempts S b us).growths = (attempts S a ts).growths ∧
    Unchanged S (attempts S a ts).array (attempts S b us).array := by
  induction ts generalizing a b us with
  | nil =>
    cases List.map_eq_nil_iff.mp calls
    exact ⟨rfl, rfl, same⟩
  | cons t ts ih =>
    have conformsHere := conforms t List.mem_cons_self
    have conformsThen := fun u member => conforms u (List.mem_cons_of_mem t member)
    cases result : (t.make S a).result with
    | error e =>
      obtain ⟨unchanged, quiet⟩ := perform_unchanged conformsHere result
      have after : Unchanged S (t.make S a).array b := unchanged.growingBy.symm.trans same
      rw [successes_of_error result] at calls
      obtain ⟨log, growths, array⟩ := ih conformsThen granting calls after
      refine ⟨log.trans ?_, growths.trans ?_, array⟩
      · simp only [attempts, result]
        rfl
      · change _ = (t.make S a).growth.toList ++ _
        rw [Attempt.make, quiet]
        rfl
    | ok answer =>
      rw [successes_of_ok result] at calls
      obtain ⟨u, us, rfl, sameCall, calls⟩ := List.map_eq_cons_iff.mp calls
      have grantingHere := granting u List.mem_cons_self
      have grantingThen := fun v member => granting v (List.mem_cons_of_mem u member)
      have alike : (u.make S b).result = .ok answer ∧
          (u.make S b).growth = (t.make S a).growth ∧
          Unchanged S (t.make S a).array (u.make S b).array := by
        rw [Attempt.make, sameCall]
        exact perform_alike conformsHere grantingHere same result
      obtain ⟨done, growth, after⟩ := alike
      obtain ⟨log, growths, array⟩ := ih conformsThen grantingThen calls after
      refine ⟨?_, ?_, array⟩
      · simp only [attempts, done, log, sameCall, result]
        rfl
      · simp only [attempts, growth, growths]

theorem Prepared.untouched (hS : S.Atomic fill) {s : Step σ Nat} {e : AccessError}
    (h : Prepared S a index s) (failed : s.result = .error e) : s.array = a ∧ s.growth = none := by
  cases h with
  | unfit e' unfit => exact ⟨rfl, rfl⟩
  | present slot isSlot fits inside => cases failed
  | refused slot isSlot fits short e' storage grow =>
    have same := hS.untouched a.storage _ e' storage short grow
    subst same
    exact ⟨rfl, rfl⟩
  | grown slot isSlot fits short storage grow => cases failed

theorem perform_untouched (hS : S.Atomic fill) {call : Call α} {e : AccessError}
    (failed : (perform S a call).result = .error e) :
    (perform S a call).array = a ∧ (perform S a call).growth = none := by
  rcases perform_failed hS.toConforms failed with
    ⟨index, e', unprepared, array, growth⟩ | untouched
  · rw [array, growth]
    exact (prepareForAdd_prepared S a index).untouched hS unprepared
  · exact untouched

/-- Without the failed attempts everything else is as it was with them. -/
theorem attempts_successes {ts : List (Attempt σ α)}
    (atomic : ∀ t ∈ ts, (S.growingBy t.grow).Atomic fill) (a : GrowableArray σ) :
    attempts S a (successes S a ts) =
      { attempts S a ts with log := (attempts S a ts).log.filter Event.succeeded } := by
  induction ts generalizing a with
  | nil => rfl
  | cons t ts ih =>
    have rest := ih fun u member => atomic u (List.mem_cons_of_mem t member)
    cases result : (t.make S a).result with
    | error e =>
      obtain ⟨same, quiet⟩ := perform_untouched (atomic t List.mem_cons_self) result
      have after : (t.make S a).array = a := same
      have unreported : (t.make S a).growth = none := quiet
      rw [successes_of_error result, after, rest]
      simp only [attempts, after, unreported, result]
      rfl
    | ok answer =>
      rw [successes_of_ok result]
      simp only [attempts, rest, result]
      rfl

/-- A failed call changes no slot and reports nothing. Striking out all failed calls changes neither
the array nor any other answer, and what has been prepared can be written. -/
theorem failure_leaves_no_trace {ts : List (Attempt σ α)}
    (conforms : ∀ t ∈ ts, (S.growingBy t.grow).Conforms fill) :
    (∀ front t back, ts = front ++ t :: back →
      let before := (attempts S (empty S) front).array
      ∀ e, (t.make S before).result = .error e →
        Unchanged S before (t.make S before).array ∧ (t.make S before).growth = none) ∧
    (∀ us : List (Attempt σ α),
      us.map Attempt.call = (successes S (empty S) ts).map Attempt.call →
      (∀ u ∈ us, (S.growingBy u.grow).Granting fill) →
        (attempts S (empty S) us).log =
          (attempts S (empty S) ts).log.filter Event.succeeded ∧
        (attempts S (empty S) us).growths = (attempts S (empty S) ts).growths ∧
        Unchanged S (attempts S (empty S) ts).array (attempts S (empty S) us).array) ∧
    ((∀ t ∈ ts, (S.growingBy t.grow).Atomic fill) →
      attempts S (empty S) (successes S (empty S) ts) =
        { attempts S (empty S) ts with
          log := (attempts S (empty S) ts).log.filter Event.succeeded }) ∧
    ∀ t ∈ ts, ∀ a index slot value,
      (prepareForAdd (S.growingBy t.grow) a index).result = .ok slot →
        (add (S.growingBy t.grow) a index value).result = .ok () := by
  refine ⟨?_, ?_, fun atomic => attempts_successes atomic _, ?_⟩
  · intro front t back split before e failed
    have member : t ∈ ts := by simp [split]
    obtain ⟨unchanged, quiet⟩ := perform_unchanged (conforms t member) failed
    exact ⟨unchanged.growingBy, quiet⟩
  · intro us calls granting
    exact attempts_alike conforms granting calls ⟨rfl, Storage.Alike.refl S _⟩
  · intro t member a index slot value prepared
    exact add_of_prepared (conforms t member) value prepared

end

/-- A write that is refused memory and then made again, among calls that fail for other reasons. -/
theorem failures_struck_out :
    let S := Storage.steady (Row.cells (α := Int)) fun _ => true
    let refusing := (Storage.steady (Row.cells (α := Int)) fun _ => false).grow
    let ts : List (Attempt (Array Int) Int) :=
      [⟨.add 5 1, S.grow⟩, ⟨.add 150 2, refusing⟩, ⟨.get 150, S.grow⟩, ⟨.add 150 4, S.grow⟩,
        ⟨.prepare 2147483639, S.grow⟩, ⟨.get 150, S.grow⟩]
    let us : List (Attempt (Array Int) Int) :=
      [⟨.add 5 1, S.grow⟩, ⟨.add 150 4, S.grow⟩, ⟨.get 150, S.grow⟩]
    let all := attempts S (empty S) ts
    let rest := attempts S (empty S) us
    (∀ t ∈ ts, (S.growingBy t.grow).Atomic 0) ∧ (∀ u ∈ us, (S.growingBy u.grow).Granting 0) ∧
    us.map Attempt.call = (successes S (empty S) ts).map Attempt.call ∧
    all.log.map Event.succeeded = [true, false, false, true, false, true] ∧
    rest.log = all.log.filter Event.succeeded ∧ rest.growths = [⟨100, 200, 150⟩] ∧
    Unchanged S all.array rest.array ∧
    (attempts S (empty S) (successes S (empty S) ts)).array = all.array := by
  intro S refusing ts us all rest
  have granting : S.Granting 0 := Storage.steady_granting Row.cells_lawful
  have granted : S.Atomic 0 := Storage.steady_atomic Row.cells_lawful _
  have refused : (S.growingBy refusing).Atomic 0 := Storage.steady_atomic Row.cells_lawful _
  have atomic : ∀ t ∈ ts, (S.growingBy t.grow).Atomic 0 := by
    intro t member
    simp only [ts, List.mem_cons, List.not_mem_nil, or_false] at member
    rcases member with rfl | rfl | rfl | rfl | rfl | rfl
    · exact granted
    · exact refused
    · exact granted
    · exact granted
    · exact granted
    · exact granted
  have grants : ∀ u ∈ us, (S.growingBy u.grow).Granting 0 := by
    intro u member
    simp only [us, List.mem_cons, List.not_mem_nil, or_false] at member
    rcases member with rfl | rfl | rfl
    · exact granting
    · exact granting
    · exact granting
  have calls : us.map Attempt.call = (successes S (empty S) ts).map Attempt.call := by
    decide +kernel
  obtain ⟨-, alike, untouched, -⟩ := failure_leaves_no_trace fun t member =>
    (atomic t member).toConforms
  obtain ⟨log, growths, same⟩ := alike us calls grants
  have array := congrArg Run.array (untouched atomic)
  have reported : all.growths = [⟨100, 200, 150⟩] := by decide +kernel
  exact ⟨atomic, grants, calls, by decide +kernel, log, growths.trans reported, same, array⟩

end GrowableArray

end ServiceLang.Values
