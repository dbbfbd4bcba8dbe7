import Mathlib.Data.List.Forall2
import ServiceLang.Json.Record
import ServiceLang.Proofs.Json.Documents

/-!
# What a reader gets

A reader gets a value from a document when every budget that the depth of the document leaves room
for gives the value. The budget is bounded here, so that a recursive reader can be followed one step
at a time. Of a record, each field stands once among the members, wherever that is, and the others
are read from the members around it.
-/

namespace ServiceLang.Json

namespace Document

theorem depthOfMembers_append (ms ns : List (Option String × Document)) :
    depthOfMembers (ms ++ ns) = max (depthOfMembers ms) (depthOfMembers ns) := by
  induction ms with
  | nil => exact (Nat.zero_max _).symm
  | cons m ms ih => rw [List.cons_append, depthOfMembers, depthOfMembers, ih, Nat.max_assoc]

end Document

variable {α β σ τ : Type}

namespace Reader

/-- With every budget below the limit that has room for the depth of the document, the reader gets
the value. -/
def Reads (limit : Nat) (r : Reader α) (d : Document) (a : α) : Prop :=
  ∀ budget < limit, d.depth ≤ budget → r budget d = .ok a

section

variable {limit : Nat} {r : Reader α} {d : Document} {a : α}

theorem Reads.below {lower : Nat} (h : Reads limit r d a) (le : lower ≤ limit) :
    Reads lower r d a :=
  fun budget below deep => h budget (Nat.lt_of_lt_of_le below le) deep

/-- What is made of a value that is read does not depend on the budget. -/
theorem Reads.map (h : Reads limit r d a) (f : α → β) : Reads limit (r.map f) d (f a) := by
  intro budget below deep
  rw [Reader.map, h budget below deep]
  rfl

theorem Reads.optional (h : Reads limit r d a) (present : d ≠ .null) :
    Reads limit (optional r) d (some a) := by
  intro budget below deep
  rw [Reader.optional, h budget below deep]
  · rfl
  · exact present

theorem reads_string (s : String) : Reads limit string (.string (some s)) s := by
  intro budget _ _
  rfl

theorem reads_natural (n : Nat) : Reads limit natural (.number (some (.integer n))) n := by
  intro budget _ _
  rw [natural, if_pos (Int.natCast_nonneg n), Int.toNat_natCast]

theorem reads_word (w : UInt64) :
    Reads limit word (.number (some (.integer w.toNat))) w := by
  have read : Reads limit word (.number (some (.integer w.toNat))) (UInt64.ofNat w.toNat) :=
    (reads_natural w.toNat).map UInt64.ofNat
  rw [UInt64.ofNat_toNat] at read
  exact read

theorem reads_integer (i : Int64) : Reads limit integer (.number (some (.integer i.toInt))) i := by
  intro budget _ _
  rw [integer, if_pos (Int64.toInt_le i), Int64.ofInt_toInt]

theorem reads_boolean (b : Bool) : Reads limit boolean (.bool b) b := by
  intro budget _ _
  rfl

theorem reads_float (x : Binary64) : Reads limit float (.number (some (.float x))) x := by
  intro budget _ _
  rfl

/-- A value that may be missing is missing when it is written as `null`. -/
theorem reads_absent : Reads limit (optional r) .null none := by
  intro budget _ _
  rfl

theorem reads_stepped {step : Reader α → Reader α} {fuel : Nat}
    (h : Reads (fuel + 1) (step (stepped step fuel)) d a) :
    Reads (fuel + 1) (stepped step (fuel + 1)) d a :=
  h

/-- A recursive reader takes as many steps as its budget needs. -/
theorem reads_recursive {step : Reader α → Reader α}
    (h : ∀ fuel, Reads fuel (stepped step fuel) d a) : Reads limit (recursive step) d a :=
  fun budget _ deep => h (budget + 1) budget (Nat.lt_succ_self budget) deep

/-- All items are read if each of them is and the budget has room for the deepest. -/
theorem items_of_reads {ds : List Document} {as : List α}
    (each : List.Forall₂ (Reads limit r) ds as) {budget : Nat} (below : budget < limit)
    (deep : Document.depthOfItems ds ≤ budget) :
    items (r budget) ds = .ok as := by
  induction each with
  | nil => rfl
  | cons first _ ih =>
    rw [Document.depthOfItems] at deep
    rw [items, first budget below (by omega), ih (by omega)]
    rfl

theorem reads_list {ds : List Document} {as : List α} (each : List.Forall₂ (Reads limit r) ds as) :
    Reads (limit + 1) (list r) (.array ds .closed) as := by
  intro budget below deep
  rw [Document.depth] at deep
  cases budget with
  | zero => omega
  | succ budget =>
    rw [list, descend, items_of_reads each (by omega) (by omega)]
    rfl

/-- A list is read back from the array of the values that its items are written as. -/
theorem reads_list_map {write : α → Json} {as : List α}
    (each : ∀ a ∈ as, Reads limit r (write a).document a) :
    Reads limit (list r) (Json.array (as.map write)).document as := by
  rw [document, documents_eq_map, List.map_map]
  refine (reads_list ?_).below (Nat.le_succ limit)
  exact List.forall₂_map_left_iff.mpr (List.forall₂_same.mpr each)

end

end Reader

namespace Fields

open Reader

/-- The fields are read from the members of an object. -/
def Gathers (limit : Nat) (fs : Fields σ α) (ms : List (Option String × Document)) (a : α) :
    Prop :=
  ∀ budget < limit, Document.depthOfMembers ms ≤ budget →
    ∃ s, fs.members budget fs.start ms = .ok s ∧ fs.finish s = .ok a

/-- No member has the name. -/
def Absent (name : String) (ms : List (Option String × Document)) : Prop :=
  some name ∉ ms.map Prod.fst

@[simp]
theorem absent_nil (name : String) : Absent name [] := List.not_mem_nil

/-- A name is absent if it is not that of the first member nor of any other. -/
@[simp]
theorem absent_cons (name : String) (key : Option String) (d : Document)
    (ms : List (Option String × Document)) :
    Absent name ((key, d) :: ms) ↔ some name ≠ key ∧ Absent name ms := by
  rw [Absent, List.map_cons, List.mem_cons, not_or]
  rfl

@[simp]
theorem absent_append (name : String) (ms ns : List (Option String × Document)) :
    Absent name (ms ++ ns) ↔ Absent name ms ∧ Absent name ns := by
  rw [Absent, List.map_append, List.mem_append, not_or]
  rfl

/-- Members are read one after the other, and the state is handed on. -/
theorem members_append (fs : Fields σ α) (budget : Nat) (s : σ)
    (ms ns : List (Option String × Document)) :
    fs.members budget s (ms ++ ns) =
      (fs.members budget s ms >>= fun s => fs.members budget s ns) := by
  induction ms generalizing s with
  | nil => rfl
  | cons m ms ih =>
    obtain ⟨key, d⟩ := m
    cases key with
    | none => rfl
    | some key =>
      rw [List.cons_append, members, members]
      cases fs.store? key budget d s with
      | some stored =>
        cases stored with
        | error e => rfl
        | ok s => exact ih s
      | none =>
        cases d.skip with
        | error e => rfl
        | ok _ => exact ih s

/-- Members that are read are read in two parts. -/
theorem members_parts {fs : Fields σ α} {budget : Nat} {s t : σ}
    {ms ns : List (Option String × Document)} (read : fs.members budget s (ms ++ ns) = .ok t) :
    ∃ u, fs.members budget s ms = .ok u ∧ fs.members budget u ns = .ok t := by
  rw [members_append] at read
  cases front : fs.members budget s ms with
  | error e =>
    rw [front] at read
    cases read
  | ok u =>
    rw [front] at read
    exact ⟨u, rfl, read⟩

/-- A member that is stored is done with. -/
theorem members_stored {fs : Fields σ α} {key : String} {budget : Nat} {d : Document} {s t : σ}
    (stored : fs.store? key budget d s = some (.ok t)) (ms : List (Option String × Document)) :
    fs.members budget s ((some key, d) :: ms) = fs.members budget t ms := by
  rw [members, stored]
  rfl

section

variable {limit : Nat} {name : String} {r : Reader α} {presence : Presence α}
  {others : Fields τ β}

/-- The first field takes the member with its name. -/
theorem store?_same {budget : Nat} {d : Document} {a : α} (read : r budget d = .ok a) (t : τ) :
    (field name r presence others).store? name budget d (Option.none, t) =
      some (.ok (some a, t)) := by
  change (if name = name then some ((r budget d).map fun a => (some a, t)) else _) = _
  rw [if_pos rfl, read]
  rfl

/-- A member with another name is left to the other fields. -/
theorem store?_other {key : String} (different : key ≠ name) (budget : Nat) (d : Document)
    (a? : Option α) (t : τ) :
    (field name r presence others).store? key budget d (a?, t) =
      (others.store? key budget d t).map (·.map fun t => (a?, t)) :=
  if_neg different

theorem finish_field {a? : Option α} {t : τ} {a : α} {b : β}
    (value : a?.or presence.inObject = some a) (rest : others.finish t = .ok b) :
    (field name r presence others).finish (a?, t) = .ok (a, b) := by
  simp only [field, value, rest]
  rfl

/-- Members with other names are left to the other fields. -/
theorem members_absent {ms : List (Option String × Document)} (absent : Absent name ms)
    (budget : Nat) (a? : Option α) (t : τ) :
    (field name r presence others).members budget (a?, t) ms =
      (others.members budget t ms).map fun t => (a?, t) := by
  induction ms generalizing t with
  | nil => rfl
  | cons m ms ih =>
    obtain ⟨key, d⟩ := m
    cases key with
    | none => rfl
    | some key =>
      have different : key ≠ name := by
        rintro rfl
        exact ((absent_cons ..).mp absent).1 rfl
      have rest := ih ((absent_cons ..).mp absent).2
      rw [members, members, store?_other different]
      cases others.store? key budget d t with
      | some stored =>
        cases stored with
        | error e => rfl
        | ok t => exact rest t
      | none =>
        cases d.skip with
        | error e => rfl
        | ok _ => exact rest t

theorem gathers_none : Gathers limit Fields.none [] () := by
  intro budget _ _
  exact ⟨(), rfl, rfl⟩

/-- A field that stands once among the members. -/
theorem Gathers.field {front back : List (Option String × Document)} {d : Document} {a : α} {b : β}
    (absentFront : Absent name front) (absentBack : Absent name back) (value : Reads limit r d a)
    (rest : Gathers limit others (front ++ back) b) :
    Gathers limit (field name r presence others) (front ++ (some name, d) :: back) (a, b) := by
  intro budget below deep
  rw [Document.depthOfMembers_append, Document.depthOfMembers] at deep
  have around : Document.depthOfMembers (front ++ back) ≤ budget := by
    rw [Document.depthOfMembers_append]
    omega
  obtain ⟨t, read, finished⟩ := rest budget below around
  obtain ⟨u, readFront, readBack⟩ := members_parts read
  have stored : (Fields.field name r presence others).store? name budget d (Option.none, u) =
      some (.ok (some a, u)) := store?_same (value budget below (by omega)) u
  have start : (Fields.field name r presence others).start = (Option.none, others.start) := rfl
  refine ⟨(some a, t), ?_, finish_field rfl finished⟩
  rw [members_append, start, members_absent absentFront, readFront]
  change (Fields.field name r presence others).members budget (Option.none, u) _ = _
  rw [members_stored stored, members_absent absentBack, readBack]
  rfl

theorem Gathers.head {ms : List (Option String × Document)} {d : Document} {a : α} {b : β}
    (value : Reads limit r d a) (absent : Absent name ms) (rest : Gathers limit others ms b) :
    Gathers limit (Fields.field name r presence others) ((some name, d) :: ms) (a, b) :=
  Gathers.field (absent_nil name) absent value rest

/-- A field that is not among the members but may be left out. -/
theorem Gathers.default {ms : List (Option String × Document)} {a : α} {b : β}
    (absent : Absent name ms) (value : presence.inObject = some a)
    (rest : Gathers limit others ms b) :
    Gathers limit (Fields.field name r presence others) ms (a, b) := by
  intro budget below deep
  obtain ⟨t, read, finished⟩ := rest budget below deep
  have start : (Fields.field name r presence others).start = (Option.none, others.start) := rfl
  refine ⟨(Option.none, t), ?_, finish_field value finished⟩
  rw [start, members_absent absent, read]
  rfl

end

/-- A record is read from an object if its fields are. -/
theorem Gathers.reads {limit : Nat} {fs : Fields σ α} {ms : List (Option String × Document)}
    {a : α} (h : Gathers limit fs ms a) (what : String) :
    Reads (limit + 1) (fs.reader what) (.object ms .closed) a := by
  intro budget below deep
  rw [Document.depth] at deep
  cases budget with
  | zero => omega
  | succ budget =>
    obtain ⟨s, read, finished⟩ := h budget (by omega) (by omega)
    rw [reader, descend, read]
    exact finished

end Fields

namespace Variant

variable {limit : Nat} {variants : List (Variant α)} {name : String}

theorem named_of_find? {v : Variant α} (found : variants.find? (·.name == name) = some v) :
    named variants name = .ok v := by
  rw [named, found]

/-- The name of a variant without content is read as that variant. -/
theorem reads_plain {v : Variant α} {a : α} (found : variants.find? (·.name == name) = some v)
    (alone : v.alone = .ok a) : Reader.Reads limit (reader variants) (.string (some name)) a := by
  intro budget _ _
  simp only [reader, named_of_find? found, bind, Except.bind, alone]
  rfl

/-- The content of a variant is read under the name of the variant. -/
theorem reads_tagged {v : Variant α} {d : Document} {a : α}
    (found : variants.find? (·.name == name) = some v)
    (content : Reader.Reads limit v.content d a) :
    Reader.Reads (limit + 1) (reader variants) (.object [(some name, d)] .closed) a := by
  intro budget below deep
  rw [Document.depth, Document.depthOfMembers, Document.depthOfMembers] at deep
  cases budget with
  | zero => omega
  | succ budget =>
    have read := content budget (by omega) (by omega)
    simp only [reader, Reader.descend, named_of_find? found, bind, Except.bind, read]
    rfl

/-- The fields of a variant are read under the name of the variant. -/
theorem reads_record {type : String} {fs : Fields σ β} {f : β → α}
    {ms : List (Option String × Document)} {a : α} {b : β}
    (found : variants.find? (·.name == name) = some (record type name fs f))
    (gathers : fs.Gathers limit ms b) (made : f b = a) :
    Reader.Reads (limit + 1) (reader variants) (.object [(some name, .object ms .closed)] .closed)
      a := by
  subst made
  exact reads_tagged found (((gathers.reads _).map f).below (Nat.le_succ limit))

end Variant

end ServiceLang.Json
