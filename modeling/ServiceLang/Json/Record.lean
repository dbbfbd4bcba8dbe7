import ServiceLang.Json.Reader

/-!
# Reading records and choices

A record is written as an object, with its fields in any order and others among them, or as an array
of its fields in order. A `Fields σ α` describes the fields: `σ` holds those that have been read,
each at most once, and `α` is the tuple of all of them. A choice is written as the name of a variant
alone, if the variant has no content, or as an object with that name as its only key.
-/

namespace ServiceLang.Json

/-- What happens when a field is not there: it is required; it has a value as long as the record is
an object; or it may also be left out at the end of an array. -/
inductive Presence (α : Type) where
  | required
  | absentAs (a : α)
  | omittedAs (a : α)

def Presence.inObject {α : Type} : Presence α → Option α
  | .required => none
  | .absentAs a | .omittedAs a => some a

def Presence.inArray {α : Type} : Presence α → Option α
  | .omittedAs a => some a
  | _ => none

structure Fields (σ α : Type) where
  names : List String
  /-- No field has been read. -/
  start : σ
  /-- Read a field by its name, unless there is no such field. -/
  store? : String → Nat → Document → σ → Option (Except ReadError σ)
  /-- All fields, when the object is closed. -/
  finish : σ → Except ReadError α
  /-- All fields from the items of an array, and the items left over. The numbers are the budget and
  how many items came before, and the text is what an array that is too short should have been. -/
  listed : Nat → Nat → String → List Document → Ending → Except ReadError (α × List Document)

namespace Fields

variable {σ τ α β : Type}

def none : Fields Unit Unit where
  names := []
  start := ()
  store? _ _ _ _ := Option.none
  finish _ := .ok ()
  listed _ _ _ items _ := .ok ((), items)

/-- One field in front of others. -/
def field (name : String) (r : Reader α) (presence : Presence α) (others : Fields τ β) :
    Fields (Option α × τ) (α × β) where
  names := name :: others.names
  start := (Option.none, others.start)
  store? key budget d s :=
    if key = name then
      match s.1 with
      | some _ => some (.error (.mismatch (.duplicateField name)))
      | Option.none => some ((r budget d).map fun a => (some a, s.2))
    else (others.store? key budget d s.2).map (·.map fun rest => (s.1, rest))
  finish s :=
    match s.1.or presence.inObject with
    | some a => (others.finish s.2).map fun b => (a, b)
    | Option.none => .error (.mismatch (.missingField name))
  listed budget count expected items ending :=
    match items with
    | d :: ds => do
      let a ← r budget d
      let (b, left) ← others.listed budget (count + 1) expected ds ending
      pure ((a, b), left)
    | [] => do
      ending.check
      match presence.inArray with
      | some a =>
        let (b, left) ← others.listed budget (count + 1) expected [] ending
        pure ((a, b), left)
      | Option.none => .error (.mismatch (.invalidLength count expected))

/-- Read the members of an object one after the other; those that are no fields are passed over. -/
def members (fs : Fields σ α) (budget : Nat) :
    σ → List (Option String × Document) → Except ReadError σ
  | s, [] => .ok s
  | _, (Option.none, _) :: _ => .error .malformed
  | s, (some key, d) :: ms =>
    match fs.store? key budget d s with
    | some stored => do
      let s ← stored
      members fs budget s ms
    | Option.none => do
      d.skip
      members fs budget s ms

/-- The number of fields, as messages give it. -/
def countText (fs : Fields σ α) : String :=
  toString fs.names.length ++ (if fs.names.length = 1 then " element" else " elements")

/-- A record; `what` names it in messages. -/
def reader (fs : Fields σ α) (what : String) : Reader α
  | budget, .object ms ending => Reader.descend budget fun budget => do
    let s ← fs.members budget fs.start ms
    ending.check
    fs.finish s
  | budget, .array items ending => Reader.descend budget fun budget => do
    let (a, left) ← fs.listed budget 0 (what ++ " with " ++ fs.countText) items ending
    if left.isEmpty then do
      ending.check
      pure a
    else .error .malformed
  | _, d => .error (d.glimpse.mismatch what)

end Fields

/-- A variant: its name, its value if it has no content or else what content it wants, and how the
content is read. -/
structure Variant (α : Type) where
  name : String
  alone : Except String α
  content : Reader α

namespace Variant

variable {α β : Type}

def plain (name : String) (a : α) : Variant α := ⟨name, .ok a, Reader.null.map fun _ => a⟩

def holding (name : String) (r : Reader β) (f : β → α) : Variant α :=
  ⟨name, .error "newtype variant", r.map f⟩

def record {σ : Type} (type name : String) (fs : Fields σ β) (f : β → α) : Variant α :=
  ⟨name, .error "struct variant",
    (fs.reader ("struct variant " ++ type ++ "::" ++ name)).map f⟩

/-- The variant of a name. -/
def named (variants : List (Variant α)) (name : String) : Except ReadError (Variant α) :=
  match variants.find? (·.name == name) with
  | some v => .ok v
  | none => .error (.mismatch (.unknownVariant name (variants.map (·.name))))

def reader (variants : List (Variant α)) : Reader α
  | _, .string (some name) => do
    let v ← named variants name
    match v.alone with
    | .ok a => pure a
    | .error expected => .error (.mismatch (.bareVariant expected))
  | budget, .object ((key, d) :: others) ending => Reader.descend budget fun budget => do
    match key with
    | some name =>
      let v ← named variants name
      let a ← v.content budget d
      match others, ending with
      | [], .closed => pure a
      | [], .fault f => .error f.error
      | _, _ => .error .malformed
    | none => .error .malformed
  | budget, .object [] ending => Reader.descend budget fun _ => do
    ending.check
    .error .malformed
  | _, .fault f => .error f.errorAtText
  | _, _ => .error .malformed

end Variant

end ServiceLang.Json
