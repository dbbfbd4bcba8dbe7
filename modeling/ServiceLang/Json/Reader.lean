import ServiceLang.Json.Document
import ServiceLang.Number.Shortest
import ServiceLang.Text

/-!
# Reading typed values

A reader goes through a document in order and stops at the first problem. A problem is that the text
ends, that it is not JSON, or that it is JSON of the wrong shape; only the last kind has a message.
Every reader is given a budget, the number of containers that may still be opened below one another.
A recursive reader is the limit of a step, taken once for each container that the budget allows.
-/

namespace ServiceLang.Json

/-- A shape that is not the expected one. -/
inductive Mismatch where
  | missingField (name : String)
  | duplicateField (name : String)
  | unknownVariant (name : String) (known : List String)
  | invalidType (found : Glimpse) (expected : String)
  | invalidInteger (found : Int) (expected : String)
  | invalidLength (found : Nat) (expected : String)
  | bareVariant (expected : String)
  deriving DecidableEq

inductive ReadError where
  | ended
  | malformed
  | mismatch (m : Mismatch)
  deriving DecidableEq

private def ticked (s : String) : String := "`" ++ s ++ "`"

def Glimpse.text : Glimpse → String
  | .null => "null"
  | .bool b => "boolean " ++ ticked (if b then "true" else "false")
  | .number (some (.integer i)) => "integer " ++ ticked (toString i)
  | .number (some (.float x)) => "floating point " ++ ticked x.text
  | .number none => "number"
  | .string (some s) => "string " ++ Text.quoted s
  | .string none => "string"
  | .sequence => "sequence"
  | .map => "map"
  | .fault _ => "nothing"

/-- The names that would have been accepted. -/
def Mismatch.choices : List String → String
  | [] => "there are no variants"
  | [a] => "expected " ++ ticked a
  | [a, b] => "expected " ++ ticked a ++ " or " ++ ticked b
  | names => "expected one of " ++ String.intercalate ", " (names.map ticked)

def Mismatch.message : Mismatch → String
  | .missingField name => "missing field " ++ ticked name
  | .duplicateField name => "duplicate field " ++ ticked name
  | .unknownVariant name known => "unknown variant " ++ ticked name ++ ", " ++ choices known
  | .invalidType found expected => "invalid type: " ++ found.text ++ ", expected " ++ expected
  | .invalidInteger found expected =>
    "invalid value: integer " ++ ticked (toString found) ++ ", expected " ++ expected
  | .invalidLength found expected =>
    "invalid length " ++ toString found ++ ", expected " ++ expected
  | .bareVariant expected => "invalid type: unit variant, expected " ++ expected

/-- The problem that a fault is for a reader who wants the value. -/
def Fault.error : Fault → ReadError
  | .endOfText | .insideWord | .insideNumber | .insideString true => .ended
  | .insideString false | .malformed => .malformed

/-- The problem that a fault is for a reader who passes over the value. A number without its last
digit is no number then, whatever comes behind it. -/
def Fault.errorWhenSkipped : Fault → ReadError
  | .malformed | .insideNumber => .malformed
  | _ => .ended

/-- The problem that a fault is where only a string or a bracket is looked at. -/
def Fault.errorAtText : Fault → ReadError
  | .insideWord | .insideNumber => .malformed
  | f => f.error

/-- A value of the wrong type, unless the value itself cannot be read. -/
def Glimpse.mismatch (found : Glimpse) (expected : String) : ReadError :=
  match found with
  | .fault f => f.error
  | .number none | .string none => .malformed
  | found => .mismatch (.invalidType found expected)

/-- Whether a container that has been gone through is closed. -/
def Ending.check : Ending → Except ReadError Unit
  | .closed => .ok ()
  | .fault f => .error f.error
  | .noKey f => .error f.errorAtText

abbrev Reader (α : Type) : Type := Nat → Document → Except ReadError α

namespace Reader

variable {α β : Type}

/-- Open a container, if the budget allows. -/
def descend (budget : Nat) (inside : Nat → Except ReadError α) : Except ReadError α :=
  match budget with
  | 0 => .error .malformed
  | budget + 1 => inside budget

def map (f : α → β) (r : Reader α) : Reader β := fun budget d => (r budget d).map f

def string : Reader String
  | _, .string (some s) => .ok s
  | _, d => .error (d.glimpse.mismatch "a string")

/-- A natural number of at most 64 bits. -/
def natural : Reader Nat
  | _, .number (some (.integer i)) =>
    if 0 ≤ i then .ok i.toNat else .error (.mismatch (.invalidInteger i "usize"))
  | _, d => .error (d.glimpse.mismatch "usize")

def word : Reader UInt64 := natural.map UInt64.ofNat

def integer : Reader Int64
  | _, .number (some (.integer i)) =>
    if i ≤ Int64.maxValue.toInt then .ok (Int64.ofInt i)
    else .error (.mismatch (.invalidInteger i "i64"))
  | _, d => .error (d.glimpse.mismatch "i64")

/-- A floating point number, which may be written as an integer. -/
def float : Reader Binary64
  | _, .number (some (.float x)) => .ok x
  | _, .number (some (.integer i)) => .ok (Binary64.ofInt i)
  | _, d => .error (d.glimpse.mismatch "f64")

def boolean : Reader Bool
  | _, .bool b => .ok b
  | _, d => .error (d.glimpse.mismatch "a boolean")

def null : Reader Unit
  | _, .null => .ok ()
  | _, d => .error (d.glimpse.mismatch "unit")

def optional (r : Reader α) : Reader (Option α)
  | _, .null => .ok none
  | budget, d => (r budget d).map some

def items (r : Document → Except ReadError α) : List Document → Except ReadError (List α)
  | [] => .ok []
  | d :: ds => do
    let a ← r d
    let as ← items r ds
    pure (a :: as)

def list (r : Reader α) : Reader (List α)
  | budget, .array ds ending => descend budget fun budget => do
    let as ← items (r budget) ds
    ending.check
    pure as
  | _, d => .error (d.glimpse.mismatch "a sequence")

/-- The given number of steps of a recursive reader. -/
def stepped (step : Reader α → Reader α) : Nat → Reader α
  | 0 => fun _ _ => .error .malformed
  | n + 1 => fun budget d => step (stepped step n) budget d

/-- The reader that a step describes, when each step opens a container before it asks again. -/
def recursive (step : Reader α → Reader α) : Reader α :=
  fun budget d => stepped step (budget + 1) budget d

end Reader

namespace Document

mutual

/-- Pass over a value. Its strings and numbers need no value of their own. -/
def skip : Document → Except ReadError Unit
  | .fault f => .error f.errorWhenSkipped
  | .array items ending => do
    skipItems items
    ending.check
  | .object members ending => do
    skipMembers members
    match ending with
    | .noKey (.insideString _) => .error .ended
    | ending => ending.check
  | _ => .ok ()

def skipItems : List Document → Except ReadError Unit
  | [] => .ok ()
  | d :: ds => do
    skip d
    skipItems ds

def skipMembers : List (Option String × Document) → Except ReadError Unit
  | [] => .ok ()
  | (_, d) :: ms => do
    skip d
    skipMembers ms

end

mutual

/-- Go through a value that is kept for later: all of it has to be readable. -/
def keep (budget : Nat) : Document → Except ReadError Unit
  | .fault f => .error f.error
  | .number none | .string none => .error .malformed
  | .array items ending => do
    if budget = 0 then .error .malformed
    keepItems (budget - 1) items
    ending.check
  | .object members ending => do
    if budget = 0 then .error .malformed
    keepMembers (budget - 1) members
    ending.check
  | _ => .ok ()

def keepItems (budget : Nat) : List Document → Except ReadError Unit
  | [] => .ok ()
  | d :: ds => do
    keep budget d
    keepItems budget ds

def keepMembers (budget : Nat) : List (Option String × Document) → Except ReadError Unit
  | [] => .ok ()
  | (none, _) :: _ => .error .malformed
  | (some _, d) :: ms => do
    keep budget d
    keepMembers budget ms

end

end Document

/-- Read a text that holds one value, with a budget that may depend on the document. -/
def readWith {α : Type} (r : Reader α) (budget : Document → Nat) (text : String) :
    Except ReadError α := do
  let built := build (tokens text.toList)
  let a ← r (budget built.document) built.document
  if built.isWhole then pure a else .error .malformed

/-- Containers may be nested to any depth. -/
def readDeep {α : Type} (r : Reader α) (text : String) : Except ReadError α :=
  readWith r Document.depth text

/-- The number of containers that may stand open at once in an ordinary text. -/
def nestingLimit : Nat := 127

def read {α : Type} (r : Reader α) (text : String) : Except ReadError α :=
  readWith r (fun _ => nestingLimit) text

end ServiceLang.Json
