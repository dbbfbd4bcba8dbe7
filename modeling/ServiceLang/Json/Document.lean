import ServiceLang.Json.Token

/-!
# Documents

A document is a JSON text as a reader sees it from the front: a value that is broken off where the
text stops being JSON. A broken container ends with its broken part, so that whoever goes through a
document in order meets the same problem at the same place as whoever reads the text. Documents are
built by a machine that takes one token at a time and keeps the containers that are still open in a
list.
-/

namespace ServiceLang.Json

/-- What the first token of a value tells about it. -/
inductive Glimpse where
  | null
  | bool (b : Bool)
  | number (value : Option Number)
  | string (value : Option String)
  | sequence
  | map
  | fault (f : Fault)
  deriving DecidableEq, Inhabited

/-- What stands behind the last item or member of a container: its closing bracket, something that
is neither that nor a comma, or, where a key is due, something that is no string. -/
inductive Ending where
  | closed
  | fault (f : Fault)
  | noKey (f : Fault)
  deriving DecidableEq, Inhabited

inductive Document where
  | null
  | bool (b : Bool)
  | number (value : Option Number)
  | string (value : Option String)
  | array (items : List Document) (ending : Ending)
  | object (members : List (Option String × Document)) (ending : Ending)
  | fault (f : Fault)
  deriving Inhabited

namespace Document

def glimpse : Document → Glimpse
  | .null => .null
  | .bool b => .bool b
  | .number v => .number v
  | .string v => .string v
  | .array _ _ => .sequence
  | .object _ _ => .map
  | .fault f => .fault f

mutual

/-- How deep containers are nested. -/
def depth : Document → Nat
  | .array items _ => depthOfItems items + 1
  | .object members _ => depthOfMembers members + 1
  | _ => 0

def depthOfItems : List Document → Nat
  | [] => 0
  | d :: ds => max (depth d) (depthOfItems ds)

def depthOfMembers : List (Option String × Document) → Nat
  | [] => 0
  | (_, d) :: ms => max (depth d) (depthOfMembers ms)

end

end Document

/-- A container that is still open, with what it holds so far, last one first. -/
inductive Frame where
  | items (before : List Document)
  | member (before : List (Option String × Document)) (key : Option String)

/-- What the next token may be. -/
inductive Builder where
  | value (frames : List Frame)
  | firstItem (frames : List Frame)
  | afterItem (before : List Document) (frames : List Frame)
  | firstKey (frames : List Frame)
  | nextKey (before : List (Option String × Document)) (frames : List Frame)
  | colon (before : List (Option String × Document)) (key : Option String) (frames : List Frame)
  | afterMember (before : List (Option String × Document)) (frames : List Frame)
  | whole (d : Document)
  | crowded (d : Document)
  | broken (d : Document)

namespace Builder

/-- A broken part inside all the containers that are open around it. -/
def wrap (d : Document) : List Frame → Document
  | [] => d
  | .items before :: outer => wrap (.array (d :: before).reverse .closed) outer
  | .member before key :: outer => wrap (.object ((key, d) :: before).reverse .closed) outer

def breakOff (d : Document) (frames : List Frame) : Builder := .broken (wrap d frames)

/-- Put a finished value where it belongs. -/
def deliver (d : Document) : List Frame → Builder
  | [] => .whole d
  | .items before :: outer => .afterItem (d :: before) outer
  | .member before key :: outer => .afterMember ((key, d) :: before) outer

def takeValue (t : Token) (frames : List Frame) : Builder :=
  match t with
  | .null => deliver .null frames
  | .bool b => deliver (.bool b) frames
  | .number v => deliver (.number v) frames
  | .string v => deliver (.string v) frames
  | .beginArray => .firstItem frames
  | .beginObject => .firstKey frames
  | .fault f => breakOff (.fault f) frames
  | .endArray | .endObject | .comma | .colon => breakOff (.fault .malformed) frames

/-- What a token that is no string means where a key is due. -/
def noKey : Token → Ending
  | .fault f => .noKey f
  | _ => .noKey .malformed

def step (b : Builder) (t : Token) : Builder :=
  match b with
  | .value frames => takeValue t frames
  | .firstItem frames =>
    match t with
    | .endArray => deliver (.array [] .closed) frames
    | t => takeValue t (.items [] :: frames)
  | .afterItem before frames =>
    match t with
    | .endArray => deliver (.array before.reverse .closed) frames
    | .comma => .value (.items before :: frames)
    | _ => breakOff (.array before.reverse (.fault .malformed)) frames
  | .firstKey frames =>
    match t with
    | .endObject => deliver (.object [] .closed) frames
    | .string key => .colon [] key frames
    | t => breakOff (.object [] (noKey t)) frames
  | .nextKey before frames =>
    match t with
    | .string key => .colon before key frames
    | t => breakOff (.object before.reverse (noKey t)) frames
  | .colon before key frames =>
    match t with
    | .colon => .value (.member before key :: frames)
    | _ => breakOff (.fault .malformed) (.member before key :: frames)
  | .afterMember before frames =>
    match t with
    | .endObject => deliver (.object before.reverse .closed) frames
    | .comma => .nextKey before frames
    | _ => breakOff (.object before.reverse (.fault .malformed)) frames
  | .whole d => .crowded d
  | .crowded d => .crowded d
  | .broken d => .broken d

/-- The document when there are no more tokens. -/
def document : Builder → Document
  | .value frames => wrap (.fault .endOfText) frames
  | .firstItem frames => wrap (.array [] (.fault .endOfText)) frames
  | .afterItem before frames => wrap (.array before.reverse (.fault .endOfText)) frames
  | .firstKey frames => wrap (.object [] (.noKey .endOfText)) frames
  | .nextKey before frames => wrap (.object before.reverse (.noKey .endOfText)) frames
  | .colon before key frames => wrap (.fault .endOfText) (.member before key :: frames)
  | .afterMember before frames => wrap (.object before.reverse (.fault .endOfText)) frames
  | .whole d | .crowded d | .broken d => d

/-- The document is a complete value with nothing behind it. -/
def isWhole : Builder → Bool
  | .whole _ => true
  | _ => false

end Builder

def build (ts : List Token) : Builder := ts.foldl Builder.step (.value [])

end ServiceLang.Json
