import ServiceLang.Number.Shortest
import ServiceLang.Number.Digits

/-!
# JSON values and how they are written

A value is written without white space, members in the order in which they stand. Inside strings
only the quote, the backslash and the controls are escaped, the latter by their letter if they have
one. Numbers with a fraction are written as their shortest decimal, and `null` stands for what is no
finite number. The writer takes the text that follows, so that nested values cost no copying.
-/

namespace ServiceLang

inductive Json where
  | null
  | bool (b : Bool)
  | integer (i : Int)
  | float (x : Binary64)
  | string (s : String)
  | array (items : List Json)
  | object (members : List (String × Json))
  deriving Inhabited

namespace Json

/-- The letter that stands for a control behind a backslash. -/
def controlLetter? : Char → Option Char
  | '\x08' => some 'b'
  | '\t' => some 't'
  | '\n' => some 'n'
  | '\x0c' => some 'f'
  | '\r' => some 'r'
  | _ => none

def escapedChar (c : Char) : List Char :=
  if c = '"' ∨ c = '\\' then ['\\', c]
  else
    match controlLetter? c with
    | some letter => ['\\', letter]
    | none =>
      if c.toNat < 32 then
        ['\\', 'u', '0', '0', Nat.digitChar (c.toNat / 16), Nat.digitChar (c.toNat % 16)]
      else [c]

def writeString (s : String) (rest : List Char) : List Char :=
  '"' :: (s.toList.flatMap escapedChar ++ '"' :: rest)

mutual

/-- The text of a value in front of the text that follows it. -/
def write : Json → List Char → List Char
  | .null, rest => 'n' :: 'u' :: 'l' :: 'l' :: rest
  | .bool true, rest => 't' :: 'r' :: 'u' :: 'e' :: rest
  | .bool false, rest => 'f' :: 'a' :: 'l' :: 's' :: 'e' :: rest
  | .integer i, rest => Digits.decimalInt i ++ rest
  | .float x, rest =>
    if x.isFinite then x.text.toList ++ rest else 'n' :: 'u' :: 'l' :: 'l' :: rest
  | .string s, rest => writeString s rest
  | .array items, rest => '[' :: writeItems items (']' :: rest)
  | .object members, rest => '\x7b' :: writeMembers members ('\x7d' :: rest)

def writeItems : List Json → List Char → List Char
  | [], rest => rest
  | [item], rest => write item rest
  | item :: next :: items, rest => write item (',' :: writeItems (next :: items) rest)

def writeMembers : List (String × Json) → List Char → List Char
  | [], rest => rest
  | [(key, value)], rest => writeString key (':' :: write value rest)
  | (key, value) :: next :: members, rest =>
    writeString key (':' :: write value (',' :: writeMembers (next :: members) rest))

end

def text (j : Json) : String := String.ofList (j.write [])

end Json

end ServiceLang
