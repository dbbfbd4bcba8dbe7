import ServiceLang.Number.Binary64
import ServiceLang.Number.Digits

/-!
# Literals

The grammars of literal texts and the values they denote. A text outside its grammar, or one whose
value does not fit, denotes nothing; no value is wrapped or cut off.
-/

namespace ServiceLang.Semantic.Literal

/-- The character that a letter behind a backslash stands for. -/
def escape? : Char → Option Char
  | 'n' => some '\n'
  | 't' => some '\t'
  | 'r' => some '\r'
  | '"' => some '"'
  | '\\' => some '\\'
  | _ => none

/-- The characters between the quotes, with escapes resolved. Raw quotes and line breaks may stand
among them. -/
def unescape? : List Char → Option (List Char)
  | [] => some []
  | ['\\'] => none
  | '\\' :: c :: rest => do
    let d ← escape? c
    let ds ← unescape? rest
    pure (d :: ds)
  | c :: rest => (unescape? rest).map (c :: ·)

/-- A character that is no backslash stands for itself. -/
theorem unescape?_plain {c : Char} (plain : c ≠ '\\') (rest : List Char) :
    unescape? (c :: rest) = (unescape? rest).map (c :: ·) := by
  rw [unescape?]
  · exact fun same _ => plain same
  · exact fun _ _ same _ => plain same

/-- A backslash takes the letter behind it along. -/
theorem unescape?_escape {letter d : Char} (known : escape? letter = some d) (rest : List Char) :
    unescape? ('\\' :: letter :: rest) = (unescape? rest).map (d :: ·) := by
  cases unescaped : unescape? rest <;> simp [unescape?, known, unescaped]

/-- What stands between the first and the last character when both are quotes. -/
def body? : List Char → Option (List Char)
  | '"' :: rest => if rest.getLast? = some '"' then some rest.dropLast else none
  | _ => none

def string? (text : String) : Option String :=
  ((body? text.toList).bind unescape?).map String.ofList

/-- Decimal digits, or hexadecimal ones behind `0x`, with at most one sign in front of them. -/
def integer? (text : String) : Option Int64 :=
  let read : Option Int :=
    match text.toList with
    | '0' :: 'x' :: digits => Digits.signed? 16 digits
    | '0' :: 'X' :: digits => Digits.signed? 16 digits
    | digits => Digits.signed? 10 digits
  read.bind Digits.toInt64?

private def isMark (c : Char) : Bool := c == 'e' || c == 'E'

/-- Exponents from here on take in no more digits. -/
def exponentBound : Nat := 65536

/-- The exponent that follows `sofar` when one more digit is read. -/
def extendExponent (sofar : Nat) (c : Char) : Nat :=
  if sofar < exponentBound then sofar * 10 + (c.toNat - 48) else sofar

/-- One or more decimal digits, possibly behind one sign. -/
def exponent? (text : List Char) : Option Int :=
  let read (digits : List Char) : Option Nat :=
    if digits ≠ [] ∧ digits.all Char.isDigit then some (digits.foldl extendExponent 0) else none
  match text with
  | '-' :: digits => (read digits).map fun n => -(n : Int)
  | '+' :: digits => (read digits).map fun n => (n : Int)
  | digits => (read digits).map fun n => (n : Int)

/-- The size that an unsigned text denotes: digits with at most one point among or around them, then
possibly an exponent. -/
def size? (text : List Char) : Option Binary64 :=
  let whole := text.takeWhile Char.isDigit
  let afterWhole := text.dropWhile Char.isDigit
  let fraction := match afterWhole with
    | '.' :: rest => rest.takeWhile Char.isDigit
    | _ => []
  let afterFraction := match afterWhole with
    | '.' :: rest => rest.dropWhile Char.isDigit
    | rest => rest
  let written? : Option Int := match afterFraction with
    | [] => some 0
    | c :: rest => if isMark c then exponent? rest else none
  do
    let digits ← Digits.unsigned? 10 (whole ++ fraction)
    let exponent ← written?
    pure (Binary64.ofDecimal digits (exponent - (fraction.length : Int)))

/-- The nearest finite number; a text whose size is too large for one denotes nothing. -/
def float? (text : String) : Option Binary64 :=
  let read := match text.toList with
    | '-' :: rest => (size? rest).map Binary64.neg
    | '+' :: rest => size? rest
    | rest => size? rest
  read.filter Binary64.isFinite

def boolean? (text : String) : Option Bool :=
  if text = "true" then some true
  else if text = "false" then some false
  else none

end ServiceLang.Semantic.Literal
