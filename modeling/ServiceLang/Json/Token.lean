import ServiceLang.Json.Number

/-!
# Tokens of JSON texts

The lexer reads a text one character at a time and folds its step over the whole of it. Where the
text is not JSON, or ends inside a token, the last token is a fault. A string that names half of a
surrogate pair is a token all the same, without a value, since such a string may be skipped;
likewise a number that is too large.
-/

namespace ServiceLang.Json

/-- What is wrong with a text at the place where reading stops. -/
inductive Fault where
  | endOfText
  | insideWord
  | insideNumber
  | insideString (sound : Bool)
  | malformed
  deriving DecidableEq, Inhabited

inductive Token where
  | beginObject
  | endObject
  | beginArray
  | endArray
  | comma
  | colon
  | null
  | bool (b : Bool)
  | number (value : Option Number)
  | string (value : Option String)
  | fault (f : Fault)
  deriving DecidableEq, Inhabited

/-- What part of a numeral was read last. -/
inductive NumeralPart where
  | sign
  | zero
  | whole
  | point
  | fraction
  | mark
  | markSign
  | exponent
  deriving DecidableEq

/-- A numeral may end here. -/
def NumeralPart.isComplete : NumeralPart → Bool
  | .zero | .whole | .fraction | .exponent => true
  | .sign | .point | .mark | .markSign => false

/-- Where the lexer stands inside a string. `high` is a leading surrogate that waits for its
partner, and an escape by number has so many bytes behind it and this value so far. -/
inductive StringPart where
  | plain
  | paired (high : Nat)
  | escape (high : Option Nat)
  | unicode (high : Option Nat) (bytes : Nat) (value : Option Nat)
  deriving DecidableEq

inductive Mode where
  | between
  | word (left : List Char) (token : Token)
  | number (part : NumeralPart) (numeral : Numeral)
  | string (text : List Char) (sound : Bool) (part : StringPart)
  | stopped
  deriving DecidableEq

/-- The tokens read so far, last one first, and the state of the token being read. -/
structure Lexer where
  tokens : List Token
  mode : Mode

namespace Lexer

def start : Lexer := ⟨[], .between⟩

def emit (l : Lexer) (t : Token) : Lexer := ⟨t :: l.tokens, .between⟩

def stop (l : Lexer) : Lexer := ⟨.fault .malformed :: l.tokens, .stopped⟩

def enter (l : Lexer) (m : Mode) : Lexer := ⟨l.tokens, m⟩

def digit (c : Char) : Nat := c.toNat - 48

/-- The first character of a token, or white space. -/
def first (l : Lexer) (c : Char) : Lexer :=
  match c with
  | ' ' | '\t' | '\n' | '\r' => l.enter .between
  | '\x7b' => l.emit .beginObject
  | '\x7d' => l.emit .endObject
  | '[' => l.emit .beginArray
  | ']' => l.emit .endArray
  | ',' => l.emit .comma
  | ':' => l.emit .colon
  | '"' => l.enter (.string [] true .plain)
  | 'n' => l.enter (.word ['u', 'l', 'l'] .null)
  | 't' => l.enter (.word ['r', 'u', 'e'] (.bool true))
  | 'f' => l.enter (.word ['a', 'l', 's', 'e'] (.bool false))
  | '-' => l.enter (.number .sign ⟨true, [], none, none⟩)
  | '0' => l.enter (.number .zero ⟨false, [0], none, none⟩)
  | c =>
    if c.isDigit then l.enter (.number .whole ⟨false, [digit c], none, none⟩) else l.stop

def inWord (l : Lexer) (left : List Char) (token : Token) (c : Char) : Lexer :=
  match left with
  | [] => l.stop
  | [d] => if c = d then l.emit token else l.stop
  | d :: ds => if c = d then l.enter (.word ds token) else l.stop

def addWhole (n : Numeral) (c : Char) : Numeral := { n with whole := digit c :: n.whole }

def addFraction (n : Numeral) (c : Char) : Numeral :=
  { n with fraction := some (digit c :: n.fraction.getD []) }

def addExponent (n : Numeral) (c : Char) : Numeral :=
  { n with exponent := n.exponent.map fun e => (e.1, e.2 * 10 + digit c) }

def inNumber (l : Lexer) (part : NumeralPart) (n : Numeral) (c : Char) : Lexer :=
  if c.isDigit then
    match part with
    | .sign => l.enter (.number (if c = '0' then .zero else .whole) (addWhole n c))
    | .zero => l.stop
    | .whole => l.enter (.number .whole (addWhole n c))
    | .point | .fraction => l.enter (.number .fraction (addFraction n c))
    | .mark | .markSign | .exponent => l.enter (.number .exponent (addExponent n c))
  else if c = '.' ∧ (part = .zero ∨ part = .whole) then
    l.enter (.number .point { n with fraction := some [] })
  else if (c = 'e' ∨ c = 'E') ∧ (part = .zero ∨ part = .whole ∨ part = .fraction) then
    l.enter (.number .mark { n with exponent := some (false, 0) })
  else if c = '+' ∧ part = .mark then
    l.enter (.number .markSign n)
  else if c = '-' ∧ part = .mark then
    l.enter (.number .markSign { n with exponent := some (true, 0) })
  else if part.isComplete then
    (l.emit (.number n.value?)).first c
  else l.stop

/-- The character that a letter behind a backslash stands for. -/
def unescape? : Char → Option Char
  | '"' => some '"'
  | '\\' => some '\\'
  | '/' => some '/'
  | 'b' => some '\x08'
  | 'f' => some '\x0c'
  | 'n' => some '\n'
  | 'r' => some '\r'
  | 't' => some '\t'
  | _ => none

def hexValue? (c : Char) : Option Nat :=
  if c.isDigit then some (digit c)
  else if 'a' ≤ c ∧ c ≤ 'f' then some (c.toNat - 87)
  else if 'A' ≤ c ∧ c ≤ 'F' then some (c.toNat - 55)
  else none

def isHigh (n : Nat) : Bool := 0xD800 ≤ n && n < 0xDC00

def isLow (n : Nat) : Bool := 0xDC00 ≤ n && n < 0xE000

/-- The string after an escape by number. A surrogate without its partner makes it unsound. -/
def addUnit (l : Lexer) (text : List Char) (sound : Bool) (high : Option Nat) (n : Nat) : Lexer :=
  match high with
  | none =>
    if isLow n then l.enter (.string text false .plain)
    else if isHigh n then l.enter (.string text sound (.paired n))
    else l.enter (.string (Char.ofNat n :: text) sound .plain)
  | some h =>
    if isLow n then
      let pair := 0x10000 + (h - 0xD800) * 0x400 + (n - 0xDC00)
      l.enter (.string (Char.ofNat pair :: text) sound .plain)
    else l.enter (.string text false .plain)

def inPlain (l : Lexer) (text : List Char) (sound : Bool) (c : Char) : Lexer :=
  if c = '"' then
    l.emit (.string (if sound then some (String.ofList text.reverse) else none))
  else if c = '\\' then l.enter (.string text sound (.escape none))
  else if c.toNat < 32 then l.stop
  else l.enter (.string (c :: text) sound .plain)

def inString (l : Lexer) (text : List Char) (sound : Bool) (part : StringPart) (c : Char) : Lexer :=
  match part with
  | .plain => l.inPlain text sound c
  | .paired high =>
    if c = '\\' then l.enter (.string text sound (.escape (some high)))
    else l.inPlain text false c
  | .escape high =>
    if c = 'u' then l.enter (.string text sound (.unicode high 0 (some 0)))
    else
      match unescape? c with
      | some d => l.enter (.string (d :: text) (sound && high.isNone) .plain)
      | none => l.stop
  | .unicode high bytes value =>
    let value := do pure ((← value) * 16 + (← hexValue? c))
    let bytes := bytes + c.utf8Size
    if bytes < 4 then l.enter (.string text sound (.unicode high bytes value))
    else
      match value with
      | some n => l.addUnit text sound high n
      | none => l.stop

def step (l : Lexer) (c : Char) : Lexer :=
  match l.mode with
  | .between => l.first c
  | .word left token => l.inWord left token c
  | .number part n => l.inNumber part n c
  | .string text sound part => l.inString text sound part c
  | .stopped => l

/-- All tokens, in order, once the text has ended. -/
def finish (l : Lexer) : List Token :=
  match l.mode with
  | .between | .stopped => l.tokens.reverse
  | .word _ _ => (.fault .insideWord :: l.tokens).reverse
  | .number part n =>
    ((if part.isComplete then .number n.value? else .fault .insideNumber) :: l.tokens).reverse
  | .string _ sound _ => (.fault (.insideString sound) :: l.tokens).reverse

end Lexer

def tokens (text : List Char) : List Token := (text.foldl Lexer.step Lexer.start).finish

end ServiceLang.Json
