import ServiceLang.Proofs.Json.Lexing

/-!
# Spellings of tokens

A token can be written in many ways: a character of a string as it is or escaped by its letter or by
its number, a number with a fraction and an exponent. The lexer reads each spelling as the token. A
string that holds half of a surrogate pair and a number that is too large are spelled as well; they
are tokens without a value.
-/

namespace ServiceLang.Json

open Lexer

/-- One or more digits. -/
structure DigitText where
  chars : List Char
  nonempty : chars ≠ []
  digits : ∀ c ∈ chars, c.isDigit = true

/-- The exponent of a number, with whether a sign is written and whether that is a minus. -/
structure ExponentText where
  letter : Char
  isLetter : letter = 'e' ∨ letter = 'E'
  sign : Option Bool
  digits : DigitText

/-- A number as JSON allows it. -/
structure NumberText where
  negative : Bool
  whole : DigitText
  noLeadingZero : whole.chars.head? = some '0' → whole.chars = ['0']
  fraction : Option DigitText
  exponent : Option ExponentText

namespace DigitText

def numerals (t : DigitText) : List Nat := t.chars.map digit

end DigitText

namespace ExponentText

def signChars : Option Bool → List Char
  | none => []
  | some false => ['+']
  | some true => ['-']

def chars (t : ExponentText) : List Char := t.letter :: (signChars t.sign ++ t.digits.chars)

def value (t : ExponentText) : Bool × Nat :=
  (t.sign == some true, t.digits.numerals.foldl (fun v d => v * 10 + d) 0)

end ExponentText

namespace NumberText

def signChars (negative : Bool) : List Char := if negative then ['-'] else []

def fractionChars : Option DigitText → List Char
  | none => []
  | some digits => '.' :: digits.chars

def exponentChars : Option ExponentText → List Char
  | none => []
  | some e => e.chars

def chars (t : NumberText) : List Char :=
  signChars t.negative ++ (t.whole.chars ++ (fractionChars t.fraction ++ exponentChars t.exponent))

def numeral (t : NumberText) : Numeral where
  negative := t.negative
  whole := t.whole.numerals.reverse
  fraction := t.fraction.map fun digits => digits.numerals.reverse
  exponent := t.exponent.map ExponentText.value

end NumberText

/-- What is read of a string: a character, or the number of a character or of half a pair. -/
inductive Piece where
  | char (c : Char)
  | code (n : Nat)

/-- A unit of a string: a character as it is, or an escape by letter or by number. -/
inductive UnitText : Piece → List Char → Prop
  | plain {c : Char} (noQuote : c ≠ '"') (noBackslash : c ≠ '\\') (noControl : 32 ≤ c.toNat) :
    UnitText (.char c) [c]
  | letter {l c : Char} (known : unescape? l = some c) : UnitText (.char c) ['\\', l]
  | number {a b c d : Char} {h i j k : Nat} (first : hexValue? a = some h)
    (second : hexValue? b = some i) (third : hexValue? c = some j) (fourth : hexValue? d = some k) :
    UnitText (.code (((h * 16 + i) * 16 + j) * 16 + k)) ['\\', 'u', a, b, c, d]

inductive StringText : List Piece → List Char → Prop
  | nil : StringText [] []
  | cons {p : Piece} {ps : List Piece} {unit cs : List Char} (first : UnitText p unit)
    (rest : StringText ps cs) : StringText (p :: ps) (unit ++ cs)

/-- The character of a surrogate pair. -/
def pairChar (high low : Nat) : Char :=
  Char.ofNat (0x10000 + (high - 0xD800) * 0x400 + (low - 0xDC00))

/-- The characters that pieces stand for. Half a surrogate pair stands for nothing alone. -/
def decode : List Piece → Option (List Char)
  | [] => some []
  | .char c :: ps => (decode ps).map (c :: ·)
  | .code n :: ps =>
    if isLow n then none
    else if isHigh n then
      match ps with
      | .code m :: ps => if isLow m then (decode ps).map (pairChar n m :: ·) else none
      | _ => none
    else (decode ps).map (Char.ofNat n :: ·)

/-- What characters a token can be written with. -/
inductive Token.Spelled : Token → List Char → Prop
  | beginObject : Spelled .beginObject ['\x7b']
  | endObject : Spelled .endObject ['\x7d']
  | beginArray : Spelled .beginArray ['[']
  | endArray : Spelled .endArray [']']
  | comma : Spelled .comma [',']
  | colon : Spelled .colon [':']
  | null : Spelled .null ['n', 'u', 'l', 'l']
  | isTrue : Spelled (.bool true) ['t', 'r', 'u', 'e']
  | isFalse : Spelled (.bool false) ['f', 'a', 'l', 's', 'e']
  | integer {i : Int} (low : Int64.minValue.toInt ≤ i) (high : i < UInt64.size) :
    Spelled (.number (some (.integer i))) (Digits.decimalInt i)
  | number (t : NumberText) : Spelled (.number t.numeral.value?) t.chars
  | string {ps : List Piece} {cs : List Char} (text : StringText ps cs) :
    Spelled (.string ((decode ps).map String.ofList)) ('"' :: (cs ++ ['"']))

namespace Lexer

section Numbers

variable {ts : List Token}

/-- Digits that leave the lexer in the same part of a numeral. -/
theorem foldl_run {part : NumeralPart} {add : Numeral → Char → Numeral}
    (stay : ∀ n c, c.isDigit = true →
      step ⟨ts, .number part n⟩ c = ⟨ts, .number part (add n c)⟩) {cs : List Char}
    (digits : ∀ c ∈ cs, c.isDigit = true) (n : Numeral) :
    cs.foldl step ⟨ts, .number part n⟩ = ⟨ts, .number part (cs.foldl add n)⟩ := by
  induction cs generalizing n with
  | nil => rfl
  | cons c cs ih =>
    rw [List.foldl_cons, stay n c (digits c List.mem_cons_self), List.foldl_cons]
    exact ih (fun d member => digits d (List.mem_cons_of_mem c member)) (add n c)

/-- Digits of which the first one begins a part of a numeral. -/
theorem foldl_digits {part next : NumeralPart} {add : Numeral → Char → Numeral}
    (enter : ∀ n c, c.isDigit = true →
      step ⟨ts, .number part n⟩ c = ⟨ts, .number next (add n c)⟩)
    (stay : ∀ n c, c.isDigit = true →
      step ⟨ts, .number next n⟩ c = ⟨ts, .number next (add n c)⟩) (t : DigitText) (n : Numeral) :
    t.chars.foldl step ⟨ts, .number part n⟩ = ⟨ts, .number next (t.chars.foldl add n)⟩ := by
  obtain ⟨chars, nonempty, digits⟩ := t
  cases chars with
  | nil => exact absurd rfl nonempty
  | cons c cs =>
    rw [List.foldl_cons, enter n c (digits c List.mem_cons_self), List.foldl_cons]
    exact foldl_run stay (fun d member => digits d (List.mem_cons_of_mem c member)) (add n c)

/-- Digits in front of the point are collected from last to first. -/
theorem foldl_addWhole (cs : List Char) (b : Bool) (ds : List Nat) (f : Option (List Nat))
    (e : Option (Bool × Nat)) :
    cs.foldl addWhole ⟨b, ds, f, e⟩ = ⟨b, (cs.map digit).reverse ++ ds, f, e⟩ := by
  induction cs generalizing ds with
  | nil => rfl
  | cons c cs ih =>
    rw [List.foldl_cons]
    change cs.foldl addWhole ⟨b, digit c :: ds, f, e⟩ = _
    simp [ih]

theorem foldl_addFraction (cs : List Char) (b : Bool) (w ds : List Nat)
    (e : Option (Bool × Nat)) :
    cs.foldl addFraction ⟨b, w, some ds, e⟩ = ⟨b, w, some ((cs.map digit).reverse ++ ds), e⟩ := by
  induction cs generalizing ds with
  | nil => rfl
  | cons c cs ih =>
    rw [List.foldl_cons]
    change cs.foldl addFraction ⟨b, w, some (digit c :: ds), e⟩ = _
    simp [ih]

theorem foldl_addExponent (cs : List Char) (b : Bool) (w : List Nat) (f : Option (List Nat))
    (negative : Bool) (v : Nat) :
    cs.foldl addExponent ⟨b, w, f, some (negative, v)⟩ =
      ⟨b, w, f, some (negative, (cs.map digit).foldl (fun v d => v * 10 + d) v)⟩ := by
  induction cs generalizing v with
  | nil => rfl
  | cons c cs ih =>
    rw [List.foldl_cons]
    change cs.foldl addExponent ⟨b, w, f, some (negative, v * 10 + digit c)⟩ = _
    simp [ih]

theorem step_whole (n : Numeral) (c : Char) (isDigit : c.isDigit = true) :
    step ⟨ts, .number .whole n⟩ c = ⟨ts, .number .whole (addWhole n c)⟩ := by
  simp only [step, inNumber, isDigit, if_true]
  rfl

theorem step_fraction {part : NumeralPart} (inFraction : part = .point ∨ part = .fraction)
    (n : Numeral) (c : Char) (isDigit : c.isDigit = true) :
    step ⟨ts, .number part n⟩ c = ⟨ts, .number .fraction (addFraction n c)⟩ := by
  rcases inFraction with rfl | rfl
  all_goals
    simp only [step, inNumber, isDigit, if_true]
    rfl

theorem step_exponent {part : NumeralPart}
    (inExponent : part = .mark ∨ part = .markSign ∨ part = .exponent) (n : Numeral) (c : Char)
    (isDigit : c.isDigit = true) :
    step ⟨ts, .number part n⟩ c = ⟨ts, .number .exponent (addExponent n c)⟩ := by
  rcases inExponent with rfl | rfl | rfl
  all_goals
    simp only [step, inNumber, isDigit, if_true]
    rfl

/-- The digits in front of the point, whichever state the first one is read in. -/
theorem foldl_wholePart {l : Lexer} {negative : Bool}
    (start : ∀ c : Char, c.isDigit = true → l.step c =
      ⟨l.tokens, .number (if c = '0' then .zero else .whole) ⟨negative, [digit c], none, none⟩⟩)
    (t : DigitText) (noLeadingZero : t.chars.head? = some '0' → t.chars = ['0']) :
    ∃ part, (part = .zero ∨ part = .whole) ∧
      t.chars.foldl step l =
        ⟨l.tokens, .number part ⟨negative, t.numerals.reverse, none, none⟩⟩ := by
  obtain ⟨chars, nonempty, digits⟩ := t
  cases chars with
  | nil => exact absurd rfl nonempty
  | cons c cs =>
    have first := start c (digits c List.mem_cons_self)
    by_cases zero : c = '0'
    · subst zero
      have alone : cs = [] := List.tail_eq_of_cons_eq (noLeadingZero rfl)
      subst alone
      exact ⟨.zero, .inl rfl, first⟩
    · rw [if_neg zero] at first
      have rest : ∀ d ∈ cs, d.isDigit = true := fun d member =>
        digits d (List.mem_cons_of_mem c member)
      refine ⟨.whole, .inr rfl, ?_⟩
      rw [List.foldl_cons, first, foldl_run step_whole rest, foldl_addWhole]
      simp [DigitText.numerals]

theorem foldl_fractionPart (ts : List Token) {part : NumeralPart}
    (ended : part = .zero ∨ part = .whole) (b : Bool) (w : List Nat) (t : Option DigitText) :
    ∃ next, (next = .zero ∨ next = .whole ∨ next = .fraction) ∧
      (NumberText.fractionChars t).foldl step ⟨ts, .number part ⟨b, w, none, none⟩⟩ =
        ⟨ts, .number next ⟨b, w, t.map fun digits => digits.numerals.reverse, none⟩⟩ := by
  cases t with
  | none =>
    refine ⟨part, ?_, rfl⟩
    rcases ended with rfl | rfl
    · exact .inl rfl
    · exact .inr (.inl rfl)
  | some t =>
    have point : step ⟨ts, .number part ⟨b, w, none, none⟩⟩ '.' =
        ⟨ts, .number .point ⟨b, w, some [], none⟩⟩ := by
      rcases ended with rfl | rfl <;> rfl
    refine ⟨.fraction, .inr (.inr rfl), ?_⟩
    rw [NumberText.fractionChars, List.foldl_cons, point,
      foldl_digits (step_fraction (.inl rfl)) (step_fraction (.inr rfl)), foldl_addFraction,
      List.append_nil]
    rfl

/-- An exponent that may be missing. At its end the number may end. -/
theorem foldl_exponentPart (ts : List Token) {part : NumeralPart}
    (ended : part = .zero ∨ part = .whole ∨ part = .fraction) (b : Bool) (w : List Nat)
    (f : Option (List Nat)) (t : Option ExponentText) :
    ∃ next, next.isComplete = true ∧
      (NumberText.exponentChars t).foldl step ⟨ts, .number part ⟨b, w, f, none⟩⟩ =
        ⟨ts, .number next ⟨b, w, f, t.map ExponentText.value⟩⟩ := by
  cases t with
  | none =>
    refine ⟨part, ?_, rfl⟩
    rcases ended with rfl | rfl | rfl <;> rfl
  | some t =>
    obtain ⟨letter, isLetter, sign, digits⟩ := t
    have mark : step ⟨ts, .number part ⟨b, w, f, none⟩⟩ letter =
        ⟨ts, .number .mark ⟨b, w, f, some (false, 0)⟩⟩ := by
      rcases isLetter with rfl | rfl <;> rcases ended with rfl | rfl | rfl <;> rfl
    have signed : ∃ next, (next = .mark ∨ next = .markSign ∨ next = .exponent) ∧
        (ExponentText.signChars sign).foldl step
            ⟨ts, .number .mark ⟨b, w, f, some (false, 0)⟩⟩ =
          ⟨ts, .number next ⟨b, w, f, some (sign == some true, 0)⟩⟩ := by
      rcases sign with _ | _ | _
      · exact ⟨.mark, .inl rfl, rfl⟩
      · exact ⟨.markSign, .inr (.inl rfl), rfl⟩
      · exact ⟨.markSign, .inr (.inl rfl), rfl⟩
    obtain ⟨next, inExponent, read⟩ := signed
    refine ⟨.exponent, rfl, ?_⟩
    rw [NumberText.exponentChars, ExponentText.chars, List.foldl_cons, mark, List.foldl_append,
      read, foldl_digits (step_exponent inExponent) (step_exponent (.inr (.inr rfl))),
      foldl_addExponent]
    rfl

/-- A whole number as JSON allows it, from its first character on. -/
theorem foldl_number (ts : List Token) (t : NumberText) :
    ∃ part, part.isComplete = true ∧
      t.chars.foldl step ⟨ts, .between⟩ = ⟨ts, .number part t.numeral⟩ := by
  obtain ⟨negative, whole, noLeadingZero, fraction, exponent⟩ := t
  have front : ∃ part, (part = .zero ∨ part = .whole) ∧
      whole.chars.foldl step
          ((NumberText.signChars negative).foldl step ⟨ts, .between⟩) =
        ⟨ts, .number part ⟨negative, whole.numerals.reverse, none, none⟩⟩ := by
    cases negative with
    | false => exact foldl_wholePart (fun c => first_digit ts (c := c)) whole noLeadingZero
    | true => exact foldl_wholePart (fun c => sign_digit ts (c := c)) whole noLeadingZero
  obtain ⟨part, ended, readWhole⟩ := front
  obtain ⟨next, endedNext, readFraction⟩ := foldl_fractionPart ts ended negative
    whole.numerals.reverse fraction
  obtain ⟨last, complete, readExponent⟩ := foldl_exponentPart ts endedNext negative
    whole.numerals.reverse (fraction.map fun digits => digits.numerals.reverse) exponent
  refine ⟨last, complete, ?_⟩
  rw [NumberText.chars, List.foldl_append, List.foldl_append, List.foldl_append, readWhole,
    readFraction, readExponent]
  rfl

end Numbers

section Strings

theorem decode_char (c : Char) (ps : List Piece) :
    decode (.char c :: ps) = (decode ps).map (c :: ·) := by
  rw [decode]

theorem decode_low {n : Nat} (low : isLow n = true) (ps : List Piece) :
    decode (.code n :: ps) = none := by
  rcases ps with _ | ⟨_ | _, _⟩ <;> simp [decode, low]

theorem decode_scalar {n : Nat} (low : isLow n = false) (high : isHigh n = false)
    (ps : List Piece) : decode (.code n :: ps) = (decode ps).map (Char.ofNat n :: ·) := by
  rcases ps with _ | ⟨_ | _, _⟩ <;> simp [decode, low, high]

theorem low_of_high {n : Nat} (high : isHigh n = true) : isLow n = false := by
  simp only [isHigh, isLow, Bool.and_eq_true, decide_eq_true_eq, Bool.and_eq_false_iff,
    decide_eq_false_iff_not] at *
  omega

/-- The two halves of a surrogate pair stand for one character. -/
theorem decode_pair {n m : Nat} (high : isHigh n = true) (low : isLow m = true)
    (ps : List Piece) :
    decode (.code n :: .code m :: ps) = (decode ps).map (pairChar n m :: ·) := by
  simp [decode, low_of_high high, high, low]

/-- The first half of a pair stands for nothing without the second. -/
theorem decode_lone {n : Nat} (high : isHigh n = true) {ps : List Piece}
    (alone : ∀ m rest, ps = .code m :: rest → isLow m = false) :
    decode (.code n :: ps) = none := by
  cases ps with
  | nil => simp [decode, low_of_high high, high]
  | cons p ps =>
    cases p with
    | char c => simp [decode, low_of_high high, high]
    | code m => simp [decode, low_of_high high, high, alone m ps rfl]

/-- The value of a string of which a part has been read, last character first. -/
def stringValue (text : List Char) (sound : Bool) (rest : Option (List Char)) : Option String :=
  if sound then rest.map fun cs => String.ofList (text.reverse ++ cs) else none

/-- A character that has been read is the same in front of the rest as behind the part before it. -/
theorem stringValue_map (text : List Char) (sound : Bool) (c : Char)
    (rest : Option (List Char)) :
    stringValue text sound (rest.map (c :: ·)) = stringValue (c :: text) sound rest := by
  cases sound with
  | false => rfl
  | true => cases rest <;> simp [stringValue]

theorem stringValue_unsound (text : List Char) (rest : Option (List Char)) :
    stringValue text false rest = none := rfl

theorem stringValue_none (text : List Char) (sound : Bool) :
    stringValue text sound none = none := by
  cases sound <;> rfl

variable {ts : List Token} {text : List Char} {sound : Bool}

theorem step_plain {c : Char} (noQuote : c ≠ '"') (noBackslash : c ≠ '\\')
    (noControl : 32 ≤ c.toNat) :
    step ⟨ts, .string text sound .plain⟩ c = ⟨ts, .string (c :: text) sound .plain⟩ := by
  have control : ¬ c.toNat < 32 := by omega
  simp only [step, inString, inPlain, noQuote, noBackslash, control, if_false]
  rfl

theorem step_paired {c : Char} (high : Nat) (noBackslash : c ≠ '\\') :
    step ⟨ts, .string text sound (.paired high)⟩ c = step ⟨ts, .string text false .plain⟩ c := by
  simp only [step, inString, noBackslash, if_false]
  rfl

/-- An escape by letter leaves the half before it alone. -/
theorem step_letter (high : Option Nat) {l c : Char} (known : unescape? l = some c) :
    step ⟨ts, .string text sound (.escape high)⟩ l =
      ⟨ts, .string (c :: text) (sound && high.isNone) .plain⟩ := by
  have other : l ≠ 'u' := by
    rintro rfl
    cases known
  simp only [step, inString, known, other, if_false]
  rfl

/-- A hexadecimal digit is one byte of the text, which is what the lexer counts. -/
theorem utf8Size_of_hexValue? {c : Char} {v : Nat} (known : hexValue? c = some v) :
    c.utf8Size = 1 := by
  have ascii : c.val ≤ 0x7F := by
    unfold hexValue? at known
    split at known
    · next isDigit =>
      simp only [Char.isDigit, Bool.and_eq_true, decide_eq_true_eq] at isDigit
      exact UInt32.le_trans isDigit.2 (by decide)
    split at known
    · next small => exact UInt32.le_trans small.2 (by decide)
    split at known
    · next capital => exact UInt32.le_trans capital.2 (by decide)
    · cases known
  rw [Char.utf8Size]
  exact if_pos ascii

/-- An escape by number, from behind its backslash. -/
theorem foldl_code (high : Option Nat) {a b c d : Char} {h i j k : Nat}
    (first : hexValue? a = some h) (second : hexValue? b = some i) (third : hexValue? c = some j)
    (fourth : hexValue? d = some k) :
    ['u', a, b, c, d].foldl step ⟨ts, .string text sound (.escape high)⟩ =
      addUnit ⟨ts, .between⟩ text sound high (((h * 16 + i) * 16 + j) * 16 + k) := by
  have digit {x : Char} {v : Nat} (known : hexValue? x = some v) (bytes value : Nat)
      (unfinished : bytes + 1 < 4) :
      step ⟨ts, .string text sound (.unicode high bytes (some value))⟩ x =
        ⟨ts, .string text sound (.unicode high (bytes + 1) (some (value * 16 + v)))⟩ := by
    simp only [step, inString, utf8Size_of_hexValue? known, known, unfinished, if_true]
    rfl
  have last (value : Nat) :
      step ⟨ts, .string text sound (.unicode high 3 (some value))⟩ d =
        addUnit ⟨ts, .between⟩ text sound high (value * 16 + k) := by
    have finished : ¬ 3 + 1 < 4 := by decide
    simp only [step, inString, utf8Size_of_hexValue? fourth, fourth, finished, if_false]
    cases high <;> rfl
  simp only [List.foldl_cons, List.foldl_nil]
  change step (step (step (step ⟨ts, .string text sound (.unicode high 0 (some 0))⟩ a) b) c) d = _
  rw [digit first 0 0 (by decide), digit second 1 _ (by decide), digit third 2 _ (by decide), last,
    Nat.zero_mul, Nat.zero_add]

/-- Between two units, maybe behind the first half of a surrogate pair. -/
def waiting : Option Nat → StringPart
  | none => .plain
  | some high => .paired high

/-- A character behind the first half of a surrogate pair leaves that half alone. -/
def takePiece (ts : List Token) (text : List Char) (sound : Bool) (high : Option Nat) :
    Piece → Lexer
  | .char c => ⟨ts, .string (c :: text) (sound && high.isNone) .plain⟩
  | .code n => addUnit ⟨ts, .between⟩ text sound high n

theorem step_backslash (high : Option Nat) :
    step ⟨ts, .string text sound (waiting high)⟩ '\\' =
      ⟨ts, .string text sound (.escape high)⟩ := by
  cases high <;> rfl

theorem foldl_unit {p : Piece} {unit : List Char} (read : UnitText p unit) (high : Option Nat) :
    unit.foldl step ⟨ts, .string text sound (waiting high)⟩ = takePiece ts text sound high p := by
  cases read with
  | plain noQuote noBackslash noControl =>
    cases high with
    | none =>
      rw [takePiece, Option.isNone_none, Bool.and_true]
      exact step_plain noQuote noBackslash noControl
    | some high =>
      rw [takePiece, Option.isNone_some, Bool.and_false]
      exact (step_paired high noBackslash).trans (step_plain noQuote noBackslash noControl)
  | letter known =>
    rw [List.foldl_cons, step_backslash]
    exact step_letter high known
  | number first second third fourth =>
    rw [List.foldl_cons, step_backslash]
    exact foldl_code high first second third fourth

/-- The closing quote ends the string. A half before it is left alone. -/
theorem step_quote (ts : List Token) (text : List Char) (sound : Bool) (high : Option Nat) :
    step ⟨ts, .string text sound (waiting high)⟩ '"' =
      ⟨.string (stringValue text (sound && high.isNone) (some [])) :: ts, .between⟩ := by
  cases high <;> cases sound <;> simp [waiting, step, inString, inPlain, stringValue, emit]

/-- What is read behind the first half of a surrogate pair, or behind anything else. -/
def decodeAfter (high : Option Nat) (ps : List Piece) : Option (List Char) :=
  match high with
  | none => decode ps
  | some h => decode (.code h :: ps)

/-- A piece leaves the lexer between two units, and what is read from there on is the same. -/
theorem takePiece_cases (ts : List Token) (text : List Char) (sound : Bool) {high : Option Nat}
    (isFirst : ∀ h ∈ high, isHigh h = true) (p : Piece) (ps : List Piece) :
    ∃ text' sound' high', (∀ h ∈ high', isHigh h = true) ∧
      takePiece ts text sound high p = ⟨ts, .string text' sound' (waiting high')⟩ ∧
      stringValue text sound (decodeAfter high (p :: ps)) =
        stringValue text' sound' (decodeAfter high' ps) := by
  have nothing : ∀ h ∈ (none : Option Nat), isHigh h = true :=
    fun h member => absurd member (Option.not_mem_none h)
  cases high with
  | none =>
    cases p with
    | char c =>
      refine ⟨c :: text, sound, none, nothing, ?_, ?_⟩
      · simp only [takePiece, Option.isNone_none, Bool.and_true, waiting]
      · simp only [decodeAfter, decode_char, stringValue_map]
    | code n =>
      cases low : isLow n with
      | true =>
        refine ⟨text, false, none, nothing, ?_, ?_⟩
        · simp only [takePiece, addUnit, low, if_true, enter, waiting]
        · simp only [decodeAfter, decode_low low, stringValue_none, stringValue_unsound]
      | false =>
        cases first : isHigh n with
        | true =>
          refine ⟨text, sound, some n, fun h same => Option.some.inj same ▸ first, ?_, rfl⟩
          simp only [takePiece, addUnit, low, first, Bool.false_eq_true, if_true, if_false, enter,
            waiting]
        | false =>
          refine ⟨Char.ofNat n :: text, sound, none, nothing, ?_, ?_⟩
          · simp only [takePiece, addUnit, low, first, Bool.false_eq_true, if_false, enter,
              waiting]
          · simp only [decodeAfter, decode_scalar low first, stringValue_map]
  | some h =>
    have isFirst : isHigh h = true := isFirst h rfl
    cases p with
    | char c =>
      have alone : decode (.code h :: .char c :: ps) = none := by
        refine decode_lone isFirst fun m rest same => ?_
        cases same
      refine ⟨c :: text, false, none, nothing, ?_, ?_⟩
      · simp only [takePiece, Option.isNone_some, Bool.and_false, waiting]
      · simp only [decodeAfter, alone, stringValue_none, stringValue_unsound]
    | code n =>
      cases low : isLow n with
      | true =>
        refine ⟨pairChar h n :: text, sound, none, nothing, ?_, ?_⟩
        · simp only [takePiece, addUnit, low, if_true, enter, waiting, pairChar]
        · simp only [decodeAfter, decode_pair isFirst low, stringValue_map]
      | false =>
        have alone : decode (.code h :: .code n :: ps) = none := by
          refine decode_lone isFirst fun m rest same => ?_
          cases same
          exact low
        refine ⟨text, false, none, nothing, ?_, ?_⟩
        · simp only [takePiece, addUnit, low, Bool.false_eq_true, if_false, enter, waiting]
        · simp only [decodeAfter, alone, stringValue_none, stringValue_unsound]

/-- The rest of a string, maybe behind the first half of a surrogate pair. -/
theorem tokensFrom_stringText {ps : List Piece} {cs : List Char} (units : StringText ps cs)
    (ts : List Token) (text : List Char) (sound : Bool) {high : Option Nat}
    (isFirst : ∀ h ∈ high, isHigh h = true) (rest : List Char) :
    tokensFrom ⟨ts, .string text sound (waiting high)⟩ (cs ++ '"' :: rest) =
      tokensFrom ⟨.string (stringValue text sound (decodeAfter high ps)) :: ts, .between⟩ rest := by
  induction units generalizing text sound high with
  | nil =>
    rw [List.nil_append, tokensFrom_cons, step_quote]
    cases high with
    | none =>
      rw [Option.isNone_none, Bool.and_true]
      rfl
    | some h =>
      have alone : decode [.code h] = none :=
        decode_lone (isFirst h rfl) fun _ _ same => nomatch same
      rw [Option.isNone_some, Bool.and_false, decodeAfter, alone, stringValue_none]
      rfl
  | @cons p ps unit cs first units ih =>
    obtain ⟨text', sound', high', isFirst', taken, same⟩ :=
      takePiece_cases ts text sound isFirst p ps
    rw [List.append_assoc, tokensFrom_append, foldl_unit first, taken, ih text' sound' isFirst',
      same]

end Strings

end Lexer

open Lexer

/-- A token without an end of its own. -/
def Token.isNumber : Token → Bool
  | .number _ => true
  | _ => false

/-- However a token is written, it is what the lexer finds. A number must be followed by something
that ends it. -/
theorem tokensFrom_spelled {t : Token} {word : List Char} (spelled : t.Spelled word)
    (ts : List Token) {cs : List Char} (ends : t.isNumber = true → EndsNumber cs) :
    tokensFrom ⟨ts, .between⟩ (word ++ cs) = tokensFrom ⟨t :: ts, .between⟩ cs := by
  cases spelled with
  | integer low high => exact tokensFrom_decimalInt ts low high (ends rfl)
  | number t =>
    obtain ⟨part, complete, read⟩ := foldl_number ts t
    rw [tokensFrom_append, read, tokensFrom_number complete ts _ (ends rfl)]
  | string text =>
    have nothing : ∀ h ∈ (none : Option Nat), isHigh h = true := fun _ member => nomatch member
    rw [List.cons_append, List.append_assoc, tokensFrom_cons]
    exact tokensFrom_stringText text ts [] true nothing cs
  | _ => rfl

theorem unitText_number {n : Nat} (small : n < 32) :
    UnitText (.code n) ['\\', 'u', '0', '0', Nat.digitChar (n / 16), Nat.digitChar (n % 16)] := by
  have unit : UnitText (.code (((0 * 16 + 0) * 16 + n / 16) * 16 + n % 16))
      ['\\', 'u', '0', '0', Nat.digitChar (n / 16), Nat.digitChar (n % 16)] :=
    .number rfl rfl (hexValue?_digitChar (by omega)) (hexValue?_digitChar (by omega))
  have same : ((0 * 16 + 0) * 16 + n / 16) * 16 + n % 16 = n := by omega
  rw [same] at unit
  exact unit

/-- Each character of a string is written as a unit that stands for it. -/
theorem unitText_escapedChar (c : Char) :
    ∃ p, UnitText p (escapedChar c) ∧ ∀ ps, decode (p :: ps) = (decode ps).map (c :: ·) := by
  rw [escapedChar]
  by_cases marked : c = '"' ∨ c = '\\'
  · rw [if_pos marked]
    refine ⟨.char c, .letter ?_, decode_char c⟩
    rcases marked with rfl | rfl <;> rfl
  rw [if_neg marked]
  obtain ⟨noQuote, noBackslash⟩ := not_or.mp marked
  cases control : controlLetter? c with
  | some letter =>
    refine ⟨.char c, .letter ?_, decode_char c⟩
    unfold controlLetter? at control
    split at control <;> cases control <;> rfl
  | none =>
    by_cases small : c.toNat < 32
    · refine ⟨.code c.toNat, ?_, fun ps => ?_⟩
      · simp only [if_pos small]
        exact unitText_number small
      · have low : isLow c.toNat = false := by
          simp only [isLow, Bool.and_eq_false_iff, decide_eq_false_iff_not]
          omega
        have high : isHigh c.toNat = false := by
          simp only [isHigh, Bool.and_eq_false_iff, decide_eq_false_iff_not]
          omega
        rw [decode_scalar low high, Char.ofNat_toNat]
    · simp only [if_neg small]
      exact ⟨.char c, .plain noQuote noBackslash (by omega), decode_char c⟩

/-- The text that is written for a string is one of those that spell it. -/
theorem stringText_escaped (cs : List Char) :
    ∃ ps, StringText ps (cs.flatMap escapedChar) ∧ decode ps = some cs := by
  induction cs with
  | nil => exact ⟨[], .nil, rfl⟩
  | cons c cs ih =>
    obtain ⟨p, unit, first⟩ := unitText_escapedChar c
    obtain ⟨ps, rest, all⟩ := ih
    refine ⟨p :: ps, ?_, ?_⟩
    · rw [List.flatMap_cons]
      exact .cons unit rest
    · rw [first, all]
      rfl

end ServiceLang.Json
