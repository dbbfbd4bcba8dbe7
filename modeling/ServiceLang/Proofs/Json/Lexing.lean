import ServiceLang.Json.Token
import ServiceLang.Json.Value

/-!
# Reading written tokens

Integers and strings as they are written are read as one token each. A number has no end of its own,
so that what follows has to be something that cannot continue it; a string ends with its quote. Each
character of a string is written as a unit of one, two or six characters, and reading a unit adds
that one character to the string.
-/

namespace ServiceLang.Json

namespace Lexer

/-- All tokens of a text once a lexer has gone through the rest of it. -/
def tokensFrom (l : Lexer) (cs : List Char) : List Token := (cs.foldl step l).finish

theorem tokensFrom_cons (l : Lexer) (c : Char) (cs : List Char) :
    l.tokensFrom (c :: cs) = (l.step c).tokensFrom cs := rfl

theorem tokensFrom_append (l : Lexer) (cs ds : List Char) :
    l.tokensFrom (cs ++ ds) = (cs.foldl step l).tokensFrom ds := by
  rw [tokensFrom, tokensFrom, List.foldl_append]

/-- The text does not begin with anything that a number could go on with. -/
def EndsNumber (cs : List Char) : Prop :=
  ∀ c ∈ cs.head?, c.isDigit = false ∧ c ≠ '.' ∧ c ≠ 'e' ∧ c ≠ 'E'

/-- Characters that cannot continue a number end it. -/
theorem endsNumber_cons {c : Char} (cs : List Char)
    (h : c.isDigit = false ∧ c ≠ '.' ∧ c ≠ 'e' ∧ c ≠ 'E') : EndsNumber (c :: cs) := by
  intro d member
  cases member
  exact h

/-- Once a number may end, whatever cannot continue it ends it. -/
theorem tokensFrom_number {part : NumeralPart} (complete : part.isComplete = true) (ts : List Token)
    (n : Numeral) {cs : List Char} (ends : EndsNumber cs) :
    tokensFrom ⟨ts, .number part n⟩ cs = tokensFrom ⟨.number n.value? :: ts, .between⟩ cs := by
  cases cs with
  | nil =>
    simp only [tokensFrom, List.foldl_nil, finish, complete, if_true]
  | cons c cs =>
    obtain ⟨noDigit, noPoint, noMark, noCapital⟩ := ends c rfl
    have noSign : part ≠ .mark := by
      intro mark
      rw [mark] at complete
      cases complete
    have next : step ⟨ts, .number part n⟩ c = step ⟨.number n.value? :: ts, .between⟩ c := by
      simp only [step, inNumber, noDigit, noPoint, noMark, noCapital, noSign, complete, emit,
        Bool.false_eq_true, false_and, and_false, or_self, if_false, if_true]
    rw [tokensFrom_cons, tokensFrom_cons, next]

theorem first_digit (ts : List Token) {c : Char} (isDigit : c.isDigit = true) :
    step ⟨ts, .between⟩ c =
      ⟨ts, .number (if c = '0' then .zero else .whole) ⟨false, [digit c], none, none⟩⟩ := by
  by_cases zero : c = '0'
  · subst zero
    rfl
  · rw [if_neg zero]
    change first ⟨ts, .between⟩ c = _
    rw [first]
    · rw [if_pos isDigit]
      rfl
    all_goals
      intro other
      subst other
      first | exact zero rfl | cases isDigit

theorem sign_digit (ts : List Token) {c : Char} (isDigit : c.isDigit = true) :
    step ⟨ts, .number .sign ⟨true, [], none, none⟩⟩ c =
      ⟨ts, .number (if c = '0' then .zero else .whole) ⟨true, [digit c], none, none⟩⟩ := by
  change inNumber _ _ _ c = _
  rw [inNumber, if_pos isDigit]
  rfl

/-- Digits without leading zeros are read as a numeral of their value, whichever state the first one
is read in. Only the numeral of zero cannot be continued. -/
theorem foldl_decimal {l : Lexer} {negative : Bool}
    (start : ∀ c : Char, c.isDigit = true → l.step c =
      ⟨l.tokens,
        .number (if c = '0' then .zero else .whole) ⟨negative, [digit c], none, none⟩⟩) (n : Nat) :
    ∃ part digits, (Digits.decimal n).foldl step l =
        ⟨l.tokens, .number part ⟨negative, digits, none, none⟩⟩ ∧
      part.isComplete = true ∧ digits.reverse.foldl (fun v d => v * 10 + d) 0 = n ∧
      (0 < n → part = .whole) := by
  have digit_eq {d : Nat} (small : d < 10) : digit d.digitChar = d :=
    Nat.toNat_digitChar_sub_48_of_lt_ten small
  have isDigit {d : Nat} (small : d < 10) : d.digitChar.isDigit = true := by
    rw [Nat.isDigit_digitChar, decide_eq_true small]
  induction n using Nat.strongRecOn with
  | ind n ih =>
    by_cases single : n < 10
    · refine ⟨if n.digitChar = '0' then .zero else .whole, [n], ?_, ?_, ?_, ?_⟩
      · rw [Digits.decimal, Nat.toDigits_of_lt_base single, List.foldl_cons, List.foldl_nil,
          start _ (isDigit single), digit_eq single]
      · split <;> rfl
      · simp
      · intro positive
        rw [if_neg]
        rw [Nat.digitChar_eq_zero]
        omega
    · have small : n % 10 < 10 := by omega
      obtain ⟨part, digits, read, -, value, unfinished⟩ := ih (n / 10) (by omega)
      have whole : part = .whole := unfinished (by omega)
      refine ⟨.whole, n % 10 :: digits, ?_, rfl, ?_, fun _ => rfl⟩
      · rw [Digits.decimal] at read
        rw [Digits.decimal, Nat.toDigits_of_base_le (by decide) (by omega), List.foldl_append, read,
          whole, List.foldl_cons, List.foldl_nil]
        change inNumber _ _ _ _ = _
        rw [inNumber, if_pos (isDigit small)]
        simp only [addWhole, digit_eq small, enter]
      · rw [List.reverse_cons, List.foldl_append, value, List.foldl_cons, List.foldl_nil]
        omega

/-- A numeral without a sign is its digits, if they fit a word. -/
theorem value?_natural {digits : List Nat} {n : Nat}
    (value : digits.reverse.foldl (fun v d => v * 10 + d) 0 = n) (small : n < UInt64.size) :
    Numeral.value? ⟨false, digits, none, none⟩ = some (.integer n) := by
  have whole : Numeral.wholeValue ⟨false, digits, none, none⟩ = n := value
  rw [Numeral.value?, whole]
  exact (if_pos ⟨rfl, rfl⟩).trans (if_pos ⟨rfl, small⟩)

/-- A numeral with a sign is a negative integer, if a signed word holds it. -/
theorem value?_negative {digits : List Nat} {n : Nat}
    (value : digits.reverse.foldl (fun v d => v * 10 + d) 0 = n) (positive : 0 < n)
    (low : Int64.minValue.toInt ≤ -(n : Int)) :
    Numeral.value? ⟨true, digits, none, none⟩ = some (.integer (-(n : Int))) := by
  have whole : Numeral.wholeValue ⟨true, digits, none, none⟩ = n := value
  have signed : ¬ (true = false ∧ n < UInt64.size) := fun h => Bool.noConfusion h.1
  rw [Numeral.value?, whole]
  exact (if_pos ⟨rfl, rfl⟩).trans ((if_neg signed).trans (if_pos ⟨rfl, positive, low⟩))

/-- An integer of at most 64 bits is read as it is written. -/
theorem tokensFrom_decimalInt (ts : List Token) {i : Int} (low : Int64.minValue.toInt ≤ i)
    (high : i < UInt64.size) {cs : List Char} (ends : EndsNumber cs) :
    tokensFrom ⟨ts, .between⟩ (Digits.decimalInt i ++ cs) =
      tokensFrom ⟨.number (some (.integer i)) :: ts, .between⟩ cs := by
  rw [Digits.decimalInt]
  by_cases negative : i < 0
  · have size : -(i.natAbs : Int) = i := by omega
    obtain ⟨part, digits, read, complete, value, -⟩ :=
      foldl_decimal (fun c => sign_digit ts (c := c)) i.natAbs
    have number := value?_negative value (by omega) (by omega)
    have sign : step ⟨ts, .between⟩ '-' = ⟨ts, .number .sign ⟨true, [], none, none⟩⟩ := rfl
    rw [if_pos negative, List.cons_append, tokensFrom_cons, sign, tokensFrom_append, read,
      tokensFrom_number complete ts _ ends, number, size]
  · have size : (i.natAbs : Int) = i := by omega
    obtain ⟨part, digits, read, complete, value, -⟩ :=
      foldl_decimal (fun c => first_digit ts (c := c)) i.natAbs
    have small : i.natAbs < UInt64.size := by omega
    have number := value?_natural value small
    rw [if_neg negative, tokensFrom_append, read, tokensFrom_number complete ts _ ends, number,
      size]

theorem hexValue?_digitChar {d : Nat} (small : d < 16) : hexValue? d.digitChar = some d := by
  revert small
  revert d
  decide

theorem utf8Size_digitChar {d : Nat} (small : d < 16) : d.digitChar.utf8Size = 1 := by
  revert small
  revert d
  decide

theorem step_unicode (ts : List Token) (text : List Char) {bytes value d : Nat} (small : d < 16)
    (unfinished : bytes + 1 < 4) :
    step ⟨ts, .string text true (.unicode none bytes (some value))⟩ d.digitChar =
      ⟨ts, .string text true (.unicode none (bytes + 1) (some (value * 16 + d)))⟩ := by
  simp only [step, inString, hexValue?_digitChar small, utf8Size_digitChar small, unfinished,
    if_true]
  rfl

/-- The last digit of a number that is no surrogate. -/
theorem step_unicode_last (ts : List Token) (text : List Char) {value d : Nat} (small : d < 16)
    (plain : value * 16 + d < 0xD800) :
    step ⟨ts, .string text true (.unicode none 3 (some value))⟩ d.digitChar =
      ⟨ts, .string (Char.ofNat (value * 16 + d) :: text) true .plain⟩ := by
  have finished : ¬ 3 + 1 < 4 := by omega
  have notLow : isLow (value * 16 + d) = false := by
    simp only [isLow, Bool.and_eq_false_iff, decide_eq_false_iff_not]
    omega
  have notHigh : isHigh (value * 16 + d) = false := by
    simp only [isHigh, Bool.and_eq_false_iff, decide_eq_false_iff_not]
    omega
  simp only [step, inString, hexValue?_digitChar small, utf8Size_digitChar small, finished,
    if_false]
  change addUnit _ text true none (value * 16 + d) = _
  rw [addUnit, notLow, notHigh]
  rfl

/-- The unit that is written for a character is read as that character. -/
theorem foldl_escapedChar (ts : List Token) (text : List Char) (c : Char) :
    (escapedChar c).foldl step ⟨ts, .string text true .plain⟩ =
      ⟨ts, .string (c :: text) true .plain⟩ := by
  rw [escapedChar]
  by_cases marked : c = '"' ∨ c = '\\'
  · rw [if_pos marked]
    rcases marked with rfl | rfl
    · rfl
    · rfl
  rw [if_neg marked]
  cases control : controlLetter? c with
  | some letter =>
    unfold controlLetter? at control
    split at control <;> cases control <;> rfl
  | none =>
    simp only
    by_cases low : c.toNat < 32
    · have high4 : c.toNat / 16 < 16 := by omega
      have low4 : c.toNat % 16 < 16 := by omega
      have together : (0 * 16 + c.toNat / 16) * 16 + c.toNat % 16 = c.toNat := by omega
      have zero : '0' = Nat.digitChar 0 := rfl
      rw [if_pos low]
      change ['0', '0', _, _].foldl step ⟨ts, .string text true (.unicode none 0 (some 0))⟩ = _
      simp only [List.foldl_cons, List.foldl_nil, zero]
      rw [step_unicode ts text (by omega) (by omega), step_unicode ts text (by omega) (by omega),
        step_unicode ts text high4 (by omega), step_unicode_last ts text low4 (by omega), together,
        Char.ofNat_toNat]
    · have quote : c ≠ '"' := fun same => marked (Or.inl same)
      have backslash : c ≠ '\\' := fun same => marked (Or.inr same)
      rw [if_neg low, List.foldl_cons, List.foldl_nil]
      change inPlain _ text true c = _
      rw [inPlain, if_neg quote, if_neg backslash, if_neg low]
      rfl

theorem foldl_escaped (ts : List Token) (cs text : List Char) :
    (cs.flatMap escapedChar).foldl step ⟨ts, .string text true .plain⟩ =
      ⟨ts, .string (cs.reverse ++ text) true .plain⟩ := by
  induction cs generalizing text with
  | nil => rfl
  | cons c cs ih =>
    rw [List.flatMap_cons, List.foldl_append, foldl_escapedChar, ih, List.reverse_cons,
      List.append_assoc]
    rfl

/-- A string between quotes is one token. -/
theorem tokensFrom_string (ts : List Token) (s : String) (cs : List Char) :
    tokensFrom ⟨ts, .between⟩ (writeString s cs) =
      tokensFrom ⟨.string (some s) :: ts, .between⟩ cs := by
  have quote (text : List Char) : step ⟨ts, .string text true .plain⟩ '"' =
      ⟨.string (some (String.ofList text.reverse)) :: ts, .between⟩ := rfl
  rw [writeString, tokensFrom_cons]
  change tokensFrom ⟨ts, .string [] true .plain⟩ _ = _
  rw [tokensFrom_append, foldl_escaped, tokensFrom_cons, quote, List.append_nil,
    List.reverse_reverse, String.ofList_toList]

end Lexer

end ServiceLang.Json
