import ServiceLang.Proofs.Number.Rounding
import ServiceLang.Proofs.Semantic.Literal

/-!
# Grammar of floating point literals

Which texts are floating point literals and what they denote. A text has digits with at most one
point among or around them, an exponent if any, and a sign if any. It denotes a decimal, and it is
read as the nearest number to that unless the decimal is too large for a finite one. Of an exponent
of more than five digits only the first ones are held. No text with up to 65000 characters
shows that: what such an exponent denotes is beyond all finite numbers or next to zero either way.
-/

namespace ServiceLang

namespace Digits

theorem isDigit_of_value?_ten {c : Char} {d : Nat} (read : value? 10 c = some d) :
    c.isDigit = true := by
  have ends : '0'.toNat = 48 ∧ '9'.toNat = 57 := ⟨rfl, rfl⟩
  rw [Char.isDigit_iff_toNat, ends.1, ends.2]
  by_contra other
  have below := (Option.ite_none_right_eq_some.mp read).1
  rw [if_neg other] at below
  split_ifs at below <;> omega

theorem isDigit_of_natural?_ten {sofar n : Nat} {cs : List Char}
    (read : natural? 10 sofar cs = some n) : ∀ c ∈ cs, c.isDigit = true := by
  induction cs generalizing sofar with
  | nil => exact fun _ member => absurd member List.not_mem_nil
  | cons c cs ih =>
    obtain ⟨d, first, rest⟩ := Option.bind_eq_some_iff.mp read
    intro e member
    rcases List.mem_cons.mp member with rfl | member
    · exact isDigit_of_value?_ten first
    · exact ih rest e member

/-- Decimal numbers in terms of the standard library's digits. -/
theorem unsigned_ten_iff (cs : List Char) (n : Nat) :
    Unsigned 10 cs n ↔
      cs ≠ [] ∧ (∀ c ∈ cs, c.isDigit = true) ∧ Nat.ofDigitChars 10 cs 0 = n := by
  rw [← unsigned?_eq_some_iff (by decide)]
  constructor
  · intro read
    have some : cs ≠ [] := by
      rintro rfl
      cases read
    rw [unsigned?] at read
    · have digits := isDigit_of_natural?_ten read
      rw [natural?_digits digits] at read
      exact ⟨some, digits, Option.some.inj read⟩
    · exact some
  · rintro ⟨some, digits, rfl⟩
    rw [unsigned?]
    · exact natural?_digits digits 0
    · exact some

end Digits

namespace Semantic.Literal

open Digits

/-- What is held of the number that the digits of an exponent form: its first digits, up to the one
that reaches the bound. -/
def held (n : Nat) : Nat := if n / 10 < exponentBound then n else held (n / 10)
termination_by n
decreasing_by
  simp only [exponentBound] at *
  omega

/-- What is held of an exponent. -/
def heldExponent (e : Int) : Int := if e < 0 then -(held e.natAbs : Int) else held e.natAbs

theorem held_of_small {n : Nat} (small : n / 10 < exponentBound) : held n = n := by
  rw [held, if_pos small]

theorem held_zero : held 0 = 0 := held_of_small (by decide)

/-- A number from the bound on is still from the bound on when its last digits are left out. -/
theorem held_lt_bound_iff (n : Nat) : held n < exponentBound ↔ n < exponentBound := by
  fun_induction held n with
  | case1 n small => exact Iff.rfl
  | case2 n large ih =>
    rw [ih]
    omega

/-- One more digit is taken in while the number is below the bound, and dropped from there on. -/
theorem held_append (n : Nat) {d : Nat} (digit : d < 10) :
    held (10 * n + d) = if held n < exponentBound then 10 * n + d else held n := by
  have front : (10 * n + d) / 10 = n := by omega
  rw [held, front]
  by_cases small : n < exponentBound
  · rw [if_pos small, if_pos ((held_lt_bound_iff n).mpr small)]
  · rw [if_neg small, if_neg (mt (held_lt_bound_iff n).mp small)]

/-- Reading the digits of an exponent one at a time holds the number they form. -/
theorem foldl_extendExponent {ds : List Char} (digits : ∀ c ∈ ds, c.isDigit = true) (n : Nat) :
    ds.foldl extendExponent (held n) = held (Nat.ofDigitChars 10 ds n) := by
  induction ds generalizing n with
  | nil => rfl
  | cons c ds ih =>
    have range : 48 ≤ c.toNat ∧ c.toNat ≤ 57 :=
      Char.isDigit_iff_toNat.mp (digits c List.mem_cons_self)
    have zero : '0'.toNat = 48 := rfl
    have step : extendExponent (held n) c = held (10 * n + (c.toNat - 48)) := by
      rw [held_append n (by omega), extendExponent]
      by_cases small : held n < exponentBound
      · have all : held n = n := held_of_small (by rw [held_lt_bound_iff] at small; omega)
        rw [if_pos small, if_pos small, all, Nat.mul_comm]
      · rw [if_neg small, if_neg small]
    rw [List.foldl_cons, step, ih fun d member => digits d (List.mem_cons_of_mem c member),
      Nat.ofDigitChars_cons, zero]

/-- What is held of digits behind the sign of an exponent. -/
def digits? (ds : List Char) : Option Nat :=
  if ds ≠ [] ∧ ds.all Char.isDigit then some (ds.foldl extendExponent 0) else none

/-- The digits are read as what is held of their number. -/
theorem digits?_eq_some_iff (ds : List Char) (h : Nat) :
    digits? ds = some h ↔ ∃ n, Unsigned 10 ds n ∧ held n = h := by
  simp only [digits?, unsigned_ten_iff, Option.ite_none_right_eq_some, List.all_eq_true,
    Option.some.injEq]
  constructor
  · rintro ⟨⟨some, digits⟩, rfl⟩
    refine ⟨_, ⟨some, digits, rfl⟩, ?_⟩
    rw [← foldl_extendExponent digits, held_zero]
  · rintro ⟨n, ⟨some, digits, rfl⟩, rfl⟩
    refine ⟨⟨some, digits⟩, ?_⟩
    rw [← foldl_extendExponent digits, held_zero]

theorem heldExponent_natCast (n : Nat) : heldExponent n = held n := by
  rw [heldExponent, if_neg (by omega), Int.natAbs_natCast]

theorem heldExponent_neg (n : Nat) : heldExponent (-n) = -held n := by
  rw [heldExponent, Int.natAbs_neg, Int.natAbs_natCast]
  by_cases none : n = 0
  · rw [none, held_zero, if_neg (by decide), Int.natCast_zero, Int.neg_zero]
  · rw [if_pos (by omega)]

/-- An exponent of few digits is held as it is. -/
theorem heldExponent_of_small {e : Int} (small : e.natAbs / 10 < exponentBound) :
    heldExponent e = e := by
  rw [heldExponent, held_of_small small]
  split <;> omega

theorem exponent?_eq (text : List Char) :
    exponent? text = match text with
      | '-' :: ds => (digits? ds).map fun n => -(n : Int)
      | '+' :: ds => (digits? ds).map fun n => (n : Int)
      | ds => (digits? ds).map fun n => (n : Int) := rfl

theorem exponent?_minus (ds : List Char) :
    exponent? ('-' :: ds) = (digits? ds).map fun n => -(n : Int) := rfl

theorem exponent?_plus (ds : List Char) :
    exponent? ('+' :: ds) = (digits? ds).map fun n => (n : Int) := rfl

/-- An exponent is read as what is held of the number that its text denotes. -/
theorem exponent?_eq_some_iff (text : List Char) (i : Int) :
    exponent? text = some i ↔ ∃ e, Signed 10 text e ∧ heldExponent e = i := by
  constructor
  · intro read
    rw [exponent?_eq] at read
    split at read
    · obtain ⟨h, found, rfl⟩ := exists_of_map_cast read
      obtain ⟨n, number, rfl⟩ := (digits?_eq_some_iff _ h).mp found
      exact ⟨_, .minus number, heldExponent_neg n⟩
    · obtain ⟨h, found, rfl⟩ := exists_of_map_cast read
      obtain ⟨n, number, rfl⟩ := (digits?_eq_some_iff _ h).mp found
      exact ⟨_, .plus number, heldExponent_natCast n⟩
    · obtain ⟨h, found, rfl⟩ := exists_of_map_cast read
      obtain ⟨n, number, rfl⟩ := (digits?_eq_some_iff _ h).mp found
      exact ⟨_, .bare number, heldExponent_natCast n⟩
  · rintro ⟨e, written, rfl⟩
    cases written with
    | bare number =>
      rw [exponent?_eq]
      split
      · exact absurd rfl (number.ne_cons (.inl rfl))
      · exact absurd rfl (number.ne_cons (.inr rfl))
      · rw [(digits?_eq_some_iff _ _).mpr ⟨_, number, rfl⟩, heldExponent_natCast]
        rfl
    | plus number =>
      rw [exponent?_plus, (digits?_eq_some_iff _ _).mpr ⟨_, number, rfl⟩, heldExponent_natCast]
      rfl
    | minus number =>
      rw [exponent?_minus, (digits?_eq_some_iff _ _).mpr ⟨_, number, rfl⟩, heldExponent_neg]
      rfl

/-- Digits with at most one point among or around them, the number that they form without it and
how many of them stand behind it. -/
inductive Mantissa : List Char → Nat → Nat → Prop where
  | whole {digits : List Char} {n : Nat} (number : Unsigned 10 digits n) : Mantissa digits n 0
  | pointed {whole fraction : List Char} {n : Nat} (number : Unsigned 10 (whole ++ fraction) n) :
      Mantissa (whole ++ '.' :: fraction) n fraction.length

/-- What may stand behind the digits, with its exponent. -/
inductive Exponent : List Char → Int → Prop where
  | absent : Exponent [] 0
  | written {mark : Char} {text : List Char} {e : Int} (marked : mark = 'e' ∨ mark = 'E')
      (number : Signed 10 text e) : Exponent (mark :: text) e

/-- The text is an unsigned literal that denotes `n * 10 ^ (e - places)`. -/
inductive IsDecimal : List Char → Nat → Nat → Int → Prop where
  | mk {front tail : List Char} {n places : Nat} {e : Int} (mantissa : Mantissa front n places)
      (exponent : Exponent tail e) : IsDecimal (front ++ tail) n places e

/-- What is held of an exponent that may be absent. -/
def tail? : List Char → Option Int
  | [] => some 0
  | mark :: text => if mark == 'e' || mark == 'E' then exponent? text else none

theorem tail?_eq_some_iff (tail : List Char) (i : Int) :
    tail? tail = some i ↔ ∃ e, Exponent tail e ∧ heldExponent e = i := by
  cases tail with
  | nil =>
    constructor
    · intro read
      exact ⟨0, .absent, (heldExponent_of_small (by decide)).trans (Option.some.inj read)⟩
    · rintro ⟨e, _ | _, rfl⟩
      rw [heldExponent_of_small (by decide)]
      rfl
  | cons mark text =>
    rw [tail?, Option.ite_none_right_eq_some, exponent?_eq_some_iff]
    simp only [Bool.or_eq_true, beq_iff_eq]
    constructor
    · rintro ⟨marked, e, number, rfl⟩
      exact ⟨e, .written marked number, rfl⟩
    · rintro ⟨e, _ | ⟨marked, number⟩, rfl⟩
      exact ⟨marked, e, number, rfl⟩

/-- With a point behind the first digits. -/
theorem size?_pointed {text rest : List Char}
    (pointed : text.dropWhile Char.isDigit = '.' :: rest) :
    size? text = (do
      let n ← unsigned? 10 (text.takeWhile Char.isDigit ++ rest.takeWhile Char.isDigit)
      let i ← tail? (rest.dropWhile Char.isDigit)
      pure (Binary64.ofDecimal n (i - ((rest.takeWhile Char.isDigit).length : Int)))) := by
  unfold size?
  simp only [pointed]
  rfl

/-- Without a point behind the first digits. -/
theorem size?_whole {text : List Char}
    (whole : ∀ rest, text.dropWhile Char.isDigit ≠ '.' :: rest) :
    size? text = (do
      let n ← unsigned? 10 (text.takeWhile Char.isDigit)
      let i ← tail? (text.dropWhile Char.isDigit)
      pure (Binary64.ofDecimal n i)) := by
  unfold size?
  cases rest : text.dropWhile Char.isDigit with
  | nil =>
    simp only [List.append_nil, List.length_nil, Int.natCast_zero, Int.sub_zero]
    rfl
  | cons c tail =>
    have other : c ≠ '.' := fun same => whole tail (by rw [rest, same])
    simp only [List.cons.injEq, other, false_and, imp_self, implies_true, List.append_nil,
      List.length_nil, Nat.cast_zero, Int.sub_zero]
    rfl

/-- Digits in front of something else are told apart from it. -/
theorem span_digits {ds : List Char} (digits : ∀ c ∈ ds, c.isDigit = true) (rest : List Char)
    (stop : ∀ c ∈ rest.head?, c.isDigit = false) :
    (ds ++ rest).takeWhile Char.isDigit = ds ∧ (ds ++ rest).dropWhile Char.isDigit = rest := by
  have front : rest.takeWhile Char.isDigit = [] ∧ rest.dropWhile Char.isDigit = rest := by
    cases rest with
    | nil => exact ⟨rfl, rfl⟩
    | cons c rest =>
      have other := stop c rfl
      exact ⟨List.takeWhile_cons_of_neg (by rw [other]; decide),
        List.dropWhile_cons_of_neg (by rw [other]; decide)⟩
  rw [List.takeWhile_append_of_pos digits, List.dropWhile_append_of_pos digits, front.1, front.2,
    List.append_nil]
  exact ⟨rfl, rfl⟩

/-- An exponent begins with neither a digit nor a point, so the digits before it end there. -/
theorem Exponent.stops {tail : List Char} {e : Int} (exponent : Exponent tail e) :
    ∀ c ∈ tail.head?, c.isDigit = false ∧ c ≠ '.' := by
  cases exponent with
  | absent => exact fun c member => by cases member
  | written marked _ =>
    rintro c ⟨⟩
    rcases marked with rfl | rfl <;> decide

/-- Nothing but an unsigned literal is read: the point and the exponent are found where they are
looked for. -/
theorem isDecimal_of_size? {text : List Char} {x : Binary64} (read : size? text = some x) :
    ∃ n places e, IsDecimal text n places e ∧
      Binary64.ofDecimal n (heldExponent e - places) = x := by
  have whole := List.takeWhile_append_dropWhile (p := Char.isDigit) (l := text)
  by_cases pointed : ∃ rest, text.dropWhile Char.isDigit = '.' :: rest
  · obtain ⟨rest, pointed⟩ := pointed
    rw [size?_pointed pointed] at read
    obtain ⟨n, number, read⟩ := Option.bind_eq_some_iff.mp read
    obtain ⟨i, held, made⟩ := Option.bind_eq_some_iff.mp read
    obtain ⟨e, exponent, rfl⟩ := (tail?_eq_some_iff _ i).mp held
    have decimal := IsDecimal.mk
      (.pointed ((unsigned?_eq_some_iff (by decide) _ n).mp number)) exponent
    rw [List.append_assoc, List.cons_append, List.takeWhile_append_dropWhile, ← pointed,
      whole] at decimal
    exact ⟨n, _, e, decimal, Option.some.inj made⟩
  · rw [size?_whole fun rest pointed' => pointed ⟨rest, pointed'⟩] at read
    obtain ⟨n, number, read⟩ := Option.bind_eq_some_iff.mp read
    obtain ⟨i, held, made⟩ := Option.bind_eq_some_iff.mp read
    obtain ⟨e, exponent, rfl⟩ := (tail?_eq_some_iff _ i).mp held
    have decimal := IsDecimal.mk
      (.whole ((unsigned?_eq_some_iff (by decide) _ n).mp number)) exponent
    rw [whole] at decimal
    refine ⟨n, 0, e, decimal, ?_⟩
    rw [Int.natCast_zero, Int.sub_zero]
    exact Option.some.inj made

/-- Every unsigned literal is read: its digits end where the point or the exponent begins. -/
theorem size?_of_isDecimal {text : List Char} {n places : Nat} {e : Int}
    (decimal : IsDecimal text n places e) :
    size? text = some (Binary64.ofDecimal n (heldExponent e - places)) := by
  obtain ⟨mantissa, exponent⟩ := decimal
  have held := (tail?_eq_some_iff _ _).mpr ⟨e, exponent, rfl⟩
  cases mantissa with
  | whole number =>
    have digits := ((unsigned_ten_iff _ n).mp number).2.1
    obtain ⟨taken, dropped⟩ := span_digits digits _ fun c first => (exponent.stops c first).1
    rw [size?_whole, taken, dropped, held, (unsigned?_eq_some_iff (by decide) _ n).mpr number]
    · rw [Int.natCast_zero, Int.sub_zero]
      rfl
    · intro rest pointed
      rw [dropped] at pointed
      exact (exponent.stops '.' (by rw [pointed]; rfl)).2 rfl
  | pointed number =>
    rename_i before after
    have digits := ((unsigned_ten_iff _ n).mp number).2.1
    obtain ⟨taken, dropped⟩ := span_digits
      (fun c member => digits c (List.mem_append_left _ member)) ('.' :: (after ++ _))
      (by rintro c ⟨⟩; rfl)
    obtain ⟨behind, rest⟩ := span_digits
      (fun c member => digits c (List.mem_append_right _ member)) _
      fun c first => (exponent.stops c first).1
    rw [List.append_assoc, List.cons_append, size?_pointed dropped, taken, behind, rest, held,
      (unsigned?_eq_some_iff (by decide) _ n).mpr number]
    rfl

/-- An unsigned literal begins with a digit or with the point, and so not with a sign. -/
theorem IsDecimal.ne_cons {text rest : List Char} {n places : Nat} {e : Int}
    (decimal : IsDecimal text n places e) {sign : Char} (isSign : sign = '-' ∨ sign = '+') :
    text ≠ sign :: rest := by
  have none : sign.isDigit = false ∧ sign ≠ '.' := by rcases isSign with rfl | rfl <;> decide
  obtain ⟨mantissa, exponent⟩ := decimal
  intro same
  cases mantissa with
  | whole number =>
    obtain ⟨some, digits, -⟩ := (unsigned_ten_iff _ n).mp number
    obtain ⟨c, cs, rfl⟩ := List.exists_cons_of_ne_nil some
    obtain ⟨rfl, -⟩ := List.cons.inj same
    exact absurd (digits c List.mem_cons_self) (by rw [none.1]; decide)
  | pointed number =>
    rename_i before after
    cases before with
    | nil => exact none.2 (List.cons.inj same).1.symm
    | cons c cs =>
      have digits := ((unsigned_ten_iff _ n).mp number).2.1
      obtain ⟨rfl, -⟩ := List.cons.inj same
      exact absurd (digits c List.mem_cons_self) (by rw [none.1]; decide)

/-- The text is a literal with that sign and denotes `n * 10 ^ (e - places)` behind it. -/
inductive IsFloat : List Char → Bool → Nat → Nat → Int → Prop where
  | bare {text : List Char} {n places : Nat} {e : Int} (decimal : IsDecimal text n places e) :
      IsFloat text false n places e
  | plus {text : List Char} {n places : Nat} {e : Int} (decimal : IsDecimal text n places e) :
      IsFloat ('+' :: text) false n places e
  | minus {text : List Char} {n places : Nat} {e : Int} (decimal : IsDecimal text n places e) :
      IsFloat ('-' :: text) true n places e

/-- The number with its sign before it is asked whether it is finite. -/
def number? : List Char → Option Binary64
  | '-' :: rest => (size? rest).map Binary64.neg
  | '+' :: rest => size? rest
  | rest => size? rest

theorem float?_eq (text : String) :
    float? text = (number? text.toList).filter Binary64.isFinite := rfl

theorem number?_plus (cs : List Char) : number? ('+' :: cs) = size? cs := rfl

theorem number?_minus (cs : List Char) : number? ('-' :: cs) = (size? cs).map Binary64.neg := rfl

/-- At most one sign is taken off, since an unsigned literal begins with none. -/
theorem number?_eq_some_iff (cs : List Char) (x : Binary64) :
    number? cs = some x ↔
      ∃ negative n places e, IsFloat cs negative n places e ∧
        (Binary64.ofDecimal n (heldExponent e - places)).withSign negative = x := by
  constructor
  · intro read
    unfold number? at read
    split at read
    · obtain ⟨size, found, rfl⟩ := Option.map_eq_some_iff.mp read
      obtain ⟨n, places, e, decimal, rfl⟩ := isDecimal_of_size? found
      exact ⟨true, n, places, e, .minus decimal, Binary64.withSign_true _⟩
    · obtain ⟨n, places, e, decimal, rfl⟩ := isDecimal_of_size? read
      exact ⟨false, n, places, e, .plus decimal, Binary64.withSign_false _⟩
    · obtain ⟨n, places, e, decimal, rfl⟩ := isDecimal_of_size? read
      exact ⟨false, n, places, e, .bare decimal, Binary64.withSign_false _⟩
  · rintro ⟨negative, n, places, e, written, rfl⟩
    cases written with
    | bare decimal =>
      rw [Binary64.withSign_false]
      unfold number?
      split
      · exact absurd rfl (decimal.ne_cons (.inl rfl))
      · exact absurd rfl (decimal.ne_cons (.inr rfl))
      · exact size?_of_isDecimal decimal
    | plus decimal =>
      rw [number?_plus, Binary64.withSign_false]
      exact size?_of_isDecimal decimal
    | minus decimal =>
      rw [number?_minus, Binary64.withSign_true, size?_of_isDecimal decimal, Option.map_some]

/-- A text is read when it is a literal, as the nearest number, if that is a finite one. -/
theorem float?_eq_some_iff (text : String) (x : Binary64) :
    float? text = some x ↔
      ∃ negative n places e size, IsFloat text.toList negative n places e ∧
        Binary64.Rounds (n * 10 ^ (heldExponent e - places) * Binary64.scale) size ∧
        size.isFinite = true ∧ x = size.withSign negative := by
  rw [float?_eq, Option.filter_eq_some_iff, number?_eq_some_iff]
  constructor
  · rintro ⟨⟨negative, n, places, e, written, rfl⟩, finite⟩
    refine ⟨negative, n, places, e, _, written, Binary64.rounds_ofDecimal n _, ?_, rfl⟩
    rw [← Binary64.isFinite_withSign negative]
    exact finite
  · rintro ⟨negative, n, places, e, size, written, rounds, finite, rfl⟩
    rw [rounds.unique (Binary64.rounds_ofDecimal n _)] at finite ⊢
    refine ⟨⟨negative, n, places, e, written, rfl⟩, ?_⟩
    rw [Binary64.isFinite_withSign]
    exact finite

theorem IsFloat.negative_iff {cs : List Char} {negative : Bool} {n places : Nat} {e : Int}
    (written : IsFloat cs negative n places e) : negative = true ↔ cs.head? = some '-' := by
  cases written with
  | bare decimal =>
    constructor
    · intro contradiction
      cases contradiction
    · intro first
      obtain ⟨rest, rfl⟩ := List.head?_eq_some_iff.mp first
      exact absurd rfl (decimal.ne_cons (.inl rfl))
  | plus decimal =>
    constructor
    · intro contradiction
      cases contradiction
    · intro first
      cases first
  | minus decimal => exact ⟨fun _ => rfl, fun _ => rfl⟩

/-- The sign of a number is the one that is written, also in front of zero. -/
theorem isNegative_iff_of_float? {text : String} {x : Binary64} (read : float? text = some x) :
    x.isNegative = true ↔ text.toList.head? = some '-' := by
  obtain ⟨negative, n, places, e, size, written, rounds, -, rfl⟩ :=
    (float?_eq_some_iff text x).mp read
  rw [rounds.isNegative_withSign]
  exact written.negative_iff

/-- A literal has no more digits than characters. -/
theorem IsDecimal.bounds {text : List Char} {n places : Nat} {e : Int}
    (decimal : IsDecimal text n places e) :
    n < Binary64.tenTo text.length ∧ places ≤ text.length := by
  obtain ⟨mantissa, exponent⟩ := decimal
  cases mantissa with
  | whole number =>
    refine ⟨(number.lt (by decide)).trans_le (Binary64.tenTo_le ?_), Nat.zero_le _⟩
    rw [List.length_append]
    omega
  | pointed number =>
    refine ⟨(number.lt (by decide)).trans_le (Binary64.tenTo_le ?_), ?_⟩
    · simp only [List.length_append, List.length_cons]
      omega
    · simp only [List.length_append, List.length_cons]
      omega

theorem IsFloat.bounds {text : List Char} {negative : Bool} {n places : Nat} {e : Int}
    (written : IsFloat text negative n places e) :
    n < Binary64.tenTo text.length ∧ places ≤ text.length := by
  cases written with
  | bare decimal => exact decimal.bounds
  | plus decimal | minus decimal =>
    obtain ⟨small, short⟩ := decimal.bounds
    rw [List.length_cons]
    exact ⟨small.trans_le (Binary64.tenTo_le (Nat.le_succ _)), short.trans (Nat.le_succ _)⟩

/-- A decimal of few digits is next to zero when its exponent is the negative of many. -/
theorem rounds_zero_of_low {n k m : Nat} (digits : n < Binary64.tenTo k) (low : k + 400 ≤ m) :
    Binary64.Rounds (n * 10 ^ (-(m : Int)) * Binary64.scale) Binary64.zero := by
  refine Binary64.rounds_tiny ?_
  calc n * Binary64.twoTo 1200 ≤ Binary64.tenTo k * Binary64.tenTo 400 :=
        Nat.mul_le_mul digits.le (Binary64.twoTo_triple_le_tenTo 400)
    _ = Binary64.tenTo (k + 400) := (Binary64.tenTo_add k 400).symm
    _ ≤ Binary64.tenTo m := Binary64.tenTo_le low

/-- What is not held of an exponent makes no difference for a number of few digits: it is past the
finite numbers or next to zero either way. -/
theorem rounds_held_iff {n places k : Nat} (digits : n < Binary64.tenTo k) (few : places ≤ k)
    (short : k ≤ 65000) (e : Int) (x : Binary64) :
    Binary64.Rounds (n * 10 ^ (heldExponent e - places) * Binary64.scale) x ↔
      Binary64.Rounds (n * 10 ^ (e - places) * Binary64.scale) x := by
  have bound : exponentBound = 65536 := rfl
  by_cases small : e.natAbs / 10 < exponentBound
  · rw [heldExponent_of_small small]
  have large := mt (held_lt_bound_iff e.natAbs).mp (by omega)
  by_cases none : n = 0
  · simp only [none, Nat.cast_zero, zero_mul]
  by_cases negative : e < 0
  · have cut : heldExponent e - places = -((held e.natAbs + places : Nat) : Int) := by
      rw [heldExponent, if_pos negative]
      omega
    have whole : e - places = -((e.natAbs + places : Nat) : Int) := by omega
    rw [cut, whole]
    exact (rounds_zero_of_low digits (by omega)).iff_of_same (rounds_zero_of_low digits (by omega))
  · have cut : heldExponent e = held e.natAbs := by rw [heldExponent, if_neg negative]
    exact (Binary64.rounds_huge none (by omega)).iff_of_same
      (Binary64.rounds_huge none (by omega))

/-- A text of ordinary length is read when it is a literal, as the number nearest to what it
denotes, if that is a finite one. -/
theorem float?_eq_some_iff_of_short {text : String} (short : text.length ≤ 65000) (x : Binary64) :
    float? text = some x ↔
      ∃ negative n places e size, IsFloat text.toList negative n places e ∧
        Binary64.Rounds (n * 10 ^ (e - places) * Binary64.scale) size ∧
        size.isFinite = true ∧ x = size.withSign negative := by
  have exact (negative n places e size) (written : IsFloat text.toList negative n places e) :=
    rounds_held_iff written.bounds.1 written.bounds.2 short e size
  rw [float?_eq_some_iff]
  constructor
  · rintro ⟨negative, n, places, e, size, written, rounds, rest⟩
    exact ⟨negative, n, places, e, size, written, (exact _ _ _ _ _ written).mp rounds, rest⟩
  · rintro ⟨negative, n, places, e, size, written, rounds, rest⟩
    exact ⟨negative, n, places, e, size, written, (exact _ _ _ _ _ written).mpr rounds, rest⟩

/-- A text of ordinary length is refused when it is no literal or denotes a number that is nearer to
infinity than to any finite one. -/
theorem float?_eq_none_iff_of_short {text : String} (short : text.length ≤ 65000) :
    float? text = none ↔
      ¬ ∃ negative n places e, IsFloat text.toList negative n places e ∧
        (n : ℚ) * 10 ^ (e - places) < 2 ^ 1024 - 2 ^ 970 := by
  have positive : (0 : ℚ) < Binary64.scale := by exact_mod_cast Binary64.scale_pos
  rw [Option.eq_none_iff_forall_ne_some]
  constructor
  · rintro none ⟨negative, n, places, e, written, small⟩
    have rounds := Binary64.rounds_ofDecimal n (e - places)
    have finite := rounds.isFinite_iff.mpr ((mul_lt_mul_iff_left₀ positive).mpr small)
    exact none _ ((float?_eq_some_iff_of_short short _).mpr
      ⟨negative, n, places, e, _, written, rounds, finite, rfl⟩)
  · intro none x read
    obtain ⟨negative, n, places, e, size, written, rounds, finite, -⟩ :=
      (float?_eq_some_iff_of_short short x).mp read
    have small := (mul_lt_mul_iff_left₀ positive).mp (rounds.isFinite_iff.mp finite)
    exact none ⟨negative, n, places, e, written, small⟩

/-- Any number of digits and any exponent can be written. -/
theorem exists_isFloat (negative : Bool) (m k : Nat) : ∃ cs, IsFloat cs negative m 0 (-k) := by
  have number : Unsigned 10 (decimal m) m :=
    (unsigned?_eq_some_iff (by decide) _ m).mp (unsigned?_decimal m)
  have exponent : Signed 10 (decimalInt (-k)) (-k) :=
    (signed?_eq_some_iff (by decide) _ _).mp (signed?_decimalInt (-k))
  have literal := IsDecimal.mk (.whole number) (.written (.inl rfl) exponent)
  cases negative with
  | false => exact ⟨_, .bare literal⟩
  | true => exact ⟨_, .minus literal⟩

/-- Every finite number has a text: its units written out, and the exponent that makes units of
them. -/
theorem exists_float?_iff (x : Binary64) : (∃ text, float? text = some x) ↔ x.isFinite = true := by
  constructor
  · rintro ⟨text, read⟩
    exact isFinite_of_float? read
  · intro finite
    obtain ⟨k, unit⟩ : ∃ k, k = 1074 := ⟨_, rfl⟩
    obtain ⟨cs, written⟩ := exists_isFloat x.isNegative (x.units * 5 ^ k) k
    have value := Binary64.units_eq_decimal x.units k
    obtain ⟨size, rounds, signed⟩ := Binary64.exists_withSign (Binary64.isNaN_of_isFinite finite)
    refine ⟨String.ofList cs, (float?_eq_some_iff _ x).mpr
      ⟨x.isNegative, x.units * 5 ^ k, 0, -k, size, ?_, ?_, ?_, signed⟩⟩
    · rw [String.toList_ofList]
      exact written
    · have short : (-(k : Int)).natAbs / 10 < exponentBound := by
        simp only [exponentBound]
        omega
      rw [heldExponent_of_small short, Int.natCast_zero, Int.sub_zero, Binary64.scale, ← unit,
        value]
      exact rounds
    · rw [← Binary64.isFinite_withSign x.isNegative, ← signed]
      exact finite

end Semantic.Literal

end ServiceLang
