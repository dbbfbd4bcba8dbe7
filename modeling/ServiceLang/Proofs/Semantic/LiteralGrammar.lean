import ServiceLang.Proofs.Number.Numeral
import ServiceLang.Semantic.Literal

/-!
# Grammars of literals

Which texts are literals, said apart from the functions that read them. An integer is a numeral of
base sixteen behind its mark, or one of base ten without it. A string is a sequence of characters
between quotes, each written in one of its forms; the forms are taken apart in one way only, so the
text of a string settles both its value and how each character of it is written.
-/

namespace ServiceLang.Semantic.Literal

open Digits

/-- The text is a numeral and denotes the number. -/
inductive IsNumeral : List Char → Int → Prop where
  | hexadecimal {mark : Char} {body : List Char} {i : Int} (marked : mark = 'x' ∨ mark = 'X')
      (number : Signed 16 body i) : IsNumeral ('0' :: mark :: body) i
  | decimal {text : List Char} {i : Int}
      (unmarked : ∀ mark body, mark = 'x' ∨ mark = 'X' → text ≠ '0' :: mark :: body)
      (number : Signed 10 text i) : IsNumeral text i

/-- The number that a numeral denotes, whether or not a word can hold it. -/
def numeral? : List Char → Option Int
  | '0' :: 'x' :: digits => signed? 16 digits
  | '0' :: 'X' :: digits => signed? 16 digits
  | digits => signed? 10 digits

theorem integer?_eq (text : String) : integer? text = (numeral? text.toList).bind toInt64? := rfl

theorem numeral?_eq_some_iff (cs : List Char) (i : Int) :
    numeral? cs = some i ↔ IsNumeral cs i := by
  constructor
  · intro read
    unfold numeral? at read
    split at read
    · exact .hexadecimal (.inl rfl) ((signed?_eq_some_iff (by decide) _ i).mp read)
    · exact .hexadecimal (.inr rfl) ((signed?_eq_some_iff (by decide) _ i).mp read)
    · rename_i lower upper
      refine .decimal ?_ ((signed?_eq_some_iff (by decide) _ i).mp read)
      rintro mark body (rfl | rfl)
      · exact lower body
      · exact upper body
  · intro numeral
    cases numeral with
    | hexadecimal marked number =>
      have read := (signed?_eq_some_iff (by decide) _ i).mpr number
      rcases marked with rfl | rfl
      · exact read
      · exact read
    | decimal unmarked number =>
      have read := (signed?_eq_some_iff (by decide) _ i).mpr number
      unfold numeral?
      split
      · exact absurd rfl (unmarked 'x' _ (.inl rfl))
      · exact absurd rfl (unmarked 'X' _ (.inr rfl))
      · exact read

/-- No text denotes two numbers. -/
theorem IsNumeral.unique {cs : List Char} {i j : Int} (first : IsNumeral cs i)
    (second : IsNumeral cs j) : i = j := by
  have read := (numeral?_eq_some_iff cs i).mpr first
  rw [(numeral?_eq_some_iff cs j).mpr second] at read
  exact (Option.some.inj read).symm

/-- What is read is the number that the text denotes, if a word holds it. -/
theorem integer?_eq_some_iff (text : String) (v : Int64) :
    integer? text = some v ↔ IsNumeral text.toList v.toInt := by
  simp only [integer?_eq, Option.bind_eq_some_iff, toInt64?_eq_some_iff, numeral?_eq_some_iff]
  constructor
  · rintro ⟨i, numeral, rfl⟩
    exact numeral
  · intro numeral
    exact ⟨v.toInt, numeral, rfl⟩

/-- What is refused is no numeral, or denotes a number that no word holds. -/
theorem integer?_eq_none_iff (text : String) :
    integer? text = none ↔
      ¬ ∃ i, IsNumeral text.toList i ∧ -9223372036854775808 ≤ i ∧ i ≤ 9223372036854775807 := by
  simp only [integer?_eq, Option.bind_eq_none_iff, numeral?_eq_some_iff, toInt64?_eq_none_iff,
    not_exists, not_and]

/-- The letters that may stand behind a backslash, each with the character it stands for. -/
def escapes : List (Char × Char) :=
  [('n', '\n'), ('t', '\t'), ('r', '\r'), ('"', '"'), ('\\', '\\')]

/-- The forms in which a character may be written between quotes. -/
inductive Form (c : Char) : List Char → Prop where
  | raw (plain : c ≠ '\\') : Form c [c]
  | escaped {letter : Char} (listed : (letter, c) ∈ escapes) : Form c ['\\', letter]

/-- The text is the string between quotes, with each character in its form. -/
structure Quotes (value : String) (forms : List (List Char)) (text : String) : Prop where
  written : List.Forall₂ Form value.toList forms
  quoted : text.toList = '"' :: (forms.flatten ++ ['"'])

theorem escape?_eq_some_iff (letter c : Char) :
    escape? letter = some c ↔ (letter, c) ∈ escapes := by
  constructor
  · intro read
    unfold escape? at read
    split at read <;> cases read <;> decide
  · intro listed
    simp only [escapes, List.mem_cons, Prod.mk.injEq, List.not_mem_nil, or_false] at listed
    rcases listed with ⟨rfl, rfl⟩ | ⟨rfl, rfl⟩ | ⟨rfl, rfl⟩ | ⟨rfl, rfl⟩ | ⟨rfl, rfl⟩ <;> rfl

/-- What is read of a form is its character. -/
theorem unescape?_form {c : Char} {form : List Char} (written : Form c form) (rest : List Char) :
    unescape? (form ++ rest) = (unescape? rest).map (c :: ·) := by
  cases written with
  | raw plain => exact unescape?_plain plain rest
  | escaped listed => exact unescape?_escape ((escape?_eq_some_iff _ c).mpr listed) rest

theorem unescape?_forms {cs : List Char} {forms : List (List Char)}
    (written : List.Forall₂ Form cs forms) : unescape? forms.flatten = some cs := by
  induction written with
  | nil => rfl
  | cons first _ ih => rw [List.flatten_cons, unescape?_form first, ih, Option.map_some]

theorem forms_of_unescape? {body cs : List Char} (read : unescape? body = some cs) :
    ∃ forms, List.Forall₂ Form cs forms ∧ body = forms.flatten := by
  fun_induction unescape? body generalizing cs with
  | case1 =>
    cases read
    exact ⟨[], .nil, rfl⟩
  | case2 => cases read
  | case3 letter rest ih =>
    obtain ⟨c, escape, read⟩ := Option.bind_eq_some_iff.mp read
    obtain ⟨ds, unescaped, made⟩ := Option.bind_eq_some_iff.mp read
    cases made
    obtain ⟨forms, written, rfl⟩ := ih unescaped
    have first : Form c ['\\', letter] := .escaped ((escape?_eq_some_iff letter c).mp escape)
    exact ⟨['\\', letter] :: forms, .cons first written, rfl⟩
  | case4 c rest lone pair ih =>
    obtain ⟨ds, unescaped, rfl⟩ := Option.map_eq_some_iff.mp read
    obtain ⟨forms, written, rfl⟩ := ih unescaped
    have plain : c ≠ '\\' := by
      intro same
      cases tail : forms.flatten with
      | nil => exact lone same tail
      | cons letter rest => exact pair letter rest same tail
    exact ⟨[c] :: forms, .cons (.raw plain) written, rfl⟩

/-- The forms are seen from the text: a backslash takes the next character with it, anything else
stands alone. -/
theorem forms_unique {cs ds : List Char} {forms others : List (List Char)}
    (written : List.Forall₂ Form cs forms) (rewritten : List.Forall₂ Form ds others)
    (same : forms.flatten = others.flatten) : forms = others := by
  induction written generalizing ds others with
  | nil =>
    cases rewritten with
    | nil => rfl
    | cons first _ => cases first <;> cases same
  | cons first _ ih =>
    cases rewritten with
    | nil => cases first <;> cases same
    | cons other rest =>
      cases first with
      | raw plain =>
        cases other with
        | raw _ =>
          obtain ⟨rfl, tail⟩ := List.cons.inj same
          rw [ih rest tail]
        | escaped _ => exact absurd (List.cons.inj same).1 plain
      | escaped _ =>
        cases other with
        | raw plain => exact absurd (List.cons.inj same).1.symm plain
        | escaped _ =>
          obtain ⟨rfl, tail⟩ := List.cons.inj (List.cons.inj same).2
          rw [ih rest tail]

/-- There are two quotes, and they are not the same one. -/
theorem body?_eq_some_iff (text body : List Char) :
    body? text = some body ↔ text = '"' :: (body ++ ['"']) := by
  constructor
  · intro found
    unfold body? at found
    split at found
    · rename_i rest
      split at found
      · rename_i last
        cases found
        rw [List.dropLast_append_getLast? '"' last]
      · cases found
    · cases found
  · rintro rfl
    rw [body?, List.getLast?_concat, if_pos rfl, List.dropLast_concat]

/-- What is read is the string that stands between the quotes, in whatever forms. -/
theorem string?_eq_some_iff (text value : String) :
    string? text = some value ↔ ∃ forms, Quotes value forms text := by
  rw [string?, Option.map_eq_some_iff]
  constructor
  · rintro ⟨cs, read, rfl⟩
    obtain ⟨body, found, unescaped⟩ := Option.bind_eq_some_iff.mp read
    obtain ⟨forms, written, rfl⟩ := forms_of_unescape? unescaped
    refine ⟨forms, ?_, (body?_eq_some_iff _ _).mp found⟩
    rw [String.toList_ofList]
    exact written
  · rintro ⟨forms, written, quoted⟩
    refine ⟨value.toList, ?_, String.ofList_toList⟩
    rw [(body?_eq_some_iff _ _).mpr quoted]
    exact unescape?_forms written

/-- A truth value has one spelling. -/
theorem boolean?_eq_some_iff (text : String) (b : Bool) :
    boolean? text = some b ↔ text = toString b := by
  constructor
  · intro read
    unfold boolean? at read
    split at read
    · cases read
      assumption
    · split at read
      · cases read
        assumption
      · cases read
  · rintro rfl
    cases b <;> rfl

/-- No text is two strings, and none is one string in two ways. -/
theorem Quotes.unique {value other : String} {forms others : List (List Char)} {text : String}
    (first : Quotes value forms text) (second : Quotes other others text) :
    value = other ∧ forms = others := by
  have read := (string?_eq_some_iff text value).mpr ⟨forms, first⟩
  have reread := (string?_eq_some_iff text other).mpr ⟨others, second⟩
  rw [read] at reread
  have bodies := first.quoted.symm.trans second.quoted
  have same := List.append_cancel_right (List.cons.inj bodies).2
  exact ⟨Option.some.inj reread, forms_unique first.written second.written same⟩

end ServiceLang.Semantic.Literal
