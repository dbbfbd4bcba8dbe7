import ServiceLang.Json.Record
import ServiceLang.Proofs.Json.Texts

/-!
# Texts that go on

What becomes of a text that has been read when more text follows it, or when its end is missing. A
number is the only value that does not show where it ends, so it is left out: readers that refuse
numbers are all that is looked at. For such a reader the lexer stands between two tokens at the end
of every text that is read, and whatever follows adds tokens of its own, unless it is white space.
Nothing is assumed of the text that follows.
-/

namespace ServiceLang.Json

/-- The lexer has begun a token and not ended it. No word has a space in it. -/
def Mode.Inside : Mode → Prop
  | .word left _ => ∀ c ∈ left, ¬ IsSpace c
  | .number _ _ | .string _ _ _ => True
  | .between | .stopped => False

namespace Lexer

/-- What the lexer does with a character: it passes over white space, goes on inside a token, ends a
token, or stops. A number ends in front of the character, which is then looked at again. -/
inductive Moves (c : Char) : Lexer → Lexer → Prop where
  | space {ts : List Token} (blank : IsSpace c) : Moves c ⟨ts, .between⟩ ⟨ts, .between⟩
  | inside {ts : List Token} {m next : Mode} (inside : next.Inside) : Moves c ⟨ts, m⟩ ⟨ts, next⟩
  | token {ts : List Token} {m : Mode} (t : Token) (solid : ¬ IsSpace c) :
    Moves c ⟨ts, m⟩ ⟨t :: ts, .between⟩
  | stop {ts : List Token} {m : Mode} : Moves c ⟨ts, m⟩ ⟨.fault .malformed :: ts, .stopped⟩
  | stopped {ts : List Token} : Moves c ⟨ts, .stopped⟩ ⟨ts, .stopped⟩
  | number {ts : List Token} {part : NumeralPart} {n : Numeral} {l : Lexer}
    (next : Moves c ⟨.number n.value? :: ts, .between⟩ l) : Moves c ⟨ts, .number part n⟩ l

theorem first_moves (ts : List Token) (c : Char) :
    Moves c ⟨ts, .between⟩ (first ⟨ts, .between⟩ c) := by
  unfold first
  split
  -- white space, marks, what begins a longer token, words, and digits or nothing of the kind
  case h_1 | h_2 | h_3 | h_4 => exact .space (by simp [IsSpace])
  case h_5 | h_6 | h_7 | h_8 | h_9 | h_10 => exact .token _ (by simp [IsSpace])
  case h_11 | h_15 | h_16 => exact .inside trivial
  case h_12 | h_13 | h_14 => exact .inside (by simp [Mode.Inside, IsSpace])
  case h_17 =>
    split
    · exact .inside trivial
    · exact .stop

theorem inWord_moves (ts : List Token) (m : Mode) {left : List Char}
    (solid : ∀ d ∈ left, ¬ IsSpace d) (t : Token) (c : Char) :
    Moves c ⟨ts, m⟩ (inWord ⟨ts, m⟩ left t c) := by
  cases left with
  | nil => exact .stop
  | cons d ds =>
    obtain ⟨here, later⟩ := List.forall_mem_cons.mp solid
    cases ds with
    | nil =>
      simp only [inWord]
      split
      case isTrue same =>
        rw [← same] at here
        exact .token t here
      case isFalse => exact .stop
    | cons e es =>
      simp only [inWord]
      split
      · exact .inside later
      · exact .stop

theorem inNumber_moves (ts : List Token) (part : NumeralPart) (n : Numeral) (c : Char) :
    Moves c ⟨ts, .number part n⟩ (inNumber ⟨ts, .number part n⟩ part n c) := by
  unfold inNumber
  split
  · split
    case h_2 => exact .stop
    all_goals exact .inside trivial
  · repeat' split
    -- a character that the number cannot go on with
    case isFalse.isFalse.isFalse.isFalse.isFalse.isTrue => exact .number (first_moves _ c)
    case isFalse.isFalse.isFalse.isFalse.isFalse.isFalse => exact .stop
    all_goals exact .inside trivial

theorem inPlain_moves (ts : List Token) (m : Mode) (text : List Char) (sound : Bool) (c : Char) :
    Moves c ⟨ts, m⟩ (inPlain ⟨ts, m⟩ text sound c) := by
  unfold inPlain
  split
  case isTrue quote =>
    subst quote
    exact .token _ (by simp [IsSpace])
  case isFalse =>
    split
    · exact .inside trivial
    · split
      · exact .stop
      · exact .inside trivial

/-- An escape by number leads back into the string. -/
theorem addUnit_moves (ts : List Token) (m : Mode) (text : List Char) (sound : Bool)
    (high : Option Nat) (n : Nat) (c : Char) :
    Moves c ⟨ts, m⟩ (addUnit ⟨ts, m⟩ text sound high n) := by
  unfold addUnit
  repeat' split
  all_goals exact .inside trivial

theorem inString_moves (ts : List Token) (m : Mode) (text : List Char) (sound : Bool)
    (part : StringPart) (c : Char) : Moves c ⟨ts, m⟩ (inString ⟨ts, m⟩ text sound part c) := by
  cases part with
  | plain => exact inPlain_moves ts m text sound c
  | paired high =>
    simp only [inString]
    split
    · exact .inside trivial
    · exact inPlain_moves ts m text false c
  | escape high =>
    simp only [inString]
    split
    · exact .inside trivial
    · split
      · exact .inside trivial
      · exact .stop
  | unicode high bytes value =>
    simp only [inString]
    split
    · exact .inside trivial
    · split
      · exact addUnit_moves ts m text sound high _ c
      · exact .stop

/-- The lexer is between tokens, inside one, or has stopped at a fault. -/
inductive Settled : Lexer → Prop where
  | between (ts : List Token) : Settled ⟨ts, .between⟩
  | inside {ts : List Token} {m : Mode} (inside : m.Inside) : Settled ⟨ts, m⟩
  | stopped (ts : List Token) : Settled ⟨.fault .malformed :: ts, .stopped⟩

theorem step_moves {l : Lexer} (settled : l.Settled) (c : Char) : Moves c l (step l c) := by
  cases settled with
  | between ts => exact first_moves ts c
  | @inside ts m inside =>
    cases m with
    | word left t => exact inWord_moves ts _ inside t c
    | number part n => exact inNumber_moves ts part n c
    | string text sound part => exact inString_moves ts _ text sound part c
    | between => exact inside.elim
    | stopped => exact inside.elim
  | stopped ts => exact .stopped

theorem Moves.settled {c : Char} {l k : Lexer} (move : Moves c l k) (settled : l.Settled) :
    k.Settled := by
  induction move with
  | space blank => exact .between _
  | inside inside => exact .inside inside
  | token t solid => exact .between _
  | stop => exact .stopped _
  | stopped => exact settled
  | number next ih => exact ih (.between _)

theorem settled_foldl (cs : List Char) {l : Lexer} (settled : l.Settled) :
    (cs.foldl step l).Settled := by
  induction cs generalizing l with
  | nil => exact settled
  | cons c cs ih => exact ih ((step_moves settled c).settled settled)

theorem settled_text (cs : List Char) : (cs.foldl step start).Settled :=
  settled_foldl cs (.between [])

/-- A token that does not show where it ends. -/
def Loose (t : Token) : Prop := (∃ v, t = .number v) ∨ ∃ f, t = .fault f

/-- A text that ends inside a token ends with a loose one. -/
theorem finish_inside (ts : List Token) {m : Mode} (inside : m.Inside) :
    ∃ t, finish ⟨ts, m⟩ = ts.reverse ++ [t] ∧ Loose t := by
  cases m with
  | word left t => exact ⟨_, List.reverse_cons, .inr ⟨_, rfl⟩⟩
  | number part n =>
    refine ⟨_, List.reverse_cons, ?_⟩
    split
    · exact .inl ⟨_, rfl⟩
    · exact .inr ⟨_, rfl⟩
  | string text sound part => exact ⟨_, List.reverse_cons, .inr ⟨_, rfl⟩⟩
  | between => exact inside.elim
  | stopped => exact inside.elim

/-- A text ends between two tokens, or else its last token is loose. -/
theorem finish_cases {l : Lexer} (settled : l.Settled) :
    (∃ ts, l = ⟨ts, .between⟩) ∨ ∃ ts t, l.finish = ts ++ [t] ∧ Loose t := by
  cases settled with
  | between ts => exact .inl ⟨ts, rfl⟩
  | @inside ts m inside =>
    obtain ⟨t, last, loose⟩ := finish_inside ts inside
    exact .inr ⟨ts.reverse, t, last, loose⟩
  | stopped ts => exact .inr ⟨ts.reverse, _, List.reverse_cons, .inr ⟨_, rfl⟩⟩

/-- Tokens are only ever added. A character that adds none is inside a token or changes nothing. -/
theorem Moves.adds {c : Char} {l k : Lexer} (move : Moves c l k) :
    ∃ new, k.tokens = new ++ l.tokens ∧
      (new = [] → k.mode.Inside ∨ k = l ∧ (l.mode = .between → IsSpace c)) := by
  induction move with
  | space blank => exact ⟨[], rfl, fun _ => .inr ⟨rfl, fun _ => blank⟩⟩
  | inside inside => exact ⟨[], rfl, fun _ => .inl inside⟩
  | token t solid => exact ⟨[t], rfl, fun none => nomatch none⟩
  | stop => exact ⟨[.fault .malformed], rfl, fun none => nomatch none⟩
  | stopped => exact ⟨[], rfl, fun _ => .inr ⟨rfl, fun between => nomatch between⟩⟩
  | @number ts part n l next ih =>
    obtain ⟨new, added, -⟩ := ih
    refine ⟨new ++ [.number n.value?], ?_, fun none => ?_⟩
    · rw [added, List.append_assoc]
      rfl
    · cases (List.append_eq_nil_iff.mp none).2

/-- A text adds tokens, unless there is nothing but white space in it or the lexer has stopped. -/
theorem tokensFrom_adds (cs : List Char) {l : Lexer} (settled : l.Settled) :
    ∃ us, l.tokensFrom cs = l.tokens.reverse ++ us ∧
      (us = [] → l.mode = .stopped ∨ l.mode = .between ∧ ∀ c ∈ cs, IsSpace c) := by
  induction cs generalizing l with
  | nil =>
    cases settled with
    | between ts =>
      exact ⟨[], (List.append_nil _).symm, fun _ => .inr ⟨rfl, List.forall_mem_nil _⟩⟩
    | @inside ts m inside =>
      obtain ⟨t, last, -⟩ := finish_inside ts inside
      exact ⟨[t], last, fun none => nomatch none⟩
    | stopped ts => exact ⟨[], (List.append_nil _).symm, fun _ => .inl rfl⟩
  | cons c cs ih =>
    have move := step_moves settled c
    obtain ⟨new, added, kept⟩ := move.adds
    obtain ⟨us, all, empty⟩ := ih (move.settled settled)
    refine ⟨new.reverse ++ us, ?_, ?_⟩
    · rw [tokensFrom_cons, all, added, List.reverse_append, List.append_assoc]
    · intro none
      obtain ⟨noNew, noMore⟩ := List.append_eq_nil_iff.mp none
      have after := empty noMore
      rcases kept (List.reverse_eq_nil_iff.mp noNew) with inside | ⟨same, blank⟩
      · -- inside a token the text that is left adds that token at least
        rcases after with stopped | ⟨between, -⟩
        · rw [stopped] at inside
          exact inside.elim
        · rw [between] at inside
          exact inside.elim
      · rw [same] at after
        rcases after with stopped | ⟨between, rest⟩
        · exact .inl stopped
        · exact .inr ⟨between, List.forall_mem_cons.mpr ⟨blank between, rest⟩⟩

/-- Behind the end of a token, every text but white space adds tokens. -/
theorem tokensFrom_between (ts : List Token) (cs : List Char) :
    ∃ us, tokensFrom ⟨ts, .between⟩ cs = ts.reverse ++ us ∧ (us = [] ↔ ∀ c ∈ cs, IsSpace c) := by
  obtain ⟨us, all, empty⟩ := tokensFrom_adds cs (.between ts)
  refine ⟨us, all, fun none => ?_, fun blank => ?_⟩
  · rcases empty none with stopped | ⟨-, blank⟩
    · cases stopped
    · exact blank
  · have same := tokensFrom_space ts blank []
    rw [List.append_nil, all] at same
    exact List.append_right_eq_self.mp same

theorem foldl_space (ts : List Token) {cs : List Char} (blank : ∀ c ∈ cs, IsSpace c) :
    cs.foldl step ⟨ts, .between⟩ = ⟨ts, .between⟩ := by
  induction cs with
  | nil => rfl
  | cons c cs ih =>
    obtain ⟨here, later⟩ := List.forall_mem_cons.mp blank
    rw [List.foldl_cons, step_isSpace ts here, ih later]

/-- White space ends no token but a number. -/
theorem Moves.before_space {c : Char} {l : Lexer} {ts : List Token}
    (move : Moves c l ⟨ts, .between⟩) (blank : IsSpace c) :
    l = ⟨ts, .between⟩ ∨ ∃ v us, ts = .number v :: us := by
  cases move with
  | space _ => exact .inl rfl
  | inside inside => exact inside.elim
  | token t solid => exact absurd blank solid
  | number next =>
    cases next with
    | space _ => exact .inr ⟨_, _, rfl⟩
    | inside inside => exact inside.elim
    | token t solid => exact absurd blank solid

theorem before_space {cs : List Char} (blank : ∀ c ∈ cs, IsSpace c) {l : Lexer} {ts : List Token}
    (settled : l.Settled) (ended : cs.foldl step l = ⟨ts, .between⟩) :
    l = ⟨ts, .between⟩ ∨ ∃ v us, ts = .number v :: us := by
  induction cs generalizing l with
  | nil => exact .inl ended
  | cons c cs ih =>
    obtain ⟨here, later⟩ := List.forall_mem_cons.mp blank
    have move := step_moves settled c
    rcases ih later (move.settled settled) ended with same | number
    · rw [same] at move
      exact move.before_space here
    · exact .inr number

end Lexer

open Lexer

namespace Builder

/-- A token that does not show where it ends completes no document but a number. -/
theorem number_of_loose {b : Builder} {t : Token} {d : Document} (loose : Loose t)
    (whole : step b t = .whole d) : ∃ v, d = .number v := by
  have delivered {e : Document} {frames : List Frame} (h : deliver e frames = .whole d) :
      e = d := by
    cases frames with
    | nil => exact Builder.whole.inj h
    | cons frame frames => cases frame <;> cases h
  rcases loose with ⟨v, rfl⟩ | ⟨f, rfl⟩
  · cases b with
    | value frames => exact ⟨v, (delivered whole).symm⟩
    | _ => cases whole
  · -- a fault completes nothing
    cases b <;> cases whole

theorem foldl_whole (d : Document) {ts : List Token} (more : ts ≠ []) :
    ts.foldl step (.whole d) = .crowded d := by
  have crowded (ts : List Token) : ts.foldl step (.crowded d) = .crowded d := by
    induction ts with
    | nil => rfl
    | cons t ts ih => exact ih
  cases ts with
  | nil => exact absurd rfl more
  | cons t ts => exact crowded ts

end Builder

section

variable {α : Type}

/-- No number is read. -/
def Reader.RefusesNumbers (r : Reader α) : Prop := ∀ budget v a, r budget (.number v) ≠ .ok a

theorem Reader.RefusesNumbers.map {β : Type} {r : Reader α} (refuses : r.RefusesNumbers)
    (f : α → β) : (r.map f).RefusesNumbers := by
  intro budget v b read
  rw [Reader.map] at read
  cases result : r budget (.number v) with
  | error e =>
    rw [result] at read
    cases read
  | ok a => exact refuses budget v a result

theorem Fields.reader_refusesNumbers {σ : Type} (fs : Fields σ α) (what : String) :
    (fs.reader what).RefusesNumbers := by
  intro budget v a read
  rw [Fields.reader] at read
  · cases read
  · exact fun _ _ => Document.noConfusion
  · exact fun _ _ => Document.noConfusion

/-- A text is read as a whole: it ends behind a token, and its tokens make a document with nothing
behind it. -/
structure Loads (r : Reader α) (budget : Document → Nat) (cs : List Char) (ts : List Token)
    (d : Document) (a : α) : Prop where
  lexed : cs.foldl Lexer.step Lexer.start = ⟨ts, .between⟩
  built : build ts.reverse = .whole d
  read : r (budget d) d = .ok a

variable {r : Reader α} {budget : Document → Nat} {a : α} {ts : List Token} {d : Document}

theorem readWith_eq (r : Reader α) (budget : Document → Nat) (text : String) :
    readWith r budget text =
      let built := build (tokens text.toList)
      (r (budget built.document) built.document).bind fun a =>
        if built.isWhole then .ok a else .error .malformed := rfl

theorem Loads.readWith {text : String} (loads : Loads r budget text.toList ts d a) :
    readWith r budget text = .ok a := by
  have built : build (tokens text.toList) = .whole d := by
    rw [tokens, loads.lexed]
    exact loads.built
  rw [readWith_eq, built]
  change (r (budget d) d).bind _ = _
  rw [loads.read]
  rfl

theorem whole_of_readWith {text : String} (read : readWith r budget text = .ok a) :
    ∃ d, build (tokens text.toList) = .whole d ∧ r (budget d) d = .ok a := by
  rw [readWith_eq] at read
  generalize build (tokens text.toList) = built at read
  cases result : r (budget built.document) built.document with
  | error e =>
    simp only [result] at read
    cases read
  | ok b =>
    simp only [result] at read
    cases built with
    | whole d =>
      cases read
      exact ⟨d, rfl, result⟩
    | _ => cases read

/-- What is read is a whole document, and its last token is not a loose one. -/
theorem loads_of_readWith (refuses : r.RefusesNumbers) {text : String}
    (read : readWith r budget text = .ok a) : ∃ ts d, Loads r budget text.toList ts d a := by
  obtain ⟨d, built, result⟩ := whole_of_readWith read
  rw [tokens] at built
  rcases finish_cases (settled_text text.toList) with ⟨ts, lexed⟩ | ⟨ts, t, last, loose⟩
  · rw [lexed] at built
    exact ⟨ts, d, lexed, built, result⟩
  · rw [last, build, List.foldl_append] at built
    obtain ⟨v, rfl⟩ := Builder.number_of_loose loose built
    exact absurd result (refuses _ v a)

theorem Loads.append {cs rest : List Char} (loads : Loads r budget cs ts d a)
    (blank : ∀ c ∈ rest, IsSpace c) : Loads r budget (cs ++ rest) ts d a where
  lexed := by rw [List.foldl_append, loads.lexed, foldl_space ts blank]
  built := loads.built
  read := loads.read

theorem Loads.crowded {text rest : String} (loads : Loads r budget text.toList ts d a)
    (solid : ¬ ∀ c ∈ rest.toList, IsSpace c) :
    Json.readWith r budget (text ++ rest) = .error .malformed := by
  obtain ⟨us, all, empty⟩ := tokensFrom_between ts rest.toList
  have more : us ≠ [] := fun none => solid (empty.mp none)
  have lexed : tokens (text ++ rest).toList = ts.reverse ++ us := by
    rw [tokens, String.toList_append, List.foldl_append, loads.lexed]
    exact all
  have whole : ts.reverse.foldl Builder.step (.value []) = .whole d := loads.built
  have built : build (tokens (text ++ rest).toList) = .crowded d := by
    rw [lexed, build, List.foldl_append, whole, Builder.foldl_whole d more]
  rw [readWith_eq, built]
  change (r (budget d) d).bind _ = _
  rw [loads.read]
  rfl

/-- Without the white space behind it the text is read in the same way. -/
theorem Loads.front (refuses : r.RefusesNumbers) {front back : List Char}
    (loads : Loads r budget (front ++ back) ts d a) (blank : ∀ c ∈ back, IsSpace c) :
    Loads r budget front ts d a := by
  have lexed := loads.lexed
  rw [List.foldl_append] at lexed
  rcases before_space blank (settled_text front) lexed with same | ⟨v, us, rfl⟩
  · exact ⟨same, loads.built, loads.read⟩
  · -- the document would be a number
    have built := loads.built
    rw [List.reverse_cons, build, List.foldl_append] at built
    obtain ⟨w, rfl⟩ := Builder.number_of_loose (.inl ⟨v, rfl⟩) built
    exact absurd loads.read (refuses _ w a)

theorem Loads.solid {cs : List Char} (loads : Loads r budget cs ts d a) :
    ¬ ∀ c ∈ cs, IsSpace c := by
  intro blank
  have lexed := foldl_space [] blank
  cases lexed.symm.trans loads.lexed
  cases loads.built

/-- What follows a text that is read has to be white space. -/
theorem readWith_append (refuses : r.RefusesNumbers) {text : String}
    (read : readWith r budget text = .ok a) (rest : String) :
    ((∀ c ∈ rest.toList, IsSpace c) → readWith r budget (text ++ rest) = .ok a) ∧
    ((¬ ∀ c ∈ rest.toList, IsSpace c) → readWith r budget (text ++ rest) = .error .malformed) := by
  obtain ⟨ts, d, loads⟩ := loads_of_readWith refuses read
  refine ⟨fun blank => ?_, loads.crowded⟩
  have longer := loads.append blank
  rw [← String.toList_append] at longer
  exact longer.readWith

theorem readWith_append_iff (refuses : r.RefusesNumbers) {text : String}
    (read : readWith r budget text = .ok a) (rest : String) (b : α) :
    readWith r budget (text ++ rest) = .ok b ↔ (∀ c ∈ rest.toList, IsSpace c) ∧ b = a := by
  obtain ⟨same, refused⟩ := readWith_append refuses read rest
  constructor
  · intro longer
    by_cases blank : ∀ c ∈ rest.toList, IsSpace c
    · rw [same blank] at longer
      exact ⟨blank, (Except.ok.inj longer).symm⟩
    · rw [refused blank] at longer
      cases longer
  · rintro ⟨blank, rfl⟩
    exact same blank

/-- A text that is read stays one as long as only white space is cut off. -/
theorem readWith_front_iff (refuses : r.RefusesNumbers) {front back : String}
    (read : readWith r budget (front ++ back) = .ok a) (b : α) :
    readWith r budget front = .ok b ↔ (∀ c ∈ back.toList, IsSpace c) ∧ b = a := by
  constructor
  · intro shorter
    obtain ⟨blank, same⟩ := (readWith_append_iff refuses shorter back a).mp read
    exact ⟨blank, same.symm⟩
  · rintro ⟨blank, rfl⟩
    obtain ⟨ts, d, loads⟩ := loads_of_readWith refuses read
    rw [String.toList_append] at loads
    exact (loads.front refuses blank).readWith

end

end ServiceLang.Json
