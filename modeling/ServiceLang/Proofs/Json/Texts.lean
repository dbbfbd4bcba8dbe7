import Mathlib.Data.List.Chain
import ServiceLang.Proofs.Json.Documents
import ServiceLang.Proofs.Json.Spelling

/-!
# Spellings of documents

A document is written by spelling its tokens one after the other, with white space around each or
none at all. That is enough to find the tokens again, since no two numbers stand next to each other
in a document. So every spelling is read as the document, and the text that is written for a value
is one of them.
-/

namespace ServiceLang.Json

open Lexer

/-- White space. -/
def IsSpace (c : Char) : Prop := c = ' ' ∨ c = '\t' ∨ c = '\n' ∨ c = '\r'

/-- A text spells tokens if each of them is written in it and nothing else but white space is. -/
inductive Spells : List Token → List Char → Prop
  | nil {space : List Char} (blank : ∀ c ∈ space, IsSpace c) : Spells [] space
  | cons {t : Token} {ts : List Token} {space word cs : List Char} (blank : ∀ c ∈ space, IsSpace c)
    (first : t.Spelled word) (rest : Spells ts cs) : Spells (t :: ts) (space ++ (word ++ cs))

/-- More white space may stand in front. -/
theorem Spells.space {ts : List Token} {space cs : List Char} (blank : ∀ c ∈ space, IsSpace c)
    (spells : Spells ts cs) : Spells ts (space ++ cs) := by
  cases spells with
  | nil all => exact .nil (List.forall_mem_append.mpr ⟨blank, all⟩)
  | cons all first rest =>
    rw [← List.append_assoc]
    exact .cons (List.forall_mem_append.mpr ⟨blank, all⟩) first rest

theorem step_isSpace (ts : List Token) {c : Char} (space : IsSpace c) :
    step ⟨ts, .between⟩ c = ⟨ts, .between⟩ := by
  rcases space with rfl | rfl | rfl | rfl <;> rfl

theorem tokensFrom_space (ts : List Token) {space : List Char} (blank : ∀ c ∈ space, IsSpace c)
    (cs : List Char) : tokensFrom ⟨ts, .between⟩ (space ++ cs) = tokensFrom ⟨ts, .between⟩ cs := by
  induction space with
  | nil => rfl
  | cons c space ih =>
    have rest := ih fun d member => blank d (List.mem_cons_of_mem c member)
    rw [List.cons_append, tokensFrom_cons, step_isSpace ts (blank c List.mem_cons_self), rest]

/-- The first token, if there is one, is not a number. -/
def NumberNotFirst (ts : List Token) : Prop := ∀ t ∈ ts.head?, t.isNumber = false

/-- No two numbers stand next to each other. -/
def Separated (ts : List Token) : Prop :=
  ts.IsChain fun t u => t.isNumber = true → u.isNumber = false

/-- A token that is no number may stand in front of any. -/
theorem separated_cons {t : Token} {ts : List Token} (other : t.isNumber = false)
    (separated : Separated ts) : Separated (t :: ts) := by
  refine List.isChain_cons.mpr ⟨fun u _ number => ?_, separated⟩
  rw [other] at number
  cases number

theorem numberNotFirst_cons {t : Token} (other : t.isNumber = false) (ts : List Token) :
    NumberNotFirst (t :: ts) := by
  intro u member
  cases member
  exact other

namespace Document

theorem tokensOfMembers_append (key : Option String) (d : Document)
    (next : Option String × Document) (ms : List (Option String × Document)) (ts : List Token) :
    tokensOfMembers ((key, d) :: next :: ms) ++ ts =
      .string key :: .colon :: (d.tokens ++ .comma :: (tokensOfMembers (next :: ms) ++ ts)) := by
  rw [tokensOfMembers, List.cons_append, List.cons_append, List.append_assoc]
  rfl

mutual

/-- Behind a value stands a comma, a closing bracket or nothing. -/
theorem separated_tokens (d : Document) {ts : List Token} (separated : Separated ts)
    (next : NumberNotFirst ts) : Separated (d.tokens ++ ts) := by
  cases d with
  | null => exact separated_cons rfl separated
  | bool b => exact separated_cons rfl separated
  | number v => exact List.isChain_cons.mpr ⟨fun u first _ => next u first, separated⟩
  | string v => exact separated_cons rfl separated
  | array items ending =>
    rw [tokens, List.cons_append, List.append_assoc]
    exact separated_cons rfl (separated_tokensOfItems items (separated_cons rfl separated)
      (numberNotFirst_cons rfl ts))
  | object members ending =>
    rw [tokens, List.cons_append, List.append_assoc]
    exact separated_cons rfl (separated_tokensOfMembers members (separated_cons rfl separated)
      (numberNotFirst_cons rfl ts))
  | fault f => exact separated_cons rfl separated

theorem separated_tokensOfItems (ds : List Document) {ts : List Token} (separated : Separated ts)
    (next : NumberNotFirst ts) : Separated (tokensOfItems ds ++ ts) := by
  cases ds with
  | nil => exact separated
  | cons d ds =>
    cases ds with
    | nil => exact separated_tokens d separated next
    | cons second ds =>
      have rest := separated_tokensOfItems (second :: ds) separated next
      rw [tokensOfItems, List.append_assoc]
      exact separated_tokens d (separated_cons rfl rest) (numberNotFirst_cons rfl _)

/-- Members are kept apart by commas, and each key from its value by a colon. -/
theorem separated_tokensOfMembers (ms : List (Option String × Document)) {ts : List Token}
    (separated : Separated ts) (next : NumberNotFirst ts) :
    Separated (tokensOfMembers ms ++ ts) := by
  cases ms with
  | nil => exact separated
  | cons m ms =>
    obtain ⟨key, d⟩ := m
    cases ms with
    | nil =>
      exact separated_cons rfl (separated_cons rfl (separated_tokens d separated next))
    | cons second ms =>
      have rest := separated_tokensOfMembers (second :: ms) separated next
      have comma : Separated (.comma :: (tokensOfMembers (second :: ms) ++ ts)) :=
        separated_cons rfl rest
      have value := separated_tokens d comma (numberNotFirst_cons rfl _)
      rw [tokensOfMembers_append]
      exact separated_cons rfl (separated_cons rfl value)

end

end Document

theorem endsNumber_space {c : Char} (space : IsSpace c) (cs : List Char) :
    EndsNumber (c :: cs) := by
  apply endsNumber_cons
  rcases space with rfl | rfl | rfl | rfl <;> decide

/-- Nothing that begins another token continues a number. -/
theorem Token.Spelled.endsNumber {t : Token} {word : List Char} (spelled : t.Spelled word)
    (other : t.isNumber = false) (cs : List Char) : EndsNumber (word ++ cs) := by
  cases spelled
  case integer => cases other
  case number => cases other
  all_goals exact endsNumber_cons _ (by decide)

/-- What follows a number is white space, another token or nothing. -/
theorem Spells.endsNumber {ts : List Token} {cs : List Char} (spells : Spells ts cs)
    (next : NumberNotFirst ts) : EndsNumber cs := by
  cases spells with
  | nil blank =>
    cases cs with
    | nil => exact fun _ member => nomatch member
    | cons c cs => exact endsNumber_space (blank c List.mem_cons_self) cs
  | @cons t ts space word cs blank first rest =>
    cases space with
    | nil => exact first.endsNumber (next t rfl) cs
    | cons c space => exact endsNumber_space (blank c List.mem_cons_self) _

/-- However tokens are spelled, the lexer finds them. -/
theorem tokensFrom_spells {ts : List Token} {cs : List Char} (spells : Spells ts cs)
    (separated : Separated ts) (before : List Token) :
    tokensFrom ⟨before, .between⟩ cs = before.reverse ++ ts := by
  induction spells generalizing before with
  | @nil space blank =>
    have all := tokensFrom_space before blank []
    rw [List.append_nil] at all
    rw [all, List.append_nil]
    rfl
  | @cons t ts space word cs blank first rest ih =>
    obtain ⟨next, separated⟩ := List.isChain_cons.mp separated
    have ends : t.isNumber = true → EndsNumber cs :=
      fun number => rest.endsNumber fun u member => next u member number
    rw [tokensFrom_space before blank, tokensFrom_spelled first before ends, ih separated,
      List.reverse_cons, List.append_assoc]
    rfl

/-- Every spelling of a document that is not broken off is read as the document. -/
theorem readWith_spells {α : Type} (r : Reader α) (budget : Document → Nat) {d : Document}
    (complete : d.Complete) {text : String} (spells : Spells d.tokens text.toList) :
    readWith r budget text = r (budget d) d := by
  have separated : Separated d.tokens := by
    have all : Separated (d.tokens ++ []) :=
      d.separated_tokens List.isChain_nil fun _ member => nomatch member
    rw [List.append_nil] at all
    exact all
  have lexed : Json.tokens text.toList = d.tokens := tokensFrom_spells spells separated []
  have built : build (Json.tokens text.toList) = .whole d := by
    rw [lexed, build_tokens complete]
  rw [readWith, built]
  change (r (budget d) d >>= fun a => pure a) = _
  exact bind_pure _

/-! The text that is written for a value is one of the spellings of its document. -/

theorem Spells.token {t : Token} {ts : List Token} {word cs : List Char} (spelled : t.Spelled word)
    (rest : Spells ts cs) : Spells (t :: ts) (word ++ cs) :=
  .cons (List.forall_mem_nil IsSpace) spelled rest

theorem Spells.string (s : String) {ts : List Token} {cs : List Char} (rest : Spells ts cs) :
    Spells (.string (some s) :: ts) (writeString s cs) := by
  obtain ⟨ps, units, all⟩ := stringText_escaped s.toList
  have spelled := Token.Spelled.string units
  rw [all, Option.map_some, String.ofList_toList] at spelled
  have both := Spells.token spelled rest
  rw [List.cons_append, List.append_assoc] at both
  exact both

mutual

/-- The text that is written for a value spells its tokens, as one of many texts that do. -/
theorem spells_write (j : Json) (exact : j.Exact) {ts : List Token} {cs : List Char}
    (rest : Spells ts cs) : Spells (j.document.tokens ++ ts) (j.write cs) := by
  cases j with
  | null => exact .token .null rest
  | bool b =>
    cases b with
    | false => exact .token .isFalse rest
    | true => exact .token .isTrue rest
  | integer i => exact .token (.integer exact.1 exact.2) rest
  | float x => exact exact.elim
  | string s => exact .string s rest
  | array items =>
    have inner := spells_writeItems items exact (.token .endArray rest)
    rw [document, Document.tokens, List.cons_append, List.append_assoc]
    exact .token .beginArray inner
  | object members =>
    have inner := spells_writeMembers members exact (.token .endObject rest)
    rw [document, Document.tokens, List.cons_append, List.append_assoc]
    exact .token .beginObject inner

theorem spells_writeItems (js : List Json) (exact : ExactItems js) {ts : List Token}
    {cs : List Char} (rest : Spells ts cs) :
    Spells (Document.tokensOfItems (documents js) ++ ts) (writeItems js cs) := by
  cases js with
  | nil => exact rest
  | cons j js =>
    cases js with
    | nil => exact spells_write j exact.1 rest
    | cons next js =>
      have others := spells_writeItems (next :: js) exact.2 rest
      have item := spells_write j exact.1 (.token .comma others)
      rw [documents, documents, Document.tokensOfItems, List.append_assoc]
      exact item

theorem spells_writeMembers (ms : List (String × Json)) (exact : ExactMembers ms)
    {ts : List Token} {cs : List Char} (rest : Spells ts cs) :
    Spells (Document.tokensOfMembers (documentsOfMembers ms) ++ ts) (writeMembers ms cs) := by
  cases ms with
  | nil => exact rest
  | cons m ms =>
    obtain ⟨key, j⟩ := m
    cases ms with
    | nil => exact .string key (.token .colon (spells_write j exact.1 rest))
    | cons next ms =>
      have others := spells_writeMembers (next :: ms) exact.2 rest
      have value := spells_write j exact.1 (.token .comma others)
      rw [documentsOfMembers, documentsOfMembers, Document.tokensOfMembers_append]
      exact .string key (.token .colon value)

end

/-- The text of a value spells its document. -/
theorem spells_text {j : Json} (exact : j.Exact) : Spells j.document.tokens j.text.toList := by
  have all := spells_write j exact (.nil (List.forall_mem_nil IsSpace))
  rw [List.append_nil] at all
  rw [text, String.toList_ofList]
  exact all

end ServiceLang.Json
