import ServiceLang.Json.Reader
import ServiceLang.Proofs.Json.Lexing

/-!
# Written documents

A document that is not broken off anywhere is built from its own tokens, whatever containers stand
open around it. The text of a value has the tokens of its document, so that reading the text is
reading the document. Floating point numbers are left out: their text is not always read back as the
number it was written for.
-/

namespace ServiceLang

namespace Json

namespace Document

mutual

/-- The tokens of a document, in order. -/
def tokens : Document → List Token
  | .null => [.null]
  | .bool b => [.bool b]
  | .number v => [.number v]
  | .string v => [.string v]
  | .array items _ => .beginArray :: (tokensOfItems items ++ [.endArray])
  | .object members _ => .beginObject :: (tokensOfMembers members ++ [.endObject])
  | .fault f => [.fault f]

def tokensOfItems : List Document → List Token
  | [] => []
  | [d] => tokens d
  | d :: next :: ds => tokens d ++ .comma :: tokensOfItems (next :: ds)

def tokensOfMembers : List (Option String × Document) → List Token
  | [] => []
  | [(key, d)] => .string key :: .colon :: tokens d
  | (key, d) :: next :: ms =>
    .string key :: .colon :: (tokens d ++ .comma :: tokensOfMembers (next :: ms))

end

mutual

/-- The document is not broken off anywhere. -/
def Complete : Document → Prop
  | .array items ending => ending = .closed ∧ CompleteItems items
  | .object members ending => ending = .closed ∧ CompleteMembers members
  | .fault _ => False
  | _ => True

def CompleteItems : List Document → Prop
  | [] => True
  | d :: ds => Complete d ∧ CompleteItems ds

def CompleteMembers : List (Option String × Document) → Prop
  | [] => True
  | (_, d) :: ms => Complete d ∧ CompleteMembers ms

end

end Document

namespace Builder

/-- No value begins with a closing bracket, so that the first item is read like any other. -/
theorem foldl_firstItem (d : Document) (ts : List Token) (frames : List Frame) :
    (d.tokens ++ ts).foldl step (.firstItem frames) =
      (d.tokens ++ ts).foldl step (.value (.items [] :: frames)) := by
  cases d with
  | null => rfl
  | bool b => rfl
  | number v => rfl
  | string v => rfl
  | array items ending => rfl
  | object members ending => rfl
  | fault f => rfl

theorem foldl_firstItems (d : Document) (ds : List Document) (ts : List Token)
    (frames : List Frame) :
    (Document.tokensOfItems (d :: ds) ++ ts).foldl step (.firstItem frames) =
      (Document.tokensOfItems (d :: ds) ++ ts).foldl step (.value (.items [] :: frames)) := by
  cases ds with
  | nil => exact foldl_firstItem d ts frames
  | cons next ds =>
    rw [Document.tokensOfItems, List.append_assoc]
    exact foldl_firstItem d _ frames

/-- The first member is read like any other: its key is no closing brace. -/
theorem foldl_firstMembers (m : Option String × Document) (ms : List (Option String × Document))
    (ts : List Token) (frames : List Frame) :
    (Document.tokensOfMembers (m :: ms) ++ ts).foldl step (.firstKey frames) =
      (Document.tokensOfMembers (m :: ms) ++ ts).foldl step (.nextKey [] frames) := by
  cases ms with
  | nil => rfl
  | cons next ms => rfl

mutual

/-- The tokens of a document build the document, which is handed to whatever is open around it. -/
theorem foldl_tokens (d : Document) (complete : d.Complete) (frames : List Frame) :
    d.tokens.foldl step (.value frames) = deliver d frames := by
  cases d with
  | null => rfl
  | bool b => rfl
  | number v => rfl
  | string v => rfl
  | array items ending =>
    obtain ⟨rfl, complete⟩ := complete
    cases items with
    | nil => rfl
    | cons d ds =>
      have all := foldl_tokensOfItems (d :: ds) complete (List.cons_ne_nil d ds) [] frames
      change (Document.tokensOfItems (d :: ds) ++ [Token.endArray]).foldl step
        (.firstItem frames) = _
      rw [foldl_firstItems, List.foldl_append, all, List.append_nil]
      -- an open container holds its items last one first
      change deliver (.array (d :: ds).reverse.reverse .closed) frames = _
      rw [List.reverse_reverse]
  | object members ending =>
    obtain ⟨rfl, complete⟩ := complete
    cases members with
    | nil => rfl
    | cons m ms =>
      have all := foldl_tokensOfMembers (m :: ms) complete (List.cons_ne_nil m ms) [] frames
      change (Document.tokensOfMembers (m :: ms) ++ [Token.endObject]).foldl step
        (.firstKey frames) = _
      rw [foldl_firstMembers, List.foldl_append, all, List.append_nil]
      change deliver (.object (m :: ms).reverse.reverse .closed) frames = _
      rw [List.reverse_reverse]
  | fault f => exact complete.elim

/-- Items are put in front of those before them, to be reversed at the closing bracket. -/
theorem foldl_tokensOfItems (ds : List Document) (complete : Document.CompleteItems ds)
    (some : ds ≠ []) (before : List Document) (frames : List Frame) :
    (Document.tokensOfItems ds).foldl step (.value (.items before :: frames)) =
      .afterItem (ds.reverse ++ before) frames := by
  cases ds with
  | nil => exact (some rfl).elim
  | cons d ds =>
    obtain ⟨completeFirst, completeRest⟩ := complete
    have item := foldl_tokens d completeFirst (.items before :: frames)
    cases ds with
    | nil => exact item
    | cons next ds =>
      have rest := foldl_tokensOfItems (next :: ds) completeRest (List.cons_ne_nil next ds)
        (d :: before) frames
      rw [Document.tokensOfItems, List.foldl_append, item, List.foldl_cons]
      change (Document.tokensOfItems (next :: ds)).foldl step
        (.value (.items (d :: before) :: frames)) = _
      rw [rest, List.reverse_cons (a := d), List.append_assoc]
      rfl

theorem foldl_tokensOfMembers (ms : List (Option String × Document))
    (complete : Document.CompleteMembers ms) (some : ms ≠ [])
    (before : List (Option String × Document)) (frames : List Frame) :
    (Document.tokensOfMembers ms).foldl step (.nextKey before frames) =
      .afterMember (ms.reverse ++ before) frames := by
  cases ms with
  | nil => exact (some rfl).elim
  | cons m ms =>
    obtain ⟨key, d⟩ := m
    obtain ⟨completeFirst, completeRest⟩ := complete
    have value := foldl_tokens d completeFirst (.member before key :: frames)
    cases ms with
    | nil => exact value
    | cons next ms =>
      have rest := foldl_tokensOfMembers (next :: ms) completeRest (List.cons_ne_nil next ms)
        ((key, d) :: before) frames
      change (d.tokens ++ .comma :: Document.tokensOfMembers (next :: ms)).foldl step
        (.value (.member before key :: frames)) = _
      rw [List.foldl_append, value, List.foldl_cons]
      change (Document.tokensOfMembers (next :: ms)).foldl step
        (.nextKey ((key, d) :: before) frames) = _
      rw [rest, List.reverse_cons (a := (key, d)), List.append_assoc]
      rfl

end

end Builder

/-- A document that is not broken off is built from its tokens, and nothing is left behind it. -/
theorem build_tokens {d : Document} (complete : d.Complete) : build d.tokens = .whole d :=
  Builder.foldl_tokens d complete []

mutual

/-- The document of a value, which a floating point number enters as it is. -/
def document : Json → Document
  | .null => .null
  | .bool b => .bool b
  | .integer i => .number (some (.integer i))
  | .float x => .number (some (.float x))
  | .string s => .string (some s)
  | .array items => .array (documents items) .closed
  | .object members => .object (documentsOfMembers members) .closed

def documents : List Json → List Document
  | [] => []
  | j :: js => document j :: documents js

def documentsOfMembers : List (String × Json) → List (Option String × Document)
  | [] => []
  | (key, j) :: ms => (some key, document j) :: documentsOfMembers ms

end

mutual

/-- The value is read back as it is: it has no floating point numbers, and its integers fit 64 bits,
signed or unsigned. -/
def Exact : Json → Prop
  | .integer i => Int64.minValue.toInt ≤ i ∧ i < UInt64.size
  | .float _ => False
  | .array items => ExactItems items
  | .object members => ExactMembers members
  | _ => True

def ExactItems : List Json → Prop
  | [] => True
  | j :: js => Exact j ∧ ExactItems js

def ExactMembers : List (String × Json) → Prop
  | [] => True
  | (_, j) :: ms => Exact j ∧ ExactMembers ms

end

theorem exactItems_iff (js : List Json) : ExactItems js ↔ ∀ j ∈ js, Exact j := by
  induction js with
  | nil => exact ⟨fun _ _ member => (nomatch member), fun _ => trivial⟩
  | cons j js ih => rw [List.forall_mem_cons, ← ih, ExactItems]

theorem exactMembers_append (ms ns : List (String × Json)) :
    ExactMembers (ms ++ ns) ↔ ExactMembers ms ∧ ExactMembers ns := by
  induction ms with
  | nil => rw [List.nil_append, ExactMembers, true_and]
  | cons m ms ih => rw [List.cons_append, ExactMembers, ExactMembers, ih, and_assoc]

theorem documentsOfMembers_append (ms ns : List (String × Json)) :
    documentsOfMembers (ms ++ ns) = documentsOfMembers ms ++ documentsOfMembers ns := by
  induction ms with
  | nil => rfl
  | cons m ms ih =>
    rw [List.cons_append, documentsOfMembers, ih]
    rfl

theorem documents_eq_map (js : List Json) : documents js = js.map document := by
  induction js with
  | nil => rfl
  | cons j js ih => rw [documents, ih, List.map_cons]

mutual

/-- The document of a value is not broken off. -/
theorem document_complete (j : Json) : j.document.Complete := by
  cases j with
  | null => trivial
  | bool b => trivial
  | integer i => trivial
  | float x => trivial
  | string s => trivial
  | array items => exact ⟨rfl, documents_complete items⟩
  | object members => exact ⟨rfl, documentsOfMembers_complete members⟩

theorem documents_complete (js : List Json) : Document.CompleteItems (documents js) := by
  cases js with
  | nil => trivial
  | cons j js => exact ⟨document_complete j, documents_complete js⟩

theorem documentsOfMembers_complete (ms : List (String × Json)) :
    Document.CompleteMembers (documentsOfMembers ms) := by
  cases ms with
  | nil => trivial
  | cons m ms =>
    obtain ⟨key, j⟩ := m
    exact ⟨document_complete j, documentsOfMembers_complete ms⟩

end

open Lexer

mutual

/-- The text of a value in front of what cannot continue a number is read as the tokens of the
document. -/
theorem tokensFrom_write (j : Json) (exact : j.Exact) (ts : List Token) {cs : List Char}
    (ends : EndsNumber cs) :
    tokensFrom ⟨ts, .between⟩ (j.write cs) =
      tokensFrom ⟨j.document.tokens.reverse ++ ts, .between⟩ cs := by
  cases j with
  | null => rfl
  | bool b => cases b <;> rfl
  | integer i => exact tokensFrom_decimalInt ts exact.1 exact.2 ends
  | float x => exact exact.elim
  | string s => exact tokensFrom_string ts s cs
  | array items =>
    -- a number as the last item ends at the bracket, one before it at the comma
    have close : EndsNumber (']' :: cs) := endsNumber_cons cs (by decide)
    have inner := tokensFrom_writeItems items exact (.beginArray :: ts) close
    rw [write, tokensFrom_cons]
    change tokensFrom ⟨.beginArray :: ts, .between⟩ _ = _
    rw [inner, tokensFrom_cons, document, Document.tokens, List.reverse_cons, List.reverse_append,
      List.append_assoc, List.append_assoc]
    rfl
  | object members =>
    have close : EndsNumber ('\x7d' :: cs) := endsNumber_cons cs (by decide)
    have inner := tokensFrom_writeMembers members exact (.beginObject :: ts) close
    rw [write, tokensFrom_cons]
    change tokensFrom ⟨.beginObject :: ts, .between⟩ _ = _
    rw [inner, tokensFrom_cons, document, Document.tokens, List.reverse_cons, List.reverse_append,
      List.append_assoc, List.append_assoc]
    rfl

/-- Items are written with commas between them, which end any number before them. -/
theorem tokensFrom_writeItems (js : List Json) (exact : ExactItems js) (ts : List Token)
    {cs : List Char} (ends : EndsNumber cs) :
    tokensFrom ⟨ts, .between⟩ (writeItems js cs) =
      tokensFrom ⟨(Document.tokensOfItems (documents js)).reverse ++ ts, .between⟩ cs := by
  cases js with
  | nil => rfl
  | cons j js =>
    cases js with
    | nil => exact tokensFrom_write j exact.1 ts ends
    | cons next js =>
      have comma : EndsNumber (',' :: writeItems (next :: js) cs) :=
        endsNumber_cons _ (by decide)
      have rest := tokensFrom_writeItems (next :: js) exact.2
        (.comma :: (j.document.tokens.reverse ++ ts)) ends
      rw [writeItems, tokensFrom_write j exact.1 ts comma, tokensFrom_cons]
      change tokensFrom ⟨.comma :: (j.document.tokens.reverse ++ ts), .between⟩ _ = _
      have all : Document.tokensOfItems (documents (j :: next :: js)) =
        j.document.tokens ++ .comma :: Document.tokensOfItems (documents (next :: js)) := rfl
      rw [rest, all]
      simp only [List.reverse_cons, List.reverse_append, List.append_assoc, List.cons_append,
        List.nil_append]

theorem tokensFrom_writeMembers (ms : List (String × Json)) (exact : ExactMembers ms)
    (ts : List Token) {cs : List Char} (ends : EndsNumber cs) :
    tokensFrom ⟨ts, .between⟩ (writeMembers ms cs) =
      tokensFrom ⟨(Document.tokensOfMembers (documentsOfMembers ms)).reverse ++ ts, .between⟩
        cs := by
  cases ms with
  | nil => rfl
  | cons m ms =>
    obtain ⟨key, j⟩ := m
    cases ms with
    | nil =>
      have value := tokensFrom_write j exact.1 (.colon :: .string (some key) :: ts) ends
      rw [writeMembers, tokensFrom_string, tokensFrom_cons]
      change tokensFrom ⟨.colon :: .string (some key) :: ts, .between⟩ _ = _
      rw [value, documentsOfMembers, documentsOfMembers, Document.tokensOfMembers,
        List.reverse_cons, List.reverse_cons, List.append_assoc, List.append_assoc]
      rfl
    | cons next ms =>
      have comma : EndsNumber (',' :: writeMembers (next :: ms) cs) :=
        endsNumber_cons _ (by decide)
      have value := tokensFrom_write j exact.1 (.colon :: .string (some key) :: ts) comma
      have rest := tokensFrom_writeMembers (next :: ms) exact.2
        (.comma :: (j.document.tokens.reverse ++ .colon :: .string (some key) :: ts)) ends
      rw [writeMembers, tokensFrom_string, tokensFrom_cons]
      change tokensFrom ⟨.colon :: .string (some key) :: ts, .between⟩ _ = _
      rw [value, tokensFrom_cons]
      change tokensFrom ⟨.comma :: (_ ++ .colon :: .string (some key) :: ts), .between⟩ _ = _
      have all : Document.tokensOfMembers (documentsOfMembers ((key, j) :: next :: ms)) =
        .string (some key) :: .colon :: (j.document.tokens ++
          .comma :: Document.tokensOfMembers (documentsOfMembers (next :: ms))) := rfl
      rw [rest, all]
      simp only [List.reverse_cons, List.reverse_append, List.append_assoc, List.cons_append,
        List.nil_append]

end

/-- The text of a value is read as the tokens of its document. -/
theorem tokens_text {j : Json} (exact : j.Exact) :
    Json.tokens j.text.toList = j.document.tokens := by
  have ends : EndsNumber [] := fun _ member => nomatch member
  rw [text, String.toList_ofList]
  change tokensFrom ⟨[], .between⟩ (j.write []) = _
  rw [tokensFrom_write j exact [] ends, List.append_nil]
  exact List.reverse_reverse _

/-- To read the text of a value is to read its document. -/
theorem readWith_text {α : Type} (r : Reader α) (budget : Document → Nat) {j : Json}
    (exact : j.Exact) : readWith r budget j.text = r (budget j.document) j.document := by
  have built : build (Json.tokens j.text.toList) = .whole j.document := by
    rw [tokens_text exact, build_tokens (document_complete j)]
  rw [readWith, built]
  change (r (budget j.document) j.document >>= fun a => pure a) = _
  exact bind_pure _

end Json

end ServiceLang
