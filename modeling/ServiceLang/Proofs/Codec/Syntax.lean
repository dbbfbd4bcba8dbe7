import ServiceLang.Codec.Syntax
import ServiceLang.Proofs.Json.Records
import ServiceLang.Proofs.Syntax.Significant

/-!
# Stored syntax trees are read back

Each part of a syntax tree is read back from the document of its stored form. What is left out, the
children of a node without any and the text of a node that has none, is what the reader puts there.
The nodes are followed one step of the recursive reader at a time, and the budget of a whole text is
the depth of its document.
-/

namespace ServiceLang.Codec

open Json Json.Reader Syntax
open Json.Fields (Gathers gathers_none)

variable {limit : Nat}

theorem exact_word (w : UInt64) : (Json.integer w.toNat).Exact := by
  have small : w.toNat < UInt64.size := w.toNat_lt_size
  have low : Int64.minValue.toInt ≤ 0 := by decide
  constructor
  · omega
  · omega

theorem Span.exact_toJson (s : Span) : (Span.toJson s).Exact :=
  ⟨exact_word s.start, exact_word s.stop, trivial⟩

theorem Span.reads (s : Span) : Reads limit Span.reader (Span.toJson s).document s := by
  have stop : Gathers limit (Fields.field "end" word .required Fields.none)
      [(some "end", .number (some (.integer s.stop.toNat)))] (s.stop, ()) :=
    Gathers.head (reads_word s.stop) (by simp) gathers_none
  have both : Gathers limit Span.fields
      [(some "start", .number (some (.integer s.start.toNat))),
        (some "end", .number (some (.integer s.stop.toNat)))] (s.start, s.stop, ()) :=
    Gathers.head (reads_word s.start) (by simp) stop
  exact ((both.reads "struct Span").map _).below (Nat.le_succ limit)

theorem Kind.reads (k : Kind) : Reads limit Kind.reader (Kind.toJson k).document k := by
  have found : (Kind.all.map fun k => Variant.plain k.name k).find? (·.name == k.name) =
      some (Variant.plain k.name k) := by
    rw [List.find?_map]
    exact congrArg (Option.map _) (Syntax.Kind.ofName?_name k)
  exact Variant.reads_plain found rfl

namespace Node

/-- The member that holds the children of a node. -/
def childrenMember (children : List Node) : List (String × Json) :=
  if children.isEmpty then [] else [("children", .array (children.map toJson))]

/-- The member that holds the text of a node. -/
def textMember : Option String → List (String × Json)
  | some text => [("text", .string text)]
  | none => []

theorem toJsons_eq_map (ns : List Node) : toJsons ns = ns.map toJson := by
  induction ns with
  | nil => rfl
  | cons n ns ih => rw [toJsons, ih, List.map_cons]

/-- Children and text are members of their own, and each is left out when there is nothing in it. -/
theorem toJson_eq (n : Node) :
    toJson n =
      .object (("kind", Kind.toJson n.kind) :: ("span", Span.toJson n.span) ::
        (childrenMember n.children ++ textMember n.text)) := by
  obtain ⟨kind, span, children, text⟩ := n
  cases text with
  | none =>
    rw [toJson, toJsons_eq_map, List.append_assoc]
    rfl
  | some text =>
    rw [toJson, toJsons_eq_map, List.append_assoc]
    rfl

/-- Nothing in a node is lost when it is written: it holds words and texts only. -/
theorem exact_toJson (n : Node) : (toJson n).Exact := by
  induction n using Node.induction with
  | step n ih =>
    have text : ExactMembers (textMember n.text) := by
      cases n.text with
      | none => trivial
      | some text => exact ⟨trivial, trivial⟩
    have children : ExactMembers (childrenMember n.children) := by
      rw [childrenMember]
      split
      · trivial
      · refine ⟨(exactItems_iff _).mpr fun j member => ?_, trivial⟩
        obtain ⟨c, child, rfl⟩ := List.mem_map.mp member
        exact ih c child
    rw [toJson_eq]
    exact ⟨trivial, Span.exact_toJson n.span, (exactMembers_append _ _).mpr ⟨children, text⟩⟩

theorem absent_textMember {name : String} (other : name ≠ "text") (text : Option String) :
    Fields.Absent name (documentsOfMembers (textMember text)) := by
  cases text with
  | none => exact Fields.absent_nil name
  | some text => simp [textMember, documentsOfMembers, other]

theorem absent_childrenMember {name : String} (other : name ≠ "children") (cs : List Node) :
    Fields.Absent name (documentsOfMembers (childrenMember cs)) := by
  cases cs with
  | nil => exact Fields.absent_nil name
  | cons c cs => simp [childrenMember, documentsOfMembers, other]

/-- A text that is left out is read as a missing one. -/
theorem gathers_text (text : Option String) :
    Gathers limit (Fields.field "text" (optional string) (.omittedAs none) Fields.none)
      (documentsOfMembers (textMember text)) (text, ()) := by
  cases text with
  | none => exact Gathers.default (Fields.absent_nil _) rfl gathers_none
  | some text =>
    have value : Reads limit (optional string) (.string (some text)) (some text) :=
      (reads_string text).optional Document.noConfusion
    exact Gathers.head value (Fields.absent_nil _) gathers_none

/-- Children that are left out are read as none at all. -/
theorem gathers_children {node : Reader Node} {cs : List Node}
    (each : ∀ c ∈ cs, Reads limit node (toJson c).document c) (text : Option String) :
    Gathers limit
      (Fields.field "children" (list node) (.omittedAs [])
        (Fields.field "text" (optional string) (.omittedAs none) Fields.none))
      (documentsOfMembers (childrenMember cs ++ textMember text)) (cs, text, ()) := by
  have noChildren : Fields.Absent "children" (documentsOfMembers (textMember text)) :=
    absent_textMember (by decide) text
  rw [documentsOfMembers_append]
  cases cs with
  | nil => exact Gathers.default noChildren rfl (gathers_text text)
  | cons c cs => exact Gathers.head (reads_list_map each) noChildren (gathers_text text)

/-- One level of a node, given that its children are read. -/
theorem reads_step {node : Reader Node} {n : Node}
    (each : ∀ c ∈ n.children, Reads limit node (toJson c).document c) :
    Reads (limit + 1) (step node) (toJson n).document n := by
  have absent {name : String} (notChildren : name ≠ "children") (notText : name ≠ "text") :
      Fields.Absent name
        (documentsOfMembers (childrenMember n.children ++ textMember n.text)) := by
    rw [documentsOfMembers_append, Fields.absent_append]
    exact ⟨absent_childrenMember notChildren n.children, absent_textMember notText n.text⟩
  have all : Gathers limit (fields node)
      ((some "kind", (Kind.toJson n.kind).document) ::
        (some "span", (Span.toJson n.span).document) ::
          documentsOfMembers (childrenMember n.children ++ textMember n.text))
      (n.kind, n.span, n.children, n.text, ()) := by
    refine Gathers.head (Kind.reads n.kind) ?_ (Gathers.head (Span.reads n.span) ?_ ?_)
    · exact (Fields.absent_cons ..).mpr ⟨by decide, absent (by decide) (by decide)⟩
    · exact absent (by decide) (by decide)
    · exact gathers_children each n.text
  rw [toJson_eq]
  -- a node holds nodes, so that it is put together from its fields only once it is taken apart
  obtain ⟨kind, span, children, text⟩ := n
  exact (all.reads "struct CstNode").map _

theorem reads (n : Node) : Reads limit reader (toJson n).document n := by
  refine reads_recursive fun fuel => ?_
  -- a step opens the containers of the node, so that less fuel is enough for its children
  induction fuel generalizing n with
  | zero =>
    intro budget below
    omega
  | succ fuel ih => exact reads_stepped (reads_step fun c _ => ih c)

end Node

namespace ParseFault

theorem exact_toJson (f : ParseFault) : (toJson f).Exact := by
  cases f with
  | unexpectedToken found expected => exact ⟨trivial, trivial, trivial, trivial⟩
  | unexpectedEnd expected => exact ⟨trivial, trivial, trivial⟩
  | unterminatedString => exact ⟨trivial, trivial⟩

/-- All members can be kept for later, and none of them is a tag. -/
def Kept (budget : Nat) (ms : List (Option String × Document)) : Prop :=
  ∀ m ∈ ms, ∃ key d, m = (some key, d) ∧ key ≠ tagName ∧ d.keep budget = .ok ()

/-- A member that is not the tag is kept for later. -/
theorem membersOf_other {budget : Nat} {key : String} {d : Document} (other : key ≠ tagName)
    (readable : d.keep budget = .ok ()) (tag : Option Tag)
    (ms : List (Option String × Document)) :
    membersOf budget tag ((some key, d) :: ms) =
      (membersOf budget tag ms).map fun (tag, kept) => (tag, (some key, d) :: kept) := by
  cases tag with
  | none =>
    rw [membersOf, if_neg other, readable]
    rfl
  | some tag =>
    rw [membersOf, if_neg other, readable]
    rfl

theorem membersOf_kept {budget : Nat} {ms : List (Option String × Document)}
    (kept : Kept budget ms) (tag : Option Tag) : membersOf budget tag ms = .ok (tag, ms) := by
  induction ms with
  | nil => rfl
  | cons m ms ih =>
    obtain ⟨key, d, rfl, other, readable⟩ := kept m List.mem_cons_self
    rw [membersOf_other other readable, ih fun m member => kept m (List.mem_cons_of_mem _ member)]
    rfl

/-- The tag is found wherever it stands. -/
theorem membersOf_tagged {budget : Nat} {front back : List (Option String × Document)}
    (keptFront : Kept budget front) (keptBack : Kept budget back) {d : Document} {tag : Tag}
    (tagged : tagOf d = .ok tag) :
    membersOf budget none (front ++ (some tagName, d) :: back) = .ok (some tag, front ++ back) := by
  induction front with
  | nil =>
    change membersOf budget none ((some tagName, d) :: back) = .ok (some tag, back)
    rw [membersOf, if_pos rfl, tagged]
    exact membersOf_kept keptBack (some tag)
  | cons m front ih =>
    obtain ⟨key, e, rfl, other, readable⟩ := keptFront m List.mem_cons_self
    have rest := ih fun m member => keptFront m (List.mem_cons_of_mem _ member)
    change membersOf budget none ((some key, e) :: (front ++ (some tagName, d) :: back)) = _
    rw [membersOf_other other readable, rest]
    rfl

/-- A string that is a member of its own can be kept with every budget. -/
theorem kept_string {budget : Nat} {key : String} (other : key ≠ tagName) (s : String)
    {ms : List (Option String × Document)} (kept : Kept budget ms) :
    Kept budget ((some key, .string (some s)) :: ms) := by
  intro m member
  rcases List.mem_cons.mp member with rfl | member
  · exact ⟨key, _, rfl, other, rfl⟩
  · exact kept m member

theorem kept_nil (budget : Nat) : Kept budget [] := fun _ member => (nomatch member)

/-- The members of an error are kept until its tag is known and are then read without a budget. -/
theorem reads_tagged (front : List (Option String × Document)) (tag : Tag)
    {back : List (Option String × Document)} {d : Document} {f : ParseFault}
    (tagged : tagOf d = .ok tag) (keptFront : ∀ budget, Kept budget front)
    (keptBack : ∀ budget, Kept budget back) (read : fromMembers tag (front ++ back) = .ok f) :
    Reads limit reader (.object (front ++ (some tagName, d) :: back) .closed) f := by
  intro budget below deep
  rw [Document.depth] at deep
  cases budget with
  | zero => omega
  | succ budget =>
    rw [reader, descend, membersOf_tagged (keptFront budget) (keptBack budget) tagged]
    exact read

/-- Each fault has its own tag, and its fields are read once the tag is known. -/
theorem reads (f : ParseFault) : Reads limit reader (toJson f).document f := by
  cases f with
  | unexpectedToken found expected =>
    have kept (budget : Nat) : Kept budget
        [(some "found", .string (some found)), (some "expected", .string (some expected))] :=
      kept_string (by decide) found (kept_string (by decide) expected (kept_nil budget))
    exact reads_tagged [] .unexpectedToken rfl kept_nil kept rfl
  | unexpectedEnd expected =>
    have kept (budget : Nat) : Kept budget [(some "expected", .string (some expected))] :=
      kept_string (by decide) expected (kept_nil budget)
    exact reads_tagged [] .unexpectedEnd rfl kept_nil kept rfl
  | unterminatedString =>
    exact reads_tagged [] .unterminatedString rfl kept_nil kept_nil rfl

end ParseFault

theorem ParseError.exact_toJson (e : ParseError) : (ParseError.toJson e).Exact :=
  ⟨ParseFault.exact_toJson e.fault, Span.exact_toJson e.span, trivial⟩

theorem ParseError.reads (e : ParseError) :
    Reads limit ParseError.reader (ParseError.toJson e).document e := by
  have span : Gathers limit (Fields.field "span" Span.reader .required Fields.none)
      [(some "span", (Span.toJson e.span).document)] (e.span, ()) :=
    Gathers.head (Span.reads e.span) (Fields.absent_nil _) gathers_none
  have both : Gathers limit ParseError.fields
      [(some "kind", (ParseFault.toJson e.fault).document),
        (some "span", (Span.toJson e.span).document)] (e.fault, e.span, ()) :=
    Gathers.head (ParseFault.reads e.fault) (by simp) span
  exact ((both.reads "struct ParseError").map _).below (Nat.le_succ limit)

namespace Tree

theorem exact_toJson (t : Syntax.Tree) : (toJson t).Exact := by
  refine ⟨Node.exact_toJson t.root, (exactItems_iff _).mpr fun j member => ?_, trivial⟩
  obtain ⟨e, -, rfl⟩ := List.mem_map.mp member
  exact ParseError.exact_toJson e

/-- A tree is stored by its root and its reported errors. -/
theorem reads (t : Syntax.Tree) : Reads limit reader (toJson t).document t := by
  have errors : Gathers limit
      (Fields.field "errors" (list ParseError.reader) (.omittedAs []) Fields.none)
      [(some "errors", (Json.array (t.errors.map ParseError.toJson)).document)] (t.errors, ()) :=
    Gathers.head (reads_list_map fun e _ => ParseError.reads e) (Fields.absent_nil _) gathers_none
  have both : Gathers limit fields
      [(some "root", (Node.toJson t.root).document),
        (some "errors", (Json.array (t.errors.map ParseError.toJson)).document)]
      (t.root, t.errors, ()) :=
    Gathers.head (Node.reads t.root) (by simp) errors
  exact ((both.reads "struct Cst").map _).below (Nat.le_succ limit)

/-- A tree that is written is read back as it is, however deep and whatever its texts hold. -/
theorem read_write (t : Syntax.Tree) : read (write t) = .ok t := by
  have enough := Nat.lt_succ_self (toJson t).document.depth
  rw [read, write, readDeep, readWith_text reader Document.depth (exact_toJson t)]
  exact reads t _ enough (Nat.le_refl _)

end Tree

end ServiceLang.Codec
