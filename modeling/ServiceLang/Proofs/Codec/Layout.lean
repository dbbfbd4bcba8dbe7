import ServiceLang.Proofs.Codec.Syntax
import ServiceLang.Proofs.Json.Arranged
import ServiceLang.Proofs.Json.Texts

/-!
# Layouts of stored syntax trees

A syntax tree may be stored in many ways: with the members of each object in any order, with or
without a list that is empty and a text that is absent, and with members that are not known. Reading
gets the same tree from all of them, however they are spelled.
-/

namespace ServiceLang.Codec

open Json Json.Reader Syntax
open Json.Fields (Absent Collects Foreign Laid absent_append absent_cons absent_nil)

variable {limit : Nat}

/-- The member for a list, which may be left out if the list is empty. -/
inductive ListMember (name : String) : List Document → List (Option String × Document) → Prop
  | written (ds : List Document) : ListMember name ds [(some name, .array ds .closed)]
  | omitted : ListMember name [] []

/-- The member for a text, which may be left out or written as `null` if the text is absent. -/
inductive TextMember (name : String) : Option String → List (Option String × Document) → Prop
  | written (text : String) : TextMember name (some text) [(some name, .string (some text))]
  | null : TextMember name none [(some name, .null)]
  | omitted : TextMember name none []

def Span.Layout (s : Span) : Document → Prop :=
  Laid ["start", "end"]
    [(some "start", .number (some (.integer s.start.toNat))),
      (some "end", .number (some (.integer s.stop.toNat)))]

inductive Node.Layout : Node → Document → Prop
  | node {kind : Kind} {span : Span} {children : List Node} {text : Option String}
    {spanDocument d : Document} {childDocuments : List Document}
    {listed written : List (Option String × Document)} (spanLayout : Span.Layout span spanDocument)
    (each : List.Forall₂ Node.Layout children childDocuments)
    (list : ListMember "children" childDocuments listed) (texts : TextMember "text" text written)
    (laid : Laid ["kind", "span", "children", "text"]
      ((some "kind", .string (some kind.name)) :: (some "span", spanDocument) ::
        (listed ++ written)) d) :
    Node.Layout ⟨kind, span, children, text⟩ d

/-- The members of a parser error in any order. -/
def ParseFault.Layout (f : ParseFault) (d : Document) : Prop :=
  ∃ ms core, d = .object ms .closed ∧ (ParseFault.toJson f).document = .object core .closed ∧
    ms.Perm core

def ParseError.Layout (e : ParseError) (d : Document) : Prop :=
  ∃ kind span, ParseFault.Layout e.fault kind ∧ Span.Layout e.span span ∧
    Laid ["kind", "span"] [(some "kind", kind), (some "span", span)] d

def Tree.Layout (t : Syntax.Tree) (d : Document) : Prop :=
  ∃ root errors listed, Node.Layout t.root root ∧
    List.Forall₂ ParseError.Layout t.errors errors ∧ ListMember "errors" errors listed ∧
    Laid ["root", "errors"] ((some "root", root) :: listed) d

theorem ListMember.absent {name other : String} (different : other ≠ name) {ds : List Document}
    {ms : List (Option String × Document)} (list : ListMember name ds ms) : Absent other ms := by
  cases list <;> simp [different]

theorem TextMember.absent {name other : String} (different : other ≠ name) {text : Option String}
    {ms : List (Option String × Document)} (texts : TextMember name text ms) :
    Absent other ms := by
  cases texts <;> simp [different]

theorem Span.Layout.reads {s : Span} {d : Document} (layout : Span.Layout s d)
    (complete : d.Complete) : Reads limit Span.reader d s := by
  have read : Reads (limit + 1) (Span.fields.reader "struct Span") d (s.start, s.stop, ()) := by
    refine Laid.reads layout complete (fun others foreign sound => ?_) _
    refine Collects.field ?_ (reads_word s.start) ?_
    · exact (absent_cons ..).mpr ⟨by simp, foreign.absent (by simp)⟩
    · exact .field (foreign.absent (by simp)) (reads_word s.stop) (.none foreign sound)
  exact (read.map _).below (Nat.le_succ limit)

section

variable {α β τ : Type} {name : String} {fields : Fields τ β} {b : β}
  {ms others : List (Option String × Document)}

/-- Layouts of a list that are each read make a list that is read. -/
theorem reads_each {R : α → Document → Prop} {r : Reader α} {as : List α} {ds : List Document}
    (each : List.Forall₂ R as ds) (complete : ∀ d ∈ ds, d.Complete)
    (reads : ∀ a d, R a d → d.Complete → Reads limit r d a) :
    List.Forall₂ (Reads limit r) ds as := by
  induction each with
  | nil => exact .nil
  | @cons a d as ds first _ ih =>
    obtain ⟨here, others⟩ := List.forall_mem_cons.mp complete
    exact .cons (reads a d first here) (ih others)

/-- A list is read from its member or from nothing. -/
theorem ListMember.collects {R : α → Document → Prop} {r : Reader α} {as : List α}
    {ds : List Document} (list : ListMember name ds ms) (each : List.Forall₂ R as ds)
    (complete : ∀ m ∈ ms, m.2.Complete)
    (reads : ∀ a d, R a d → d.Complete → Reads limit r d a) (absent : Absent name others)
    (rest : Collects limit fields others b) :
    Collects limit (Fields.field name (Reader.list r) (.omittedAs []) fields) (ms ++ others)
      (as, b) := by
  cases list with
  | written =>
    have array : (Document.array ds .closed).Complete := complete _ List.mem_cons_self
    have items := reads_each each ((Document.completeItems_iff ds).mp array.2) reads
    exact .field absent ((reads_list items).below (Nat.le_succ limit)) rest
  | omitted =>
    cases each
    exact .default absent rfl rest

/-- A text is read from its member or from nothing. -/
theorem TextMember.collects {text : Option String} (texts : TextMember name text ms)
    (absent : Absent name others) (rest : Collects limit fields others b) :
    Collects limit (Fields.field name (optional string) (.omittedAs none) fields) (ms ++ others)
      (text, b) := by
  cases texts with
  | written text =>
    have value : Reads limit (optional string) (.string (some text)) (some text) :=
      (reads_string text).optional Document.noConfusion
    exact .field absent value rest
  | null => exact .field absent reads_absent rest
  | omitted => exact .default absent rfl rest

end

namespace Node

/-- One level of a node, given that layouts of nodes are read. -/
theorem Layout.reads_step {node : Reader Node} {n : Node} {d : Document} (layout : Layout n d)
    (complete : d.Complete)
    (each : ∀ c e, Layout c e → e.Complete → Reads limit node e c) :
    Reads (limit + 1) (step node) d n := by
  cases layout with
  | @node kind span children text spanDocument _ childDocuments listed written spanLayout nodes
      list texts laid =>
    have core := laid.complete_core complete
    obtain ⟨-, members⟩ := List.forall_mem_cons.mp core
    obtain ⟨spanComplete, members⟩ := List.forall_mem_cons.mp members
    obtain ⟨listComplete, -⟩ := List.forall_mem_append.mp members
    have read : Reads (limit + 1) ((fields node).reader "struct CstNode") d
        (kind, span, children, text, ()) := by
      refine laid.reads complete (fun others foreign sound => ?_) _
      have absent {name : String} (field : name ∈ ["kind", "span", "children", "text"])
          (notChildren : name ≠ "children") (notText : name ≠ "text") :
          Absent name (listed ++ (written ++ others)) := by
        rw [absent_append, absent_append]
        exact ⟨list.absent notChildren, texts.absent notText, foreign.absent field⟩
      rw [List.cons_append, List.cons_append, List.append_assoc]
      refine Collects.field ?_ (Kind.reads kind) (.field ?_ (spanLayout.reads spanComplete) ?_)
      · exact (absent_cons ..).mpr ⟨by simp, absent (by simp) (by decide) (by decide)⟩
      · exact absent (by simp) (by decide) (by decide)
      · refine list.collects nodes listComplete each ?_ (texts.collects ?_ (.none foreign sound))
        · rw [absent_append]
          exact ⟨texts.absent (by decide), foreign.absent (by simp)⟩
        · exact foreign.absent (by simp)
    exact read.map _

theorem Layout.reads {n : Node} {d : Document} (layout : Layout n d) (complete : d.Complete) :
    Reads limit reader d n := by
  refine reads_recursive fun fuel => ?_
  induction fuel generalizing n d with
  | zero =>
    intro budget below
    omega
  | succ fuel ih => exact reads_stepped (layout.reads_step complete fun _ _ => ih)

end Node

namespace ParseFault

theorem kept_perm {budget : Nat} {ms ns : List (Option String × Document)} (perm : ms.Perm ns)
    (kept : Kept budget ns) : Kept budget ms :=
  fun m member => kept m (perm.mem_iff.mp member)

/-- The tag may stand anywhere among the members, which may have any order themselves. -/
theorem reads_arranged {tag : Tag} {text : String} {ms rest : List (Option String × Document)}
    {f : ParseFault} (tagged : tagOf (.string (some text)) = .ok tag)
    (kept : ∀ budget, Kept budget rest)
    (perm : ms.Perm ((some tagName, .string (some text)) :: rest))
    (read : ∀ ns, ns.Perm rest → fromMembers tag ns = .ok f) :
    Reads limit reader (.object ms .closed) f := by
  have member : (some tagName, .string (some text)) ∈ ms := perm.mem_iff.mpr List.mem_cons_self
  obtain ⟨front, back, rfl⟩ := List.append_of_mem member
  have around : (front ++ back).Perm rest := (List.perm_middle.symm.trans perm).cons_inv
  have all (budget : Nat) : Kept budget (front ++ back) := kept_perm around (kept budget)
  refine reads_tagged front tag tagged ?_ ?_ (read _ around)
  · exact fun budget m listed => all budget m (List.mem_append_left back listed)
  · exact fun budget m listed => all budget m (List.mem_append_right front listed)

/-- Members that hold no containers are read without a budget. -/
theorem members_of_collects {σ α : Type} {fs : Fields σ α} {a : α}
    {ms ns : List (Option String × Document)} (collects : Collects 1 fs ms a) (perm : ns.Perm ms)
    (flat : Document.depthOfMembers ms = 0) :
    ∃ s, fs.members 0 fs.start ns = .ok s ∧ fs.finish s = .ok a := by
  refine collects ns perm 0 Nat.one_pos ?_
  rw [Document.depthOfMembers_perm perm, flat]

/-- Each fault has its own fields, and their order does not matter. -/
theorem Layout.reads {f : ParseFault} {d : Document} (layout : Layout f d) :
    Reads limit reader d f := by
  obtain ⟨ms, core, rfl, stored, perm⟩ := layout
  have nothing : Foreign [] [] := List.forall_mem_nil _
  have expectedField (expected : String) : Collects 1 endFields
      [(some "expected", .string (some expected))] (expected, ()) :=
    .field (absent_nil _) (reads_string expected) (.none nothing (List.forall_mem_nil _))
  cases f with
  | unexpectedToken found expected =>
    cases stored
    have kept (budget : Nat) : Kept budget
        [(some "found", .string (some found)), (some "expected", .string (some expected))] :=
      kept_string (by decide) found (kept_string (by decide) expected (kept_nil budget))
    refine reads_arranged rfl kept perm fun ns arranged => ?_
    have both : Collects 1 tokenFields
        [(some "found", .string (some found)), (some "expected", .string (some expected))]
        (found, expected, ()) :=
      .field (by simp) (reads_string found) (expectedField expected)
    obtain ⟨s, read, finished⟩ := members_of_collects both arranged rfl
    simp only [fromMembers, read, finished, bind, Except.bind]
    rfl
  | unexpectedEnd expected =>
    cases stored
    have kept (budget : Nat) : Kept budget [(some "expected", .string (some expected))] :=
      kept_string (by decide) expected (kept_nil budget)
    refine reads_arranged rfl kept perm fun ns arranged => ?_
    obtain ⟨s, read, finished⟩ := members_of_collects (expectedField expected) arranged rfl
    simp only [fromMembers, read, finished, bind, Except.bind]
    rfl
  | unterminatedString =>
    cases stored
    exact reads_arranged rfl kept_nil perm fun _ _ => rfl

end ParseFault

theorem ParseError.Layout.reads {e : ParseError} {d : Document} (layout : ParseError.Layout e d)
    (complete : d.Complete) : Reads limit ParseError.reader d e := by
  obtain ⟨kind, span, kindLayout, spanLayout, laid⟩ := layout
  have core := laid.complete_core complete
  have spanComplete : span.Complete :=
    core (some "span", span) (List.mem_cons_of_mem _ List.mem_cons_self)
  have read : Reads (limit + 1) (ParseError.fields.reader "struct ParseError") d
      (e.fault, e.span, ()) := by
    refine laid.reads complete (fun others foreign sound => ?_) _
    refine Collects.field ?_ kindLayout.reads ?_
    · exact (absent_cons ..).mpr ⟨by simp, foreign.absent (by simp)⟩
    · exact .field (foreign.absent (by simp)) (spanLayout.reads spanComplete)
        (.none foreign sound)
  exact (read.map _).below (Nat.le_succ limit)

/-- A tree is read from any of its layouts. -/
theorem Tree.Layout.reads {t : Syntax.Tree} {d : Document} (layout : Tree.Layout t d)
    (complete : d.Complete) : Reads limit Tree.reader d t := by
  obtain ⟨root, errors, listed, rootLayout, each, list, laid⟩ := layout
  have core := laid.complete_core complete
  obtain ⟨rootComplete, listComplete⟩ := List.forall_mem_cons.mp core
  have read : Reads (limit + 1) (Tree.fields.reader "struct Cst") d (t.root, t.errors, ()) := by
    refine laid.reads complete (fun others foreign sound => ?_) _
    refine Collects.field ?_ (rootLayout.reads rootComplete) ?_
    · exact (absent_append ..).mpr ⟨list.absent (by decide), foreign.absent (by simp)⟩
    · refine list.collects each listComplete (fun _ _ => ParseError.Layout.reads) ?_ ?_
      · exact foreign.absent (by simp)
      · exact .none foreign sound
  exact (read.map _).below (Nat.le_succ limit)

/-! The stored form of a tree is one of its layouts. It leaves out what a node need not have. -/

/-- Members in their own order, and no others. -/
theorem laid_self {names : List String} (core : List (Option String × Document)) :
    Laid names core (.object core .closed) :=
  ⟨core, [], rfl, by rw [List.append_nil], List.forall_mem_nil _⟩

theorem Span.layout_toJson (s : Span) : Span.Layout s (Span.toJson s).document := laid_self _

theorem Node.listMember_childrenMember (cs : List Node) :
    ListMember "children" (cs.map fun c => (Node.toJson c).document)
      (documentsOfMembers (childrenMember cs)) := by
  cases cs with
  | nil => exact .omitted
  | cons c cs =>
    have items : documents ((c :: cs).map toJson) =
        (c :: cs).map fun c => (Node.toJson c).document := by
      rw [documents_eq_map, List.map_map]
      rfl
    rw [← items]
    exact .written _

theorem Node.textMember_textMember (text : Option String) :
    TextMember "text" text (documentsOfMembers (textMember text)) := by
  cases text with
  | none => exact .omitted
  | some text => exact .written text

/-- What is written for a node is one of its layouts. -/
theorem Node.layout_toJson (n : Node) : Node.Layout n (Node.toJson n).document := by
  induction n using Node.induction with
  | step n ih =>
    obtain ⟨kind, span, children, text⟩ := n
    have each : List.Forall₂ Node.Layout children
        (children.map fun c => (Node.toJson c).document) :=
      List.forall₂_map_right_iff.mpr (List.forall₂_same.mpr ih)
    rw [toJson_eq, document, documentsOfMembers, documentsOfMembers, documentsOfMembers_append]
    exact .node (Span.layout_toJson span) each (listMember_childrenMember children)
      (textMember_textMember text) (laid_self _)

theorem ParseFault.layout_toJson (f : ParseFault) :
    ParseFault.Layout f (ParseFault.toJson f).document := by
  cases f with
  | unexpectedToken found expected => exact ⟨_, _, rfl, rfl, .refl _⟩
  | unexpectedEnd expected => exact ⟨_, _, rfl, rfl, .refl _⟩
  | unterminatedString => exact ⟨_, _, rfl, rfl, .refl _⟩

theorem ParseError.layout_toJson (e : ParseError) :
    ParseError.Layout e (ParseError.toJson e).document :=
  ⟨_, _, ParseFault.layout_toJson e.fault, Span.layout_toJson e.span, laid_self _⟩

/-- What is written for a tree is one of its layouts. -/
theorem Tree.layout_toJson (t : Syntax.Tree) : Tree.Layout t (Tree.toJson t).document := by
  have errors : documents (t.errors.map ParseError.toJson) =
      t.errors.map fun e => (ParseError.toJson e).document := by
    rw [documents_eq_map, List.map_map]
    rfl
  have each : List.Forall₂ ParseError.Layout t.errors
      (documents (t.errors.map ParseError.toJson)) := by
    rw [errors]
    exact List.forall₂_map_right_iff.mpr
      (List.forall₂_same.mpr fun e _ => ParseError.layout_toJson e)
  exact ⟨_, _, _, Node.layout_toJson t.root, each, .written _, laid_self _⟩

/-- The stored form of a tree is one of its layouts, and the tree is read from every text that
spells one: the members of each object may stand in any order, an empty list or an absent text may
be left out, there may be members that are not known, with any values, and white space may stand
around all tokens. -/
theorem layout_independent (t : Syntax.Tree) :
    (Tree.Layout t (Tree.toJson t).document ∧ (Tree.toJson t).document.Complete ∧
      Spells (Tree.toJson t).document.tokens (Tree.write t).toList) ∧
    ∀ (d : Document) (text : String), Tree.Layout t d → d.Complete →
      Spells d.tokens text.toList → Tree.read text = .ok t := by
  refine ⟨⟨Tree.layout_toJson t, document_complete _, spells_text (Tree.exact_toJson t)⟩, ?_⟩
  intro d text layout complete spells
  have enough := Nat.lt_succ_self d.depth
  rw [Tree.read, readDeep, readWith_spells Tree.reader Document.depth complete spells]
  exact layout.reads complete _ enough (Nat.le_refl _)

/-- Members in reverse order, those that are not known in front. -/
theorem laid_reverse {names : List String} (core others : List (Option String × Document))
    (foreign : Foreign names others) :
    Laid names core (.object (core ++ others).reverse .closed) :=
  ⟨_, others, rfl, List.reverse_perm _, foreign⟩

/-- All members stand in reverse order, those that are not known first; the text of one node is
written as `null`, that of another is left out, and white space stands around the whole. -/
theorem reversed_read :
    let span (start stop : Int) : Json :=
      .object [("end", .integer stop), ("start", .integer start)]
    let leaf : Json := .object
      [("text", .null), ("span", span 0 0xFFFFFFFFFFFFFFFF), ("kind", .string "semicolon")]
    let root : Json := .object
      [("y", .object [("kind", .null)]), ("y", .string "kind"), ("children", .array [leaf]),
        ("span", span 2 1), ("kind", .string "block")]
    let kind : Json := .object [("expected", .string ""), ("type", .string "unexpected_eof")]
    let error : Json := .object [("span", span 0 0), ("kind", kind)]
    let tree : Json := .object [("x", .array [.null]), ("errors", .array [error]), ("root", root)]
    let node : Node :=
      ⟨.block, ⟨2, 1⟩, [⟨.semicolon, ⟨0, 0xFFFFFFFFFFFFFFFF⟩, [], none⟩], none⟩
    Tree.read (String.ofList ([' ', '\n'] ++ tree.write ['\t', '\r'])) =
      .ok ⟨node, [⟨.unexpectedEnd "", ⟨0, 0⟩⟩]⟩ := by
  intro span leaf root kind error tree node
  have spanLayout (s : Span) : Span.Layout s (span s.start.toNat s.stop.toNat).document :=
    laid_reverse _ [] (List.forall_mem_nil _)
  have leafLayout : Node.Layout ⟨.semicolon, ⟨0, 0xFFFFFFFFFFFFFFFF⟩, [], none⟩ leaf.document :=
    .node (spanLayout ⟨0, 0xFFFFFFFFFFFFFFFF⟩) .nil .omitted .null
      (laid_reverse _ [] (List.forall_mem_nil _))
  have unknown : Foreign ["kind", "span", "children", "text"]
      [(some "y", .string (some "kind")), (some "y", .object [(some "kind", .null)] .closed)] := by
    simp [Foreign]
  have rootLayout : Node.Layout node root.document :=
    .node (spanLayout ⟨2, 1⟩) (.cons leafLayout .nil) (.written _) .omitted
      (laid_reverse _ _ unknown)
  have errorLayout : ParseError.Layout ⟨.unexpectedEnd "", ⟨0, 0⟩⟩ error.document :=
    ⟨kind.document, _, ⟨_, _, rfl, rfl, List.Perm.swap _ _ _⟩, spanLayout ⟨0, 0⟩,
      laid_reverse _ [] (List.forall_mem_nil _)⟩
  have foreign : Foreign ["root", "errors"] [(some "x", .array [.null] .closed)] := by
    simp [Foreign]
  have layout : Tree.Layout ⟨node, [⟨.unexpectedEnd "", ⟨0, 0⟩⟩]⟩ tree.document :=
    ⟨_, _, _, rootLayout, .cons errorLayout .nil, .written _, laid_reverse _ _ foreign⟩
  have exact : tree.Exact := by
    simp [tree, error, kind, root, leaf, span, Json.Exact, ExactItems, ExactMembers, UInt64.size,
      Int64.minValue]
  have after : Spells [] ['\t', '\r'] := .nil (by simp [IsSpace])
  have spells := spells_write tree exact after
  rw [List.append_nil] at spells
  have before : Spells tree.document.tokens ([' ', '\n'] ++ tree.write ['\t', '\r']) :=
    spells.space (by simp [IsSpace])
  refine (layout_independent _).2 tree.document _ layout (document_complete tree) ?_
  rw [String.toList_ofList]
  exact before

end ServiceLang.Codec
