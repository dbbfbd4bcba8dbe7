import ServiceLang.Proofs.Lowering.Blame
import ServiceLang.Proofs.Lowering.Resources
import ServiceLang.Proofs.Semantic.LiteralGrammar

/-!
# Lowering of literals

A literal is accepted exactly when its text belongs to the grammar of its kind, and otherwise it is
refused under its own kind, text and span. For strings it makes no difference where they stand: an
expression, the value of an annotation and the value of an attribute are read alike.
-/

namespace ServiceLang.Lowering

open Syntax (Kind Node)
open Semantic
open Semantic.Literal
open Outcome

/-! ### Integers -/

/-- An integer literal is an expression by its value alone. -/
theorem expression_integerLiteral {m : Node} (isInteger : m.kind = .integerLiteral) :
    (expression m).result = (literal m integer?).result.map .integer := by
  rw [expression_eq, expressionOf, isInteger]
  exact result_bind_pure _ _

/-- An integer literal is read as the number that its text denotes, if a 64-bit word holds it, and
is refused otherwise. No text denotes two numbers. -/
theorem integer_literals_read_exactly (m : Node) (isInteger : m.kind = .integerLiteral) :
    let text := m.textOrEmpty.toList
    (∀ v : Int64, (expression m).result = .ok (.integer v) ↔ IsNumeral text v.toInt) ∧
    ((expression m).result = .error (.invalidLiteral .integerLiteral m.textOrEmpty m.span) ↔
      ¬ ∃ i, IsNumeral text i ∧ -9223372036854775808 ≤ i ∧ i ≤ 9223372036854775807) ∧
    ∀ i j, IsNumeral text i → IsNumeral text j → i = j := by
  have read := expression_integerLiteral isInteger
  refine ⟨fun v => ?_, ?_, fun i j first second => first.unique second⟩
  · rw [read, ← integer?_eq_some_iff, ← literal_ok_iff m integer?]
    cases (literal m integer?).result with
    | error e => simp [Except.map]
    | ok w => simp [Except.map]
  · rw [read, ← integer?_eq_none_iff]
    constructor
    · intro refused
      cases denoted : integer? m.textOrEmpty with
      | none => rfl
      | some v =>
        rw [(literal_ok_iff m integer? v).mpr denoted] at refused
        cases refused
    · intro unread
      rw [literal_of_none unread, isInteger]
      rfl

/-- The least number of a word, which has no positive counterpart there, behind the mark of its base
and with a leading zero. -/
theorem least_word_read_exactly :
    (expression (.leaf .integerLiteral ⟨3, 23⟩ "0X-08000000000000000")).result =
      .ok (.integer Int64.minValue) := by
  have digits : Digits.Unsigned 16 "08000000000000000".toList 9223372036854775808 :=
    ⟨by decide, 0 :: 8 :: List.replicate 15 0, by decide, by decide⟩
  exact ((integer_literals_read_exactly _ rfl).1 _).mpr (.hexadecimal (.inr rfl) (.minus digits))

/-! ### Strings -/

theorem expression_stringLiteral {m : Node} (isString : m.kind = .stringLiteral) :
    (expression m).result = (literal m string?).result.map .string := by
  rw [expression_eq, expressionOf, isString]
  exact result_bind_pure _ _

theorem attribute_of_child? {k m : Node} {key : String} (named : Named key k) (filled : key ≠ "")
    (valued : k.child? .stringLiteral = some m) :
    (annotationAttribute k).result = (literal m string?).result.map (⟨key, ·⟩) := by
  rw [annotationAttribute, nameOf_of_named filled named, requiredChild, valued]
  exact result_bind_pure _ _

/-- What the children of an annotation have given to it: its value is that of the only string among
them, and there is one attribute for each of theirs. -/
structure Collected (done : List Node) (a : Annotation) : Prop where
  value : Results (literal · string?) (done.filter (·.kind == .stringLiteral)) a.value.toList
  attributes :
    Results annotationAttribute (done.filter (·.kind == .annotationAttribute)) a.attributes

/-- One child of an annotation more: a second value is refused, and a name adds nothing. -/
theorem Collected.step (done : List Node) (c : Node) (a : Annotation)
    (collected : Collected done a) :
    Yields (Lowering.addToAnnotation a c) (Collected (done ++ [c])) := by
  obtain ⟨value, attributes⟩ := collected
  have other {same kind : Kind} (h : c.kind = same) (apart : same ≠ kind) :
      (done ++ [c]).filter (·.kind == kind) = done.filter (·.kind == kind) :=
    filter_push_other done (h ▸ apart)
  intro b added
  rw [Lowering.addToAnnotation] at added
  cases kind : c.kind with
  | identifier =>
    rw [kind] at added
    cases added
    constructor
    · rw [other kind (by decide)]
      exact value
    · rw [other kind (by decide)]
      exact attributes
  | stringLiteral =>
    cases vacant : a.value with
    | some v =>
      rw [kind, vacant] at added
      cases added
    | none =>
      rw [kind, vacant] at added
      obtain ⟨v, read, made⟩ := bind_ok_iff.mp added
      cases made
      rw [vacant] at value
      constructor
      · rw [filter_push_same done kind]
        exact List.rel_append value (.cons read .nil)
      · rw [other kind (by decide)]
        exact attributes
  | annotationAttribute =>
    rw [kind] at added
    obtain ⟨new, read, made⟩ := bind_ok_iff.mp added
    cases made
    constructor
    · rw [other kind (by decide)]
      exact value
    · rw [filter_push_same done kind]
      exact List.rel_append attributes (.cons read .nil)
  | _ =>
    rw [kind] at added
    cases added

/-- What an annotation holds has been collected from all its children. -/
theorem annotation_collects {n : Node} {a : Annotation}
    (made : (Lowering.annotation n).result = .ok a) : Collected n.significant a := by
  rw [Lowering.annotation] at made
  obtain ⟨-, -, made⟩ := bind_ok_iff.mp made
  obtain ⟨raw, -, made⟩ := bind_ok_iff.mp made
  by_cases empty : withoutAt raw = ""
  · rw [if_pos empty] at made
    cases made
  · rw [if_neg empty] at made
    obtain ⟨-, -, made⟩ := bind_ok_iff.mp made
    have start : Collected [] ⟨withoutAt raw, none, [], n.span⟩ := ⟨.nil, .nil⟩
    exact Yields.foldPrefix Collected.step n.significant start a made

/-- The node is an annotation with that name, and the others stand in it besides names. -/
structure AnnotationOf (n name : Node) (others : List Node) : Prop where
  kind : n.kind = Kind.annotation
  first : n.child? .identifier = some name
  filled : IsAnnotationName name
  others : n.significant.filter (·.kind != .identifier) = others

/-- Names among the children add nothing, wherever they stand. -/
theorem AnnotationOf.result_eq {n name : Node} {others : List Node}
    (is : AnnotationOf n name others) :
    (Lowering.annotation n).result =
      (fold addToAnnotation ⟨withoutAt name.textOrEmpty, none, [], n.span⟩ others).result := by
  have named : Named name.textOrEmpty n := by
    rw [Named, is.first]
    rfl
  have filled : name.textOrEmpty ≠ "" := by
    intro empty
    exact is.filled.2 (by rw [empty]; rfl)
  have skips (a : Annotation) (c : Node) (isName : (c.kind != .identifier) = false) :
      addToAnnotation a c = pure a := by
    have kind : c.kind = .identifier := by simpa using isName
    rw [Lowering.addToAnnotation, kind]
  rw [Lowering.annotation, expectKind_bind, if_pos is.kind, nameOf_of_named filled named, pure_bind,
    if_neg is.filled.2, bind_of_ok _ rfl, fold_skipping skips, is.others]

/-- Attributes that are accepted, with what they are read as. -/
structure AttributesOf (cs : List Node) (as : List Attribute) : Prop where
  kind : ∀ c ∈ cs, c.kind = .annotationAttribute
  results : Results annotationAttribute cs as

theorem addToAnnotation_string {c : Node} (isString : c.kind = .stringLiteral) {a : Annotation}
    (vacant : a.value = none) :
    (Lowering.addToAnnotation a c).result =
      (literal c string?).result.map fun v => { a with value := some v } := by
  rw [Lowering.addToAnnotation, isString, vacant]
  exact result_bind_pure _ _

theorem addToAnnotation_attribute {c : Node} (isAttribute : c.kind = .annotationAttribute)
    (a : Annotation) :
    (Lowering.addToAnnotation a c).result =
      (annotationAttribute c).result.map fun new =>
        { a with attributes := a.attributes ++ [new] } := by
  rw [Lowering.addToAnnotation, isAttribute]
  exact result_bind_pure _ _

theorem AttributesOf.fold_eq {cs : List Node} {as : List Attribute} (of : AttributesOf cs as)
    (a : Annotation) :
    (fold addToAnnotation a cs).result = .ok { a with attributes := a.attributes ++ as } := by
  obtain ⟨kind, results⟩ := of
  induction results generalizing a with
  | nil =>
    rw [List.append_nil]
    rfl
  | cons first _ ih =>
    obtain ⟨isAttribute, rest⟩ := List.forall_mem_cons.mp kind
    have added := addToAnnotation_attribute isAttribute a
    rw [first] at added
    rw [fold, bind_of_ok _ added]
    refine (ih _ rest).trans ?_
    rw [List.append_assoc]
    rfl

theorem Results.exists_of_mem {α γ : Type} {lower : γ → Outcome α} {cs : List γ} {as : List α}
    (results : Results lower cs as) {c : γ} (member : c ∈ cs) :
    ∃ a ∈ as, (lower c).result = .ok a := by
  induction results with
  | nil => cases member
  | cons first _ ih =>
    rcases List.mem_cons.mp member with rfl | later
    · exact ⟨_, List.mem_cons_self, first⟩
    · obtain ⟨a, listed, read⟩ := ih later
      exact ⟨a, List.mem_cons_of_mem _ listed, read⟩

/-- The reading of a string literal is what becomes of it wherever it may stand. -/
structure ReadAs (m : Node) (reading : Except Error String) : Prop where
  /-- as an expression, -/
  expression : (Lowering.expression m).result = reading.map .string
  /-- as a child of an annotation that is accepted, -/
  value : ∀ n a, (Lowering.annotation n).result = .ok a → m ∈ n.significant →
    ∃ v, reading = .ok v ∧ a.value = some v
  /-- as a child of an annotation with nothing else to complain about, -/
  valueAmong : ∀ n name front back as bs, AnnotationOf n name (front ++ m :: back) →
    AttributesOf front as → AttributesOf back bs →
    (Lowering.annotation n).result =
      reading.map fun v => ⟨withoutAt name.textOrEmpty, some v, as ++ bs, n.span⟩
  /-- in an attribute of an annotation that is accepted, -/
  inAttribute : ∀ n a k, (Lowering.annotation n).result = .ok a → k ∈ n.significant →
    k.kind = .annotationAttribute → k.child? .stringLiteral = some m →
    ∃ key v, reading = .ok v ∧ ⟨key, v⟩ ∈ a.attributes
  /-- and in an attribute of an annotation with nothing else to complain about. -/
  attributeAmong : ∀ n name front k back as bs key, AnnotationOf n name (front ++ k :: back) →
    AttributesOf front as → AttributesOf back bs → k.kind = .annotationAttribute →
    Named key k → key ≠ "" → k.child? .stringLiteral = some m →
    (Lowering.annotation n).result =
      reading.map fun v => ⟨withoutAt name.textOrEmpty, none, as ++ ⟨key, v⟩ :: bs, n.span⟩

/-- There is one reading for all places in which a string may stand. -/
theorem readAs_literal {m : Node} (isString : m.kind = .stringLiteral) :
    ReadAs m (literal m string?).result where
  expression := expression_stringLiteral isString
  value n a made member := by
    have listed : m ∈ n.significant.filter (·.kind == .stringLiteral) :=
      List.mem_filter.mpr ⟨member, by simp [isString]⟩
    obtain ⟨v, given, read⟩ := (annotation_collects made).value.exists_of_mem listed
    exact ⟨v, read, Option.mem_toList.mp given⟩
  valueAmong n name front back as bs is before after := by
    rw [is.result_eq]
    exact result_fold_of_split (before.fold_eq _) (addToAnnotation_string isString rfl)
      fun _ => after.fold_eq _
  inAttribute n a k made member isAttribute valued := by
    have listed : k ∈ n.significant.filter (·.kind == .annotationAttribute) :=
      List.mem_filter.mpr ⟨member, by simp [isAttribute]⟩
    obtain ⟨new, given, read⟩ := (annotation_collects made).attributes.exists_of_mem listed
    obtain ⟨key, named, rest⟩ := bind_ok_iff.mp read
    obtain ⟨named, filled⟩ := named_of_nameOf named
    rw [attribute_of_child? named filled valued] at read
    cases reading : (literal m string?).result with
    | error e =>
      rw [reading] at read
      cases read
    | ok v =>
      rw [reading] at read
      cases read
      exact ⟨key, v, rfl, given⟩
  attributeAmong n name front k back as bs key is before after isAttribute named filled valued := by
    have added (b : Annotation) : (Lowering.addToAnnotation b k).result =
        (literal m string?).result.map fun v =>
          { b with attributes := b.attributes ++ [⟨key, v⟩] } := by
      rw [addToAnnotation_attribute isAttribute, attribute_of_child? named filled valued]
      cases (literal m string?).result with
      | error e => rfl
      | ok v => rfl
    rw [is.result_eq]
    refine (result_fold_of_split (before.fold_eq _) (added _) fun _ => after.fold_eq _).trans ?_
    simp only [List.nil_append, List.append_assoc, List.singleton_append]

/-- A string literal is read as the string of which it is a way of writing, whichever of its forms
each character has been given and wherever the literal stands. A text in which no string is written
is refused as it is. No text is a way of writing two strings, or one string twice. -/
theorem string_literals_read_exactly (m : Node) (isString : m.kind = .stringLiteral) :
    ∃ reading, ReadAs m reading ∧
      (∀ value, reading = .ok value ↔ ∃ forms, Quotes value forms m.textOrEmpty) ∧
      ((¬ ∃ value forms, Quotes value forms m.textOrEmpty) →
        reading = .error (.invalidLiteral .stringLiteral m.textOrEmpty m.span)) ∧
      ∀ value forms other others, Quotes value forms m.textOrEmpty →
        Quotes other others m.textOrEmpty → value = other ∧ forms = others := by
  have exact (value : String) : (literal m string?).result = .ok value ↔
      ∃ forms, Quotes value forms m.textOrEmpty := by
    rw [literal_ok_iff, string?_eq_some_iff]
  refine ⟨_, readAs_literal isString, exact, ?_, fun _ _ _ _ first second => first.unique second⟩
  intro unwritten
  cases read : string? m.textOrEmpty with
  | none => rw [literal_of_none read, isString]; rfl
  | some value => exact absurd ⟨value, (string?_eq_some_iff _ _).mp read⟩ unwritten

/-- A quote and a line break may stand raw or behind a backslash, within one text as well. -/
theorem mixed_forms_read_exactly :
    let m := Node.leaf .stringLiteral ⟨6, 17⟩ "\"\"é\\\"\n\\n\\\\\""
    let name := Node.leaf .identifier ⟨0, 5⟩ "@Path"
    (expression m).result = .ok (.string "\"é\"\n\n\\") ∧
      (Lowering.annotation (.branch Kind.annotation ⟨0, 18⟩ [name, m])).result =
        .ok ⟨"Path", some "\"é\"\n\n\\", [], ⟨0, 18⟩⟩ := by
  intro m name
  have quotes : Quotes "\"é\"\n\n\\"
      [['"'], ['é'], ['\\', '"'], ['\n'], ['\\', 'n'], ['\\', '\\']] m.textOrEmpty := by
    refine ⟨?_, by decide⟩
    exact .cons (.raw (by decide)) <| .cons (.raw (by decide)) <| .cons (.escaped (by decide)) <|
      .cons (.raw (by decide)) <| .cons (.escaped (by decide)) <| .cons (.escaped (by decide)) .nil
  obtain ⟨reading, readAs, exact, -⟩ := string_literals_read_exactly m rfl
  have read := (exact _).mpr ⟨_, quotes⟩
  have path : withoutAt name.textOrEmpty = "Path" := by decide
  have annotated : AnnotationOf (.branch Kind.annotation ⟨0, 18⟩ [name, m]) name ([] ++ [m]) :=
    ⟨rfl, rfl, ⟨rfl, by decide⟩, rfl⟩
  have nothing : AttributesOf [] [] := ⟨List.forall_mem_nil _, .nil⟩
  rw [readAs.expression, readAs.valueAmong _ name _ _ _ _ annotated nothing nothing, path, read]
  exact ⟨rfl, rfl⟩

end ServiceLang.Lowering
