import ServiceLang.Codec.Semantic
import ServiceLang.Proofs.Codec.Syntax

/-!
# Stored semantic trees are read back

Each part of a semantic tree is read back from the document of its stored form, whatever names and
texts it holds: a name may be that of a variant, a missing text is told from an empty one, and a
missing branch from an empty one. Only the text of a floating point number need not be read back as
that number, and only so many containers may be open at once.
-/

namespace ServiceLang.Semantic

mutual

/-- No floating point number is in the expression. -/
def Expression.Storable : Expression → Prop
  | .float _ => False
  | .integer _ | .string _ | .boolean _ | .null | .variable _ _ => True
  | .arrayElement _ index _ => index.Storable
  | .invocation _ _ arguments _ => Expression.AllStorable arguments
  | .binary _ left right _ => left.Storable ∧ right.Storable
  | .unary _ operand _ => operand.Storable

def Expression.AllStorable : List Expression → Prop
  | [] => True
  | e :: es => e.Storable ∧ Expression.AllStorable es

end

def Call.Storable (c : Call) : Prop := Expression.AllStorable c.arguments

mutual

/-- No floating point number is in the statement. -/
def Statement.Storable : Statement → Prop
  | .assignment target value _ => target.Storable ∧ value.Storable
  | .return values _ => Expression.AllStorable values
  | .reply value _ => value.Storable
  | .invocation call _ => call.Storable
  | .ifElse condition thenBody elseBody _ =>
    condition.Storable ∧ Statement.AllStorable thenBody ∧ Statement.ElseStorable elseBody
  | .while condition body _ => condition.Storable ∧ Statement.AllStorable body
  | .block statements _ => Statement.AllStorable statements

def Statement.AllStorable : List Statement → Prop
  | [] => True
  | s :: ss => s.Storable ∧ Statement.AllStorable ss

def Statement.ElseStorable : Option (List Statement) → Prop
  | none => True
  | some ss => Statement.AllStorable ss

end

/-- The number of dimensions is one of 64 bits. -/
def Variable.Storable (v : Variable) : Prop := v.type.dimensions < UInt64.size

structure Resource.Storable (r : Resource) : Prop where
  locals : ∀ v ∈ r.locals, v.Storable
  statements : Statement.AllStorable r.statements

def Service.Storable (s : Service) : Prop := ∀ r ∈ s.resources, r.Storable

def Tree.Storable (t : Tree) : Prop := ∀ s ∈ t.services, s.Storable

end ServiceLang.Semantic

namespace ServiceLang.Codec

open Json Json.Reader Semantic
open Json.Fields (Gathers gathers_none)

variable {limit : Nat}

/-- A text that may be missing is written without loss. -/
theorem exact_optionalString (s : Option String) : (optionalString s).Exact := by
  cases s <;> trivial

theorem reads_optionalString (s : Option String) :
    Reads limit (optional string) (optionalString s).document s := by
  cases s with
  | none => exact reads_absent
  | some s => exact (reads_string s).optional Document.noConfusion

/-- The span stands last in everything that has one. -/
theorem gathers_span (s : Span) :
    Gathers limit (Fields.field "span" Span.reader .required Fields.none)
      [(some "span", (Span.toJson s).document)] (s, ()) :=
  Gathers.head (Span.reads s) (Fields.absent_nil _) gathers_none

/-- A name in front of a content loses nothing of it. -/
theorem exact_tagged {name : String} {content : Json} (exact : content.Exact) :
    (tagged name content).Exact :=
  ⟨exact, trivial⟩

/-- An array loses nothing if none of its members does. -/
theorem exact_array_map {α : Type} {write : α → Json} {as : List α}
    (each : ∀ a ∈ as, (write a).Exact) : (Json.array (as.map write)).Exact := by
  refine (exactItems_iff _).mpr fun j member => ?_
  obtain ⟨a, listed, rfl⟩ := List.mem_map.mp member
  exact each a listed

namespace BinaryOp

/-- A binary operator is stored by its name. -/
theorem reads (o : BinaryOp) : Reads limit reader (toJson o).document o := by
  cases o
  all_goals exact Variant.reads_plain rfl rfl

end BinaryOp

namespace UnaryOp

/-- A unary operator is stored by its name. -/
theorem reads (o : UnaryOp) : Reads limit reader (toJson o).document o := by
  cases o
  all_goals exact Variant.reads_plain rfl rfl

end UnaryOp

namespace TypeRef

/-- The number of dimensions is the only number in a type. It must be one of 64 bits. -/
theorem exact_toJson {t : TypeRef} (fits : t.dimensions < UInt64.size) : (toJson t).Exact := by
  have low : Int64.minValue.toInt ≤ 0 := by decide
  refine ⟨trivial, ⟨?_, ?_⟩, trivial⟩
  · omega
  · omega

theorem reads (t : TypeRef) : Reads limit reader (toJson t).document t := by
  have dimensions : Gathers limit (Fields.field "array_dims" natural .required Fields.none)
      [(some "array_dims", .number (some (.integer t.dimensions)))] (t.dimensions, ()) :=
    Gathers.head (reads_natural t.dimensions) (Fields.absent_nil _) gathers_none
  have both : Gathers limit fields
      [(some "name", .string (some t.name)),
        (some "array_dims", .number (some (.integer t.dimensions)))] (t.name, t.dimensions, ()) :=
    Gathers.head (reads_string t.name) (by simp) dimensions
  exact ((both.reads "struct TypeRef").map _).below (Nat.le_succ limit)

end TypeRef

namespace Expression

theorem toJsons_eq_map (es : List Expression) : toJsons es = es.map toJson := by
  induction es with
  | nil => rfl
  | cons e es ih => rw [toJsons, ih, List.map_cons]

mutual

/-- Only floating point numbers can be lost in an expression, and there are none in it. -/
theorem exact_toJson (e : Expression) (storable : e.Storable) : (toJson e).Exact := by
  cases e with
  | integer value =>
    have low := Int64.minValue_le_toInt value
    have high := Int64.toInt_lt value
    refine exact_tagged ⟨low, ?_⟩
    simp only [UInt64.size]
    omega
  | float value => exact storable.elim
  | string value => exact exact_tagged trivial
  | boolean value => exact exact_tagged trivial
  | null => trivial
  | «variable» name span => exact exact_tagged ⟨trivial, Span.exact_toJson span, trivial⟩
  | arrayElement name index span =>
    exact exact_tagged ⟨trivial, exact_toJson index storable, Span.exact_toJson span, trivial⟩
  | invocation package name arguments span =>
    have call : (Call.object package name (toJsons arguments)).Exact :=
      ⟨exact_optionalString package, trivial, exact_toJsons arguments storable, trivial⟩
    exact exact_tagged ⟨call, Span.exact_toJson span, trivial⟩
  | binary op left right span =>
    have first := exact_toJson left storable.1
    have second := exact_toJson right storable.2
    exact exact_tagged ⟨trivial, first, second, Span.exact_toJson span, trivial⟩
  | unary op operand span =>
    exact exact_tagged ⟨trivial, exact_toJson operand storable, Span.exact_toJson span, trivial⟩

theorem exact_toJsons (es : List Expression) (storable : Expression.AllStorable es) :
    ExactItems (toJsons es) := by
  cases es with
  | nil => trivial
  | cons e es => exact ⟨exact_toJson e storable.1, exact_toJsons es storable.2⟩

end

end Expression

namespace Call

theorem exact_toJson {c : Call} (storable : c.Storable) : (toJson c).Exact := by
  have arguments := Expression.exact_toJsons c.arguments storable
  exact ⟨exact_optionalString c.package, trivial, arguments, trivial⟩

/-- A call is read by whichever reader of expressions its arguments are read by. -/
theorem reads_object {r : Reader Expression} {arguments : List Expression}
    (each : ∀ e ∈ arguments, Reads limit r (Expression.toJson e).document e)
    (package : Option String) (name : String) :
    Reads limit (readerOver r)
      (object package name (Expression.toJsons arguments)).document
      ⟨package, name, arguments⟩ := by
  rw [Expression.toJsons_eq_map]
  have last : Gathers limit (Fields.field "args" (list r) .required Fields.none)
      [(some "args", (Json.array (arguments.map Expression.toJson)).document)] (arguments, ()) :=
    Gathers.head (reads_list_map each) (Fields.absent_nil _) gathers_none
  have all : Gathers limit (fields r)
      [(some "package", (optionalString package).document), (some "name", .string (some name)),
        (some "args", (Json.array (arguments.map Expression.toJson)).document)]
      (package, name, arguments, ()) :=
    Gathers.head (reads_optionalString package) (by simp) <|
      Gathers.head (reads_string name) (by simp) last
  exact ((all.reads "struct FunctionCall").map _).below (Nat.le_succ limit)

end Call

namespace Expression

section

variable {r : Reader Expression}

/-- Fields are gathered in the order in which they are declared, here and below. -/
theorem gathers_variable (name : String) (span : Span) :
    Gathers limit variableFields
      [(some "name", .string (some name)), (some "span", (Span.toJson span).document)]
      (name, span, ()) :=
  Gathers.head (reads_string name) (by simp) (gathers_span span)

theorem gathers_arrayElement {index : Expression}
    (reads : Reads limit r (toJson index).document index) (name : String) (span : Span) :
    Gathers limit (arrayElementFields r)
      [(some "name", .string (some name)), (some "index", (toJson index).document),
        (some "span", (Span.toJson span).document)] (name, index, span, ()) :=
  Gathers.head (reads_string name) (by simp) <|
    Gathers.head reads (by simp) (gathers_span span)

theorem gathers_invocation {call : Reader Call} {c : Call} {d : Document}
    (reads : Reads limit call d c) (span : Span) :
    Gathers limit (invocationFields call)
      [(some "call", d), (some "span", (Span.toJson span).document)] (c, span, ()) :=
  Gathers.head reads (by simp) (gathers_span span)

/-- The operands of an operation are read by the reader of the level below. -/
theorem gathers_binary {left right : Expression}
    (readsLeft : Reads limit r (toJson left).document left)
    (readsRight : Reads limit r (toJson right).document right) (op : BinaryOp) (span : Span) :
    Gathers limit (binaryFields r)
      [(some "op", (BinaryOp.toJson op).document), (some "left", (toJson left).document),
        (some "right", (toJson right).document), (some "span", (Span.toJson span).document)]
      (op, left, right, span, ()) :=
  Gathers.head (BinaryOp.reads op) (by simp) <|
    Gathers.head readsLeft (by simp) <|
      Gathers.head readsRight (by simp) (gathers_span span)

theorem gathers_unary {operand : Expression}
    (reads : Reads limit r (toJson operand).document operand) (op : UnaryOp) (span : Span) :
    Gathers limit (unaryFields r)
      [(some "op", (UnaryOp.toJson op).document), (some "operand", (toJson operand).document),
        (some "span", (Span.toJson span).document)] (op, operand, span, ()) :=
  Gathers.head (UnaryOp.reads op) (by simp) <|
    Gathers.head reads (by simp) (gathers_span span)

/-- One level of an expression: each variant is found by its name and read by the fields it has. -/
theorem reads_step (each : ∀ e, Reads limit r (toJson e).document e) (e : Expression) :
    Reads (limit + 1) (Variant.reader (variants r)) (toJson e).document e := by
  cases e with
  | integer value => exact Variant.reads_tagged rfl ((reads_integer value).map _)
  | float value => exact Variant.reads_tagged rfl ((reads_float value).map _)
  | string value => exact Variant.reads_tagged rfl ((reads_string value).map _)
  | boolean value => exact Variant.reads_tagged rfl ((reads_boolean value).map _)
  | null => exact Variant.reads_plain rfl rfl
  | «variable» name span => exact Variant.reads_record rfl (gathers_variable name span) rfl
  | arrayElement name index span =>
    exact Variant.reads_record rfl (gathers_arrayElement (each index) name span) rfl
  | invocation package name arguments span =>
    have call := Call.reads_object (fun e (_ : e ∈ arguments) => each e) package name
    exact Variant.reads_record rfl (gathers_invocation call span) rfl
  | binary op left right span =>
    exact Variant.reads_record rfl (gathers_binary (each left) (each right) op span) rfl
  | unary op operand span =>
    exact Variant.reads_record rfl (gathers_unary (each operand) op span) rfl

end

theorem reads (e : Expression) : Reads limit reader (toJson e).document e := by
  refine reads_recursive fun fuel => ?_
  -- a step opens the object around a variant, so that less fuel is enough for what is inside
  induction fuel generalizing e with
  | zero =>
    intro budget below
    omega
  | succ fuel ih => exact reads_stepped (reads_step ih e)

end Expression

/-- The arguments of a call are read as expressions of any depth. -/
theorem Call.reads (c : Call) : Reads limit reader (toJson c).document c :=
  reads_object (fun e _ => Expression.reads e) c.package c.name

namespace Statement

theorem toJsons_eq_map (ss : List Statement) : toJsons ss = ss.map toJson := by
  induction ss with
  | nil => rfl
  | cons s ss ih => rw [toJsons, ih, List.map_cons]

mutual

theorem exact_toJson (s : Statement) (storable : s.Storable) : (toJson s).Exact := by
  cases s with
  | assignment target value span =>
    have first := Expression.exact_toJson target storable.1
    have second := Expression.exact_toJson value storable.2
    exact exact_tagged ⟨first, second, Span.exact_toJson span, trivial⟩
  | «return» values span =>
    have all := Expression.exact_toJsons values storable
    exact exact_tagged ⟨all, Span.exact_toJson span, trivial⟩
  | reply value span =>
    exact exact_tagged ⟨Expression.exact_toJson value storable, Span.exact_toJson span, trivial⟩
  | invocation call span =>
    exact exact_tagged ⟨Call.exact_toJson storable, Span.exact_toJson span, trivial⟩
  | ifElse condition thenBody elseBody span =>
    have first := Expression.exact_toJson condition storable.1
    have second := exact_toJsons thenBody storable.2.1
    have third := exact_branchToJson elseBody storable.2.2
    exact exact_tagged ⟨first, second, third, Span.exact_toJson span, trivial⟩
  | «while» condition body span =>
    have first := Expression.exact_toJson condition storable.1
    exact exact_tagged ⟨first, exact_toJsons body storable.2, Span.exact_toJson span, trivial⟩
  | block statements span =>
    exact exact_tagged ⟨exact_toJsons statements storable, Span.exact_toJson span, trivial⟩

theorem exact_toJsons (ss : List Statement) (storable : Statement.AllStorable ss) :
    ExactItems (toJsons ss) := by
  cases ss with
  | nil => trivial
  | cons s ss => exact ⟨exact_toJson s storable.1, exact_toJsons ss storable.2⟩

/-- A missing else branch is written as `null`, an empty one as an empty array. -/
theorem exact_branchToJson (elseBody : Option (List Statement))
    (storable : Statement.ElseStorable elseBody) : (branchToJson elseBody).Exact := by
  cases elseBody with
  | none => trivial
  | some ss => exact exact_toJsons ss storable

end

section

variable {r : Reader Statement}

theorem reads_body (each : ∀ s, Reads limit r (toJson s).document s) (ss : List Statement) :
    Reads limit (list r) (Json.array (toJsons ss)).document ss := by
  rw [toJsons_eq_map]
  exact reads_list_map fun s _ => each s

/-- A missing else branch and an empty one are told apart when they are read. -/
theorem reads_branch (each : ∀ s, Reads limit r (toJson s).document s)
    (elseBody : Option (List Statement)) :
    Reads limit (optional (list r)) (branchToJson elseBody).document elseBody := by
  cases elseBody with
  | none => exact reads_absent
  | some ss => exact (reads_body each ss).optional Document.noConfusion

theorem reads_values (es : List Expression) :
    Reads limit (list Expression.reader) (Json.array (Expression.toJsons es)).document es := by
  rw [Expression.toJsons_eq_map]
  exact reads_list_map fun e _ => Expression.reads e

theorem gathers_assignment (target value : Expression) (span : Span) :
    Gathers limit assignmentFields
      [(some "target", (Expression.toJson target).document),
        (some "value", (Expression.toJson value).document),
        (some "span", (Span.toJson span).document)] (target, value, span, ()) :=
  Gathers.head (Expression.reads target) (by simp) <|
    Gathers.head (Expression.reads value) (by simp) (gathers_span span)

theorem gathers_return (values : List Expression) (span : Span) :
    Gathers limit returnFields
      [(some "values", (Json.array (Expression.toJsons values)).document),
        (some "span", (Span.toJson span).document)] (values, span, ()) :=
  Gathers.head (reads_values values) (by simp) (gathers_span span)

theorem gathers_reply (value : Expression) (span : Span) :
    Gathers limit replyFields
      [(some "value", (Expression.toJson value).document),
        (some "span", (Span.toJson span).document)] (value, span, ()) :=
  Gathers.head (Expression.reads value) (by simp) (gathers_span span)

/-- The bodies are read by the reader of the level below, the condition by that of expressions. -/
theorem gathers_ifElse (each : ∀ s, Reads limit r (toJson s).document s) (condition : Expression)
    (thenBody : List Statement) (elseBody : Option (List Statement)) (span : Span) :
    Gathers limit (ifElseFields r)
      [(some "condition", (Expression.toJson condition).document),
        (some "then_body", (Json.array (toJsons thenBody)).document),
        (some "else_body", (branchToJson elseBody).document),
        (some "span", (Span.toJson span).document)] (condition, thenBody, elseBody, span, ()) :=
  Gathers.head (Expression.reads condition) (by simp) <|
    Gathers.head (reads_body each thenBody) (by simp) <|
      Gathers.head (reads_branch each elseBody) (by simp) (gathers_span span)

theorem gathers_while (each : ∀ s, Reads limit r (toJson s).document s) (condition : Expression)
    (body : List Statement) (span : Span) :
    Gathers limit (whileFields r)
      [(some "condition", (Expression.toJson condition).document),
        (some "body", (Json.array (toJsons body)).document),
        (some "span", (Span.toJson span).document)] (condition, body, span, ()) :=
  Gathers.head (Expression.reads condition) (by simp) <|
    Gathers.head (reads_body each body) (by simp) (gathers_span span)

theorem gathers_block (each : ∀ s, Reads limit r (toJson s).document s)
    (statements : List Statement) (span : Span) :
    Gathers limit (blockFields r)
      [(some "statements", (Json.array (toJsons statements)).document),
        (some "span", (Span.toJson span).document)] (statements, span, ()) :=
  Gathers.head (reads_body each statements) (by simp) (gathers_span span)

theorem reads_step (each : ∀ s, Reads limit r (toJson s).document s) (s : Statement) :
    Reads (limit + 1) (Variant.reader (variants r)) (toJson s).document s := by
  cases s with
  | assignment target value span =>
    exact Variant.reads_record rfl (gathers_assignment target value span) rfl
  | «return» values span => exact Variant.reads_record rfl (gathers_return values span) rfl
  | reply value span => exact Variant.reads_record rfl (gathers_reply value span) rfl
  | invocation call span =>
    exact Variant.reads_record rfl (Expression.gathers_invocation (Call.reads call) span) rfl
  | ifElse condition thenBody elseBody span =>
    exact Variant.reads_record rfl (gathers_ifElse each condition thenBody elseBody span) rfl
  | «while» condition body span =>
    exact Variant.reads_record rfl (gathers_while each condition body span) rfl
  | block statements span =>
    exact Variant.reads_record rfl (gathers_block each statements span) rfl

end

theorem reads (s : Statement) : Reads limit reader (toJson s).document s := by
  refine reads_recursive fun fuel => ?_
  induction fuel generalizing s with
  | zero =>
    intro budget below
    omega
  | succ fuel ih => exact reads_stepped (reads_step ih s)

end Statement

namespace Attribute

theorem exact_toJson (a : Attribute) : (toJson a).Exact := ⟨trivial, trivial, trivial⟩

theorem reads (a : Attribute) : Reads limit reader (toJson a).document a := by
  have value : Gathers limit (Fields.field "value" string .required Fields.none)
      [(some "value", .string (some a.value))] (a.value, ()) :=
    Gathers.head (reads_string a.value) (Fields.absent_nil _) gathers_none
  have both : Gathers limit fields
      [(some "key", .string (some a.key)), (some "value", .string (some a.value))]
      (a.key, a.value, ()) :=
    Gathers.head (reads_string a.key) (by simp) value
  exact ((both.reads "struct AnnotationAttribute").map _).below (Nat.le_succ limit)

end Attribute

namespace Annotation

theorem exact_toJson (a : Annotation) : (toJson a).Exact := by
  have attributes := exact_array_map fun b (_ : b ∈ a.attributes) => Attribute.exact_toJson b
  exact ⟨trivial, exact_optionalString a.value, attributes, Span.exact_toJson a.span, trivial⟩

theorem reads (a : Annotation) : Reads limit reader (toJson a).document a := by
  have attributes : Reads limit (list Attribute.reader)
      (Json.array (a.attributes.map Attribute.toJson)).document a.attributes :=
    reads_list_map fun b _ => Attribute.reads b
  have all : Gathers limit fields
      [(some "name", .string (some a.name)), (some "value", (optionalString a.value).document),
        (some "attributes", (Json.array (a.attributes.map Attribute.toJson)).document),
        (some "span", (Span.toJson a.span).document)]
      (a.name, a.value, a.attributes, a.span, ()) :=
    Gathers.head (reads_string a.name) (by simp) <|
      Gathers.head (reads_optionalString a.value) (by simp) <|
        Gathers.head attributes (by simp) (gathers_span a.span)
  exact ((all.reads "struct Annotation").map _).below (Nat.le_succ limit)

end Annotation

namespace Variable

theorem exact_toJson {v : Variable} (storable : v.Storable) : (toJson v).Exact :=
  ⟨trivial, TypeRef.exact_toJson storable, Span.exact_toJson v.span, trivial⟩

theorem reads (v : Variable) : Reads limit reader (toJson v).document v := by
  have all : Gathers limit fields
      [(some "name", .string (some v.name)), (some "var_type", (TypeRef.toJson v.type).document),
        (some "span", (Span.toJson v.span).document)] (v.name, v.type, v.span, ()) :=
    Gathers.head (reads_string v.name) (by simp) <|
      Gathers.head (TypeRef.reads v.type) (by simp) (gathers_span v.span)
  exact ((all.reads "struct VariableDecl").map _).below (Nat.le_succ limit)

end Variable

namespace Resource

theorem exact_toJson {r : Resource} (storable : r.Storable) : (toJson r).Exact := by
  have annotations := exact_array_map fun a (_ : a ∈ r.annotations) => Annotation.exact_toJson a
  have locals := exact_array_map fun v member => Variable.exact_toJson (storable.locals v member)
  have statements := Statement.exact_toJsons r.statements storable.statements
  exact ⟨trivial, annotations, locals, statements, Span.exact_toJson r.span, trivial⟩

theorem reads (r : Resource) : Reads limit reader (toJson r).document r := by
  have annotations : Reads limit (list Annotation.reader)
      (Json.array (r.annotations.map Annotation.toJson)).document r.annotations :=
    reads_list_map fun a _ => Annotation.reads a
  have locals : Reads limit (list Variable.reader)
      (Json.array (r.locals.map Variable.toJson)).document r.locals :=
    reads_list_map fun v _ => Variable.reads v
  have statements : Reads limit (list Statement.reader)
      (Json.array (Statement.toJsons r.statements)).document r.statements :=
    Statement.reads_body Statement.reads r.statements
  have all : Gathers limit fields
      [(some "name", .string (some r.name)),
        (some "annotations", (Json.array (r.annotations.map Annotation.toJson)).document),
        (some "local_variables", (Json.array (r.locals.map Variable.toJson)).document),
        (some "statements", (Json.array (Statement.toJsons r.statements)).document),
        (some "span", (Span.toJson r.span).document)]
      (r.name, r.annotations, r.locals, r.statements, r.span, ()) :=
    Gathers.head (reads_string r.name) (by simp) <|
      Gathers.head annotations (by simp) <|
        Gathers.head locals (by simp) <|
          Gathers.head statements (by simp) (gathers_span r.span)
  exact ((all.reads "struct Resource").map _).below (Nat.le_succ limit)

end Resource

namespace Service

theorem exact_toJson {s : Service} (storable : s.Storable) : (toJson s).Exact := by
  have annotations := exact_array_map fun a (_ : a ∈ s.annotations) => Annotation.exact_toJson a
  have resources := exact_array_map fun r member => Resource.exact_toJson (storable r member)
  exact ⟨trivial, annotations, resources, Span.exact_toJson s.span, trivial⟩

theorem reads (s : Service) : Reads limit reader (toJson s).document s := by
  have annotations : Reads limit (list Annotation.reader)
      (Json.array (s.annotations.map Annotation.toJson)).document s.annotations :=
    reads_list_map fun a _ => Annotation.reads a
  have resources : Reads limit (list Resource.reader)
      (Json.array (s.resources.map Resource.toJson)).document s.resources :=
    reads_list_map fun r _ => Resource.reads r
  have all : Gathers limit fields
      [(some "name", .string (some s.name)),
        (some "annotations", (Json.array (s.annotations.map Annotation.toJson)).document),
        (some "resources", (Json.array (s.resources.map Resource.toJson)).document),
        (some "span", (Span.toJson s.span).document)]
      (s.name, s.annotations, s.resources, s.span, ()) :=
    Gathers.head (reads_string s.name) (by simp) <|
      Gathers.head annotations (by simp) <|
        Gathers.head resources (by simp) (gathers_span s.span)
  exact ((all.reads "struct Service").map _).below (Nat.le_succ limit)

end Service

namespace SemanticTree

theorem exact_toJson {t : Semantic.Tree} (storable : t.Storable) : (toJson t).Exact :=
  ⟨exact_array_map fun s member => Service.exact_toJson (storable s member), trivial⟩

theorem reads (t : Semantic.Tree) : Reads limit reader (toJson t).document t := by
  have services : Gathers limit fields
      [(some "services", (Json.array (t.services.map Service.toJson)).document)]
      (t.services, ()) :=
    Gathers.head (reads_list_map fun s _ => Service.reads s) (Fields.absent_nil _) gathers_none
  exact ((services.reads "struct Ast").map _).below (Nat.le_succ limit)

end SemanticTree

/-- What is stored for a value is read as the value, unless it is nested deeper than a text may
be. -/
def ReadBack {α : Type} (toJson : α → Json) (reader : Reader α) (a : α) : Prop :=
  (toJson a).document.depth ≤ nestingLimit → Json.read reader (toJson a).text = .ok a

/-- What is written without loss and read by its reader survives being written and read. -/
theorem readBack {α : Type} {toJson : α → Json} {reader : Reader α} {a : α}
    (exact : (toJson a).Exact) (reads : Reads (nestingLimit + 1) reader (toJson a).document a) :
    ReadBack toJson reader a := by
  intro shallow
  rw [Json.read, readWith_text reader _ exact]
  exact reads nestingLimit (Nat.lt_succ_self _) shallow

/-- Semantic trees and their parts are read back as what they are: every statement, expression and
operator, every integer, position and number of dimensions, every text and every sequence. -/
theorem semantic_read_back :
    (∀ t : Semantic.Tree, t.Storable → ReadBack SemanticTree.toJson SemanticTree.reader t) ∧
    (∀ s : Service, s.Storable → ReadBack Service.toJson Service.reader s) ∧
    (∀ r : Resource, r.Storable → ReadBack Resource.toJson Resource.reader r) ∧
    (∀ a : Annotation, ReadBack Annotation.toJson Annotation.reader a) ∧
    (∀ v : Variable, v.Storable → ReadBack Variable.toJson Variable.reader v) ∧
    (∀ s : Statement, s.Storable → ReadBack Statement.toJson Statement.reader s) ∧
    (∀ e : Expression, e.Storable → ReadBack Expression.toJson Expression.reader e) := by
  refine ⟨?_, ?_, ?_, ?_, ?_, ?_, ?_⟩
  · intro t storable
    exact readBack (SemanticTree.exact_toJson storable) (SemanticTree.reads t)
  · intro s storable
    exact readBack (Service.exact_toJson storable) (Service.reads s)
  · intro r storable
    exact readBack (Resource.exact_toJson storable) (Resource.reads r)
  · intro a
    apply readBack
    · exact Annotation.exact_toJson a
    · exact Annotation.reads a
  · intro v storable
    exact readBack (Variable.exact_toJson storable) (Variable.reads v)
  · intro s storable
    exact readBack (Statement.exact_toJson s storable) (Statement.reads s)
  · intro e storable
    exact readBack (Expression.exact_toJson e storable) (Expression.reads e)

/-- Names of variants as names and texts, missing and empty branches and texts, numbers at their
limits. -/
theorem ambiguous_read_back :
    let whole : Span := ⟨0, 0xFFFFFFFFFFFFFFFF⟩
    let condition : Expression := .binary .notEq .null (.string "Null") whole
    let call : Call := ⟨some "", "Call", [.variable "Variable" whole, .integer Int64.minValue]⟩
    let empty : Statement := .ifElse condition [] (some []) whole
    let missing : Statement := .ifElse condition [.invocation call whole] none whole
    let locals : List Variable := [⟨"span", ⟨"int", 0xFFFFFFFFFFFFFFFF⟩, whole⟩]
    let annotations : List Annotation :=
      [⟨"Path", none, [], whole⟩, ⟨"Path", some "", [⟨"", "null"⟩], whole⟩]
    let resource : Resource := ⟨"IfElse", annotations, locals, [missing, empty], whole⟩
    let tree : Semantic.Tree := ⟨[⟨"services", annotations, [resource], whole⟩]⟩
    tree.Storable ∧ (SemanticTree.toJson tree).document.depth ≤ nestingLimit ∧
    Json.read SemanticTree.reader (SemanticTree.toJson tree).text = .ok tree := by
  intro whole condition call empty missing locals annotations resource tree
  have statements : Statement.AllStorable [missing, empty] := by
    have call : call.Storable := ⟨trivial, trivial, trivial⟩
    refine ⟨⟨⟨trivial, trivial⟩, ⟨call, trivial⟩, trivial⟩, ?_, trivial⟩
    exact ⟨⟨trivial, trivial⟩, trivial, trivial⟩
  have small : ∀ v ∈ locals, v.Storable := by
    simp [locals, Variable.Storable, UInt64.size]
  have storable : tree.Storable := by
    intro s service r member
    rw [List.mem_singleton.mp service, List.mem_singleton] at member
    subst member
    exact ⟨small, statements⟩
  have shallow : (SemanticTree.toJson tree).document.depth ≤ nestingLimit := by decide
  exact ⟨storable, shallow, semantic_read_back.1 tree storable shallow⟩

end ServiceLang.Codec
