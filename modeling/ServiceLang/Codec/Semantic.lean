import ServiceLang.Codec.Syntax
import ServiceLang.Semantic.Tree

/-!
# Stored form of semantic trees

Expressions, statements and operators are choices: the name of the variant and, if it has content,
the content under that name. Members that may be missing are written as `null`, so that a missing
branch is told from an empty one.
-/

namespace ServiceLang.Codec

open Json Semantic

/-- A variant with its content. -/
def tagged (name : String) (content : Json) : Json := .object [(name, content)]

def optionalString : Option String → Json
  | some s => .string s
  | none => .null

namespace BinaryOp

def toJson (o : BinaryOp) : Json := .string o.name

def reader : Reader BinaryOp :=
  Variant.reader (BinaryOp.all.map fun o => Variant.plain o.name o)

end BinaryOp

namespace UnaryOp

def toJson (o : UnaryOp) : Json := .string o.name

def reader : Reader UnaryOp :=
  Variant.reader (UnaryOp.all.map fun o => Variant.plain o.name o)

end UnaryOp

namespace TypeRef

def toJson (t : TypeRef) : Json :=
  .object [("name", .string t.name), ("array_dims", .integer t.dimensions)]

def fields :=
  Fields.field "name" Reader.string .required <|
  Fields.field "array_dims" Reader.natural .required Fields.none

def reader : Reader TypeRef :=
  (fields.reader "struct TypeRef").map fun (name, dimensions, _) => ⟨name, dimensions⟩

end TypeRef

namespace Call

def object (package : Option String) (name : String) (arguments : List Json) : Json :=
  .object [("package", optionalString package), ("name", .string name), ("args", .array arguments)]

def fields (expression : Reader Expression) :=
  Fields.field "package" (Reader.optional Reader.string) (.absentAs none) <|
  Fields.field "name" Reader.string .required <|
  Fields.field "args" (Reader.list expression) .required Fields.none

def readerOver (expression : Reader Expression) : Reader Call :=
  ((fields expression).reader "struct FunctionCall").map fun (package, name, arguments, _) =>
    ⟨package, name, arguments⟩

end Call

namespace Expression

mutual

def toJson : Expression → Json
  | .integer value => tagged "Integer" (.integer value.toInt)
  | .float value => tagged "Float" (.float value)
  | .string value => tagged "String" (.string value)
  | .boolean value => tagged "Boolean" (.bool value)
  | .null => .string "Null"
  | .variable name span =>
    tagged "Variable" <| .object [("name", .string name), ("span", Span.toJson span)]
  | .arrayElement name index span =>
    tagged "ArrayElement" <|
      .object [("name", .string name), ("index", toJson index), ("span", Span.toJson span)]
  | .invocation package name arguments span =>
    tagged "FunctionInvocation" <|
      .object [("call", Call.object package name (toJsons arguments)), ("span", Span.toJson span)]
  | .binary op left right span =>
    tagged "Binary" <|
      .object [("op", BinaryOp.toJson op), ("left", toJson left), ("right", toJson right),
        ("span", Span.toJson span)]
  | .unary op operand span =>
    tagged "Unary" <|
      .object [("op", UnaryOp.toJson op), ("operand", toJson operand), ("span", Span.toJson span)]

def toJsons : List Expression → List Json
  | [] => []
  | e :: es => toJson e :: toJsons es

end

def variableFields :=
  Fields.field "name" Reader.string .required <|
  Fields.field "span" Span.reader .required Fields.none

def arrayElementFields (expression : Reader Expression) :=
  Fields.field "name" Reader.string .required <|
  Fields.field "index" expression .required <|
  Fields.field "span" Span.reader .required Fields.none

def invocationFields (call : Reader Call) :=
  Fields.field "call" call .required <|
  Fields.field "span" Span.reader .required Fields.none

def binaryFields (expression : Reader Expression) :=
  Fields.field "op" BinaryOp.reader .required <|
  Fields.field "left" expression .required <|
  Fields.field "right" expression .required <|
  Fields.field "span" Span.reader .required Fields.none

def unaryFields (expression : Reader Expression) :=
  Fields.field "op" UnaryOp.reader .required <|
  Fields.field "operand" expression .required <|
  Fields.field "span" Span.reader .required Fields.none

def variants (expression : Reader Expression) : List (Variant Expression) :=
  [.holding "Integer" Reader.integer .integer,
   .holding "Float" Reader.float .float,
   .holding "String" Reader.string .string,
   .holding "Boolean" Reader.boolean .boolean,
   .plain "Null" .null,
   .record "Expression" "Variable" variableFields fun (name, span, _) => .variable name span,
   .record "Expression" "ArrayElement" (arrayElementFields expression)
     fun (name, index, span, _) => .arrayElement name index span,
   .record "Expression" "FunctionInvocation" (invocationFields (Call.readerOver expression))
     fun (call, span, _) => call.toExpression span,
   .record "Expression" "Binary" (binaryFields expression)
     fun (op, left, right, span, _) => .binary op left right span,
   .record "Expression" "Unary" (unaryFields expression)
     fun (op, operand, span, _) => .unary op operand span]

def reader : Reader Expression := Reader.recursive fun self => Variant.reader (variants self)

end Expression

namespace Call

def toJson (c : Call) : Json := object c.package c.name (Expression.toJsons c.arguments)

def reader : Reader Call := readerOver Expression.reader

end Call

namespace Statement

mutual

def toJson : Statement → Json
  | .assignment target value span =>
    tagged "Assignment" <|
      .object [("target", Expression.toJson target), ("value", Expression.toJson value),
        ("span", Span.toJson span)]
  | .return values span =>
    tagged "Return" <|
      .object [("values", .array (Expression.toJsons values)), ("span", Span.toJson span)]
  | .reply value span =>
    tagged "Reply" <|
      .object [("value", Expression.toJson value), ("span", Span.toJson span)]
  | .invocation call span =>
    tagged "FunctionInvocation" <|
      .object [("call", Call.toJson call), ("span", Span.toJson span)]
  | .ifElse condition thenBody elseBody span =>
    tagged "IfElse" <|
      .object [("condition", Expression.toJson condition),
        ("then_body", .array (toJsons thenBody)), ("else_body", branchToJson elseBody),
        ("span", Span.toJson span)]
  | .while condition body span =>
    tagged "While" <|
      .object [("condition", Expression.toJson condition), ("body", .array (toJsons body)),
        ("span", Span.toJson span)]
  | .block statements span =>
    tagged "Block" <|
      .object [("statements", .array (toJsons statements)), ("span", Span.toJson span)]

def toJsons : List Statement → List Json
  | [] => []
  | s :: ss => toJson s :: toJsons ss

def branchToJson : Option (List Statement) → Json
  | some body => .array (toJsons body)
  | none => .null

end

def assignmentFields :=
  Fields.field "target" Expression.reader .required <|
  Fields.field "value" Expression.reader .required <|
  Fields.field "span" Span.reader .required Fields.none

def returnFields :=
  Fields.field "values" (Reader.list Expression.reader) .required <|
  Fields.field "span" Span.reader .required Fields.none

def replyFields :=
  Fields.field "value" Expression.reader .required <|
  Fields.field "span" Span.reader .required Fields.none

def ifElseFields (statement : Reader Statement) :=
  Fields.field "condition" Expression.reader .required <|
  Fields.field "then_body" (Reader.list statement) .required <|
  Fields.field "else_body" (Reader.optional (Reader.list statement)) (.absentAs none) <|
  Fields.field "span" Span.reader .required Fields.none

def whileFields (statement : Reader Statement) :=
  Fields.field "condition" Expression.reader .required <|
  Fields.field "body" (Reader.list statement) .required <|
  Fields.field "span" Span.reader .required Fields.none

def blockFields (statement : Reader Statement) :=
  Fields.field "statements" (Reader.list statement) .required <|
  Fields.field "span" Span.reader .required Fields.none

def variants (statement : Reader Statement) : List (Variant Statement) :=
  [.record "Statement" "Assignment" assignmentFields
     fun (target, value, span, _) => .assignment target value span,
   .record "Statement" "Return" returnFields fun (values, span, _) => .return values span,
   .record "Statement" "Reply" replyFields fun (value, span, _) => .reply value span,
   .record "Statement" "FunctionInvocation" (Expression.invocationFields Call.reader)
     fun (call, span, _) => .invocation call span,
   .record "Statement" "IfElse" (ifElseFields statement)
     fun (condition, thenBody, elseBody, span, _) => .ifElse condition thenBody elseBody span,
   .record "Statement" "While" (whileFields statement)
     fun (condition, body, span, _) => .while condition body span,
   .record "Statement" "Block" (blockFields statement)
     fun (statements, span, _) => .block statements span]

def reader : Reader Statement := Reader.recursive fun self => Variant.reader (variants self)

end Statement

namespace Attribute

def toJson (a : Attribute) : Json :=
  .object [("key", .string a.key), ("value", .string a.value)]

def fields :=
  Fields.field "key" Reader.string .required <|
  Fields.field "value" Reader.string .required Fields.none

def reader : Reader Attribute :=
  (fields.reader "struct AnnotationAttribute").map fun (key, value, _) => ⟨key, value⟩

end Attribute

namespace Annotation

def toJson (a : Annotation) : Json :=
  .object [("name", .string a.name), ("value", optionalString a.value),
    ("attributes", .array (a.attributes.map Attribute.toJson)), ("span", Span.toJson a.span)]

def fields :=
  Fields.field "name" Reader.string .required <|
  Fields.field "value" (Reader.optional Reader.string) (.absentAs none) <|
  Fields.field "attributes" (Reader.list Attribute.reader) .required <|
  Fields.field "span" Span.reader .required Fields.none

def reader : Reader Annotation :=
  (fields.reader "struct Annotation").map fun (name, value, attributes, span, _) =>
    ⟨name, value, attributes, span⟩

end Annotation

namespace Variable

def toJson (v : Variable) : Json :=
  .object [("name", .string v.name), ("var_type", TypeRef.toJson v.type),
    ("span", Span.toJson v.span)]

def fields :=
  Fields.field "name" Reader.string .required <|
  Fields.field "var_type" TypeRef.reader .required <|
  Fields.field "span" Span.reader .required Fields.none

def reader : Reader Variable :=
  (fields.reader "struct VariableDecl").map fun (name, type, span, _) => ⟨name, type, span⟩

end Variable

namespace Resource

def toJson (r : Resource) : Json :=
  .object [("name", .string r.name), ("annotations", .array (r.annotations.map Annotation.toJson)),
    ("local_variables", .array (r.locals.map Variable.toJson)),
    ("statements", .array (Statement.toJsons r.statements)), ("span", Span.toJson r.span)]

def fields :=
  Fields.field "name" Reader.string .required <|
  Fields.field "annotations" (Reader.list Annotation.reader) .required <|
  Fields.field "local_variables" (Reader.list Variable.reader) .required <|
  Fields.field "statements" (Reader.list Statement.reader) .required <|
  Fields.field "span" Span.reader .required Fields.none

def reader : Reader Resource :=
  (fields.reader "struct Resource").map fun (name, annotations, locals, statements, span, _) =>
    ⟨name, annotations, locals, statements, span⟩

end Resource

namespace Service

def toJson (s : Service) : Json :=
  .object [("name", .string s.name), ("annotations", .array (s.annotations.map Annotation.toJson)),
    ("resources", .array (s.resources.map Resource.toJson)), ("span", Span.toJson s.span)]

def fields :=
  Fields.field "name" Reader.string .required <|
  Fields.field "annotations" (Reader.list Annotation.reader) .required <|
  Fields.field "resources" (Reader.list Resource.reader) .required <|
  Fields.field "span" Span.reader .required Fields.none

def reader : Reader Service :=
  (fields.reader "struct Service").map fun (name, annotations, resources, span, _) =>
    ⟨name, annotations, resources, span⟩

end Service

namespace SemanticTree

def toJson (t : Semantic.Tree) : Json :=
  .object [("services", .array (t.services.map Service.toJson))]

def fields :=
  Fields.field "services" (Reader.list Service.reader) .required Fields.none

def reader : Reader Semantic.Tree :=
  (fields.reader "struct Ast").map fun (services, _) => ⟨services⟩

end SemanticTree

end ServiceLang.Codec
