import ServiceLang.Span
import ServiceLang.Number.Binary64
import ServiceLang.Semantic.Operator
import ServiceLang.Semantic.TypeRef

/-!
# Semantic trees

What a source text means: services with annotations and resources, resources with declarations and
statements. Sequences keep source order. The types allow more than the lowering of a syntax tree
produces: names may be empty here and an assignment may have any target.
-/

namespace ServiceLang.Semantic

inductive Expression where
  | integer (value : Int64)
  | float (value : Binary64)
  | string (value : String)
  | boolean (value : Bool)
  | null
  | variable (name : String) (span : Span)
  | arrayElement (name : String) (index : Expression) (span : Span)
  | invocation (package : Option String) (name : String) (arguments : List Expression)
      (span : Span)
  | binary (op : BinaryOp) (left right : Expression) (span : Span)
  | unary (op : UnaryOp) (operand : Expression) (span : Span)
  deriving Inhabited

/-- A function call on its own, without the span of the expression or statement it is. -/
structure Call where
  package : Option String
  name : String
  arguments : List Expression
  deriving Inhabited

/-- The call as an expression. -/
def Call.toExpression (c : Call) (span : Span) : Expression :=
  .invocation c.package c.name c.arguments span

inductive Statement where
  | assignment (target value : Expression) (span : Span)
  | return (values : List Expression) (span : Span)
  | reply (value : Expression) (span : Span)
  | invocation (call : Call) (span : Span)
  | ifElse (condition : Expression) (thenBody : List Statement)
      (elseBody : Option (List Statement)) (span : Span)
  | while (condition : Expression) (body : List Statement) (span : Span)
  | block (statements : List Statement) (span : Span)
  deriving Inhabited

def Statement.span : Statement → Span
  | .assignment _ _ span => span
  | .return _ span => span
  | .reply _ span => span
  | .invocation _ span => span
  | .ifElse _ _ _ span => span
  | .while _ _ span => span
  | .block _ span => span

structure Attribute where
  key : String
  value : String
  deriving DecidableEq, Inhabited

structure Annotation where
  name : String
  value : Option String
  attributes : List Attribute
  span : Span
  deriving DecidableEq, Inhabited

/-- The declaration of a local variable. -/
structure Variable where
  name : String
  type : TypeRef
  span : Span
  deriving DecidableEq, Inhabited

structure Resource where
  name : String
  annotations : List Annotation
  locals : List Variable
  statements : List Statement
  span : Span
  deriving Inhabited

namespace Resource

def empty (name : String) (span : Span) : Resource := ⟨name, [], [], [], span⟩

/-- The resource with one more annotation, the last one. -/
def withAnnotation (r : Resource) (a : Annotation) : Resource :=
  { r with annotations := r.annotations ++ [a] }

/-- The resource with one more local variable, the last one. -/
def withVariable (r : Resource) (v : Variable) : Resource :=
  { r with locals := r.locals ++ [v] }

/-- The resource with one more statement, the last one. -/
def withStatement (r : Resource) (s : Statement) : Resource :=
  { r with statements := r.statements ++ [s] }

end Resource

structure Service where
  name : String
  annotations : List Annotation
  resources : List Resource
  span : Span
  deriving Inhabited

structure Tree where
  services : List Service
  deriving Inhabited

end ServiceLang.Semantic
