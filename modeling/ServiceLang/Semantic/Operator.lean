/-!
# Operators

The operators of expressions. Each has one symbol in source text and one name in stored trees.
-/

namespace ServiceLang.Semantic

inductive BinaryOp where
  | add
  | sub
  | mul
  | div
  | mod
  | eq
  | notEq
  | lt
  | ltEq
  | gt
  | gtEq
  | and
  | or
  deriving DecidableEq, Inhabited

namespace BinaryOp

def all : List BinaryOp :=
  [.add, .sub, .mul, .div, .mod, .eq, .notEq, .lt, .ltEq, .gt, .gtEq, .and, .or]

def symbol : BinaryOp → String
  | .add => "+"
  | .sub => "-"
  | .mul => "*"
  | .div => "/"
  | .mod => "%"
  | .eq => "=="
  | .notEq => "!="
  | .lt => "<"
  | .ltEq => "<="
  | .gt => ">"
  | .gtEq => ">="
  | .and => "&&"
  | .or => "||"

def name : BinaryOp → String
  | .add => "Add"
  | .sub => "Sub"
  | .mul => "Mul"
  | .div => "Div"
  | .mod => "Mod"
  | .eq => "Eq"
  | .notEq => "NotEq"
  | .lt => "Lt"
  | .ltEq => "LtEq"
  | .gt => "Gt"
  | .gtEq => "GtEq"
  | .and => "And"
  | .or => "Or"

def ofSymbol? (s : String) : Option BinaryOp := all.find? (·.symbol == s)

/-- No two binary operators share a symbol. -/
theorem ofSymbol?_symbol (o : BinaryOp) : ofSymbol? o.symbol = some o := by cases o <;> decide

end BinaryOp

inductive UnaryOp where
  | neg
  | not
  deriving DecidableEq, Inhabited

namespace UnaryOp

def all : List UnaryOp := [.neg, .not]

def symbol : UnaryOp → String
  | .neg => "-"
  | .not => "!"

def name : UnaryOp → String
  | .neg => "Neg"
  | .not => "Not"

def ofSymbol? (s : String) : Option UnaryOp := all.find? (·.symbol == s)

/-- No two unary operators share a symbol. -/
theorem ofSymbol?_symbol (o : UnaryOp) : ofSymbol? o.symbol = some o := by cases o <;> decide

end UnaryOp

end ServiceLang.Semantic
