import ServiceLang.Span
import ServiceLang.Syntax.Kind

/-!
# Syntax trees

A syntax tree is what the parser hands over: every node has a kind, a span, its children in source
order with comments and separators among them, and possibly a text. No shape is imposed here: any
kind may hold any children. A tree also carries the errors that the parser recovered from, and what
it skipped while recovering stands in the tree as nodes of kind `error`.
-/

namespace ServiceLang.Syntax

structure Node where
  kind : Kind
  span : Span
  children : List Node
  text : Option String

namespace Node

instance : Inhabited Node := ⟨⟨default, default, [], none⟩⟩

mutual

private def decEqNode : (a b : Node) → Decidable (a = b)
  | ⟨k, s, cs, t⟩, ⟨k', s', cs', t'⟩ =>
    match decEqNodes cs cs' with
    | .isFalse h => .isFalse fun e => h (Node.mk.inj e).2.2.1
    | .isTrue h =>
      if h' : k = k' ∧ s = s' ∧ t = t' then
        .isTrue (by rw [h, h'.1, h'.2.1, h'.2.2])
      else
        .isFalse fun e => h' ⟨(Node.mk.inj e).1, (Node.mk.inj e).2.1, (Node.mk.inj e).2.2.2⟩

private def decEqNodes : (a b : List Node) → Decidable (a = b)
  | [], [] => .isTrue rfl
  | [], _ :: _ => .isFalse (fun e => nomatch e)
  | _ :: _, [] => .isFalse (fun e => nomatch e)
  | a :: as, b :: bs =>
    match decEqNode a b, decEqNodes as bs with
    | .isTrue h, .isTrue h' => .isTrue (by rw [h, h'])
    | .isFalse h, _ => .isFalse fun e => h (List.cons.inj e).1
    | _, .isFalse h => .isFalse fun e => h (List.cons.inj e).2

end

instance : DecidableEq Node := decEqNode

/-- A node with children and no text. -/
def branch (kind : Kind) (span : Span) (children : List Node) : Node := ⟨kind, span, children, none⟩

/-- A node with neither children nor text. -/
def bare (kind : Kind) (span : Span) : Node := branch kind span []

/-- A node with a text and no children. -/
def leaf (kind : Kind) (span : Span) (text : String) : Node := ⟨kind, span, [], some text⟩

/-- The node with one more child, the last one. -/
def push (n : Node) (child : Node) : Node := { n with children := n.children ++ [child] }

def textOrEmpty (n : Node) : String := n.text.getD ""

def childrenOf (n : Node) (kind : Kind) : List Node := n.children.filter (·.kind == kind)

def child? (n : Node) (kind : Kind) : Option Node := n.children.find? (·.kind == kind)

/-- The children that are neither comments nor separators. -/
def significant (n : Node) : List Node := n.children.filter (!·.kind.isTrivia)

def isError (n : Node) : Bool := n.kind == .error

mutual

/-- Every node of kind `error`, the node itself included, parents before children. -/
def errorNodes : Node → List Node
  | ⟨kind, span, children, text⟩ =>
    (if kind = .error then [⟨kind, span, children, text⟩] else []) ++ errorNodesIn children

def errorNodesIn : List Node → List Node
  | [] => []
  | c :: cs => errorNodes c ++ errorNodesIn cs

end

/-- The node that a list of child positions leads to. -/
def at? (n : Node) : List Nat → Option Node
  | [] => some n
  | i :: path => (n.children[i]?).bind (at? · path)

/-- Replace the node that a path leads to; a path that leads nowhere changes nothing. -/
def modifyAt (f : Node → Node) : List Nat → Node → Node
  | [], n => f n
  | i :: path, n => { n with children := n.children.modify i (modifyAt f path) }

/-- The child that is asked for by its kind is the first of that kind. -/
theorem child?_eq_head? (n : Node) (kind : Kind) : n.child? kind = (n.childrenOf kind).head? :=
  List.head?_filter.symm

/-- The error nodes of a list are those of its members, in their order. -/
theorem errorNodesIn_eq_flatMap (ns : List Node) : errorNodesIn ns = ns.flatMap errorNodes := by
  induction ns with
  | nil => rfl
  | cons n ns ih => rw [errorNodesIn, ih, List.flatMap_cons]

end Node

/-- Why the parser could not go on. -/
inductive ParseFault where
  | unexpectedToken (found expected : String)
  | unexpectedEnd (expected : String)
  | unterminatedString
  deriving DecidableEq, Inhabited

def ParseFault.text : ParseFault → String
  | .unexpectedToken found expected =>
    "unexpected token '" ++ found ++ "', expected " ++ expected
  | .unexpectedEnd expected => "unexpected end of file, expected " ++ expected
  | .unterminatedString => "unterminated string literal"

structure ParseError where
  fault : ParseFault
  span : Span
  deriving DecidableEq, Inhabited

def ParseError.text (e : ParseError) : String :=
  e.fault.text ++ " at byte " ++ toString e.span.start.toNat

structure Tree where
  root : Node
  errors : List ParseError
  deriving DecidableEq, Inhabited

/-- The parser reported nothing. Error nodes inside the tree are not looked for. -/
def Tree.isOk (t : Tree) : Bool := t.errors.isEmpty

end ServiceLang.Syntax
