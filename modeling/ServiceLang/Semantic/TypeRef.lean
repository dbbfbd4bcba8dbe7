import ServiceLang.Text

/-!
# Type references

A type is written as a name and then one pair of brackets for each array dimension. White space may
stand around the whole and in front of each pair, and nowhere else.
-/

namespace ServiceLang.Semantic

open Text

structure TypeRef where
  name : String
  dimensions : Nat
  deriving DecidableEq, Inhabited

namespace TypeRef

def isArray (t : TypeRef) : Bool := 0 < t.dimensions

/-- The number of bracket pairs at the end of a text and what stands in front of them. Both the
argument and the second result are read from the back. -/
def stripPairs : List Char → Nat × List Char
  | ']' :: '[' :: back =>
    let stripped := stripPairs back
    (stripped.1 + 1, stripped.2)
  | c :: back => if isBlank c then stripPairs back else (0, c :: back)
  | [] => (0, [])

/-- Characters that a type name may hold. -/
def isNameChar (c : Char) : Bool := !(c == '[' || c == ']' || isBlank c)

def parse? (text : String) : Option TypeRef :=
  let (dimensions, back) := stripPairs text.toList.reverse
  let name := back.reverse.dropWhile isBlank
  if name ≠ [] ∧ name.all isNameChar then some ⟨String.ofList name, dimensions⟩ else none

end TypeRef

end ServiceLang.Semantic
