import ServiceLang.Json.Record
import ServiceLang.Json.Value
import ServiceLang.Syntax.Tree

/-!
# Stored form of syntax trees

How spans, nodes, parser errors and whole trees are written as JSON and read back. A node leaves out
its children when there are none and its text when it has none. A parser error is told apart by the
member `type`, which may stand anywhere, so that such an object is gone through as a whole before
any other member is interpreted. Trees are read without a limit on their depth.
-/

namespace ServiceLang.Codec

open Json Syntax

namespace Span

def toJson (s : Span) : Json :=
  .object [("start", .integer s.start.toNat), ("end", .integer s.stop.toNat)]

def fields :=
  Fields.field "start" Reader.word .required <|
  Fields.field "end" Reader.word .required Fields.none

def reader : Reader Span := (fields.reader "struct Span").map fun (start, stop, _) => ⟨start, stop⟩

end Span

namespace Kind

def toJson (k : Kind) : Json := .string k.name

def reader : Reader Kind := Variant.reader (Kind.all.map fun k => Variant.plain k.name k)

end Kind

namespace Node

mutual

def toJson : Node → Json
  | ⟨kind, span, children, text⟩ =>
    .object <|
      [("kind", Kind.toJson kind), ("span", Span.toJson span)] ++
      (if children.isEmpty then [] else [("children", .array (toJsons children))]) ++
      (match text with
      | some text => [("text", .string text)]
      | none => [])

def toJsons : List Node → List Json
  | [] => []
  | n :: ns => toJson n :: toJsons ns

end

def fields (node : Reader Node) :=
  Fields.field "kind" Kind.reader .required <|
  Fields.field "span" Span.reader .required <|
  Fields.field "children" (Reader.list node) (.omittedAs []) <|
  Fields.field "text" (Reader.optional Reader.string) (.omittedAs none) Fields.none

def step (node : Reader Node) : Reader Node :=
  ((fields node).reader "struct CstNode").map fun (kind, span, children, text, _) =>
    ⟨kind, span, children, text⟩

def reader : Reader Node := Reader.recursive step

end Node

/-- The member that tells kinds of parser errors apart. -/
def tagName : String := "type"

namespace ParseFault

def toJson : ParseFault → Json
  | .unexpectedToken found expected =>
    .object [(tagName, .string "unexpected_token"), ("found", .string found),
      ("expected", .string expected)]
  | .unexpectedEnd expected =>
    .object [(tagName, .string "unexpected_eof"), ("expected", .string expected)]
  | .unterminatedString => .object [(tagName, .string "unterminated_string")]

inductive Tag where
  | unexpectedToken
  | unexpectedEnd
  | unterminatedString
  deriving DecidableEq

def tagNames : List (String × Tag) :=
  [("unexpected_token", .unexpectedToken), ("unexpected_eof", .unexpectedEnd),
   ("unterminated_string", .unterminatedString)]

def tagOf : Document → Except ReadError Tag
  | .string (some s) =>
    match tagNames.find? (·.1 == s) with
    | some (_, tag) => .ok tag
    | none => .error (.mismatch (.unknownVariant s (tagNames.map (·.1))))
  | d => .error (d.glimpse.mismatch "variant identifier")

def tokenFields :=
  Fields.field "found" Reader.string .required <|
  Fields.field "expected" Reader.string .required Fields.none

def endFields := Fields.field "expected" Reader.string .required Fields.none

def tokenText : String := "struct variant ParseErrorKind::UnexpectedToken"

def endText : String := "struct variant ParseErrorKind::UnexpectedEof"

/-- The members of an object other than the tag, kept until the tag is known. -/
def membersOf (budget : Nat) : Option Tag → List (Option String × Document) →
    Except ReadError (Option Tag × List (Option String × Document))
  | tag, [] => .ok (tag, [])
  | _, (none, _) :: _ => .error .malformed
  | tag, (some key, d) :: ms =>
    if key = tagName then
      match tag with
      | some _ => .error (.mismatch (.duplicateField tagName))
      | none => do
        let tag ← tagOf d
        membersOf budget (some tag) ms
    else do
      d.keep budget
      let (tag, kept) ← membersOf budget tag ms
      pure (tag, (some key, d) :: kept)

/-- The fields of one kind from members that are known to be readable. -/
def fromMembers (tag : Tag) (ms : List (Option String × Document)) : Except ReadError ParseFault :=
  match tag with
  | .unexpectedToken => do
    let read ← tokenFields.members 0 tokenFields.start ms
    let (found, expected, _) ← tokenFields.finish read
    pure (.unexpectedToken found expected)
  | .unexpectedEnd => do
    let read ← endFields.members 0 endFields.start ms
    let (expected, _) ← endFields.finish read
    pure (.unexpectedEnd expected)
  | .unterminatedString => pure .unterminatedString

/-- Complain about items behind the last field. -/
def noneLeft {σ α : Type} (fs : Fields σ α) (items left : List Document) : Except ReadError Unit :=
  if left.isEmpty then .ok ()
  else .error (.mismatch (.invalidLength items.length (fs.countText ++ " in sequence")))

/-- The fields of one kind from the items behind the tag, which are known to be readable. -/
def fromItems (tag : Tag) (items : List Document) : Except ReadError ParseFault :=
  match tag with
  | .unexpectedToken => do
    let ((found, expected, _), left) ←
      tokenFields.listed 0 0 (tokenText ++ " with " ++ tokenFields.countText) items .closed
    noneLeft tokenFields items left
    pure (.unexpectedToken found expected)
  | .unexpectedEnd => do
    let ((expected, _), left) ←
      endFields.listed 0 0 (endText ++ " with " ++ endFields.countText) items .closed
    noneLeft endFields items left
    pure (.unexpectedEnd expected)
  | .unterminatedString => do
    noneLeft Fields.none items items
    pure .unterminatedString

def reader : Reader ParseFault
  | budget, .object ms ending => Reader.descend budget fun budget => do
    let (tag, kept) ← membersOf budget none ms
    ending.check
    match tag with
    | some tag => fromMembers tag kept
    | none => .error (.mismatch (.missingField tagName))
  | budget, .array (d :: items) ending => Reader.descend budget fun budget => do
    let tag ← tagOf d
    Document.keepItems budget items
    ending.check
    fromItems tag items
  | budget, .array [] ending => Reader.descend budget fun _ => do
    ending.check
    .error (.mismatch (.missingField tagName))
  | _, d => .error (d.glimpse.mismatch "internally tagged enum ParseErrorKind")

end ParseFault

namespace ParseError

def toJson (e : ParseError) : Json :=
  .object [("kind", ParseFault.toJson e.fault), ("span", Span.toJson e.span)]

def fields :=
  Fields.field "kind" ParseFault.reader .required <|
  Fields.field "span" Span.reader .required Fields.none

def reader : Reader ParseError :=
  (fields.reader "struct ParseError").map fun (fault, span, _) => ⟨fault, span⟩

end ParseError

namespace Tree

def toJson (t : Tree) : Json :=
  .object [("root", Node.toJson t.root), ("errors", .array (t.errors.map ParseError.toJson))]

def fields :=
  Fields.field "root" Node.reader .required <|
  Fields.field "errors" (Reader.list ParseError.reader) (.omittedAs []) Fields.none

def reader : Reader Tree := (fields.reader "struct Cst").map fun (root, errors, _) => ⟨root, errors⟩

def write (t : Tree) : String := (toJson t).text

def read (text : String) : Except ReadError Tree := readDeep reader text

/-- How a tree that has the wrong shape is reported. -/
def complaint (m : Mismatch) : String := "invalid serialized CST: " ++ m.message

end Tree

end ServiceLang.Codec
