import ServiceLang.Codec.Syntax
import ServiceLang.Diagnostic

/-!
# Stored form of diagnostics

A diagnostic leaves out its hint when it has none.
-/

namespace ServiceLang.Codec

open Json

namespace Severity

def toJson (s : Severity) : Json := .string s.name

def reader : Reader Severity :=
  Variant.reader (Severity.all.map fun s => Variant.plain s.name s)

end Severity

namespace Diagnostic

def toJson (d : Diagnostic) : Json :=
  .object <|
    [("severity", Severity.toJson d.severity), ("message", .string d.message),
     ("span", Span.toJson d.span)] ++
    (match d.hint with
    | some hint => [("hint", .string hint)]
    | none => [])

def fields :=
  Fields.field "severity" Severity.reader .required <|
  Fields.field "message" Reader.string .required <|
  Fields.field "span" Span.reader .required <|
  Fields.field "hint" (Reader.optional Reader.string) (.omittedAs none) Fields.none

def reader : Reader Diagnostic :=
  (fields.reader "struct Diagnostic").map fun (severity, message, span, hint, _) =>
    ⟨severity, message, span, hint⟩

end Diagnostic

end ServiceLang.Codec
