import ServiceLang.Span

/-!
# Diagnostics

A diagnostic is a message for the author of a source text: how bad it is, what is wrong, where, and
possibly a hint.
-/

namespace ServiceLang

inductive Severity where
  | error
  | warning
  deriving DecidableEq, Inhabited

namespace Severity

def all : List Severity := [.error, .warning]

def name : Severity → String
  | .error => "error"
  | .warning => "warning"

end Severity

structure Diagnostic where
  severity : Severity
  message : String
  span : Span
  hint : Option String
  deriving DecidableEq, Inhabited

namespace Diagnostic

def error (message : String) (span : Span) : Diagnostic := ⟨.error, message, span, none⟩

/-- The diagnostic with the given hint in place of the one it may have. -/
def withHint (d : Diagnostic) (hint : String) : Diagnostic := { d with hint := some hint }

def text (d : Diagnostic) : String :=
  d.severity.name ++ " at " ++ d.span.text ++ ": " ++ d.message ++
    (match d.hint with
    | some hint => " (" ++ hint ++ ")"
    | none => "")

end Diagnostic

end ServiceLang
