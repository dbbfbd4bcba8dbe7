import ServiceLang.Lowering.Service

/-!
# Lowering of trees

A tree with syntax errors is refused as a whole, whatever else is wrong with it: neither an error
that the parser reported nor an error node anywhere below the root may be there. The refusal holds
one diagnostic for each of them, reported errors first.
-/

namespace ServiceLang.Lowering

open Syntax (Kind Node)
open Semantic
open Outcome

/-- How much of a skipped text is shown. -/
def shownCharacters : Nat := 20

def reportedDiagnostic (e : Syntax.ParseError) : Diagnostic := Diagnostic.error e.fault.text e.span

def skippedDiagnostic (n : Node) : Diagnostic :=
  let near := String.ofList (n.textOrEmpty.toList.take shownCharacters)
  (Diagnostic.error ("syntax error near '" ++ near ++ "'") n.span).withHint
    "input skipped by the parser"

def syntaxDiagnostics (t : Syntax.Tree) : List Diagnostic :=
  t.errors.map reportedDiagnostic ++ t.root.errorNodes.map skippedDiagnostic

def topLevel (child : Node) : Outcome Service :=
  match child.kind with
  | .serviceDefinition => service child
  | kind => flawed child.span (.unexpected kind .topLevel)

def tree (t : Syntax.Tree) : Outcome Semantic.Tree :=
  match syntaxDiagnostics t with
  | [] => do
    expectKind t.root .compilationUnit
    let services ← each topLevel t.root.significant
    pure ⟨services⟩
  | diagnostics => do
    emit (.refused diagnostics.length)
    fail (.syntaxErrors diagnostics)

end ServiceLang.Lowering
