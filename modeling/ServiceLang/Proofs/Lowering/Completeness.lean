import ServiceLang.Proofs.Lowering.Completeness.Service

/-!
# Completeness on the documented grammar

A tree of the documented shapes, free of syntax errors, is lowered up to the first literal in source
order that denotes nothing.
-/

namespace ServiceLang.Lowering

open Syntax (Kind Node)
open Semantic
open Outcome

/-- At top level there are services only, and each has its literals. -/
theorem Grammatical.services {n : Node} (g : Grammatical n) (kind : n.kind = .compilationUnit) :
    Reads (each topLevel n.significant) (literals n) fun _ => True := by
  obtain ⟨services, _, split, all, rfl⟩ := g.shaped kind
  rw [List.append_nil] at split
  rw [literals_branch (by rw [kind]; rfl)]
  refine Reads.each fun c member => ?_
  have isService : c.kind = .serviceDefinition := all c (split ▸ member)
  rw [topLevel, isService]
  exact (g.child member).service isService

/-- A tree without syntax errors is its services. -/
theorem reads_tree {t : Syntax.Tree} (unreported : t.errors = [])
    (nothingSkipped : t.root.errorNodes = []) (isUnit : t.root.kind = .compilationUnit)
    (g : Grammatical t.root) : Reads (tree t) (literals t.root) fun _ => True := by
  have diagnostics : syntaxDiagnostics t = [] := by
    rw [syntaxDiagnostics, unreported, nothingSkipped]
    rfl
  rw [tree, diagnostics]
  simp only
  rw [expectKind_bind, if_pos isUnit]
  exact (g.services isUnit).made

/-- A tree of the documented shapes is lowered if all its literals can be read, and else the first
one that cannot be read is complained about. Nothing else can happen to it. -/
theorem lowering_complete {t : Syntax.Tree} (unreported : t.errors = [])
    (nothingSkipped : t.root.errorNodes = []) (isUnit : t.root.kind = .compilationUnit)
    (grammatical : Grammatical t.root) :
    ((∃ a, (tree t).result = .ok a) ↔ ∀ l ∈ literals t.root, decodes l = true) ∧
    (∀ l, (literals t.root).find? (!decodes ·) = some l →
      (tree t).result = .error (.invalidLiteral l.kind l.textOrEmpty l.span)) ∧
    (∀ flaw span, (tree t).result ≠ .error (.malformed flaw span)) ∧
    ∀ diagnostics, (tree t).result ≠ .error (.syntaxErrors diagnostics) := by
  have read := reads_tree unreported nothingSkipped isUnit grammatical
  rw [Reads] at read
  cases first : (literals t.root).find? (!decodes ·) with
  | none =>
    rw [first] at read
    obtain ⟨a, ok, -⟩ := read
    have all : ∀ l ∈ literals t.root, decodes l = true := by
      intro l member
      have sound := List.find?_eq_none.mp first l member
      simpa using sound
    rw [ok]
    refine ⟨⟨fun _ => all, fun _ => ⟨a, rfl⟩⟩, ?_, ?_, ?_⟩
    · intro l found
      cases found
    · intro flaw span failed
      cases failed
    · intro diagnostics failed
      cases failed
  | some l =>
    rw [first] at read
    have bad : decodes l = false := by
      have found := List.find?_some first
      simpa using found
    rw [read]
    refine ⟨⟨?_, ?_⟩, ?_, ?_, ?_⟩
    · rintro ⟨a, ok⟩
      cases ok
    · intro all
      rw [all l (List.mem_of_find?_eq_some first)] at bad
      cases bad
    · intro l' found
      cases found
      rfl
    · intro flaw span failed
      cases failed
    · intro diagnostics failed
      cases failed

/-- An annotation whose value has no quotes. -/
def unquotedNote : Node :=
  .branch Kind.annotation .zero
    [.leaf .identifier .zero "@path", .leaf .comment .zero "// value",
      .leaf .stringLiteral .zero "orders"]

def unquotedService : Node :=
  .branch .serviceDefinition .zero [unquotedNote, .leaf .identifier .zero "Orders"]

def unquotedTree : Syntax.Tree := ⟨.branch .compilationUnit .zero [unquotedService], []⟩

theorem unquotedTree_complaint :
    unquotedTree.errors = [] ∧ unquotedTree.root.errorNodes = [] ∧
    unquotedTree.root.kind = .compilationUnit ∧ Grammatical unquotedTree.root ∧
    (tree unquotedTree).result = .error (.invalidLiteral .stringLiteral "orders" .zero) := by
  have nothing := List.forall_mem_nil Grammatical
  have name : Grammatical (.leaf .identifier .zero "Orders") := Grammatical.leaf rfl _ _
  have path : Grammatical (.leaf .identifier .zero "@path") := Grammatical.leaf rfl _ _
  have value : Grammatical (.leaf .stringLiteral .zero "orders") := Grammatical.leaf rfl _ _
  have note : Grammatical unquotedNote := by
    refine .node _ ⟨_, _, rfl, ⟨rfl, by decide⟩, Or.inr ⟨_, _, rfl, rfl, ?_⟩⟩ ?_
    · exact ⟨[], [], rfl, List.forall_mem_nil _, rfl⟩
    · exact List.forall_mem_cons.mpr ⟨path, List.forall_mem_cons.mpr ⟨value, nothing⟩⟩
  have service : Grammatical unquotedService := by
    refine .node _ ⟨[unquotedNote], _, rfl, List.forall_mem_singleton.mpr rfl, ?_⟩ ?_
    · exact ⟨_, _, rfl, ⟨rfl, by decide⟩, [], [], rfl, List.forall_mem_nil _, rfl⟩
    · exact List.forall_mem_cons.mpr ⟨note, List.forall_mem_cons.mpr ⟨name, nothing⟩⟩
  have grammatical : Grammatical unquotedTree.root := by
    refine .node _ ⟨[unquotedService], [], rfl, List.forall_mem_singleton.mpr rfl, rfl⟩ ?_
    exact List.forall_mem_cons.mpr ⟨service, nothing⟩
  exact ⟨rfl, by decide, rfl, grammatical,
    (lowering_complete rfl (by decide) rfl grammatical).2.1 (.leaf .stringLiteral .zero "orders")
      (by decide)⟩

end ServiceLang.Lowering
