import ServiceLang.Proofs.Lowering.Blame
import ServiceLang.Proofs.Syntax.DocumentOrder

/-!
# Trees with syntax errors

A tree is refused for its syntax errors exactly when the parser reported an error or an error node
stands anywhere in it, also where the lowering would never look. The refusal lists them all, the
reported ones first and the error nodes in document order. Nothing but the lowering of a whole tree
speaks of syntax errors.
-/

namespace ServiceLang.Lowering

open Syntax (Kind Node)
open Outcome

theorem errorNodes_ne_nil_iff (n : Node) :
    n.errorNodes ≠ [] ↔ ∃ path m, n.at? path = some m ∧ m.kind = .error := by
  have listed : n.errorNodes = n.errorPlaces.map Prod.snd := n.errorNodes_eq_located
  rw [listed, List.ne_nil_iff_exists_cons]
  constructor
  · rintro ⟨m, rest, first⟩
    have member : m ∈ n.errorPlaces.map Prod.snd := by simp [first]
    obtain ⟨⟨path, m'⟩, place, rfl⟩ := List.mem_map.mp member
    exact ⟨path, m', (n.mem_errorPlaces path m').mp place⟩
  · rintro ⟨path, m, found⟩
    have member : m ∈ n.errorPlaces.map Prod.snd :=
      List.mem_map.mpr ⟨(path, m), (n.mem_errorPlaces path m).mpr found, rfl⟩
    cases places : n.errorPlaces.map Prod.snd with
    | nil =>
      rw [places] at member
      cases member
    | cons m' rest => exact ⟨m', rest, rfl⟩

theorem syntaxDiagnostics_ne_nil_iff (t : Syntax.Tree) :
    syntaxDiagnostics t ≠ [] ↔
      t.errors ≠ [] ∨ ∃ path m, t.root.at? path = some m ∧ m.kind = .error := by
  rw [← errorNodes_ne_nil_iff, syntaxDiagnostics]
  simp only [ne_eq, List.append_eq_nil_iff, List.map_eq_nil_iff]
  exact not_and_or

/-- Reported errors come first, then the error nodes in document order. -/
theorem syntaxDiagnostics_eq_places (t : Syntax.Tree) :
    syntaxDiagnostics t =
      t.errors.map reportedDiagnostic ++ t.root.errorPlaces.map (skippedDiagnostic ·.2) := by
  have listed : t.root.errorNodes = t.root.errorPlaces.map Prod.snd := t.root.errorNodes_eq_located
  rw [syntaxDiagnostics, listed, List.map_map]
  rfl

/-- A tree with syntax errors is refused, and nothing of it is looked at. -/
theorem tree_refused {t : Syntax.Tree} (faulty : syntaxDiagnostics t ≠ []) :
    tree t =
      ⟨[.refused (syntaxDiagnostics t).length], .error (.syntaxErrors (syntaxDiagnostics t))⟩ := by
  rw [tree]
  cases diagnostics : syntaxDiagnostics t with
  | nil => exact absurd diagnostics faulty
  | cons d ds => rfl

/-- Without diagnostics a failure is that of some node. -/
theorem tree_justified {t : Syntax.Tree} (clean : syntaxDiagnostics t = []) :
    Justified t.root (tree t) := by
  rw [tree, clean]
  simp only
  refine Justified.guarded fun _ => ?_
  have all := Justified.each (n := t.root) fun c member => (justified_topLevel c).above member
  exact all.bind fun services _ => Justified.pure _

/-- Diagnostics are given whenever there are any, and all of them are. -/
theorem tree_syntaxErrors_iff (t : Syntax.Tree) (ds : List Diagnostic) :
    (tree t).result = .error (.syntaxErrors ds) ↔
      syntaxDiagnostics t ≠ [] ∧ ds = syntaxDiagnostics t := by
  constructor
  · intro failed
    by_cases clean : syntaxDiagnostics t = []
    · exact absurd rfl ((tree_justified clean _ failed).ne_syntaxErrors ds)
    · rw [tree_refused clean] at failed
      cases failed
      exact ⟨clean, rfl⟩
  · rintro ⟨faulty, rfl⟩
    rw [tree_refused faulty]

theorem Justified.ne_syntaxErrors {α : Type} {n : Node} {x : Outcome α} (h : Justified n x)
    (ds : List Diagnostic) : x.result ≠ .error (.syntaxErrors ds) :=
  fun failed => (h _ failed).ne_syntaxErrors ds rfl

/-- Syntax errors are what a tree is refused for, all of them and nothing else. -/
theorem syntax_errors_refused :
    (∀ t : Syntax.Tree, (∃ ds, (tree t).result = .error (.syntaxErrors ds)) ↔
      t.errors ≠ [] ∨ ∃ path m, t.root.at? path = some m ∧ m.kind = .error) ∧
    (∀ t ds, (tree t).result = .error (.syntaxErrors ds) →
      (∃ places : List (List Nat × Node),
        (places.map Prod.fst).Pairwise (· < ·) ∧
        (∀ path m, (path, m) ∈ places ↔ t.root.at? path = some m ∧ m.kind = .error) ∧
        ds = (t.errors.map fun e => ⟨.error, e.fault.text, e.span, none⟩) ++
          places.map fun place =>
            ⟨.error, "syntax error near '" ++
                String.ofList (place.2.textOrEmpty.toList.take 20) ++ "'",
              place.2.span, some "input skipped by the parser"⟩) ∧
      (tree t).events.map Event.entry =
        [⟨.debug, "refusing CST with syntax errors", [("count", toString ds.length)]⟩]) ∧
    ∀ (n : Node) (ds : List Diagnostic),
      (service n).result ≠ .error (.syntaxErrors ds) ∧
      (resource n).result ≠ .error (.syntaxErrors ds) ∧
      (Lowering.annotation n).result ≠ .error (.syntaxErrors ds) ∧
      (declaration n).result ≠ .error (.syntaxErrors ds) ∧
      (statement n).result ≠ .error (.syntaxErrors ds) ∧
      (expression n).result ≠ .error (.syntaxErrors ds) := by
  refine ⟨?_, ?_, ?_⟩
  · intro t
    rw [← syntaxDiagnostics_ne_nil_iff]
    constructor
    · rintro ⟨ds, failed⟩
      exact ((tree_syntaxErrors_iff t ds).mp failed).1
    · intro faulty
      exact ⟨_, (tree_syntaxErrors_iff t _).mpr ⟨faulty, rfl⟩⟩
  · intro t ds failed
    obtain ⟨faulty, rfl⟩ := (tree_syntaxErrors_iff t ds).mp failed
    refine ⟨⟨t.root.errorPlaces, t.root.pairwise_errorPlaces, t.root.mem_errorPlaces, ?_⟩, ?_⟩
    · exact syntaxDiagnostics_eq_places t
    · rw [tree_refused faulty]
      rfl
  · intro n ds
    exact ⟨(justified_service n).ne_syntaxErrors ds, (justified_resource n).ne_syntaxErrors ds,
      (justified_annotated n).ne_syntaxErrors ds, (justified_declaration n).ne_syntaxErrors ds,
      (justified_statements n).wrapped.ne_syntaxErrors ds,
      (justified_expression n).ne_syntaxErrors ds⟩

/-- Error nodes where nothing is ever looked at: in a comment, below a name, in one another. -/
def garbledTree : Syntax.Tree where
  root := .branch .block ⟨9, 2⟩
    [.branch .comment .zero [.leaf .error ⟨1, 2⟩ "resource echo() returns int"],
      ⟨.identifier, .zero, [⟨.error, ⟨5, 3⟩, [.bare .error ⟨4, 4⟩], none⟩], some "Echo"⟩]
  errors := [⟨.unexpectedEnd "a statement", ⟨7, 7⟩⟩]

theorem garbledTree_refused :
    ∃ ds, (tree garbledTree).result = .error (.syntaxErrors ds) ∧ ds.length = 4 ∧
      ∃ places : List (List Nat × Node),
        (places.map Prod.fst).Pairwise (· < ·) ∧
        (∀ path m, (path, m) ∈ places ↔ garbledTree.root.at? path = some m ∧ m.kind = .error) ∧
        ds = ⟨.error, "unexpected end of file, expected a statement", ⟨7, 7⟩, none⟩ ::
          places.map fun place =>
            ⟨.error, "syntax error near '" ++
                String.ofList (place.2.textOrEmpty.toList.take 20) ++ "'",
              place.2.span, some "input skipped by the parser"⟩ := by
  have refused :
      (tree garbledTree).result = .error (.syntaxErrors (syntaxDiagnostics garbledTree)) :=
    (tree_syntaxErrors_iff _ _).mpr ⟨by decide, rfl⟩
  obtain ⟨⟨places, ordered, complete, listed⟩, -⟩ := syntax_errors_refused.2.1 _ _ refused
  exact ⟨_, refused, by decide, places, ordered, complete, listed⟩

end ServiceLang.Lowering
