import ServiceLang.Codec.Syntax
import ServiceLang.Proofs.Json.Continuation

/-!
# Stored syntax trees and what follows them

A text from which a tree is read holds that tree and nothing else. White space may be added behind
it and cut off again; with anything more there is no tree to be read, and with anything less there
is none either. So neither the front part of a stored tree nor two stored trees in one text are ever
taken for a tree.
-/

namespace ServiceLang.Codec

open Json

theorem Tree.reader_refusesNumbers : Tree.reader.RefusesNumbers :=
  (Fields.reader_refusesNumbers Tree.fields "struct Cst").map _

/-- Only white space may follow a text from which a tree is read, and only white space may be cut
off its end; the tree is then the same. Two such texts in a row are refused. -/
theorem Tree.text_read_to_end {text : String} {t : Syntax.Tree} (stored : Tree.read text = .ok t) :
    (∀ rest u, Tree.read (text ++ rest) = .ok u ↔ (∀ c ∈ rest.toList, IsSpace c) ∧ u = t) ∧
    (∀ rest, (¬ ∀ c ∈ rest.toList, IsSpace c) → Tree.read (text ++ rest) = .error .malformed) ∧
    (∀ front back, front ++ back = text →
      ∀ u, Tree.read front = .ok u ↔ (∀ c ∈ back.toList, IsSpace c) ∧ u = t) ∧
    ∀ other u, Tree.read other = .ok u → Tree.read (text ++ other) = .error .malformed := by
  have refuses := Tree.reader_refusesNumbers
  have refused (rest : String) (solid : ¬ ∀ c ∈ rest.toList, IsSpace c) :
      Tree.read (text ++ rest) = .error .malformed :=
    (readWith_append refuses stored rest).2 solid
  refine ⟨readWith_append_iff refuses stored, refused, ?_, ?_⟩
  · rintro front back rfl u
    exact readWith_front_iff refuses stored u
  · intro other u alone
    obtain ⟨ts, d, loads⟩ := loads_of_readWith refuses alone
    exact refused other loads.solid

/-- Line ends and tabs may follow, but no bracket, no space of another kind and no second tree, and
the last bracket is needed. -/
theorem Tree.closed_text_read_to_end :
    let front := "\x7b\"root\":[\"block\",[0,9]]"
    let text := front ++ "\x7d"
    let tree : Syntax.Tree := ⟨⟨.block, ⟨0, 9⟩, [], none⟩, []⟩
    Tree.read text = .ok tree ∧ Tree.read (text ++ " \r\n\t") = .ok tree ∧
    Tree.read (text ++ "]") = .error .malformed ∧
    Tree.read (text ++ "\u00a0") = .error .malformed ∧
    Tree.read (text ++ text) = .error .malformed ∧ ∀ u, Tree.read front ≠ .ok u := by
  have stored : Tree.read ("\x7b\"root\":[\"block\",[0,9]]" ++ "\x7d") =
      .ok ⟨⟨.block, ⟨0, 9⟩, [], none⟩, []⟩ := by decide +kernel
  intro front text tree
  obtain ⟨same, refused, cut, twice⟩ := Tree.text_read_to_end stored
  refine ⟨stored, (same _ _).mpr ⟨by simp [IsSpace], rfl⟩, refused _ (by simp [IsSpace]),
    refused _ (by simp [IsSpace]), twice text tree stored, fun u short => ?_⟩
  have blank := ((cut front "\x7d" rfl u).mp short).1
  simp [IsSpace] at blank

end ServiceLang.Codec
