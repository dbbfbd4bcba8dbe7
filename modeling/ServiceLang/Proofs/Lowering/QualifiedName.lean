import Mathlib.Data.List.TakeWhile
import ServiceLang.Lowering.Expression

/-!
# Qualified names

A name without a colon has no package. Any other name is cut at its first colon, and both halves
must have something in them.
-/

namespace ServiceLang.Lowering

/-- A text that names a function: no colon, or something on both sides of the first one. -/
def Qualified (text : List Char) : Prop :=
  ':' ∉ text ∨
    ∃ package name, text = package ++ ':' :: name ∧ ':' ∉ package ∧ package ≠ [] ∧ name ≠ []

theorem not_colon {text : List Char} (plain : ':' ∉ text) : ∀ c ∈ text, (c != ':') = true := by
  intro c member
  rw [bne_iff_ne]
  rintro rfl
  exact plain member

/-- Without a colon the whole text is the name. -/
theorem splitQualified_plain {text : String} (plain : ':' ∉ text.toList) :
    splitQualified text = some (none, text) := by
  have rest : text.toList.dropWhile (· != ':') = [] := by
    rw [List.dropWhile_eq_nil_iff]
    exact not_colon plain
  rw [splitQualified]
  simp only [rest]

/-- The cut is at the first colon, and there has to be something on both sides of it. -/
theorem splitQualified_colon {package : List Char} (plain : ':' ∉ package) (name : List Char) :
    splitQualified (String.ofList (package ++ ':' :: name)) =
      if package ≠ [] ∧ name ≠ [] then some (some (String.ofList package), String.ofList name)
      else none := by
  have front : (package ++ ':' :: name).takeWhile (· != ':') = package := by
    rw [List.takeWhile_append_of_pos (not_colon plain), List.takeWhile_cons_of_neg (by decide),
      List.append_nil]
  have rest : (package ++ ':' :: name).dropWhile (· != ':') = ':' :: name := by
    rw [List.dropWhile_append_of_pos (not_colon plain), List.dropWhile_cons_of_neg (by decide)]
  rw [splitQualified]
  simp only [String.toList_ofList, front, rest]

/-- Every text is either free of colons or cut at a first one. -/
theorem exists_first_colon (text : List Char) :
    ':' ∉ text ∨ ∃ package name, text = package ++ ':' :: name ∧ ':' ∉ package := by
  by_cases plain : ':' ∈ text
  · exact Or.inr (List.eq_append_cons_of_mem plain)
  · exact Or.inl plain

/-- Qualified texts are the ones that can be cut. -/
theorem splitQualified_isSome {text : String} (qualified : Qualified text.toList) :
    ∃ read, splitQualified text = some read := by
  rcases qualified with plain | ⟨package, name, split, before, filled⟩
  · exact ⟨_, splitQualified_plain plain⟩
  · have cut := splitQualified_colon before name
    rw [← split, String.ofList_toList, if_pos filled] at cut
    exact ⟨_, cut⟩

end ServiceLang.Lowering
