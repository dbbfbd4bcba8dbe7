import Mathlib.Data.List.Basic
import Mathlib.Data.List.TakeWhile
import ServiceLang.Semantic.TypeRef

/-!
# Type references as texts

The grammar of type texts, said apart from the function that reads them: a name without brackets
and white space, then pairs of brackets, with white space around the whole and in front of each
pair. A text is read exactly if it belongs to the grammar, and it does so in one way only.
-/

namespace ServiceLang.Semantic.TypeRef

open Text

def Proper (t : TypeRef) : Prop :=
  t.name ≠ "" ∧ ∀ c ∈ t.name.toList, c ≠ '[' ∧ c ≠ ']' ∧ isBlank c = false

instance (t : TypeRef) : Decidable t.Proper :=
  @instDecidableAnd _ _ inferInstance (List.decidableBAll _ _)

/-- A name has neither brackets nor white space in it. -/
theorem isNameChar_iff (c : Char) :
    isNameChar c = true ↔ c ≠ '[' ∧ c ≠ ']' ∧ isBlank c = false := by
  rw [isNameChar, Bool.not_eq_true', Bool.or_eq_false_iff, Bool.or_eq_false_iff,
    beq_eq_false_iff_ne, beq_eq_false_iff_ne, and_assoc]

def Blank (cs : List Char) : Prop := ∀ c ∈ cs, isBlank c = true

instance (cs : List Char) : Decidable (Blank cs) := List.decidableBAll _ cs

theorem Blank.reverse {cs : List Char} (blank : Blank cs) : Blank cs.reverse :=
  fun c member => blank c (List.mem_reverse.mp member)

/-- The text is the name and one pair of brackets for each dimension, with nothing but white space
around the whole and in front of each pair. -/
inductive Denotes (text : String) (t : TypeRef) : Prop where
  | spaced (front back : List Char) (gaps : List (List Char)) (proper : t.Proper)
    (blank : ∀ part ∈ front :: back :: gaps, Blank part) (counted : gaps.length = t.dimensions)
    (whole : text.toList = front ++ t.name.toList ++ gaps.flatMap (· ++ ['[', ']']) ++ back)

/-! ### Stripping pairs -/

/-- Pairs of brackets as they are met from the back, each with what stands behind it there. -/
def pairsBack (gaps : List (List Char)) : List Char := gaps.flatMap (']' :: '[' :: ·)

/-- The gaps as they are met from the back. -/
def gapsBack (gaps : List (List Char)) : List (List Char) := gaps.reverse.map List.reverse

theorem length_gapsBack (gaps : List (List Char)) : (gapsBack gaps).length = gaps.length := by
  rw [gapsBack, List.length_map, List.length_reverse]

theorem gapsBack_gapsBack (gaps : List (List Char)) : gapsBack (gapsBack gaps) = gaps := by
  rw [gapsBack, gapsBack, ← List.map_reverse, List.reverse_reverse, List.map_map,
    List.reverse_involutive.comp_self, List.map_id]

theorem blank_gapsBack {gaps : List (List Char)} (blank : ∀ gap ∈ gaps, Blank gap) :
    ∀ gap ∈ gapsBack gaps, Blank gap := by
  intro gap member
  obtain ⟨original, listed, rfl⟩ := List.mem_map.mp member
  exact (blank original (List.mem_reverse.mp listed)).reverse

/-- The text of the pairs, read backwards. -/
theorem reverse_pairs (gaps : List (List Char)) :
    (gaps.flatMap (· ++ ['[', ']'])).reverse = pairsBack (gapsBack gaps) := by
  rw [pairsBack, gapsBack, List.reverse_flatMap, List.flatMap_map]
  refine List.flatMap_congr fun gap _ => ?_
  exact List.reverse_append

theorem stripPairs_blank {tail : List Char} (blank : Blank tail) (cs : List Char) :
    stripPairs (tail ++ cs) = stripPairs cs := by
  induction tail with
  | nil => rfl
  | cons c tail ih =>
    obtain ⟨here, rest⟩ := List.forall_mem_cons.mp blank
    rw [List.cons_append, stripPairs, if_pos here, ih rest]
    rintro back rfl
    cases here

/-- Behind a name nothing is taken away. -/
theorem stripPairs_name {name : List Char} (filled : name ≠ [])
    (all : ∀ c ∈ name, isNameChar c = true) (cs : List Char) :
    stripPairs (name.reverse ++ cs) = (0, name.reverse ++ cs) := by
  cases last : name.reverse with
  | nil => exact absurd (List.reverse_eq_nil_iff.mp last) filled
  | cons c rest =>
    have member : c ∈ name := List.mem_reverse.mp (last ▸ List.mem_cons_self)
    obtain ⟨-, closing, blank⟩ := (isNameChar_iff c).mp (all c member)
    rw [List.cons_append, stripPairs, blank]
    · rfl
    · exact fun _ same => absurd same closing

theorem dropWhile_name {name : List Char} (all : ∀ c ∈ name, isNameChar c = true) :
    name.dropWhile isBlank = name := by
  cases name with
  | nil => rfl
  | cons c rest =>
    have blank := ((isNameChar_iff c).mp (all c List.mem_cons_self)).2.2
    rw [List.dropWhile_cons, blank]
    rfl

/-- All pairs are counted, whatever white space is between them. -/
theorem stripPairs_pairsBack {gaps : List (List Char)} (blank : ∀ gap ∈ gaps, Blank gap)
    {cs : List Char} (done : stripPairs cs = (0, cs)) :
    stripPairs (pairsBack gaps ++ cs) = (gaps.length, cs) := by
  induction gaps with
  | nil => exact done
  | cons gap gaps ih =>
    obtain ⟨here, rest⟩ := List.forall_mem_cons.mp blank
    change stripPairs (']' :: '[' :: (gap ++ pairsBack gaps ++ cs)) = _
    rw [stripPairs, List.append_assoc, stripPairs_blank here, ih rest]
    rfl

/-- Nothing but pairs and white space is taken away. -/
theorem stripPairs_parts (cs : List Char) :
    ∃ tail gaps, Blank tail ∧ (∀ gap ∈ gaps, Blank gap) ∧ gaps.length = (stripPairs cs).1 ∧
      cs = tail ++ pairsBack gaps ++ (stripPairs cs).2 := by
  fun_induction stripPairs cs with
  | case1 back stripped ih =>
    obtain ⟨tail, gaps, blank, blanks, counted, whole⟩ := ih
    refine ⟨[], tail :: gaps, List.forall_mem_nil _, List.forall_mem_cons.mpr ⟨blank, blanks⟩,
      congrArg (· + 1) counted, ?_⟩
    exact congrArg (']' :: '[' :: ·) whole
  | case2 c back _ blank ih =>
    obtain ⟨tail, gaps, blanks, between, counted, whole⟩ := ih
    exact ⟨c :: tail, gaps, List.forall_mem_cons.mpr ⟨blank, blanks⟩, between, counted,
      congrArg (c :: ·) whole⟩
  | case3 c back _ _ => exact ⟨[], [], List.forall_mem_nil _, List.forall_mem_nil _, rfl, rfl⟩
  | case4 => exact ⟨[], [], List.forall_mem_nil _, List.forall_mem_nil _, rfl, rfl⟩

/-! ### Reading -/

/-- What is left in front of the pairs is the name, with white space around it. -/
theorem parse?_eq_some_iff_stripped (text : String) (t : TypeRef) :
    let stripped := stripPairs text.toList.reverse
    parse? text = some t ↔ t.Proper ∧ stripped.1 = t.dimensions ∧
      stripped.2.reverse.dropWhile isBlank = t.name.toList := by
  intro stripped
  rw [parse?]
  change (if stripped.2.reverse.dropWhile isBlank ≠ [] ∧
    (stripped.2.reverse.dropWhile isBlank).all isNameChar = true then _ else _) = _ ↔ _
  generalize stripped.2.reverse.dropWhile isBlank = name
  have proper : (name ≠ [] ∧ name.all isNameChar = true) ↔
      Proper ⟨String.ofList name, stripped.1⟩ := by
    simp only [Proper, List.all_eq_true, isNameChar_iff, String.toList_ofList, ne_eq,
      String.ofList_eq_empty_iff]
  constructor
  · intro read
    by_cases named : name ≠ [] ∧ name.all isNameChar = true
    · rw [if_pos named] at read
      cases read
      exact ⟨proper.mp named, rfl, String.toList_ofList.symm⟩
    · rw [if_neg named] at read
      cases read
  · rintro ⟨isProper, counted, rfl⟩
    rw [counted, String.ofList_toList] at proper
    rw [if_pos (proper.mpr isProper), String.ofList_toList]
    exact congrArg (fun n => some (TypeRef.mk t.name n)) counted

theorem denotes_of_parse? {text : String} {t : TypeRef} (read : parse? text = some t) :
    Denotes text t := by
  obtain ⟨proper, counted, named⟩ := (parse?_eq_some_iff_stripped text t).mp read
  obtain ⟨tail, gaps, blank, blanks, length, whole⟩ := stripPairs_parts text.toList.reverse
  generalize stripPairs text.toList.reverse = stripped at counted named length whole
  refine .spaced (stripped.2.reverse.takeWhile isBlank) tail.reverse (gapsBack gaps) proper
    ?_ ?_ ?_
  · refine List.forall_mem_cons.mpr ⟨fun c here => List.mem_takeWhile_imp here, ?_⟩
    exact List.forall_mem_cons.mpr ⟨blank.reverse, blank_gapsBack blanks⟩
  · rw [length_gapsBack, length, counted]
  · have pairs : pairsBack gaps = ((gapsBack gaps).flatMap (· ++ ['[', ']'])).reverse := by
      rw [reverse_pairs, gapsBack_gapsBack]
    calc
      text.toList = (tail ++ pairsBack gaps ++ stripped.2).reverse := by
        rw [← whole, List.reverse_reverse]
      _ = stripped.2.reverse ++ (gapsBack gaps).flatMap (· ++ ['[', ']']) ++ tail.reverse := by
        rw [pairs, List.reverse_append, List.reverse_append, List.reverse_reverse,
          List.append_assoc]
      _ = _ := by rw [← named, List.takeWhile_append_dropWhile]

theorem parse?_of_denotes {text : String} {t : TypeRef} (denotes : Denotes text t) :
    parse? text = some t := by
  obtain ⟨front, back, gaps, proper, blank, counted, whole⟩ := denotes
  obtain ⟨before, blank⟩ := List.forall_mem_cons.mp blank
  obtain ⟨behind, between⟩ := List.forall_mem_cons.mp blank
  have filled : t.name.toList ≠ [] := fun empty => proper.1 (String.toList_eq_nil_iff.mp empty)
  have isName : ∀ c ∈ t.name.toList, isNameChar c = true := fun c member =>
    (isNameChar_iff c).mpr (proper.2 c member)
  have stripped : stripPairs text.toList.reverse =
      (t.dimensions, t.name.toList.reverse ++ front.reverse) := by
    rw [whole, List.reverse_append, List.reverse_append, reverse_pairs, List.reverse_append,
      stripPairs_blank behind.reverse,
      stripPairs_pairsBack (blank_gapsBack between) (stripPairs_name filled isName _),
      length_gapsBack, counted]
  refine (parse?_eq_some_iff_stripped text t).mpr ⟨proper, by rw [stripped], ?_⟩
  rw [stripped]
  simp only [List.reverse_append, List.reverse_reverse]
  rw [List.dropWhile_append_of_pos before, dropWhile_name isName]

/-- The reader and the grammar agree. -/
theorem parse?_eq_some_iff (text : String) (t : TypeRef) :
    parse? text = some t ↔ Denotes text t :=
  ⟨denotes_of_parse?, parse?_of_denotes⟩

/-- No text denotes two types. -/
theorem Denotes.unique {text : String} {t u : TypeRef} (first : Denotes text t)
    (second : Denotes text u) : t = u := by
  have read := parse?_of_denotes first
  rw [parse?_of_denotes second] at read
  exact (Option.some.inj read).symm

/-- The name of a type that was read can be written again. -/
theorem proper_of_parse? {text : String} {t : TypeRef} (read : parse? text = some t) :
    t.Proper := by
  obtain ⟨-, -, -, proper, -⟩ := denotes_of_parse? read
  exact proper

/-- The name and then its pairs of brackets. -/
def written (t : TypeRef) : String :=
  String.ofList (t.name.toList ++ (List.replicate t.dimensions ['[', ']']).flatten)

/-- What is written for a type denotes it. -/
theorem denotes_written {t : TypeRef} (proper : t.Proper) : Denotes t.written t := by
  refine .spaced [] [] (List.replicate t.dimensions []) proper ?_ List.length_replicate ?_
  · intro part member
    have empty : part = [] := by
      simp only [List.mem_cons, List.mem_replicate] at member
      rcases member with h | h | ⟨-, h⟩ <;> exact h
    rw [empty]
    exact List.forall_mem_nil _
  · rw [written, String.toList_ofList, List.flatMap_def, List.map_replicate, List.append_nil]
    rfl

theorem parse?_written {t : TypeRef} (proper : t.Proper) : parse? t.written = some t :=
  parse?_of_denotes (denotes_written proper)

/-- A text is read as the type that it denotes, if it denotes one, and no text denotes two. A name
with any number of bracket pairs behind it is read back. -/
theorem type_texts_read_exactly (text : String) :
    (∀ t, parse? text = some t ↔ Denotes text t) ∧
    (∀ t u, Denotes text t → Denotes text u → t = u) ∧
    (parse? text = none ↔ ∀ t, ¬ Denotes text t) ∧
    ∀ t : TypeRef, t.Proper → parse? t.written = some t := by
  refine ⟨parse?_eq_some_iff text, fun t u first second => first.unique second, ?_,
    fun t proper => parse?_written proper⟩
  rw [Option.eq_none_iff_forall_ne_some]
  exact forall_congr' fun t => not_congr (parse?_eq_some_iff text t)

/-- White space of several sorts in front of the pairs, and a bracket that is left over. -/
theorem spaced_pairs_read_exactly :
    parse? "\u2003int\t[] []\n" = some ⟨"int", 2⟩ ∧
    (∀ t, ¬ Denotes "int[] ][]" t) ∧ parse? (written ⟨"int", 3⟩) = some ⟨"int", 3⟩ := by
  have spaced : Denotes "\u2003int\t[] []\n" ⟨"int", 2⟩ :=
    .spaced ['\u2003'] ['\n'] [['\t'], [' ']] (by decide) (by decide) rfl (by decide)
  refine ⟨((type_texts_read_exactly _).1 _).mpr spaced, ?_, ?_⟩
  · exact (type_texts_read_exactly "int[] ][]").2.2.1.mp (by decide)
  · exact (type_texts_read_exactly "").2.2.2 _ (by decide)

end ServiceLang.Semantic.TypeRef
