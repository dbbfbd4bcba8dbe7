import ServiceLang.Proofs.Lowering.Lookup

/-!
# Reading literals in order

On grammatical nodes nothing can go wrong besides the texts of literals. Which literals are read
and in which order is kept as a list beside the outcome: the lists of two steps in sequence are
appended, and the first literal that denotes nothing decides. The list says more than an assertion
about events, errors and values can: which of the errors it is, and that there is none otherwise.
-/

namespace ServiceLang.Lowering

open Syntax (Kind Node)
open Semantic
open Outcome

variable {α β γ : Type}

def complaint (n : Node) : Error := .invalidLiteral n.kind n.textOrEmpty n.span

/-- The outcome complains about the first literal that denotes nothing. If there is none, it is a
value with the given property. -/
def Reads (x : Outcome α) (ls : List Node) (Q : α → Prop) : Prop :=
  match ls.find? (!decodes ·) with
  | none => ∃ a, x.result = .ok a ∧ Q a
  | some l => x.result = .error (complaint l)

namespace Reads

theorem pure {Q : α → Prop} {a : α} (holds : Q a) : Reads (Pure.pure a) [] Q :=
  ⟨a, rfl, holds⟩

/-- The literals of the second step stand behind those of the first, so that a complaint of the
first comes first. -/
theorem bind {x : Outcome α} {k : α → Outcome β} {ls rest : List Node} {Q : α → Prop}
    {R : β → Prop} (first : Reads x ls Q) (then_ : ∀ a, Q a → Reads (k a) rest R) :
    Reads (x >>= k) (ls ++ rest) R := by
  rw [Reads] at first
  rw [Reads, List.find?_append]
  cases found : ls.find? (!decodes ·) with
  | none =>
    rw [found] at first
    obtain ⟨a, ok, holds⟩ := first
    rw [bind_of_ok k ok]
    exact then_ a holds
  | some l =>
    rw [found] at first
    rw [bind_of_error k first]
    rfl

/-- A second step without literals adds none. -/
theorem bind_silent {x : Outcome α} {k : α → Outcome β} {ls : List Node} {Q : α → Prop}
    {R : β → Prop} (first : Reads x ls Q) (then_ : ∀ a, Q a → Reads (k a) [] R) :
    Reads (x >>= k) ls R := by
  have all := first.bind then_
  rw [List.append_nil] at all
  exact all

theorem map {x : Outcome α} {ls : List Node} {Q : α → Prop} {R : β → Prop} {g : α → β}
    (first : Reads x ls Q) (then_ : ∀ a, Q a → R (g a)) :
    Reads (x >>= fun a => Pure.pure (g a)) ls R :=
  first.bind_silent fun a holds => Reads.pure (then_ a holds)

/-- What is made of the value of the last step does not matter. -/
theorem made {x : Outcome α} {ls : List Node} {Q : α → Prop} {g : α → β} (first : Reads x ls Q) :
    Reads (x >>= fun a => Pure.pure (g a)) ls fun _ => True :=
  first.map fun _ _ => trivial

theorem emit {k : Unit → Outcome α} {ls : List Node} {Q : α → Prop} {e : Event}
    (h : Reads (k ()) ls Q) : Reads (Outcome.emit e >>= k) ls Q := by
  have silent : Reads (Outcome.emit e) [] fun _ => True := ⟨(), rfl, trivial⟩
  exact silent.bind fun _ _ => h

theorem each {F : γ → Outcome α} {read : γ → List Node} {cs : List γ}
    (h : ∀ c ∈ cs, Reads (F c) (read c) fun _ => True) :
    Reads (each F cs) (cs.flatMap read) fun _ => True := by
  induction cs with
  | nil => exact Reads.pure trivial
  | cons c cs ih =>
    have rest := ih fun d hd => h d (List.mem_cons_of_mem c hd)
    rw [List.flatMap_cons]
    exact (h c List.mem_cons_self).bind fun _ _ => rest.made

/-- A property that every step keeps is kept to the end. -/
theorem fold {F : α → γ → Outcome α} {read : γ → List Node} {I : α → Prop} {cs : List γ}
    (h : ∀ c ∈ cs, ∀ a, I a → Reads (F a c) (read c) I) {a : α} (start : I a) :
    Reads (fold F a cs) (cs.flatMap read) I := by
  induction cs generalizing a with
  | nil => exact Reads.pure start
  | cons c cs ih =>
    rw [List.flatMap_cons]
    exact (h c List.mem_cons_self a start).bind fun b holds =>
      ih (fun d hd => h d (List.mem_cons_of_mem c hd)) holds

end Reads

/-- A literal is read if it decodes, and complained about if it does not. -/
theorem reads_literal {n : Node} {read : String → Option α}
    (same : decodes n = (read n.textOrEmpty).isSome) :
    Reads (literal n read) [n] fun _ => True := by
  rw [Reads, literal, List.find?_cons, same]
  cases read n.textOrEmpty with
  | none => rfl
  | some a => exact ⟨a, rfl, trivial⟩

end ServiceLang.Lowering
