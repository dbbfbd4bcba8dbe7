import ServiceLang.Proofs.Lowering.Equations

/-!
# Assertions about outcomes

What is said of an outcome on its own comes down to three things: a property of every event, one of
the error if it fails, and one of its value and its events if it does not. The rules for the steps
of a lowering are proved here, once. That nothing is reported, that a value is proper, that a log
mirrors a value and that a failure is justified are assertions of this form, each with the other
parts left open.
-/

namespace ServiceLang.Lowering

open Syntax (Kind Node)
open Outcome

variable {α β γ : Type}

structure Meets (P : Event → Prop) (E : Error → Prop) (x : Outcome α)
    (Q : α → List Event → Prop) : Prop where
  events : ∀ e ∈ x.events, P e
  error : ∀ e, x.result = .error e → E e
  value : ∀ a, x.result = .ok a → Q a x.events

namespace Meets

variable {P : Event → Prop} {E : Error → Prop}

theorem pure {Q : α → List Event → Prop} {a : α} (holds : Q a []) :
    Meets P E (Pure.pure a) Q where
  events := List.forall_mem_nil _
  error e failed := by cases failed
  value b done := by
    cases done
    exact holds

theorem flawed {Q : α → List Event → Prop} {span : Span} {flaw : Flaw}
    (bad : E (.malformed flaw span)) : Meets P E (Outcome.flawed span flaw) Q where
  events := List.forall_mem_nil _
  error e failed := by
    cases failed
    exact bad
  value a done := by cases done

theorem emit {Q : Unit → List Event → Prop} {e : Event} (fits : P e) (holds : Q () [e]) :
    Meets P E (Outcome.emit e) Q where
  events := List.forall_mem_singleton.mpr fits
  error e failed := by cases failed
  value _ _ := holds

/-- The second step is taken on the value of the first, and its events stand behind those of the
first. -/
theorem bind {x : Outcome α} {k : α → Outcome β} {Q : α → List Event → Prop}
    {R : β → List Event → Prop} (first : Meets P E x Q)
    (then_ : ∀ a, x.result = .ok a → Q a x.events →
      Meets P E (k a) fun b fs => R b (x.events ++ fs)) : Meets P E (x >>= k) R := by
  cases result : x.result with
  | error e =>
    rw [bind_of_error k result]
    refine ⟨first.events, fun e' failed => ?_, fun b done => ?_⟩
    · cases failed
      exact first.error e result
    · cases done
  | ok a =>
    have next := then_ a result (first.value a result)
    rw [bind_of_ok k result]
    exact ⟨List.forall_mem_append.mpr ⟨first.events, next.events⟩, next.error, next.value⟩

/-- A node of the wrong kind is refused before anything else happens. -/
theorem guarded {n : Node} {kind : Kind} {k : Unit → Outcome α} {Q : α → List Event → Prop}
    (wrong : E (.malformed (.wrongKind kind n.kind) n.span))
    (then_ : n.kind = kind → Meets P E (k ()) Q) : Meets P E (expectKind n kind >>= k) Q := by
  rw [expectKind_bind]
  by_cases same : n.kind = kind
  · rw [if_pos same]
    exact then_ same
  · rw [if_neg same]
    exact flawed wrong

/-- What is said of a list is put together from what is said of its members, from last to first. -/
theorem each {F : γ → Outcome α} {Q : α → List Event → Prop} {S : List α → List Event → Prop}
    (nil : S [] []) (cons : ∀ a es as fs, Q a es → S as fs → S (a :: as) (es ++ fs)) {cs : List γ}
    (h : ∀ c ∈ cs, Meets P E (F c) Q) : Meets P E (each F cs) S := by
  induction cs with
  | nil => exact pure nil
  | cons c cs ih =>
    have rest := ih fun d member => h d (List.mem_cons_of_mem c member)
    refine (h c List.mem_cons_self).bind fun a _ first => ?_
    refine rest.bind fun as _ second => ?_
    refine pure ?_
    rw [List.append_nil]
    exact cons a _ as _ first second

/-- A relation between the value so far and the events so far that every step keeps is kept to the
end. -/
theorem fold (I : α → List Event → Prop) (es : List Event) {F : α → γ → Outcome α} {cs : List γ}
    (h : ∀ c ∈ cs, ∀ a es, I a es → Meets P E (F a c) fun b fs => I b (es ++ fs)) {a : α}
    (start : I a es) : Meets P E (fold F a cs) fun b fs => I b (es ++ fs) := by
  induction cs generalizing a es with
  | nil =>
    refine pure ?_
    rw [List.append_nil]
    exact start
  | cons c cs ih =>
    refine (h c List.mem_cons_self a es start).bind fun b _ holds => ?_
    have rest := ih _ (fun d member => h d (List.mem_cons_of_mem c member)) holds
    simp only [List.append_assoc] at rest
    exact rest

end Meets

end ServiceLang.Lowering
