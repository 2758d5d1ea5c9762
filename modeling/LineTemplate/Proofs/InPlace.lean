import LineTemplate.Definition
import Mathlib.Tactic.Common

/-!
# Changes in place

A dictionary may be filled in place, and what was changed before a failure is not taken back. Each
step here finds its fault before it changes anything, and so a failure leaves the dictionary as it
was. Of several faults the first is reported.
-/
namespace LineTemplate

/-- What the first member of a list states, of those that state anything. -/
def FirstOf {α β : Type} (states : α → β → Prop) (l : List α) (answer : β) : Prop :=
  ∃ before a after, l = before ++ a :: after ∧
    (∀ earlier ∈ before, ∀ other, ¬ states earlier other) ∧ states a answer

section FirstOf

variable {α β : Type} {states : α → β → Prop} {l : List α} {answer : β}

@[simp] lemma not_firstOf_nil : ¬ FirstOf states [] answer := by
  rintro ⟨before, a, after, h, -⟩
  exact List.append_ne_nil_of_right_ne_nil before (List.cons_ne_nil a after) h.symm

lemma firstOf_cons {a : α} :
    FirstOf states (a :: l) answer ↔
      states a answer ∨ (∀ other, ¬ states a other) ∧ FirstOf states l answer := by
  constructor
  · rintro ⟨before, here, after, hl, hearlier, hstates⟩
    rcases List.cons_eq_append_iff.mp hl with ⟨rfl, h⟩ | ⟨before, rfl, rfl⟩
    · obtain ⟨rfl, rfl⟩ := List.cons.inj h
      exact .inl hstates
    · obtain ⟨hfirst, hearlier⟩ := List.forall_mem_cons.mp hearlier
      exact .inr ⟨hfirst, before, here, after, rfl, hearlier, hstates⟩
  · rintro (hstates | ⟨hfirst, before, here, after, rfl, hearlier, hstates⟩)
    · exact ⟨[], a, l, rfl, List.forall_mem_nil _, hstates⟩
    · exact ⟨a :: before, here, after, rfl, List.forall_mem_cons.mpr ⟨hfirst, hearlier⟩, hstates⟩

lemma forall_not_firstOf_iff :
    (∀ answer, ¬ FirstOf states l answer) ↔ ∀ a ∈ l, ∀ answer, ¬ states a answer := by
  induction l with
  | nil => simp
  | cons a l ih =>
    rw [List.forall_mem_cons, ← ih]
    simp only [firstOf_cons, not_or, not_and]
    exact ⟨fun h => ⟨fun other => (h other).1, fun other => (h other).2 fun first => (h first).1⟩,
      fun h other => ⟨h.1 other, fun _ => h.2 other⟩⟩

/-- What can come to a fault succeeds unless it comes to one. -/
lemma exists_ok_iff {ε : Type} {x : Except ε β} :
    (∃ b, x = .ok b) ↔ ∀ fault, ¬ x = .error fault := by
  cases x <;> simp

end FirstOf

/-- Steps that change a dictionary in place and may fail. What was changed before a failure
stays. -/
abbrev InPlace (α : Type) := ExceptT Fault (StateM Dictionary) α

namespace InPlace

/-- What steps come to, and the dictionary that they leave. -/
def perform {α : Type} (steps : InPlace α) (d : Dictionary) : Except Fault α × Dictionary :=
  StateT.run (ExceptT.run steps) d

/-- Extends the dictionary by one that has to be loaded first. -/
def extend (loaded : Except Fault Dictionary) : InPlace Unit := do
  let more ← loaded
  modify (·.extend more)

def define (text : Text) : InPlace Unit := do
  let definition ← Definition.read text
  modify (·.apply definition)

theorem perform_extend (loaded : Except Fault Dictionary) (d : Dictionary) :
    (extend loaded).perform d =
      match loaded with
      | .error fault => (.error fault, d)
      | .ok more => (.ok (), d.extend more) := by
  cases loaded <;> rfl

theorem perform_define (text : Text) (d : Dictionary) :
    (define text).perform d =
      match d.define text with
      | .error fault => (.error fault, d)
      | .ok after => (.ok (), after) := by
  rw [Dictionary.define, define]
  cases Definition.read text <;> rfl

end InPlace

end LineTemplate
