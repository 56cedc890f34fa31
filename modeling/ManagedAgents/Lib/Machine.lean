import Mathlib.Tactic.Lemma
import Mathlib.Tactic.TypeStar

/-!
Machines that are driven from outside: in a state some inputs are accepted, and each leads to one
state. What holds at first and is kept by every accepted input holds of every run.
-/

namespace ManagedAgents.Lib.Machine

variable {S E : Type*}

/-- The states that some inputs lead to. -/
inductive Reached (act : S → E → Option S) (s₀ : S) : S → Prop
  | init : Reached act s₀ s₀
  | act {s s' : S} {e : E} (hs : Reached act s₀ s) (h : act s e = some s') : Reached act s₀ s'

variable {act : S → E → Option S} {s₀ s s' : S}

lemma Reached.invariant {P : S → Prop} (hs : Reached act s₀ s) (hinit : P s₀)
    (hact : ∀ {s e s'}, P s → act s e = some s' → P s') : P s := by
  induction hs with
  | init => exact hinit
  | act _ h ih => exact hact ih h

/-- Inputs one after the other. -/
def play (act : S → E → Option S) : List E → S → Option S
  | [], s => some s
  | e :: rest, s => (act s e).bind (play act rest)

lemma Reached.play {events : List E} (hs : Reached act s₀ s)
    (h : Machine.play act events s = some s') : Reached act s₀ s' := by
  induction events generalizing s with
  | nil =>
    cases h
    exact hs
  | cons e rest ih =>
    obtain ⟨s₁, hact, hrest⟩ := Option.bind_eq_some_iff.mp h
    exact ih (hs.act hact) hrest

/-- What is seen of the state after some inputs is seen of a reached state. -/
lemma reached_of_play {events : List E} {α : Type*} {f : S → α} {a : α}
    (h : (play act events s₀).map f = some a) : ∃ s, Reached act s₀ s ∧ f s = a := by
  obtain ⟨s, hplay, rfl⟩ := Option.map_eq_some_iff.mp h
  exact ⟨s, Reached.init.play hplay, rfl⟩

end ManagedAgents.Lib.Machine
