import Mathlib.Data.Nat.Notation
import Mathlib.Tactic.Lemma

/-!
Scripts that are started again after an interruption.

Each statement of a script commits on its own. A run can be interrupted between any two of them, or
fail, and the next one begins with the first statement again, until one comes to the end. When a
statement that was passed before changes nothing that matters, the stage that was reached is kept.
-/

namespace ManagedAgents.Lib

variable {S Stmt : Type}

/-- Where the runner is. -/
inductive Phase
  | idle
  | running (next : ℕ)
  | failed
  | finished

/-- The states of a script that is run from a state on; a statement commits a new state or fails. -/
inductive Restarts (exec : Stmt → S → Option S → Prop) (script : List Stmt) (s₀ : S) :
    S → Phase → Prop
  | init : Restarts exec script s₀ s₀ .idle
  | start {s} (h : Restarts exec script s₀ s .idle) : Restarts exec script s₀ s (.running 0)
  | interrupt {s i} (h : Restarts exec script s₀ s (.running i)) : Restarts exec script s₀ s .idle
  | retry {s} (h : Restarts exec script s₀ s .failed) : Restarts exec script s₀ s .idle
  | commit {s s' i stmt} (h : Restarts exec script s₀ s (.running i))
    (hi : script[i]? = some stmt) (hexec : exec stmt s (some s')) :
    Restarts exec script s₀ s' (.running (i + 1))
  | fail {s i stmt} (h : Restarts exec script s₀ s (.running i)) (hi : script[i]? = some stmt)
    (hexec : exec stmt s none) : Restarts exec script s₀ s .failed
  | finish {s} (h : Restarts exec script s₀ s (.running script.length)) :
    Restarts exec script s₀ s .finished

/-- What the phase says of the stage that was reached. -/
def Phase.Within (length stage : ℕ) : Phase → Prop
  | idle => True
  | running next => next ≤ stage
  | failed => False
  | finished => stage = length

/-- **Restarting.** When a statement that is next moves the state one stage on, and one that was
passed before keeps the stage, and neither fails, no run fails, and the end of the script is reached
in its last stage. -/
theorem Restarts.staged {exec : Stmt → S → Option S → Prop} {script : List Stmt} {s₀ s : S}
    {phase : Phase} (Stage : ℕ → S → Prop) (init : Stage 0 s₀)
    (sound : ∀ {k i stmt s}, Stage k s → script[i]? = some stmt → i ≤ k → ¬ exec stmt s none)
    (next : ∀ {k stmt s s'}, Stage k s → script[k]? = some stmt → exec stmt s (some s') →
      Stage (k + 1) s')
    (again : ∀ {k i stmt s s'}, Stage k s → script[i]? = some stmt → i < k →
      exec stmt s (some s') → Stage k s')
    (h : Restarts exec script s₀ s phase) :
    ∃ k, k ≤ script.length ∧ Stage k s ∧ phase.Within script.length k := by
  induction h with
  | init => exact ⟨0, Nat.zero_le _, init, trivial⟩
  | start _ ih =>
    obtain ⟨k, hk, hstage, -⟩ := ih
    exact ⟨k, hk, hstage, Nat.zero_le k⟩
  | interrupt _ ih =>
    obtain ⟨k, hk, hstage, -⟩ := ih
    exact ⟨k, hk, hstage, trivial⟩
  | retry _ ih =>
    obtain ⟨k, hk, hstage, hfailed⟩ := ih
    exact hfailed.elim
  | @commit s s' i stmt _ hi hexec ih =>
    obtain ⟨k, hk, hstage, hle⟩ := ih
    rcases Nat.lt_or_eq_of_le hle with hlt | rfl
    · exact ⟨k, hk, again hstage hi hlt hexec, hlt⟩
    · have hlen := (List.getElem?_eq_some_iff.mp hi).1
      exact ⟨i + 1, hlen, next hstage hi hexec, Nat.le_refl _⟩
  | fail _ hi hexec ih =>
    obtain ⟨k, hk, hstage, hle⟩ := ih
    exact absurd hexec (sound hstage hi hle)
  | finish _ ih =>
    obtain ⟨k, hk, hstage, hle⟩ := ih
    exact ⟨k, hk, hstage, Nat.le_antisymm hk hle⟩

end ManagedAgents.Lib
