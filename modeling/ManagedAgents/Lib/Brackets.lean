import Mathlib.Data.List.Basic
import Mathlib.Tactic.Lemma

/-!
Brackets in a sequence of events.

An event opens a bracket, stands inside one, closes one, or asks that all of them are closed. A scan
keeps the brackets that are open and stops at the first event that does not fit.
-/

namespace ManagedAgents.Lib

/-- What an event has to do with the brackets named by `ι`. -/
inductive Mark (ι : Type*)
  | opens (i : ι)
  | inside (i : ι)
  | closes (i : ι)
  | settles
  | other

namespace Mark

variable {ι : Type*} [DecidableEq ι]

/-- The open brackets after one more event, which has to fit. -/
def step (held : List ι) : Mark ι → Option (List ι)
  | opens i => if i ∈ held then none else some (i :: held)
  | inside i => if i ∈ held then some held else none
  | closes i => if i ∈ held then some (held.erase i) else none
  | settles => if held = [] then some held else none
  | other => some held

def scan (held : List ι) (marks : List (Mark ι)) : Option (List ι) := marks.foldlM step held

/-- Every event fits: what stands inside a bracket stands inside an open one, no bracket is opened
twice, only open ones are closed, and none is open where all have to be closed. -/
def WellBracketed (marks : List (Mark ι)) : Prop := (scan [] marks).isSome

instance (marks : List (Mark ι)) : Decidable (WellBracketed marks) :=
  inferInstanceAs (Decidable ((scan [] marks).isSome = true))

variable {held : List ι} {marks later : List (Mark ι)} {i : ι}

@[simp] lemma scan_nil : scan held [] = some held := rfl

@[simp] lemma scan_cons (m : Mark ι) :
    scan held (m :: marks) = (step held m).bind (scan · marks) := by
  simp [scan, List.foldlM_cons]

lemma scan_append : scan held (marks ++ later) = (scan held marks).bind (scan · later) := by
  simp [scan, List.foldlM_append]

lemma scan_others (h : ∀ m ∈ marks, m = other) : scan held marks = some held := by
  induction marks with
  | nil => rfl
  | cons m marks ih =>
    obtain rfl := h m (by simp)
    have hrest : ∀ m ∈ marks, m = other := fun m hm => h m (by simp [hm])
    simp [step, ih hrest]

/-- A bracket opened, filled and closed again leaves the open ones as they were. -/
lemma scan_whole (h : i ∉ held) : scan held [opens i, inside i, closes i] = some held := by
  simp [step, h]

/-- After events that fit, all brackets may be asked to be closed exactly when they are. -/
lemma settles_iff (h : scan [] marks = some held) :
    WellBracketed (marks ++ [settles]) ↔ held = [] := by
  simp only [WellBracketed, scan_append, h, Option.bind_some, scan_cons, step]
  by_cases hheld : held = [] <;> simp [hheld]

end Mark

end ManagedAgents.Lib
