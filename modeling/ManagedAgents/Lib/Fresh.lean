import Mathlib.Data.List.Basic
import Mathlib.Data.List.Nodup
import Mathlib.Tactic.Lemma

/-!
The first elements of a list under each key.

A reader who sees a growing list again and again, and keeps the keys that were seen, takes every
element once and in order.
-/

namespace ManagedAgents.Lib

variable {α κ : Type*} [DecidableEq κ]

/-- The elements whose key is neither seen nor the key of an earlier element. -/
def fresh (key : α → κ) (seen : List κ) : List α → List α
  | [] => []
  | a :: rest =>
    if key a ∈ seen then fresh key seen rest else a :: fresh key (key a :: seen) rest

/-- The first element under each key. -/
def firsts (key : α → κ) (l : List α) : List α := fresh key [] l

namespace Fresh

variable {key : α → κ} {seen seen' : List κ} {l m : List α}

lemma congr (h : ∀ k, k ∈ seen ↔ k ∈ seen') : fresh key seen l = fresh key seen' l := by
  induction l generalizing seen seen' with
  | nil => rfl
  | cons a l ih =>
    have hcons : ∀ k, k ∈ key a :: seen ↔ k ∈ key a :: seen' := by simp [h]
    simp only [fresh, h, ih h, ih hcons]

lemma append : fresh key seen (l ++ m) = fresh key seen l ++ fresh key (l.map key ++ seen) m := by
  induction l generalizing seen with
  | nil => rfl
  | cons a l ih =>
    by_cases ha : key a ∈ seen
    · have hsame : ∀ k, k ∈ l.map key ++ seen ↔ k ∈ (a :: l).map key ++ seen := by
        intro k
        simp only [List.map_cons, List.mem_append, List.cons_append, List.mem_cons]
        constructor
        · exact Or.inr
        · rintro (rfl | hk)
          · exact Or.inr ha
          · exact hk
      simp [fresh, ha, ih, congr hsame]
    · have hsame : ∀ k, k ∈ l.map key ++ (key a :: seen) ↔ k ∈ (a :: l).map key ++ seen := by
        intro k
        simp only [List.map_cons, List.mem_append, List.cons_append, List.mem_cons]
        tauto
      simp [fresh, ha, ih, congr hsame]

lemma eq_nil (h : ∀ a ∈ l, key a ∈ seen) : fresh key seen l = [] := by
  induction l with
  | nil => rfl
  | cons a l ih =>
    have hrest : ∀ b ∈ l, key b ∈ seen := fun b hb => h b (by simp [hb])
    simp [fresh, h a (by simp), ih hrest]

lemma eq_self (h : (l.map key).Nodup) (hnew : ∀ a ∈ l, key a ∉ seen) : fresh key seen l = l := by
  induction l generalizing seen with
  | nil => rfl
  | cons a l ih =>
    simp only [List.map_cons, List.nodup_cons, List.mem_map, not_exists, not_and] at h
    have hrest : ∀ b ∈ l, key b ∉ key a :: seen := by
      intro b hb
      have := h.1 b hb
      have := hnew b (by simp [hb])
      simp_all
    simp [fresh, hnew a (by simp), ih h.2 hrest]

/-- What is new in a list that grew, after its beginning was read. -/
lemma grown (h : l <+: m) : firsts key l ++ fresh key (l.map key) m = firsts key m := by
  obtain ⟨more, rfl⟩ := h
  have hold : fresh key (l.map key) l = [] := eq_nil fun a ha => List.mem_map_of_mem ha
  have hsame : ∀ k, k ∈ l.map key ++ l.map key ↔ k ∈ l.map key ++ [] := by simp
  simp only [firsts, append, hold, List.nil_append, congr hsame]

lemma firsts_eq_self (h : (l.map key).Nodup) : firsts key l = l := eq_self h (by simp)

end Fresh

end ManagedAgents.Lib
