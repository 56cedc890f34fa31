import Mathlib.Data.List.Nodup
import Mathlib.Tactic.Lemma

/-!
Keyed tables, as a relational store keeps them: rows in insertion order, no two with the same
key. The primary key is a field of the structure, so a table with a duplicate cannot be built;
`get?` is the only view later proofs use of it.
-/

namespace ManagedAgents.Lib

/-- Rows with pairwise different keys, in insertion order. -/
structure Table {κ ρ : Type*} (key : ρ → κ) where
  rows : List ρ
  nodup : (rows.map key).Nodup

namespace Table

variable {κ ρ : Type*} [DecidableEq κ] {key : ρ → κ}

def empty : Table key := ⟨[], by simp⟩

def get? (t : Table key) (k : κ) : Option ρ := t.rows.find? (fun r => key r = k)

/-- The rows a condition selects. -/
def select (t : Table key) (p : ρ → Bool) : List ρ := t.rows.filter p

/-- Adding a row fails when its key is taken. -/
def insert (t : Table key) (r : ρ) : Option (Table key) :=
  if h : key r ∈ t.rows.map key then none
  else some ⟨t.rows ++ [r], by
    rw [List.map_append, List.nodup_append]
    exact ⟨t.nodup, by simp, fun a ha b hb => by
      rintro rfl
      simp only [List.map_cons, List.map_nil, List.mem_singleton] at hb
      exact h (hb ▸ ha)⟩⟩

/-- Changing the rows a condition selects, by a change that leaves the key alone. -/
def update (t : Table key) (p : ρ → Bool) (f : ρ → ρ) (hf : ∀ r, key (f r) = key r) :
    Table key :=
  ⟨t.rows.map (fun r => if p r then f r else r), by
    have hkeys : (t.rows.map (fun r => if p r then f r else r)).map key = t.rows.map key := by
      rw [List.map_map]
      refine List.map_congr_left fun r _ => ?_
      by_cases hp : p r <;> simp [hp, hf]
    rw [hkeys]
    exact t.nodup⟩

/-- Changing the row of one key. -/
def modify (t : Table key) (k : κ) (f : ρ → ρ) (hf : ∀ r, key (f r) = key r) : Table key :=
  t.update (fun r => key r = k) f hf

@[simp] lemma get?_empty (k : κ) : (empty : Table key).get? k = none := rfl

lemma get?_eq_some {t : Table key} {k : κ} {r : ρ} :
    t.get? k = some r ↔ r ∈ t.rows ∧ key r = k := by
  obtain ⟨rows, nodup⟩ := t
  simp only [get?]
  induction rows with
  | nil => simp
  | cons a l ih =>
    rw [List.map_cons, List.nodup_cons] at nodup
    by_cases ha : key a = k
    · rw [List.find?_cons_of_pos (by simpa using ha)]
      constructor
      · intro h
        cases h
        exact ⟨by simp, ha⟩
      · rintro ⟨hr, hk⟩
        rcases List.mem_cons.mp hr with rfl | hr'
        · rfl
        · exact absurd (List.mem_map.mpr ⟨r, hr', hk.trans ha.symm⟩) nodup.1
    · rw [List.find?_cons_of_neg (by simpa using ha), ih nodup.2, List.mem_cons]
      constructor
      · rintro ⟨hr, hk⟩
        exact ⟨Or.inr hr, hk⟩
      · rintro ⟨rfl | hr, hk⟩
        · exact absurd hk ha
        · exact ⟨hr, hk⟩

lemma get?_key {t : Table key} {k : κ} {r : ρ} (h : t.get? k = some r) : key r = k :=
  (get?_eq_some.mp h).2

lemma get?_of_mem {t : Table key} {r : ρ} (h : r ∈ t.rows) : t.get? (key r) = some r :=
  get?_eq_some.mpr ⟨h, rfl⟩

lemma mem_select {t : Table key} {p : ρ → Bool} {r : ρ} :
    r ∈ t.select p ↔ t.get? (key r) = some r ∧ p r = true := by
  simp [select, get?_eq_some]

lemma get?_update (t : Table key) (p : ρ → Bool) (f : ρ → ρ) (hf : ∀ r, key (f r) = key r)
    (k : κ) : (t.update p f hf).get? k = (t.get? k).map (fun r => if p r then f r else r) := by
  obtain ⟨rows, nodup⟩ := t
  simp only [get?, update, List.find?_map]
  congr 2
  funext r
  by_cases hp : p r <;> simp [hp, hf]

lemma get?_modify (t : Table key) (k : κ) (f : ρ → ρ) (hf : ∀ r, key (f r) = key r) (k' : κ) :
    (t.modify k f hf).get? k' = if k' = k then (t.get? k').map f else t.get? k' := by
  rw [modify, get?_update]
  rcases hr : t.get? k' with _ | r
  · simp
  · have hkey := get?_key hr
    by_cases hk : k' = k <;> simp [hkey, hk]

lemma get?_insert {t t' : Table key} {r : ρ} (h : t.insert r = some t') (k : κ) :
    t'.get? k = if k = key r then some r else t.get? k := by
  unfold insert at h
  split at h
  · cases h
  · rename_i hfresh
    cases h
    by_cases hk : k = key r
    · rw [if_pos hk]
      exact get?_eq_some.mpr ⟨by simp, hk.symm⟩
    · rw [if_neg hk]
      simp only [get?, List.find?_append]
      rw [List.find?_cons_of_neg (by simpa using fun h => hk h.symm), List.find?_nil,
        Option.or_none]

lemma insert_fresh {t t' : Table key} {r : ρ} (h : t.insert r = some t') :
    t.get? (key r) = none := by
  unfold insert at h
  split at h
  · cases h
  · rename_i hfresh
    rw [Option.eq_none_iff_forall_ne_some]
    intro r' hr'
    obtain ⟨hmem, hkey⟩ := get?_eq_some.mp hr'
    exact hfresh (List.mem_map.mpr ⟨r', hmem, hkey⟩)

/-- A row whose key is free is added at the end. -/
lemma insert_free {t : Table key} {r : ρ} (h : t.get? (key r) = none) :
    ∃ t', t.insert r = some t' ∧ t'.rows = t.rows ++ [r] := by
  have hfree : key r ∉ t.rows.map key := by
    intro hmem
    obtain ⟨r', hr', hkey⟩ := List.mem_map.mp hmem
    rw [← hkey, get?_of_mem hr'] at h
    cases h
  exact ⟨_, dif_neg hfree, rfl⟩

@[simp] lemma length_modify {t : Table key} {k : κ} {f : ρ → ρ} {hf : ∀ r, key (f r) = key r} :
    (t.modify k f hf).rows.length = t.rows.length := List.length_map _

end Table

end ManagedAgents.Lib
