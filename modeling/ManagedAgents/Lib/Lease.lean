import ManagedAgents.Lib.Chronicle

/-!
Leases: a token holds something, and what it guards changes only as a tenure ends.

A token is granted only once. So a token that holds now has held ever since it was granted, and what
is guarded is as it was then.
-/

namespace ManagedAgents.Lib

/-- How a lease is read off a state: who holds it, what is guarded, and the tokens that are not
fresh any more. -/
structure Lease (S τ D : Type) where
  Holds : S → τ → Prop
  guarded : S → D
  issued : S → τ → Prop

namespace Lease

variable {S τ D : Type} (L : Lease S τ D)

/-- What may become of a lease: nobody new holds it, a fresh token is granted it, or it ends. -/
inductive Turn (s s' : S) : Prop
  | kept (hholds : ∀ t, L.Holds s' t → L.Holds s t) (hguarded : L.guarded s' = L.guarded s)
  | granted {t : τ} (hfresh : ¬ L.issued s t) (hholds : ∀ u, L.Holds s' u → u = t)
  | ended (hholds : ∀ t, ¬ L.Holds s' t)

structure Step (s s' : S) : Prop where
  turn : L.Turn s s'
  issued : ∀ t, L.issued s t → L.issued s' t

/-- Whoever holds at the second state and was granted the lease by the first one held there too, and
what is guarded is the same. -/
structure Spans (s s' : S) : Prop where
  issued : ∀ t, L.issued s t → L.issued s' t
  holds : ∀ t, L.issued s t → L.Holds s' t → L.Holds s t
  guarded : ∀ t, L.issued s t → L.Holds s' t → L.guarded s' = L.guarded s

variable {L} {s s' s'' : S}

lemma Spans.refl (s : S) : L.Spans s s := ⟨fun _ h => h, fun _ _ h => h, fun _ _ _ => rfl⟩

lemma Spans.trans (h : L.Spans s s') (h' : L.Spans s' s'') : L.Spans s s'' := by
  refine ⟨fun t ht => h'.issued t (h.issued t ht), fun t ht hheld => ?_, fun t ht hheld => ?_⟩
  · exact h.holds t ht (h'.holds t (h.issued t ht) hheld)
  · have hmiddle := h'.holds t (h.issued t ht) hheld
    rw [h'.guarded t (h.issued t ht) hheld, h.guarded t ht hmiddle]

/-- One step spans. -/
lemma Step.spans (h : L.Step s s') : L.Spans s s' := by
  have hboth : ∀ t, L.issued s t → L.Holds s' t → L.Holds s t ∧ L.guarded s' = L.guarded s := by
    intro t ht hheld
    cases h.turn with
    | kept hholds hguarded => exact ⟨hholds t hheld, hguarded⟩
    | granted hfresh hholds =>
      obtain rfl := hholds t hheld
      exact absurd ht hfresh
    | ended hnone => exact absurd hheld (hnone t)
  exact ⟨h.issued, fun t ht hheld => (hboth t ht hheld).1, fun t ht hheld => (hboth t ht hheld).2⟩

end Lease

/-! ### In a history -/

section

variable {Call : Type} {Reply : Call → Type} {Err J S τ D : Type}
  {answers : S → (c : Call) → Except Err (Reply c) → S → Prop} {drifts : S → S → Prop}
  {allowed : Dossier J Reply Err → Call → Prop} {st₀ : S} {job : ℕ → Option J}
  {log : List (Deed Reply Err S)} {st : S}

/-- What every answer and every drift keeps holds between any two entries of a history. -/
lemma History.ordered {R : S → S → Prop} (hrefl : ∀ st, R st st)
    (htrans : ∀ {st st' st''}, R st st' → R st' st'' → R st st'')
    (hanswer : ∀ {st c r st'}, answers st c r st' → R st st')
    (hdrift : ∀ {st st'}, drifts st st' → R st st')
    (h : History answers drifts allowed st₀ job log st) :
    log.Pairwise fun e e' => R e'.after e.before := by
  induction h with
  | init => exact .nil
  | call h _ _ _ ih =>
    refine List.pairwise_cons.mpr ⟨fun e he => ?_, ih⟩
    exact ((h.since hrefl htrans hanswer hdrift).2 e he).2
  | drift _ _ ih => exact ih

/-- **Tenure.** A token that holds held, and what is guarded stayed as it was, at every entry since
the token was granted. -/
theorem History.held {L : Lease S τ D}
    (hanswer : ∀ {st c r st'}, answers st c r st' → L.Spans st st')
    (hdrift : ∀ {st st'}, drifts st st' → L.Spans st st')
    (h : History answers drifts allowed st₀ job log st) {mid rest : List (Deed Reply Err S)}
    {g : Deed Reply Err S} {t : τ} (hlog : log = mid ++ g :: rest) (hissued : L.issued g.after t)
    (hheld : L.Holds st t) :
    (∀ m ∈ mid, L.Holds m.before t ∧ L.Holds m.after t ∧ L.guarded m.after = L.guarded m.before) ∧
      L.guarded st = L.guarded g.after := by
  obtain ⟨-, hsince⟩ := h.since (R := L.Spans) .refl .trans hanswer hdrift
  have hordered := h.ordered (R := L.Spans) .refl .trans hanswer hdrift
  subst hlog
  refine ⟨fun m hm => ?_, (hsince g (by simp)).2.guarded t hissued hheld⟩
  have hm' : m ∈ mid ++ g :: rest := by simp [hm]
  have hbefore : L.Spans g.after m.before := (List.pairwise_append.mp hordered).2.2 m hm g (by simp)
  have hstep : L.Spans m.before m.after := hanswer (h.answered m hm')
  have hissued' := hbefore.issued t hissued
  have hafter := (hsince m hm').2.holds t (hstep.issued t hissued') hheld
  exact ⟨hstep.holds t hissued' hafter, hafter, hstep.guarded t hissued' hafter⟩

end

end ManagedAgents.Lib
