import ManagedAgents.Lib.Crew

/-!
Two worlds that are asked the same calls.

An answer is one that both worlds give; each drifts on its own. A crew over both is a crew over
either of them, and what holds of all of a part's runs holds of that part.
-/

namespace ManagedAgents.Lib

variable {Call : Type} {Reply : Call → Type} {Err W W' W₁ W₂ L κ K : Type}

/-- Calls are answered by both worlds alike. -/
def Environment.pair (E₁ : Environment Call Reply Err W₁) (E₂ : Environment Call Reply Err W₂) :
    Environment Call Reply Err (W₁ × W₂) where
  exec w a c r w' := E₁.exec w.1 a c r w'.1 ∧ E₂.exec w.2 a c r w'.2
  drift w w' := (E₁.drift w.1 w'.1 ∧ w'.2 = w.2) ∨ (w'.1 = w.1 ∧ E₂.drift w.2 w'.2)

/-- What a part of the world is to the whole: its calls are answered, and it drifts or stays. -/
structure Environment.Part (E : Environment Call Reply Err W) (E' : Environment Call Reply Err W')
    (f : W → W') : Prop where
  exec : ∀ {w a c r w'}, E.exec w a c r w' → E'.exec (f w) a c r (f w')
  drift : ∀ {w w'}, E.drift w w' → E'.drift (f w) (f w') ∨ f w' = f w

namespace Environment

variable {E₁ : Environment Call Reply Err W₁} {E₂ : Environment Call Reply Err W₂}

lemma Part.fst : (E₁.pair E₂).Part E₁ Prod.fst :=
  ⟨And.left, fun h => h.imp And.left And.left⟩

lemma Part.snd : (E₁.pair E₂).Part E₂ Prod.snd :=
  ⟨And.right, fun h => h.symm.imp And.right And.right⟩

end Environment

namespace Crew

/-- A crew, of whose world a part is seen. -/
def view (f : W → W') (s : Crew Call Reply Err W L κ) : Crew Call Reply Err W' L κ :=
  ⟨f s.world, s.thread, s.job, s.started, s.waiting⟩

variable [DecidableEq κ] {M : Works Call Reply Err L κ} {E : Environment Call Reply Err W}
  {E' : Environment Call Reply Err W'} {f : W → W'} {w₀ : W} {s s' : Crew Call Reply Err W L κ}

/-- A step is a step of the part, or none. -/
lemma Step.view (hf : E.Part E' f) (h : Step M E s s') :
    Step M E' (s.view f) (s'.view f) ∨ s'.view f = s.view f := by
  cases h with
  | start hl => exact .inl (.start hl)
  | deliver hl hx => exact .inl (.deliver hl hx)
  | call hi hc hquiet => exact .inl (.call hi (hf.exec hc) hquiet)
  | send hi hc => exact .inl (.send hi (hf.exec hc))
  | settle hi hl hx => exact .inl (.settle hi hl hx)
  | drop hl hi => exact .inl (.drop hl hi)
  | post x => exact .inl (.post x)
  | drift hd =>
    rcases hf.drift hd with hd | hsame
    · exact .inl (.drift hd)
    · refine .inr ?_
      simp only [Crew.view, hsame]

/-- **A run is a run of each part.** -/
theorem Reachable.view (hf : E.Part E' f) (hs : Reachable M E w₀ s) :
    Reachable M E' (f w₀) (s.view f) := by
  induction hs with
  | init => exact .init
  | step _ h ih =>
    rcases Step.view hf h with hstep | hsame
    · exact .step ih hstep
    · rw [hsame]
      exact ih

/-- What the programs know in a run they know in each part of it. -/
theorem Tracked.view {C : Contract Call Reply Err K} {start : L → K} {Q : L → K → Prop}
    {knows : ℕ → Option K} (hf : E.Part E' f) (hs : Tracked M E C start Q w₀ s knows) :
    Tracked M E' C start Q (f w₀) (s.view f) knows := by
  induction hs with
  | init => exact .init
  | start _ hl ih => exact .start ih hl
  | deliver _ hl hx ih => exact .deliver ih hl hx
  | call _ hi hk ha hp hc hquiet ih => exact .call ih hi hk ha hp (hf.exec hc) hquiet
  | send _ hi hk ha hp hc ih => exact .send ih hi hk ha hp (hf.exec hc)
  | settle _ hi hl hx hk hQ ih => exact .settle ih hi hl hx hk hQ
  | drop _ hl hi ih => exact .drop ih hl hi
  | post _ x ih => exact .post ih x
  | @drift s _ w' _ hd ih =>
    rcases hf.drift hd with hd | hsame
    · exact .drift ih hd
    · have hview : ({ s with world := w' } : Crew Call Reply Err W L κ).view f = s.view f := by
        simp only [Crew.view, hsame]
      rw [hview]
      exact ih

end Crew

end ManagedAgents.Lib
