import ManagedAgents.Lib.Pool

/-!
A crew: programs started for jobs, some of them by the records of a queue.

The queue delivers at least once. A record waits, possibly delayed, until a program is started for
it, and waits again when that program raises or stops anywhere; only a program that returns settles
it. It is with one program at a time, and a second delivery of it is a record of its own. Calls
post records: an answered one has, a failed one may have.
-/

namespace ManagedAgents.Lib

variable {Call : Type} {Reply : Call → Type} {Err W L κ K : Type}

/-- What a crew does: the program of each job, the record it is started by, if any, and the calls
that post one. -/
structure Works (Call : Type) (Reply : Call → Type) (Err L κ : Type) where
  program : L → Prog Call Reply Err Unit
  record : L → Option κ
  posts : Call → Option κ

/-- The world, the programs still there with the jobs they were started for, and the records that
wait. -/
structure Crew (Call : Type) (Reply : Call → Type) (Err W L κ : Type) where
  world : W
  thread : ℕ → Option (Prog Call Reply Err Unit)
  job : ℕ → Option L
  started : ℕ
  waiting : κ → ℕ

namespace Crew

def init (w : W) : Crew Call Reply Err W L κ := ⟨w, fun _ => none, fun _ => none, 0, fun _ => 0⟩

/-- The crew with one more program. -/
def hire (s : Crew Call Reply Err W L κ) (M : Works Call Reply Err L κ) (l : L) :
    Crew Call Reply Err W L κ :=
  { s with
    thread := Function.update s.thread s.started (some (M.program l))
    job := Function.update s.job s.started (some l)
    started := s.started + 1 }

/-- The crew after a call. -/
def proceed (s : Crew Call Reply Err W L κ) (i : ℕ) (p : Prog Call Reply Err Unit) (w : W) :
    Crew Call Reply Err W L κ :=
  { s with world := w, thread := Function.update s.thread i (some p) }

/-- The crew without a program. -/
def discharge (s : Crew Call Reply Err W L κ) (i : ℕ) : Crew Call Reply Err W L κ :=
  { s with thread := Function.update s.thread i none }

/-- The program is there, for this record. -/
def Holds (M : Works Call Reply Err L κ) (s : Crew Call Reply Err W L κ) (i : ℕ) (x : κ) : Prop :=
  (s.thread i).isSome = true ∧ ∃ l, s.job i = some l ∧ M.record l = some x

/-- A record waits, or a program is there for it. -/
def Outstanding (M : Works Call Reply Err L κ) (s : Crew Call Reply Err W L κ) (x : κ) : Prop :=
  0 < s.waiting x ∨ ∃ i, Holds M s i x

section

variable {C : Contract Call Reply Err K} {start : L → K} {Q : L → K → Prop}
  {M : Works Call Reply Err L κ}

/-- The program of a job, with what is known to it, keeps the contract. -/
def Keeps (C : Contract Call Reply Err K) (Q : L → K → Prop) (s : Crew Call Reply Err W L κ)
    (knows : ℕ → Option K) : Prop :=
  ∀ i p, s.thread i = some p → ∃ l k, s.job i = some l ∧ knows i = some k ∧
    C.Conforms p (fun _ => Q l) (fun _ => True) k

lemma Keeps.hire {s : Crew Call Reply Err W L κ} {knows : ℕ → Option K} (h : Keeps C Q s knows)
    {l : L} (hl : C.Conforms (M.program l) (fun _ => Q l) (fun _ => True) (start l)) :
    Keeps C Q (s.hire M l) (Function.update knows s.started (some (start l))) := by
  intro i p hp
  dsimp only [Crew.hire] at hp ⊢
  by_cases hi : i = s.started
  · subst hi
    rw [Function.update_self] at hp ⊢
    cases hp
    exact ⟨l, start l, rfl, Function.update_self _ _ _, hl⟩
  · rw [Function.update_of_ne hi] at hp
    obtain ⟨l', k, hl', hk, hconf⟩ := h i p hp
    exact ⟨l', k, by rw [Function.update_of_ne hi, hl'], by rw [Function.update_of_ne hi, hk],
      hconf⟩

lemma Keeps.proceed {s : Crew Call Reply Err W L κ} {knows : ℕ → Option K} (h : Keeps C Q s knows)
    {i : ℕ} {l : L} {k : K} {p : Prog Call Reply Err Unit} {w : W} (hl : s.job i = some l)
    (hp : C.Conforms p (fun _ => Q l) (fun _ => True) k) :
    Keeps C Q (s.proceed i p w) (Function.update knows i (some k)) := by
  intro j q hq
  dsimp only [Crew.proceed] at hq ⊢
  by_cases hj : j = i
  · subst hj
    rw [Function.update_self] at hq ⊢
    cases hq
    exact ⟨l, k, hl, rfl, hp⟩
  · rw [Function.update_of_ne hj] at hq ⊢
    exact h j q hq

lemma Keeps.discharge {s : Crew Call Reply Err W L κ} {knows : ℕ → Option K}
    (h : Keeps C Q s knows) (i : ℕ) :
    Keeps C Q (s.discharge i) (Function.update knows i none) := by
  intro j q hq
  dsimp only [Crew.discharge] at hq ⊢
  by_cases hj : j = i
  · rw [hj, Function.update_self] at hq
    cases hq
  · rw [Function.update_of_ne hj] at hq ⊢
    exact h j q hq

end

/-! ### Who minds a record -/

section

/-- A record waits, or a program is there for it and, by what it knows, still minds it. -/
def Minded (M : Works Call Reply Err L κ) (minds : κ → K → Prop) (s : Crew Call Reply Err W L κ)
    (knows : ℕ → Option K) (x : κ) : Prop :=
  0 < s.waiting x ∨ ∃ i k, Holds M s i x ∧ knows i = some k ∧ minds x k

variable {M : Works Call Reply Err L κ} {minds : κ → K → Prop} {s : Crew Call Reply Err W L κ}
  {knows : ℕ → Option K} {x : κ}
  {i : ℕ} {k k' : K} {l : L} {w : W} {waiting : κ → ℕ} {p : Prog Call Reply Err Unit}

lemma Minded.outstanding (h : Minded M minds s knows x) : Outstanding M s x :=
  h.imp_right fun ⟨i, _, hi, _, _⟩ => ⟨i, hi⟩

lemma Minded.mono {minds' : κ → K → Prop} (h : Minded M minds s knows x)
    (hle : ∀ k, minds x k → minds' x k) : Minded M minds' s knows x :=
  h.imp_right fun ⟨i, k, hi, hk, hx⟩ => ⟨i, k, hi, hk, hle k hx⟩

/-- Another program is started. -/
lemma Minded.hire (h : Minded M minds s knows x) (hfresh : s.thread s.started = none)
    (v : Option K) :
    Minded M minds (s.hire M l) (Function.update knows s.started v) x := by
  refine h.imp_right ?_
  rintro ⟨i, k, ⟨hi, l', hl', hx⟩, hk, hmind⟩
  have hne : i ≠ s.started := by
    rintro rfl
    rw [hfresh] at hi
    cases hi
  refine ⟨i, k, ⟨?_, l', ?_, hx⟩, ?_, hmind⟩
  · dsimp only [Crew.hire]
    rwa [Function.update_of_ne hne]
  · dsimp only [Crew.hire]
    rwa [Function.update_of_ne hne]
  · rwa [Function.update_of_ne hne]

/-- A program goes on, and minds what it minded unless it waits now. -/
lemma Minded.proceed (h : Minded M minds s knows x) (hk : knows i = some k)
    (hle : s.waiting x ≤ waiting x)
    (hkeep : Holds M s i x → minds x k → minds x k' ∨ 0 < waiting x) :
    Minded M minds { s.proceed i p w with waiting := waiting }
      (Function.update knows i (some k')) x := by
  rcases h with h | ⟨j, kj, ⟨hj, l, hl, hx⟩, hkj, hmind⟩
  · exact .inl (Nat.lt_of_lt_of_le h hle)
  by_cases hji : j = i
  · subst hji
    rw [hk, Option.some.injEq] at hkj
    subst hkj
    refine (hkeep ⟨hj, l, hl, hx⟩ hmind).symm.imp_right fun hmind' => ?_
    exact ⟨j, k', ⟨by simp [Crew.proceed], l, hl, hx⟩, Function.update_self _ _ _, hmind'⟩
  · refine .inr ⟨j, kj, ⟨?_, l, hl, hx⟩, ?_, hmind⟩
    · dsimp only [Crew.proceed]
      rwa [Function.update_of_ne hji]
    · rwa [Function.update_of_ne hji]

/-- A program that goes on minds its record. -/
lemma Minded.own (hl : s.job i = some l) (hx : M.record l = some x) (hmind : minds x k') :
    Minded M minds { s.proceed i p w with waiting := waiting }
      (Function.update knows i (some k')) x :=
  .inr ⟨i, k', ⟨by simp [Crew.proceed], l, hl, hx⟩, Function.update_self _ _ _, hmind⟩

/-- A program is no longer there; it did not mind the record, or the record waits again. -/
lemma Minded.discharge (h : Minded M minds s knows x) (waiting : κ → ℕ)
    (hle : s.waiting x ≤ waiting x)
    (hkeep : ∀ k, Holds M s i x → knows i = some k → minds x k → 0 < waiting x) :
    Minded M minds { s.discharge i with waiting := waiting } (Function.update knows i none) x := by
  rcases h with h | ⟨j, kj, hj, hkj, hmind⟩
  · exact .inl (Nat.lt_of_lt_of_le h hle)
  by_cases hji : j = i
  · subst hji
    exact .inl (hkeep kj hj hkj hmind)
  · obtain ⟨hthere, l, hl, hx⟩ := hj
    refine .inr ⟨j, kj, ⟨?_, l, hl, hx⟩, ?_, hmind⟩
    · dsimp only [Crew.discharge]
      rwa [Function.update_of_ne hji]
    · rwa [Function.update_of_ne hji]

lemma Minded.settle (h : Minded M minds s knows x) (hk : knows i = some k) (hl : s.job i = some l)
    (hnot : ∀ y, M.record l = some y → ¬minds y k) :
    Minded M minds (s.discharge i) (Function.update knows i none) x := by
  refine h.discharge s.waiting (Nat.le_refl _) fun k' hi hk' hmind => ?_
  obtain ⟨-, l', hl', hx⟩ := hi
  rw [hl, Option.some.injEq] at hl'
  rw [hk, Option.some.injEq] at hk'
  subst hl' hk'
  exact (hnot x hx hmind).elim

end

variable [DecidableEq κ]

/-- One more record. -/
def add (waiting : κ → ℕ) : Option κ → κ → ℕ
  | none => waiting
  | some x => Function.update waiting x (waiting x + 1)

lemma le_add (waiting : κ → ℕ) (o : Option κ) (x : κ) : waiting x ≤ add waiting o x := by
  unfold add
  split
  · exact Nat.le_refl _
  · rw [Function.update_apply]
    split
    · rename_i h
      rw [h]
      exact Nat.le_succ _
    · exact Nat.le_refl _

lemma add_pos (waiting : κ → ℕ) (x : κ) : 0 < add waiting (some x) x := by
  simp [add]

variable (M : Works Call Reply Err L κ) (E : Environment Call Reply Err W)

/-- One step of a crew. -/
inductive Step : Crew Call Reply Err W L κ → Crew Call Reply Err W L κ → Prop
  | start {s l} (hl : M.record l = none) : Step s (s.hire M l)
  | deliver {s l x} (hl : M.record l = some x) (hx : 0 < s.waiting x) :
    Step s { s.hire M l with waiting := Function.update s.waiting x (s.waiting x - 1) }
  | call {s} {i c next r w'} (hi : s.thread i = some (.call c next))
    (hc : E.exec s.world (.worker i) c r w')
    (hquiet : M.posts c = none ∨ ∃ e, r = .error e) : Step s (s.proceed i (next r) w')
  | send {s} {i c next r w'} (hi : s.thread i = some (.call c next))
    (hc : E.exec s.world (.worker i) c r w') :
    Step s { s.proceed i (next r) w' with waiting := add s.waiting (M.posts c) }
  | settle {s i l x} (hi : s.thread i = some (.ret ())) (hl : s.job i = some l)
    (hx : M.record l = some x) : Step s (s.discharge i)
  | drop {s i l} (hl : s.job i = some l) (hi : (s.thread i).isSome = true) :
    Step s { s.discharge i with waiting := add s.waiting (M.record l) }
  | post {s} (x : κ) : Step s { s with waiting := add s.waiting (some x) }
  | drift {s} {w'} (hd : E.drift s.world w') : Step s { s with world := w' }

inductive Reachable (w₀ : W) : Crew Call Reply Err W L κ → Prop
  | init : Reachable w₀ (Crew.init w₀)
  | step {s s'} (hs : Reachable w₀ s) (h : Step M E s s') : Reachable w₀ s'

/-! ### What the programs know -/

variable (C : Contract Call Reply Err K) (start : L → K) (Q : L → K → Prop)

/-- The crew beside what its programs know, each by a contract whose start depends on the job. -/
inductive Tracked (w₀ : W) : Crew Call Reply Err W L κ → (ℕ → Option K) → Prop
  | init : Tracked w₀ (Crew.init w₀) (fun _ => none)
  | start {s knows l} (hs : Tracked w₀ s knows) (hl : M.record l = none) :
    Tracked w₀ (s.hire M l) (Function.update knows s.started (some (start l)))
  | deliver {s knows l x} (hs : Tracked w₀ s knows) (hl : M.record l = some x)
    (hx : 0 < s.waiting x) :
    Tracked w₀ { s.hire M l with waiting := Function.update s.waiting x (s.waiting x - 1) }
      (Function.update knows s.started (some (start l)))
  | call {s knows} {i k c next r w'} (hs : Tracked w₀ s knows)
    (hi : s.thread i = some (.call c next)) (hk : knows i = some k) (ha : C.allowed k c)
    (hp : C.possible k c r) (hc : E.exec s.world (.worker i) c r w')
    (hquiet : M.posts c = none ∨ ∃ e, r = .error e) :
    Tracked w₀ (s.proceed i (next r) w') (Function.update knows i (some (C.learn k c r)))
  | send {s knows} {i k c next r w'} (hs : Tracked w₀ s knows)
    (hi : s.thread i = some (.call c next)) (hk : knows i = some k) (ha : C.allowed k c)
    (hp : C.possible k c r) (hc : E.exec s.world (.worker i) c r w') :
    Tracked w₀ { s.proceed i (next r) w' with waiting := add s.waiting (M.posts c) }
      (Function.update knows i (some (C.learn k c r)))
  | settle {s knows i k l x} (hs : Tracked w₀ s knows) (hi : s.thread i = some (.ret ()))
    (hl : s.job i = some l) (hx : M.record l = some x) (hk : knows i = some k) (hQ : Q l k) :
    Tracked w₀ (s.discharge i) (Function.update knows i none)
  | drop {s knows i l} (hs : Tracked w₀ s knows) (hl : s.job i = some l)
    (hi : (s.thread i).isSome = true) :
    Tracked w₀ { s.discharge i with waiting := add s.waiting (M.record l) }
      (Function.update knows i none)
  | post {s knows} (hs : Tracked w₀ s knows) (x : κ) :
    Tracked w₀ { s with waiting := add s.waiting (some x) } knows
  | drift {s knows} {w'} (hs : Tracked w₀ s knows) (hd : E.drift s.world w') :
    Tracked w₀ { s with world := w' } knows

variable {M E C start Q} {w₀ : W}

lemma Tracked.reachable {s : Crew Call Reply Err W L κ} {knows : ℕ → Option K}
    (h : Tracked M E C start Q w₀ s knows) : Reachable M E w₀ s := by
  induction h with
  | init => exact .init
  | start _ hl ih => exact .step ih (.start hl)
  | deliver _ hl hx ih => exact .step ih (.deliver hl hx)
  | call _ hi _ _ _ hc hquiet ih => exact .step ih (.call hi hc hquiet)
  | send _ hi _ _ _ hc ih => exact .step ih (.send hi hc)
  | settle _ hi hl hx _ _ ih => exact .step ih (.settle hi hl hx)
  | drop _ hl hi ih => exact .step ih (.drop hl hi)
  | post _ x ih => exact .step ih (.post x)
  | drift _ hd ih => exact .step ih (.drift hd)

/-- **Tracking.** When every job's program conforms, a reachable crew can be tracked, and its
programs know what they need. -/
theorem tracks (hjobs : ∀ l, C.Conforms (M.program l) (fun _ => Q l) (fun _ => True) (start l))
    (hpossible : ∀ {s i k c r w'}, Reachable M E w₀ s → E.exec s.world (.worker i) c r w' →
      C.possible k c r)
    {s : Crew Call Reply Err W L κ} (hs : Reachable M E w₀ s) :
    ∃ knows, Tracked M E C start Q w₀ s knows ∧ Keeps C Q s knows := by
  induction hs with
  | init => exact ⟨_, .init, fun _ _ h => by cases h⟩
  | @step s _ hreach h ih =>
    obtain ⟨knows, hs, hkeeps⟩ := ih
    cases h with
    | start hl => exact ⟨_, .start hs hl, hkeeps.hire (hjobs _)⟩
    | deliver hl hx => exact ⟨_, .deliver hs hl hx, hkeeps.hire (hjobs _)⟩
    | call hi hc hquiet =>
      obtain ⟨l, k, hl, hk, hallowed, hnext⟩ := hkeeps _ _ hi
      exact ⟨_, .call hs hi hk hallowed (hpossible hreach hc) hc hquiet,
        hkeeps.proceed hl (hnext _ (hpossible hreach hc))⟩
    | @send i c next r w' hi hc =>
      obtain ⟨l, k, hl, hk, hallowed, hnext⟩ := hkeeps _ _ hi
      have hkeeps' : Keeps C Q (s.proceed i (next r) w') _ :=
        hkeeps.proceed hl (hnext _ (hpossible hreach hc))
      exact ⟨_, .send hs hi hk hallowed (hpossible hreach hc) hc, hkeeps'⟩
    | settle hi hl hx =>
      obtain ⟨l', k, hl', hk, hQ⟩ := hkeeps _ _ hi
      rw [hl, Option.some.injEq] at hl'
      subst hl'
      exact ⟨_, .settle hs hi hl hx hk hQ, hkeeps.discharge _⟩
    | drop hl hi => exact ⟨_, .drop hs hl hi, hkeeps.discharge _⟩
    | post x => exact ⟨_, .post hs x, hkeeps⟩
    | drift hd => exact ⟨_, .drift hs hd, hkeeps⟩

/-- What every call and every drift keeps, whoever calls. -/
lemma Reachable.world {P : W → Prop} {s : Crew Call Reply Err W L κ} (init : P w₀)
    (exec : ∀ {w a c r w'}, P w → E.exec w a c r w' → P w')
    (drift : ∀ {w w'}, P w → E.drift w w' → P w') (hs : Reachable M E w₀ s) : P s.world := by
  induction hs with
  | init => exact init
  | step _ h ih =>
    cases h with
    | start | deliver | settle | drop | post => exact ih
    | call _ hc | send _ hc => exact exec ih hc
    | drift hd => exact drift ih hd

/-- Only started programs are there. -/
lemma Reachable.started {s : Crew Call Reply Err W L κ} (hs : Reachable M E w₀ s) {i : ℕ}
    (hi : s.started ≤ i) : s.thread i = none := by
  induction hs with
  | init => rfl
  | @step s _ _ h ih =>
    cases h with
    | start hl | deliver hl hx =>
      dsimp only [hire] at hi ⊢
      rw [Function.update_of_ne (by omega)]
      exact ih (by omega)
    | call hj hc hquiet | send hj hc =>
      dsimp only [proceed] at hi ⊢
      rw [Function.update_of_ne]
      · exact ih hi
      · rintro rfl
        rw [ih hi] at hj
        cases hj
    | settle | drop =>
      dsimp only [discharge] at hi ⊢
      rw [Function.update_apply]
      split
      · rfl
      · exact ih hi
    | post | drift => exact ih hi

/-- Only started programs have a job. -/
lemma Reachable.unhired {s : Crew Call Reply Err W L κ} (hs : Reachable M E w₀ s) {i : ℕ}
    (hi : s.started ≤ i) : s.job i = none := by
  induction hs with
  | init => rfl
  | @step s _ _ h ih =>
    cases h with
    | start hl | deliver hl hx =>
      dsimp only [hire] at hi ⊢
      rw [Function.update_of_ne (by omega)]
      exact ih (by omega)
    | call | send | settle | drop | post | drift => exact ih hi

/-- Hiring takes nobody's job. -/
lemma Reachable.hire_job {s : Crew Call Reply Err W L κ} (hs : Reachable M E w₀ s) {i : ℕ}
    {l l' : L} (h : s.job i = some l) : (s.hire M l').job i = some l := by
  dsimp only [hire]
  rw [Function.update_of_ne]
  · exact h
  · rintro rfl
    rw [hs.unhired (Nat.le_refl _)] at h
    cases h

/-! ### Minding, step by step -/

section

variable {minds : κ → K → Prop} {s : Crew Call Reply Err W L κ} {knows : ℕ → Option K} {x : κ}
  {i : ℕ} {k : K} {l : L}

/-- A program is started by a record, which it minds. -/
lemma Minded.deliver {y : κ} (h : Minded M minds s knows x) (hfresh : s.thread s.started = none)
    (hl : M.record l = some y) (hmind : minds y k) :
    Minded M minds { s.hire M l with waiting := Function.update s.waiting y (s.waiting y - 1) }
      (Function.update knows s.started (some k)) x := by
  by_cases hx : x = y
  · subst hx
    exact .inr ⟨s.started, k, ⟨by simp [Crew.hire], l, Function.update_self _ _ _, hl⟩,
      Function.update_self _ _ _, hmind⟩
  · rcases h.hire (M := M) (l := l) hfresh (some k) with h | h
    · refine .inl ?_
      dsimp only
      rwa [Function.update_of_ne hx]
    · exact .inr h

lemma Minded.drop (h : Minded M minds s knows x) (hl : s.job i = some l) :
    Minded M minds { s.discharge i with waiting := add s.waiting (M.record l) }
      (Function.update knows i none) x := by
  refine h.discharge _ (le_add _ _ _) fun k' hi _ _ => ?_
  obtain ⟨-, l', hl', hx⟩ := hi
  rw [hl, Option.some.injEq] at hl'
  subst hl'
  rw [hx]
  exact add_pos _ _

lemma Minded.post (h : Minded M minds s knows x) (y : κ) :
    Minded M minds { s with waiting := add s.waiting (some y) } knows x :=
  h.imp_left fun h => Nat.lt_of_lt_of_le h (le_add s.waiting (some y) x)

end

/-! ### What the rest of the crew hides -/

/-- **Mirroring.** Some of a crew's jobs are entries of a pool; the others make courteous calls
only, which the pool's clients can make, or which do not matter. The crew's world is then, up to
what matters, a world of the pool, with the entries' programs where they are. -/
theorem mirrored {entry : Prog Call Reply Err Unit → Prop} {outside courteous : Call → Prop}
    (R : W → W → Prop) {p₀ : Prog Call Reply Err Unit} (hp₀ : entry p₀)
    (hjob : ∀ l, entry (M.program l) ∨ (M.program l).Every courteous) (hinit : R w₀ w₀)
    (hseen : ∀ {w v i c r w'}, R w v → E.exec w (.worker i) c r w' →
      ∃ v', E.exec v (.worker i) c r v' ∧ R w' v')
    (hhidden : ∀ {w v a c r w'}, R w v → courteous c → E.exec w a c r w' →
      R w' v ∨ ∃ c' r' v', outside c' ∧ E.exec v .client c' r' v' ∧ R w' v')
    (hdrift : ∀ {w v w'}, R w v → E.drift w w' → ∃ v', E.drift v v' ∧ R w' v')
    {s : Crew Call Reply Err W L κ} (hs : Reachable M E w₀ s) :
    ∃ t, Pool.Reachable E entry outside w₀ t ∧ R s.world t.world ∧ t.spawned = s.started ∧
      ∀ i p, s.thread i = some p →
        t.thread i = some p ∨ t.thread i = none ∧ p.Every courteous := by
  -- one more program: an entry is started in the pool, the others are a program stopped at once
  have hhire : ∀ {s : Crew Call Reply Err W L κ} {t : Pool Call Reply Err W} (l : L),
      Pool.Reachable E entry outside w₀ t → R s.world t.world → t.spawned = s.started →
      (∀ i p, s.thread i = some p →
        t.thread i = some p ∨ t.thread i = none ∧ p.Every courteous) →
      ∃ t', Pool.Reachable E entry outside w₀ t' ∧ R s.world t'.world ∧
        t'.spawned = s.started + 1 ∧ ∀ i p, (s.hire M l).thread i = some p →
          t'.thread i = some p ∨ t'.thread i = none ∧ p.Every courteous := by
    intro s t l ht hR hspawned hthreads
    rcases hjob l with hentry | hevery
    · refine ⟨_, .step ht (.spawn hentry), hR, by rw [hspawned], fun i p hp => ?_⟩
      dsimp only [hire] at hp ⊢
      rw [hspawned]
      by_cases hi : i = s.started
      · subst hi
        rw [Function.update_self] at hp ⊢
        exact .inl hp
      · rw [Function.update_of_ne hi] at hp ⊢
        exact hthreads i p hp
    · refine ⟨_, .step (.step ht (.spawn hp₀)) (.crash s.started), hR, by rw [hspawned],
        fun i p hp => ?_⟩
      dsimp only [hire] at hp ⊢
      by_cases hi : i = s.started
      · subst hi
        rw [Function.update_self] at hp ⊢
        cases hp
        exact .inr ⟨rfl, hevery⟩
      · rw [Function.update_of_ne hi] at hp
        rw [Function.update_of_ne hi, hspawned, Function.update_of_ne hi]
        exact hthreads i p hp
  have hproceed : ∀ {s : Crew Call Reply Err W L κ} {t : Pool Call Reply Err W} {i c next r w'},
      Pool.Reachable E entry outside w₀ t → R s.world t.world → t.spawned = s.started →
      (∀ i p, s.thread i = some p →
        t.thread i = some p ∨ t.thread i = none ∧ p.Every courteous) →
      s.thread i = some (.call c next) → E.exec s.world (.worker i) c r w' →
      ∃ t', Pool.Reachable E entry outside w₀ t' ∧ R w' t'.world ∧
        t'.spawned = s.started ∧ ∀ j p, (s.proceed i (next r) w').thread j = some p →
          t'.thread j = some p ∨ t'.thread j = none ∧ p.Every courteous := by
    intro s t i c next r w' ht hR hspawned hthreads hi hc
    rcases hthreads i _ hi with hseen' | ⟨hnone, hallowed, hnext⟩
    · obtain ⟨v', hv, hR'⟩ := hseen hR hc
      refine ⟨_, .step ht (.call hseen' hv), hR', hspawned, fun j p hp => ?_⟩
      dsimp only [Crew.proceed] at hp ⊢
      by_cases hj : j = i
      · subst hj
        rw [Function.update_self] at hp ⊢
        exact .inl hp
      · rw [Function.update_of_ne hj] at hp ⊢
        exact hthreads j p hp
    · have hrest : ∀ j p, (s.proceed i (next r) w').thread j = some p →
          t.thread j = some p ∨ t.thread j = none ∧ p.Every courteous := by
        intro j p hp
        dsimp only [Crew.proceed] at hp
        by_cases hj : j = i
        · subst hj
          rw [Function.update_self] at hp
          cases hp
          exact .inr ⟨hnone, hnext r trivial⟩
        · rw [Function.update_of_ne hj] at hp
          exact hthreads j p hp
      rcases hhidden hR hallowed hc with hR' | ⟨c', r', v', hout, hv, hR'⟩
      · exact ⟨t, ht, hR', hspawned, hrest⟩
      · exact ⟨_, .step ht (.outside hout hv), hR', hspawned, hrest⟩
  have hstop : ∀ {s : Crew Call Reply Err W L κ} {t : Pool Call Reply Err W} (i : ℕ),
      Pool.Reachable E entry outside w₀ t → R s.world t.world → t.spawned = s.started →
      (∀ i p, s.thread i = some p →
        t.thread i = some p ∨ t.thread i = none ∧ p.Every courteous) →
      ∃ t', Pool.Reachable E entry outside w₀ t' ∧ R s.world t'.world ∧
        t'.spawned = s.started ∧ ∀ j p, (s.discharge i).thread j = some p →
          t'.thread j = some p ∨ t'.thread j = none ∧ p.Every courteous := by
    intro s t i ht hR hspawned hthreads
    refine ⟨_, .step ht (.crash i), hR, hspawned, fun j p hp => ?_⟩
    dsimp only [Crew.discharge] at hp ⊢
    by_cases hj : j = i
    · rw [hj, Function.update_self] at hp
      cases hp
    · rw [Function.update_of_ne hj] at hp ⊢
      exact hthreads j p hp
  induction hs with
  | init => exact ⟨_, .init, hinit, rfl, fun _ _ h => by cases h⟩
  | step _ h ih =>
    obtain ⟨t, ht, hR, hspawned, hthreads⟩ := ih
    cases h with
    | start hl => exact hhire _ ht hR hspawned hthreads
    | deliver hl hx => exact hhire _ ht hR hspawned hthreads
    | call hi hc hquiet => exact hproceed ht hR hspawned hthreads hi hc
    | send hi hc => exact hproceed ht hR hspawned hthreads hi hc
    | settle hi hl hx => exact hstop _ ht hR hspawned hthreads
    | drop hl hi => exact hstop _ ht hR hspawned hthreads
    | post x => exact ⟨t, ht, hR, hspawned, hthreads⟩
    | drift hd =>
      obtain ⟨v', hv, hR'⟩ := hdrift hR hd
      exact ⟨_, .step ht (.drift hv), hR', hspawned, hthreads⟩

end Crew

end ManagedAgents.Lib
