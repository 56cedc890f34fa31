import ManagedAgents.Lib.Crew

/-!
Runs of a pool or a crew that are written down, line by line, and played.

A player says how a line's answer is computed, and that what it computes is what the environment
may do. A script that can be played then ends in a reachable state.
-/

namespace ManagedAgents.Lib

variable {Call : Type} {Reply : Call → Type} {Err W : Type}

/-- How lines are played: the programs that can be started, the answers to calls, the calls of
clients and the drifts. -/
structure Player (E : Environment Call Reply Err W) (entry : Prog Call Reply Err Unit → Prop)
    (outside : Call → Prop) (Said Job Tick : Type) where
  job : Job → Prog Call Reply Err Unit
  job_entry : ∀ j, entry (job j)
  answer : W → Actor → (c : Call) → Said → Option (Except Err (Reply c) × W)
  answer_exec : ∀ {w a c said r w'}, answer w a c said = some (r, w') → E.exec w a c r w'
  isOutside : Call → Bool
  outside_of : ∀ {c}, isOutside c = true → outside c
  tick : W → Tick → Option W
  tick_drift : ∀ {w t w'}, tick w t = some w' → E.drift w w'

/-- One line of a script. -/
inductive Line (Call Said Job Tick : Type)
  | start (j : Job)
  | call (i : ℕ) (said : Said)
  | ask (c : Call) (said : Said)
  | crash (i : ℕ)
  | tick (t : Tick)

namespace Player

variable {E : Environment Call Reply Err W} {entry : Prog Call Reply Err Unit → Prop}
  {outside : Call → Prop} {Said Job Tick : Type}

def line (P : Player E entry outside Said Job Tick) (s : Pool Call Reply Err W) :
    Line Call Said Job Tick → Option (Pool Call Reply Err W)
  | .start j =>
    some ⟨s.world, Function.update s.thread s.spawned (some (P.job j)), s.spawned + 1⟩
  | .call i said =>
    match s.thread i with
    | some (.call c next) =>
      (P.answer s.world (.worker i) c said).map fun (r, w) =>
        ⟨w, Function.update s.thread i (some (next r)), s.spawned⟩
    | _ => none
  | .ask c said =>
    if P.isOutside c then
      (P.answer s.world .client c said).map fun (_, w) => ⟨w, s.thread, s.spawned⟩
    else none
  | .crash i => some ⟨s.world, Function.update s.thread i none, s.spawned⟩
  | .tick t => (P.tick s.world t).map fun w => ⟨w, s.thread, s.spawned⟩

/-- Playing a script from the start. -/
def play (P : Player E entry outside Said Job Tick) (w₀ : W)
    (script : List (Line Call Said Job Tick)) : Option (Pool Call Reply Err W) :=
  script.foldlM P.line ⟨w₀, fun _ => none, 0⟩

lemma line_step (P : Player E entry outside Said Job Tick) {s s' : Pool Call Reply Err W}
    {l : Line Call Said Job Tick} (h : P.line s l = some s') :
    Pool.Step E entry outside s s' := by
  cases l with
  | start j =>
    cases h
    exact .spawn (P.job_entry j)
  | call i said =>
    simp only [line] at h
    split at h
    · rename_i c next hthread
      obtain ⟨⟨r, w⟩, hanswer, rfl⟩ := Option.map_eq_some_iff.mp h
      exact .call hthread (P.answer_exec hanswer)
    · cases h
  | ask c said =>
    simp only [line] at h
    split at h
    · rename_i hout
      obtain ⟨⟨r, w⟩, hanswer, rfl⟩ := Option.map_eq_some_iff.mp h
      exact .outside (P.outside_of hout) (P.answer_exec hanswer)
    · cases h
  | crash i =>
    cases h
    exact .crash i
  | tick t =>
    obtain ⟨w, hw, rfl⟩ := Option.map_eq_some_iff.mp h
    exact .drift (P.tick_drift hw)

/-- **A script that can be played ends in a reachable state.** -/
theorem play_reachable (P : Player E entry outside Said Job Tick) {w₀ : W}
    {script : List (Line Call Said Job Tick)} {s : Pool Call Reply Err W}
    (h : P.play w₀ script = some s) : Pool.Reachable E entry outside w₀ s := by
  have hplay : ∀ (script : List (Line Call Said Job Tick)) (s₀ : Pool Call Reply Err W),
      Pool.Reachable E entry outside w₀ s₀ → script.foldlM P.line s₀ = some s →
      Pool.Reachable E entry outside w₀ s := by
    intro script
    induction script with
    | nil =>
      intro s₀ hs₀ h
      cases h
      exact hs₀
    | cons l rest ih =>
      intro s₀ hs₀ h
      rw [List.foldlM_cons] at h
      obtain ⟨s₁, hl, hrest⟩ := Option.bind_eq_some_iff.mp h
      exact ih s₁ (.step hs₀ (P.line_step hl)) hrest
  exact hplay script _ .init h

/-- What is computed from a played script is a fact about a reachable state. -/
lemma played (P : Player E entry outside Said Job Tick) {w₀ : W} {α : Type}
    (f : Pool Call Reply Err W → α) {v : α} {script : List (Line Call Said Job Tick)}
    (h : (P.play w₀ script).map f = some v) :
    ∃ s, P.play w₀ script = some s ∧ Pool.Reachable E entry outside w₀ s ∧ f s = v := by
  obtain ⟨s, hs, hval⟩ := Option.map_eq_some_iff.mp h
  exact ⟨s, hs, P.play_reachable hs, hval⟩

/-- The same, for runs whose calls pass a check. -/
def checked (P : Player E entry outside Said Job Tick)
    (ok : W → (c : Call) → Except Err (Reply c) → W → Bool) :
    Player (E.restrict (fun w c r w' => ok w c r w' = true) fun _ _ => True) entry outside
      Said Job Tick where
  job := P.job
  job_entry := P.job_entry
  answer w a c said := (P.answer w a c said).filter fun (r, w') => ok w c r w'
  answer_exec h := by
    obtain ⟨hanswer, hok⟩ := Option.filter_eq_some_iff.mp h
    exact ⟨P.answer_exec hanswer, hok⟩
  isOutside := P.isOutside
  outside_of := P.outside_of
  tick := P.tick
  tick_drift h := ⟨P.tick_drift h, trivial⟩

end Player

/-! ### Crews -/

/-- One line of a crew's script. -/
inductive Duty (L κ Said Tick : Type)
  | start (l : L)
  | deliver (l : L)
  | call (i : ℕ) (said : Said)
  | send (i : ℕ) (said : Said)
  | settle (i : ℕ)
  | drop (i : ℕ)
  | post (x : κ)
  | tick (t : Tick)

/-- How a crew's lines are played. -/
structure Stage (E : Environment Call Reply Err W) (Said Tick : Type) where
  answer : W → Actor → (c : Call) → Said → Option (Except Err (Reply c) × W)
  answer_exec : ∀ {w a c said r w'}, answer w a c said = some (r, w') → E.exec w a c r w'
  tick : W → Tick → Option W
  tick_drift : ∀ {w t w'}, tick w t = some w' → E.drift w w'

namespace Stage

variable {E : Environment Call Reply Err W} {L κ Said Tick : Type} [DecidableEq κ]

def isError {α : Type} : Except Err α → Bool
  | .ok _ => false
  | .error _ => true

def line (P : Stage E Said Tick) (M : Works Call Reply Err L κ) (s : Crew Call Reply Err W L κ) :
    Duty L κ Said Tick → Option (Crew Call Reply Err W L κ)
  | .start l => if (M.record l).isNone then some (s.hire M l) else none
  | .deliver l =>
    match M.record l with
    | some x =>
      if 0 < s.waiting x then
        some { s.hire M l with waiting := Function.update s.waiting x (s.waiting x - 1) }
      else none
    | none => none
  | .call i said =>
    match s.thread i with
    | some (.call c next) =>
      match P.answer s.world (.worker i) c said with
      | some (r, w) =>
        if (M.posts c).isNone || isError r then some (s.proceed i (next r) w) else none
      | none => none
    | _ => none
  | .send i said =>
    match s.thread i with
    | some (.call c next) =>
      (P.answer s.world (.worker i) c said).map fun (r, w) =>
        { s.proceed i (next r) w with waiting := Crew.add s.waiting (M.posts c) }
    | _ => none
  | .settle i =>
    match s.thread i, s.job i with
    | some (.ret ()), some l => if (M.record l).isSome then some (s.discharge i) else none
    | _, _ => none
  | .drop i =>
    match s.job i with
    | some l =>
      if (s.thread i).isSome then
        some { s.discharge i with waiting := Crew.add s.waiting (M.record l) }
      else none
    | none => none
  | .post x => some { s with waiting := Crew.add s.waiting (some x) }
  | .tick t => (P.tick s.world t).map fun w => { s with world := w }

def play (P : Stage E Said Tick) (M : Works Call Reply Err L κ) (w₀ : W)
    (script : List (Duty L κ Said Tick)) : Option (Crew Call Reply Err W L κ) :=
  script.foldlM (P.line M) (Crew.init w₀)

variable {M : Works Call Reply Err L κ}

lemma line_step (P : Stage E Said Tick) {s s' : Crew Call Reply Err W L κ}
    {d : Duty L κ Said Tick} (h : P.line M s d = some s') : Crew.Step M E s s' := by
  cases d with
  | start l =>
    simp only [line, Option.isNone_iff_eq_none] at h
    split at h
    · cases h
      exact .start ‹_›
    · cases h
  | deliver l =>
    simp only [line] at h
    split at h
    · split at h
      · cases h
        exact .deliver ‹_› ‹_›
      · cases h
    · cases h
  | call i said =>
    simp only [line] at h
    split at h
    · rename_i c next hthread
      split at h
      · rename_i r w hanswer
        split at h
        · rename_i hquiet
          cases h
          refine .call hthread (P.answer_exec hanswer) ?_
          rcases Bool.or_eq_true _ _ ▸ hquiet with hnone | herror
          · exact .inl (Option.isNone_iff_eq_none.mp hnone)
          · cases r with
            | ok v => cases herror
            | error e => exact .inr ⟨e, rfl⟩
        · cases h
      · cases h
    · cases h
  | send i said =>
    simp only [line] at h
    split at h
    · rename_i c next hthread
      obtain ⟨⟨r, w⟩, hanswer, rfl⟩ := Option.map_eq_some_iff.mp h
      exact .send hthread (P.answer_exec hanswer)
    · cases h
  | settle i =>
    simp only [line] at h
    split at h
    · rename_i l hthread hjob
      split at h
      · rename_i hrecord
        cases h
        obtain ⟨x, hx⟩ := Option.isSome_iff_exists.mp hrecord
        exact .settle hthread hjob hx
      · cases h
    · cases h
  | drop i =>
    simp only [line] at h
    split at h
    · rename_i l hjob
      split at h
      · cases h
        exact .drop hjob ‹_›
      · cases h
    · cases h
  | post x =>
    cases h
    exact .post x
  | tick t =>
    obtain ⟨w, hw, rfl⟩ := Option.map_eq_some_iff.mp h
    exact .drift (P.tick_drift hw)

/-- Lines that can be played lead to a later state. -/
lemma lines_path (P : Stage E Said Tick) {script : List (Duty L κ Said Tick)}
    {s s' : Crew Call Reply Err W L κ} (h : script.foldlM (P.line M) s = some s') :
    Relation.ReflTransGen (Crew.Step M E) s s' := by
  induction script generalizing s with
  | nil =>
    cases h
    exact .refl
  | cons d rest ih =>
    rw [List.foldlM_cons] at h
    obtain ⟨s₁, hd, hrest⟩ := Option.bind_eq_some_iff.mp h
    exact .head (P.line_step hd) (ih hrest)

/-- **A crew's script that can be played ends in a reachable state.** -/
theorem play_reachable (P : Stage E Said Tick) {w₀ : W} {script : List (Duty L κ Said Tick)}
    {s : Crew Call Reply Err W L κ} (h : P.play M w₀ script = some s) :
    Crew.Reachable M E w₀ s := by
  have hplay : ∀ (script : List (Duty L κ Said Tick)) (s₀ : Crew Call Reply Err W L κ),
      Crew.Reachable M E w₀ s₀ → script.foldlM (P.line M) s₀ = some s →
      Crew.Reachable M E w₀ s := by
    intro script
    induction script with
    | nil =>
      intro s₀ hs₀ h
      cases h
      exact hs₀
    | cons d rest ih =>
      intro s₀ hs₀ h
      rw [List.foldlM_cons] at h
      obtain ⟨s₁, hd, hrest⟩ := Option.bind_eq_some_iff.mp h
      exact ih s₁ (.step hs₀ (P.line_step hd)) hrest
  exact hplay script _ .init h

lemma played (P : Stage E Said Tick) {w₀ : W} {α : Type} (f : Crew Call Reply Err W L κ → α)
    {v : α} {script : List (Duty L κ Said Tick)} (h : (P.play M w₀ script).map f = some v) :
    ∃ s, P.play M w₀ script = some s ∧ Crew.Reachable M E w₀ s ∧ f s = v := by
  obtain ⟨s, hs, hval⟩ := Option.map_eq_some_iff.mp h
  exact ⟨s, hs, P.play_reachable hs, hval⟩

/-- The same, for runs whose calls pass a check. -/
def checked (P : Stage E Said Tick) (ok : W → (c : Call) → Except Err (Reply c) → W → Bool) :
    Stage (E.restrict (fun w c r w' => ok w c r w' = true) fun _ _ => True) Said Tick where
  answer w a c said := (P.answer w a c said).filter fun (r, w') => ok w c r w'
  answer_exec h := by
    obtain ⟨hanswer, hok⟩ := Option.filter_eq_some_iff.mp h
    exact ⟨P.answer_exec hanswer, hok⟩
  tick := P.tick
  tick_drift h := ⟨P.tick_drift h, trivial⟩

end Stage

/-- The program returned, as a check. -/
def Crew.returned {L κ : Type} (s : Crew Call Reply Err W L κ) (i : ℕ) : Bool :=
  match s.thread i with
  | some (.ret ()) => true
  | _ => false

lemma Crew.of_returned {L κ : Type} {s : Crew Call Reply Err W L κ} {i : ℕ}
    (h : s.returned i = true) : s.thread i = some (.ret ()) := by
  unfold returned at h
  split at h
  · assumption
  · cases h

end ManagedAgents.Lib
