import Mathlib.Algebra.BigOperators.Group.Finset.Basic
import Mathlib.Algebra.Order.BigOperators.Group.Finset
import Mathlib.Tactic.Lemma
import ManagedAgents.Lib.Prog

/-!
Pools of programs over one shared world.

Programs run interleaved, one call at a time, and any of them may stop for good between two
calls. Besides them, outside clients may make single calls and the world may drift by itself. A
party system is the same with programs replaced by what their contract lets them know: a party
may make any allowed call. Every run of a pool whose programs conform is a run of the party
system, so what holds of the world in the latter holds in the former.
-/

namespace ManagedAgents.Lib

variable {Call : Type} {Reply : Call → Type} {Err κ W : Type}

/-- The caller: a program of the pool, or an outside client. -/
inductive Actor
  | worker (i : ℕ)
  | client
  deriving DecidableEq

/-- How calls are answered, and what happens without one. -/
structure Environment (Call : Type) (Reply : Call → Type) (Err W : Type) where
  exec : W → Actor → (c : Call) → Except Err (Reply c) → W → Prop
  drift : W → W → Prop

/-- The same, in runs whose calls and drifts meet a condition. -/
def Environment.restrict (E : Environment Call Reply Err W)
    (okCall : W → (c : Call) → Except Err (Reply c) → W → Prop) (okDrift : W → W → Prop) :
    Environment Call Reply Err W where
  exec w a c r w' := E.exec w a c r w' ∧ okCall w c r w'
  drift w w' := E.drift w w' ∧ okDrift w w'

/-- The world and the programs still running; programs are numbered as they start. -/
structure Pool (Call : Type) (Reply : Call → Type) (Err W : Type) where
  world : W
  thread : ℕ → Option (Prog Call Reply Err Unit)
  spawned : ℕ

namespace Pool

variable (E : Environment Call Reply Err W) (entry : Prog Call Reply Err Unit → Prop)
  (outside : Call → Prop)

/-- One step of a pool: a start, a call, a crash, a client's call or a drift. -/
inductive Step : Pool Call Reply Err W → Pool Call Reply Err W → Prop
  | spawn {s} {p} (hp : entry p) :
    Step s ⟨s.world, Function.update s.thread s.spawned (some p), s.spawned + 1⟩
  | call {s} {i c next r w'} (hi : s.thread i = some (.call c next))
    (hc : E.exec s.world (.worker i) c r w') :
    Step s ⟨w', Function.update s.thread i (some (next r)), s.spawned⟩
  | crash {s} (i : ℕ) : Step s ⟨s.world, Function.update s.thread i none, s.spawned⟩
  | outside {s} {c r w'} (ho : outside c) (hc : E.exec s.world .client c r w') :
    Step s ⟨w', s.thread, s.spawned⟩
  | drift {s} {w'} (hd : E.drift s.world w') : Step s ⟨w', s.thread, s.spawned⟩

/-- The states a pool reaches from `w₀` with nothing running. -/
inductive Reachable (w₀ : W) : Pool Call Reply Err W → Prop
  | init : Reachable w₀ ⟨w₀, fun _ => none, 0⟩
  | step {s s'} (hs : Reachable w₀ s) (h : Step E entry outside s s') : Reachable w₀ s'

variable {E} {entry entry' : Prog Call Reply Err Unit → Prop} {outside} {w₀ : W}

/-- Fewer steps reach fewer states. -/
lemma Reachable.mono {E' : Environment Call Reply Err W} {s}
    (hexec : ∀ w a c r w', E.exec w a c r w' → E'.exec w a c r w')
    (hdrift : ∀ w w', E.drift w w' → E'.drift w w')
    (hs : Reachable E entry outside w₀ s) : Reachable E' entry outside w₀ s := by
  induction hs with
  | init => exact .init
  | step _ h ih =>
    refine .step ih ?_
    cases h with
    | spawn hp => exact .spawn hp
    | call hi hc => exact .call hi (hexec _ _ _ _ _ hc)
    | crash i => exact .crash i
    | outside ho hc => exact .outside ho (hexec _ _ _ _ _ hc)
    | drift hd => exact .drift (hdrift _ _ hd)

/-- What every call and every drift keeps, whoever calls. -/
lemma Reachable.world {P : W → Prop} {s} (init : P w₀)
    (exec : ∀ {w a c r w'}, P w → E.exec w a c r w' → P w')
    (drift : ∀ {w w'}, P w → E.drift w w' → P w') (hs : Reachable E entry outside w₀ s) :
    P s.world := by
  induction hs with
  | init => exact init
  | step _ h ih =>
    cases h with
    | spawn | crash => exact ih
    | call _ hc | outside _ hc => exact exec ih hc
    | drift hd => exact drift ih hd

end Pool

/-- The world and what each party knows. -/
structure Parties (κ W : Type) where
  world : W
  knows : ℕ → Option κ
  joined : ℕ

namespace Parties

variable (C : Contract Call Reply Err κ) (E : Environment Call Reply Err W) (start : κ)
  (outside : Call → Prop)

/-- One step of a party system. -/
inductive Step : Parties κ W → Parties κ W → Prop
  | join {s} : Step s ⟨s.world, Function.update s.knows s.joined (some start), s.joined + 1⟩
  | call {s} {i k c r w'} (hk : s.knows i = some k) (ha : C.allowed k c)
    (hc : E.exec s.world (.worker i) c r w') :
    Step s ⟨w', Function.update s.knows i (some (C.learn k c r)), s.joined⟩
  | leave {s} (i : ℕ) : Step s ⟨s.world, Function.update s.knows i none, s.joined⟩
  | outside {s} {c r w'} (ho : outside c) (hc : E.exec s.world .client c r w') :
    Step s ⟨w', s.knows, s.joined⟩
  | drift {s} {w'} (hd : E.drift s.world w') : Step s ⟨w', s.knows, s.joined⟩

inductive Reachable (w₀ : W) : Parties κ W → Prop
  | init : Reachable w₀ ⟨w₀, fun _ => none, 0⟩
  | step {s s'} (hs : Reachable w₀ s) (h : Step C E start outside s s') : Reachable w₀ s'

variable {C E start outside} {w₀ : W}

lemma Reachable.mono {E' : Environment Call Reply Err W} {s}
    (hexec : ∀ w a c r w', E.exec w a c r w' → E'.exec w a c r w')
    (hdrift : ∀ w w', E.drift w w' → E'.drift w w')
    (hs : Reachable C E start outside w₀ s) : Reachable C E' start outside w₀ s := by
  induction hs with
  | init => exact .init
  | step _ h ih =>
    refine .step ih ?_
    cases h with
    | join => exact .join
    | call hk ha hc => exact .call hk ha (hexec _ _ _ _ _ hc)
    | leave i => exact .leave i
    | outside ho hc => exact .outside ho (hexec _ _ _ _ _ hc)
    | drift hd => exact .drift (hdrift _ _ hd)

/-- Only parties that joined know anything. -/
lemma Reachable.joined {s} (hs : Reachable C E start outside w₀ s) {i : ℕ} {k : κ}
    (hi : s.knows i = some k) : i < s.joined := by
  induction hs generalizing i k with
  | init => cases hi
  | @step s _ _ h ih =>
    cases h with
    | join =>
      dsimp only at hi ⊢
      by_cases hj : i = s.joined
      · simp [hj]
      · rw [Function.update_of_ne hj] at hi
        exact Nat.lt_succ_of_lt (ih hi)
    | @call j _ _ _ _ hk _ _ =>
      dsimp only at hi ⊢
      by_cases hj : i = j
      · exact hj ▸ ih hk
      · rw [Function.update_of_ne hj] at hi
        exact ih hi
    | leave j =>
      dsimp only at hi ⊢
      by_cases hj : i = j
      · rw [hj, Function.update_self] at hi
        cases hi
      · rw [Function.update_of_ne hj] at hi
        exact ih hi
    | outside _ _ => exact ih hi
    | drift _ => exact ih hi

/-- **Simulation.** When every entry program conforms from `start`, and every reply the
environment gives is possible, a reachable pool is a reachable party system whose parties know
what their programs need. -/
theorem simulates {entry : Prog Call Reply Err Unit → Prop} {Q : Unit → κ → Prop} {R : κ → Prop}
    (hentry : ∀ p, entry p → C.Conforms p Q R start)
    (hpossible : ∀ s, Reachable C E start outside w₀ s → ∀ i k c r w', s.knows i = some k →
      C.allowed k c → E.exec s.world (.worker i) c r w' → C.possible k c r)
    {s : Pool Call Reply Err W} (hs : Pool.Reachable E entry outside w₀ s) :
    ∃ knows : ℕ → Option κ, Reachable C E start outside w₀ ⟨s.world, knows, s.spawned⟩ ∧
      ∀ i p, s.thread i = some p → ∃ k, knows i = some k ∧ C.Conforms p Q R k := by
  induction hs with
  | init => exact ⟨_, .init, fun _ _ h => by cases h⟩
  | @step s _ _ h ih =>
    obtain ⟨knows, hr, hconf⟩ := ih
    cases h with
    | @spawn p hp =>
      refine ⟨_, .step hr .join, fun i q hq => ?_⟩
      dsimp only at hq ⊢
      by_cases hi : i = s.spawned
      · subst hi
        rw [Function.update_self] at hq ⊢
        cases hq
        exact ⟨start, rfl, hentry _ hp⟩
      · rw [Function.update_of_ne hi] at hq ⊢
        exact hconf i q hq
    | @call i c next r w' hi hc =>
      obtain ⟨k, hk, hallow, hnext⟩ := hconf i _ hi
      refine ⟨_, .step hr (.call hk hallow hc), fun j q hq => ?_⟩
      dsimp only at hq ⊢
      by_cases hj : j = i
      · subst hj
        rw [Function.update_self] at hq ⊢
        cases hq
        exact ⟨_, rfl, hnext r (hpossible _ hr j k c r w' hk hallow hc)⟩
      · rw [Function.update_of_ne hj] at hq ⊢
        exact hconf j q hq
    | crash i =>
      refine ⟨_, .step hr (.leave i), fun j q hq => ?_⟩
      dsimp only at hq ⊢
      by_cases hj : j = i
      · rw [hj, Function.update_self] at hq
        cases hq
      · rw [Function.update_of_ne hj] at hq ⊢
        exact hconf j q hq
    | outside ho hc => exact ⟨knows, .step hr (.outside ho hc), hconf⟩
    | drift hd => exact ⟨knows, .step hr (.drift hd), hconf⟩

/-! ### What holds of every party -/

/-- What each party knows is like this. -/
def All (P : κ → Prop) (knows : ℕ → Option κ) : Prop := ∀ i k, knows i = some k → P k

section

variable {P P' : κ → Prop} {knows : ℕ → Option κ} {i : ℕ} {v : Option κ}

lemma All.none : All P fun _ => none := fun _ _ h => by cases h

lemma All.imp (h : All P knows) (himp : ∀ k, P k → P' k) : All P' knows :=
  fun i k hk => himp k (h i k hk)

lemma All.update (h : All P knows) (hv : ∀ k, v = some k → P k) :
    All P (Function.update knows i v) := by
  intro j k hj
  by_cases hji : j = i
  · subst hji
    rw [Function.update_self] at hj
    exact hv k hj
  · rw [Function.update_of_ne hji] at hj
    exact h j k hj

end

/-! ### Counting what the parties hold -/

/-- How much the first `n` parties hold together, when `held` says what one holds. -/
def total (held : κ → ℕ) (n : ℕ) (knows : ℕ → Option κ) : ℕ :=
  ∑ i ∈ Finset.range n, (knows i).elim 0 held

variable {held : κ → ℕ} {n : ℕ} {knows : ℕ → Option κ}

lemma total_update (held : κ → ℕ) (knows : ℕ → Option κ) {i : ℕ} (hi : i < n) (v : Option κ) :
    total held n (Function.update knows i v) + (knows i).elim 0 held =
      total held n knows + v.elim 0 held := by
  have hmem : i ∈ Finset.range n := Finset.mem_range.mpr hi
  have hrest : ∑ j ∈ (Finset.range n).erase i, (Function.update knows i v j).elim 0 held =
      ∑ j ∈ (Finset.range n).erase i, (knows j).elim 0 held :=
    Finset.sum_congr rfl fun j hj => by rw [Function.update_of_ne (Finset.ne_of_mem_erase hj)]
  have hnew := Finset.add_sum_erase (Finset.range n)
    (fun j => (Function.update knows i v j).elim 0 held) hmem
  have hold := Finset.add_sum_erase (Finset.range n) (fun j => (knows j).elim 0 held) hmem
  simp only [Function.update_self] at hnew
  rw [hrest] at hnew
  unfold total
  omega

/-- A party that knew nothing leaves nothing behind. -/
lemma total_leave (held : κ → ℕ) (n : ℕ) (knows : ℕ → Option κ) (i : ℕ) :
    total held n (Function.update knows i none) ≤ total held n knows := by
  by_cases hi : i < n
  · have hupdate := total_update held knows hi none
    simp only [Option.elim_none] at hupdate
    omega
  · refine Nat.le_of_eq (Finset.sum_congr rfl fun j hj => ?_)
    rw [Function.update_of_ne]
    rintro rfl
    exact hi (Finset.mem_range.mp hj)

lemma total_join (v : κ) :
    total held (n + 1) (Function.update knows n (some v)) = total held n knows + held v := by
  unfold total
  rw [Finset.sum_range_succ, Function.update_self, Option.elim_some]
  refine congrArg (· + held v) (Finset.sum_congr rfl fun j hj => ?_)
  rw [Function.update_of_ne (Nat.ne_of_lt (Finset.mem_range.mp hj))]

lemma total_le {held' : κ → ℕ} (h : ∀ i k, knows i = some k → held' k ≤ held k) :
    total held' n knows ≤ total held n knows := by
  refine Finset.sum_le_sum fun i _ => ?_
  cases hi : knows i with
  | none => exact Nat.le_refl _
  | some k => exact h i k hi

/-- A call some party or client makes. -/
def Made (C : Contract Call Reply Err κ) (outside : Call → Prop) (s : Parties κ W) (c : Call) :
    Actor → Prop
  | .worker i => ∃ k, s.knows i = some k ∧ C.allowed k c
  | .client => outside c

/-- **Balance.** Parties hold permits. When a call spends no more than its caller gives up, or
the world's budget grows by, what was ever spent stays within the budget. -/
theorem balance (held : W → κ → ℕ) (spent budget : W → ℕ) (hinit : spent w₀ = 0)
    (hstart : ∀ w, held w start = 0)
    (hcall : ∀ {s i k c r w'}, Reachable C E start outside w₀ s → s.knows i = some k →
      C.allowed k c → E.exec s.world (.worker i) c r w' →
      spent w' + held w' (C.learn k c r) + budget s.world ≤
        spent s.world + held s.world k + budget w')
    (houtside : ∀ {s c r w'}, Reachable C E start outside w₀ s → outside c →
      E.exec s.world .client c r w' → spent w' + budget s.world ≤ spent s.world + budget w')
    (hothers : ∀ {s a c r w'}, Reachable C E start outside w₀ s → Made C outside s c a →
      E.exec s.world a c r w' → ∀ {j k}, a ≠ .worker j → s.knows j = some k →
        held w' k ≤ held s.world k)
    (hdrift : ∀ {w w'}, E.drift w w' →
      spent w' = spent w ∧ budget w' = budget w ∧ held w' = held w)
    {s} (hs : Reachable C E start outside w₀ s) :
    spent s.world + total (held s.world) s.joined s.knows ≤ budget s.world := by
  induction hs with
  | init => simp [hinit, total]
  | @step s _ hs h ih =>
    cases h with
    | join =>
      rw [total_join, hstart]
      exact ih
    | @call i k c r w' hk ha hc =>
      have hspend := hcall hs hk ha hc
      have hupdate := total_update (held w') s.knows (hs.joined hk) (some (C.learn k c r))
      rw [hk, Option.elim_some, Option.elim_some] at hupdate
      -- everyone else holds at most what they held
      have hle : total (held w') s.joined s.knows + held s.world k ≤
          total (held s.world) s.joined s.knows + held w' k := by
        have hown := total_update (held w') s.knows (hs.joined hk) none
        have hown' := total_update (held s.world) s.knows (hs.joined hk) none
        have hrest : total (held w') s.joined (Function.update s.knows i none) ≤
            total (held s.world) s.joined (Function.update s.knows i none) := by
          refine total_le fun j k' hj => ?_
          by_cases hji : j = i
          · rw [hji, Function.update_self] at hj
            cases hj
          · rw [Function.update_of_ne hji] at hj
            exact hothers (a := .worker i) hs ⟨k, hk, ha⟩ hc
              (fun h => hji (Actor.worker.inj h).symm) hj
        rw [hk, Option.elim_some, Option.elim_none] at hown hown'
        omega
      dsimp only
      omega
    | leave i =>
      have hle := total_leave (held s.world) s.joined s.knows i
      dsimp only
      omega
    | @outside c r w' ho hc =>
      have hspend := houtside hs ho hc
      have hle : total (held w') s.joined s.knows ≤ total (held s.world) s.joined s.knows :=
        total_le fun j k hj => hothers (a := .client) hs ho hc (fun h => by cases h) hj
      dsimp only
      omega
    | drift hd =>
      obtain ⟨hspent, hbudget, hheld⟩ := hdrift hd
      dsimp only
      rw [hspent, hbudget, hheld]
      exact ih

end Parties

end ManagedAgents.Lib
