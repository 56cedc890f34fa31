import ManagedAgents.Controller.Coherence
import ManagedAgents.Controller.Conform

/-!
From programs to parties: every run of the controller is a run of workers that act on what they
know, and a step of such a run is one of seven turns. Invariants of runs are proved turn by turn.
-/

namespace ManagedAgents.Controller

open ManagedAgents.Lib

variable {s s' : Parties Known World} {db' : Db} {E : Environment Call Call.Reply Exn World}

/-- Runs of workers that act on what they know. -/
abbrev Knowing (E : Environment Call Call.Reply Exn World) : Parties Known World → Prop :=
  Parties.Reachable contract E {} Client {}

/-- Calls that are answered as the environment answers them, or only some of these. -/
structure Within (E : Environment Call Call.Reply Exn World) : Prop where
  exec : ∀ {w a c r w'}, E.exec w a c r w' → environment.exec w a c r w'
  drift : ∀ {w w'}, E.drift w w' → environment.drift w w'

lemma Within.environment : Within environment := ⟨id, id⟩

lemma Within.restrict {okCall okDrift} :
    Within (Controller.environment.restrict okCall okDrift) := ⟨fun h => h.1, fun h => h.1⟩

lemma Knowing.coherent (hE : Within E) (hs : Knowing E s) : Coherent s :=
  .of_reachable (hs.mono (fun _ _ _ _ _ => hE.exec) fun _ _ => hE.drift)

/-- Replies about a row are about the row asked for. -/
lemma Coherent.possible (h : Coherent s) {a : Actor} {c : Call} {r : Except Exn c.Reply}
    {w' : World} (hexec : environment.exec s.world a c r w') : Known.possible c r := by
  rcases c.query_or with ⟨q, rfl⟩ | hc
  · rcases exec_query hexec with ⟨v, hrun, hr, -⟩ | ⟨e, rfl, -⟩
    · generalize w'.db = db' at hrun
      rcases hr with rfl | rfl
      · change Known.possibleQuery q (.ok v)
        cases q with
        | getContext contextId =>
          cases hrun
          cases hrow : s.world.db.contexts.get? contextId with
          | none => trivial
          | some c => exact Db.context_id hrow
        | getTask taskId =>
          cases hrun
          cases hrow : s.world.db.tasks.get? taskId with
          | none => trivial
          | some t => exact Db.task_id hrow
        | activateTask contextId taskId claim predecessor =>
          obtain ⟨c, t, -, -, -, htask, -, hqueued, rfl, -⟩ := activateTask_ok hrun
          have hid := Db.task_id htask
          have hunbound := h.store.unbound htask hqueued
          change TaskView.mk t.taskId t.cmaInputEventId predecessor = _
          rw [hid, hunbound]
        | listInputRequests taskId =>
          cases hrun
          intro r hr
          rw [List.mem_insertionSort, Db.requestsOf, List.mem_append] at hr
          rcases hr with hr | hr
          · obtain ⟨row, hrow, rfl⟩ := List.mem_map.mp hr
            have hof : row.taskId = taskId := by simpa using (Table.mem_select.mp hrow).2
            exact hof
          · obtain ⟨row, hrow, rfl⟩ := List.mem_map.mp hr
            have hof : row.taskId = taskId := by simpa using (Table.mem_select.mp hrow).2
            exact hof
        | _ => trivial
      · cases q <;> trivial
    · cases q <;> trivial
  · cases c with
    | query q => exact absurd rfl (hc q)
    | _ => trivial

/-- **From programs to parties.** -/
theorem parties (hE : Within E) {s : System} (hs : Pool.Reachable E Job Client {} s) :
    ∃ knows, Knowing E ⟨s.world, knows, s.spawned⟩ := by
  have hpossible : ∀ s, Knowing E s → ∀ i k c r w', s.knows i = some k →
      contract.allowed k c → E.exec s.world (.worker i) c r w' → contract.possible k c r :=
    fun s hs i k c r w' _ _ hexec => (Knowing.coherent hE hs).possible (hE.exec hexec)
  obtain ⟨knows, hknows, -⟩ := Parties.simulates (fun p => conforms_job) hpossible hs
  exact ⟨knows, hknows⟩

/-! ### Turns -/

/-- What the workers know after a query. -/
def learned (knows : ℕ → Option Known) (q : Query) (r : Except Exn q.Reply) :
    Actor → ℕ → Option Known
  | .worker i => Function.update knows i ((knows i).map (·.learnQuery q r))
  | .client => knows

/-- A step of a run, with what it does to the store. -/
inductive Turn (E : Environment Call Call.Reply Exn World) (s : Parties Known World) :
    Parties Known World → Prop
  | join : Turn E s ⟨s.world, Function.update s.knows s.joined (some {}), s.joined + 1⟩
  | leave (i : ℕ) : Turn E s ⟨s.world, Function.update s.knows i none, s.joined⟩
  | drift {now history} (hnow : s.world.db.now ≤ now)
    (hdrift : E.drift s.world
      { s.world with db := { s.world.db with now := now }, history := history }) :
    Turn E s ⟨{ s.world with db := { s.world.db with now := now }, history := history },
      s.knows, s.joined⟩
  | commit {a q v r db'} (hask : Asked s.knows q a)
    (hrun : q.run s.world.uuid s.world.db = .ok (v, db')) (hr : r = .ok v ∨ r = .error .other)
    (hexec : E.exec s.world a (.query q) r
      { s.world with
        db := db'
        uuid := s.world.uuid + 1
        log := ⟨a, .query q, r, true, s.world.db, db'⟩ :: s.world.log }) :
    Turn E s
      ⟨{ s.world with
          db := db'
          uuid := s.world.uuid + 1
          log := ⟨a, .query q, r, true, s.world.db, db'⟩ :: s.world.log },
        learned s.knows q r a, s.joined⟩
  | refuse {a q e} (hask : Asked s.knows q a)
    (hexec : E.exec s.world a (.query q) (.error e)
      { s.world with
        log := ⟨a, .query q, .error e, false, s.world.db, s.world.db⟩ :: s.world.log }) :
    Turn E s
      ⟨{ s.world with
          log := ⟨a, .query q, .error e, false, s.world.db, s.world.db⟩ :: s.world.log },
        learned s.knows q (.error e) a, s.joined⟩
  | other {i k c r w'} (hc : ∀ q, c ≠ .query q) (hk : s.knows i = some k)
    (hallow : k.allowed c) (hexec : E.exec s.world (.worker i) c r w')
    (hdb : w'.db = s.world.db) (huuid : s.world.uuid ≤ w'.uuid)
    (hlog : w'.log = ⟨.worker i, c, r, false, s.world.db, s.world.db⟩ :: s.world.log) :
    Turn E s ⟨w', Function.update s.knows i (some (k.learn c r)), s.joined⟩
  | client {c r w'} (hc : ∀ q, c ≠ .query q) (hclient : Client c)
    (hexec : E.exec s.world .client c r w') (hdb : w'.db = s.world.db)
    (huuid : s.world.uuid ≤ w'.uuid)
    (hlog : w'.log = ⟨.client, c, r, false, s.world.db, s.world.db⟩ :: s.world.log) :
    Turn E s ⟨w', s.knows, s.joined⟩

lemma Turn.of_step (hE : Within E) (h : Parties.Step contract E {} Client s s') :
    Turn E s s' := by
  cases h with
  | join => exact .join
  | leave i => exact .leave i
  | drift hd =>
    obtain ⟨now, history, hnow, rfl⟩ := hE.drift hd
    exact .drift hnow hd
  | @call i k c r w' hk hallow hexec =>
    rcases c.query_or with ⟨q, rfl⟩ | hc
    · have hask : Asked s.knows q (.worker i) := ⟨k, hk, hallow⟩
      have hlearned : Function.update s.knows i (some (k.learnQuery q r)) =
          learned s.knows q r (.worker i) := by
        rw [learned, hk, Option.map_some]
      change Turn E s ⟨w', Function.update s.knows i (some (k.learnQuery q r)), s.joined⟩
      rw [hlearned]
      rcases exec_query (hE.exec hexec) with ⟨v, hrun, hr, hw⟩ | ⟨e, rfl, hw⟩
      · rw [hw] at hexec ⊢
        exact .commit hask hrun hr hexec
      · rw [hw] at hexec ⊢
        exact .refuse hask hexec
    · obtain ⟨hdb, huuid, hlog⟩ := exec_other (hE.exec hexec) hc
      exact .other hc hk hallow hexec hdb huuid hlog
  | @outside c r w' ho hexec =>
    rcases c.query_or with ⟨q, rfl⟩ | hc
    · have hask : Asked s.knows q .client := ho
      rcases exec_query (hE.exec hexec) with ⟨v, hrun, hr, hw⟩ | ⟨e, rfl, hw⟩
      · rw [hw] at hexec ⊢
        exact .commit (a := .client) hask hrun hr hexec
      · rw [hw] at hexec ⊢
        exact .refuse (a := .client) hask hexec
    · obtain ⟨hdb, huuid, hlog⟩ := exec_other (hE.exec hexec) hc
      exact .client hc ho hexec hdb huuid hlog

/-- **Invariants of runs.** What holds at first and is kept by every turn of a run holds
in every run. -/
theorem Knowing.invariant {P : Parties Known World → Prop} (hE : Within E)
    (init : P ⟨{}, fun _ => none, 0⟩)
    (turn : ∀ s s', Knowing E s → P s → Turn E s s' → P s') (hs : Knowing E s) : P s := by
  induction hs with
  | init => exact init
  | step hs h ih => exact turn _ _ hs ih (.of_step hE h)

/-- **Invariants of the store and the log.** They are looked at where a query is committed. -/
theorem Knowing.history {P : List Entry → ℕ → Db → Prop} (hE : Within E) (init : P [] 0 {})
    (now : ∀ {log uuid db} now, P log uuid db → P log uuid { db with now := now })
    (idle : ∀ {log uuid db} {a : Actor} {c : Call} {r : Except Exn c.Reply} {uuid' : ℕ},
      P log uuid db → uuid ≤ uuid' → P (⟨a, c, r, false, db, db⟩ :: log) uuid' db)
    (commit : ∀ {s : Parties Known World} {a : Actor} {q : Query} {v : q.Reply}
      {r : Except Exn q.Reply} {db' : Db}, Knowing E s →
      P s.world.log s.world.uuid s.world.db → Asked s.knows q a →
      q.run s.world.uuid s.world.db = .ok (v, db') → (r = .ok v ∨ r = .error .other) →
      P (⟨a, .query q, r, true, s.world.db, db'⟩ :: s.world.log) (s.world.uuid + 1) db')
    (hs : Knowing E s) : P s.world.log s.world.uuid s.world.db := by
  refine Knowing.invariant (P := fun s => P s.world.log s.world.uuid s.world.db) hE init ?_ hs
  intro s s' hs h turn
  cases turn with
  | join | leave => exact h
  | drift => exact now _ h
  | commit hask hrun hr hexec => exact commit hs h hask hrun hr
  | refuse hask hexec => exact idle h (Nat.le_refl _)
  | other hc hk hallow hexec hdb huuid hlog | client hc hclient hexec hdb huuid hlog =>
    rw [hlog, hdb]
    exact idle h huuid

/-- **Invariants of a worker.** What one worker knows, against the store and the log: its own
calls change both, and everybody else's only the latter. -/
theorem Knowing.worker {Q : ℕ → Known → List Entry → ℕ → Db → Prop} (hE : Within E)
    (start : ∀ i log uuid db, Q i {} log uuid db)
    (now : ∀ {i k log uuid db} now, Q i k log uuid db → Q i k log uuid { db with now := now })
    (idle : ∀ {i k log uuid db} {a : Actor} {c : Call} {r : Except Exn c.Reply} {uuid' : ℕ},
      a ≠ .worker i → Q i k log uuid db → uuid ≤ uuid' →
      Q i k (⟨a, c, r, false, db, db⟩ :: log) uuid' db)
    (others : ∀ {s : Parties Known World} {i : ℕ} {k : Known} {a : Actor} {q : Query} {v : q.Reply}
      {r : Except Exn q.Reply} {db' : Db}, Knowing E s → s.knows i = some k → a ≠ .worker i →
      Q i k s.world.log s.world.uuid s.world.db → Asked s.knows q a →
      q.run s.world.uuid s.world.db = .ok (v, db') → (r = .ok v ∨ r = .error .other) →
      Q i k (⟨a, .query q, r, true, s.world.db, db'⟩ :: s.world.log) (s.world.uuid + 1) db')
    (commit : ∀ {s : Parties Known World} {i : ℕ} {k : Known} {q : Query} {v : q.Reply}
      {r : Except Exn q.Reply} {db' : Db}, Knowing E s → s.knows i = some k →
      Q i k s.world.log s.world.uuid s.world.db → k.allowedQuery q →
      q.run s.world.uuid s.world.db = .ok (v, db') → (r = .ok v ∨ r = .error .other) →
      Q i (k.learnQuery q r) (⟨.worker i, .query q, r, true, s.world.db, db'⟩ :: s.world.log)
        (s.world.uuid + 1) db')
    (refused : ∀ {i k log uuid db} {q : Query} (e : Exn), Q i k log uuid db → k.allowedQuery q →
      Q i (k.learnQuery q (.error e)) (⟨.worker i, .query q, .error e, false, db, db⟩ :: log)
        uuid db)
    (call : ∀ {i k log uuid db} {c : Call} {r : Except Exn c.Reply} {uuid' : ℕ},
      Q i k log uuid db → (∀ q, c ≠ .query q) → k.allowed c → uuid ≤ uuid' →
      Q i (k.learn c r) (⟨.worker i, c, r, false, db, db⟩ :: log) uuid' db)
    (hs : Knowing E s) {i : ℕ} {k : Known} (hk : s.knows i = some k) :
    Q i k s.world.log s.world.uuid s.world.db := by
  refine Knowing.invariant (P := fun s => ∀ i k, s.knows i = some k →
    Q i k s.world.log s.world.uuid s.world.db) hE (fun i k hk => by cases hk) ?_ hs i k hk
  intro s s' hs h turn
  cases turn with
  | join =>
    intro j k hk
    dsimp only at hk
    rw [Function.update_apply] at hk
    split at hk
    · cases hk
      exact start _ _ _ _
    · exact h j k hk
  | leave i =>
    intro j k hk
    dsimp only at hk
    rw [Function.update_apply] at hk
    split at hk
    · cases hk
    · exact h j k hk
  | drift => exact fun j k hk => now _ (h j k hk)
  | @commit a q v r db' hask hrun hr hexec =>
    intro j k hk
    by_cases hj : a = .worker j
    · subst hj
      obtain ⟨k₀, hk₀, hallow⟩ := hask
      change Function.update s.knows j _ j = some k at hk
      rw [Function.update_self, hk₀, Option.map_some, Option.some.injEq] at hk
      exact hk ▸ commit hs hk₀ (h j k₀ hk₀) hallow hrun hr
    · have hk₀ : s.knows j = some k := by
        cases a with
        | client => exact hk
        | worker i =>
          change Function.update s.knows i _ j = some k at hk
          rwa [Function.update_of_ne fun hij : j = i => hj (congrArg Actor.worker hij.symm)] at hk
      exact others hs hk₀ hj (h j k hk₀) hask hrun hr
  | @refuse a q e hask hexec =>
    intro j k hk
    by_cases hj : a = .worker j
    · subst hj
      obtain ⟨k₀, hk₀, hallow⟩ := hask
      change Function.update s.knows j _ j = some k at hk
      rw [Function.update_self, hk₀, Option.map_some, Option.some.injEq] at hk
      exact hk ▸ refused e (h j k₀ hk₀) hallow
    · have hk₀ : s.knows j = some k := by
        cases a with
        | client => exact hk
        | worker i =>
          change Function.update s.knows i _ j = some k at hk
          rwa [Function.update_of_ne fun hij : j = i => hj (congrArg Actor.worker hij.symm)] at hk
      exact idle hj (h j k hk₀) (Nat.le_refl _)
  | @other i k₀ c r w' hc hk₀ hallow hexec hdb huuid hlog =>
    intro j k hk
    rw [hdb, hlog]
    dsimp only at hk
    rw [Function.update_apply] at hk
    split at hk
    · rename_i hj
      subst hj
      cases hk
      exact call (h j k₀ hk₀) hc hallow huuid
    · rename_i hj
      exact idle (fun hij => hj (Actor.worker.inj hij).symm) (h j k hk) huuid
  | client hc hclient hexec hdb huuid hlog =>
    intro j k hk
    rw [hdb, hlog]
    exact idle (fun h => by cases h) (h j k hk) huuid

/-- A turn adds at most one entry to the log. -/
lemma Turn.log (h : Turn E s s') :
    s'.world.log = s.world.log ∨ ∃ e, s'.world.log = e :: s.world.log := by
  cases h with
  | join | leave | drift => exact .inl rfl
  | commit | refuse => exact .inr ⟨_, rfl⟩
  | other hc hk hallow hexec hdb huuid hlog | client hc hclient hexec hdb huuid hlog =>
    exact .inr ⟨_, hlog⟩

/-- The moment an entry was added to the log of a run. -/
theorem Knowing.moment (hE : Within E) (hs : Knowing E s) {later earlier : List Entry} {e : Entry}
    (hlog : s.world.log = later ++ e :: earlier) :
    ∃ s₀ s₁, Knowing E s₀ ∧ Knowing E s₁ ∧ Turn E s₀ s₁ ∧ s₀.world.log = earlier ∧
      s₁.world.log = e :: earlier := by
  induction hs generalizing later with
  | init => simp at hlog
  | @step s s' hs h ih =>
    have hturn := Turn.of_step hE h
    rcases hturn.log with hsame | ⟨e', hmore⟩
    · exact ih (hsame ▸ hlog)
    · rw [hmore, List.cons_eq_append_iff] at hlog
      rcases hlog with ⟨-, hnow⟩ | ⟨later', -, hbefore⟩
      · obtain ⟨rfl, hrest⟩ := List.cons.inj hnow
        exact ⟨s, s', hs, .step hs h, hturn, hrest.symm, by rw [hmore, hrest]⟩
      · exact ih hbefore

/-- The moment a query was committed. -/
lemma Knowing.moment_commit (hE : Within E) (hs : Knowing E s) {later earlier : List Entry}
    {a : Actor} {q : Query} {r : Except Exn q.Reply} {db db' : Db}
    (hlog : s.world.log = later ++ ⟨a, .query q, r, true, db, db'⟩ :: earlier) :
    ∃ s₀, Knowing E s₀ ∧ s₀.world.log = earlier ∧ s₀.world.db = db ∧ Asked s₀.knows q a ∧
      ∃ v, q.run s₀.world.uuid db = .ok (v, db') ∧ (r = .ok v ∨ r = .error .other) := by
  obtain ⟨s₀, s₁, hs₀, -, hturn, hlog₀, hlog₁⟩ := Knowing.moment hE hs hlog
  refine ⟨s₀, hs₀, hlog₀, ?_⟩
  cases hturn with
  | join | leave | drift =>
    dsimp only at hlog₁
    rw [hlog₀] at hlog₁
    simp at hlog₁
  | refuse hask hexec =>
    obtain ⟨he, -⟩ := List.cons.inj hlog₁
    cases he
  | other hc hk hallow hexec hdb huuid hlog₂ | client hc hclient hexec hdb huuid hlog₂ =>
    dsimp only at hlog₁
    rw [hlog₂] at hlog₁
    obtain ⟨he, -⟩ := List.cons.inj hlog₁
    cases he
  | commit hask hrun hr hexec =>
    obtain ⟨he, -⟩ := List.cons.inj hlog₁
    cases he
    exact ⟨rfl, hask, _, hrun, hr⟩

/-- The moment a worker made another call. -/
lemma Knowing.moment_call (hE : Within E) (hs : Knowing E s) {later earlier : List Entry}
    {a : Actor} {c : Call} {r : Except Exn c.Reply} {committed : Bool} {db db' : Db}
    (hc : ∀ q, c ≠ .query q) (hclient : ¬ Client c)
    (hlog : s.world.log = later ++ ⟨a, c, r, committed, db, db'⟩ :: earlier) :
    ∃ s₀ i k, Knowing E s₀ ∧ s₀.world.log = earlier ∧ s₀.world.db = db ∧ a = .worker i ∧
      s₀.knows i = some k ∧ k.allowed c := by
  obtain ⟨s₀, s₁, hs₀, -, hturn, hlog₀, hlog₁⟩ := Knowing.moment hE hs hlog
  cases hturn with
  | join | leave | drift =>
    dsimp only at hlog₁
    rw [hlog₀] at hlog₁
    simp at hlog₁
  | refuse hask hexec | commit hask hrun hr hexec =>
    obtain ⟨he, -⟩ := List.cons.inj hlog₁
    cases he
    exact absurd rfl (hc _)
  | client hc' hclient' hexec hdb huuid hlog₂ =>
    dsimp only at hlog₁
    rw [hlog₂] at hlog₁
    obtain ⟨he, -⟩ := List.cons.inj hlog₁
    cases he
    exact absurd hclient' hclient
  | other hc' hk hallow hexec hdb huuid hlog₂ =>
    dsimp only at hlog₁
    rw [hlog₂] at hlog₁
    obtain ⟨he, -⟩ := List.cons.inj hlog₁
    cases he
    exact ⟨s₀, _, _, hs₀, hlog₀, rfl, rfl, hk, hallow⟩

/-- The state in which a part of the log was all there was. -/
lemma Knowing.earlier (hE : Within E) (hs : Knowing E s) {later earlier : List Entry}
    (hlog : s.world.log = later ++ earlier) :
    ∃ s₀, Knowing E s₀ ∧ s₀.world.log = earlier := by
  cases earlier with
  | nil => exact ⟨_, .init, rfl⟩
  | cons e rest =>
    obtain ⟨s₀, s₁, -, hs₁, -, -, hlog₁⟩ := Knowing.moment hE hs hlog
    exact ⟨s₁, hs₁, hlog₁⟩

/-! ### Permits and copies -/

namespace Known

variable {k : Known} {fresh : ℕ} {db : Db} {q : Query}

/-- The permit an activation gives, by whether the context has a session. -/
def dispatchPermit (v : ContextView) (contextId : ContextId) (taskId : TaskId) : Permit :=
  match v.cmaSessionId with
  | none => .create taskId contextId
  | some sessionId => .send taskId sessionId

/-- Permits come from activations and marks. -/
lemma learnQuery_permit {v : q.Reply} {r : Except Exn q.Reply}
    (hrun : q.run fresh db = .ok (v, db')) (hr : r = .ok v ∨ r = .error .other) :
    (k.learnQuery q r).permit = k.permit ∨
    (∃ contextId taskId claim predecessor w,
      q = .activateTask contextId taskId claim predecessor ∧ k.view = .seen w ∧
      (k.learnQuery q r).permit = some (dispatchPermit w contextId taskId)) ∨
    ∃ requestId contextId claim, q = .markConfirmationAttempted requestId contextId claim ∧
      (k.learnQuery q r).permit = some (.confirm requestId) ∧ r = .ok v := by
  cases hplain : plain q with
  | true =>
    obtain ⟨view, task, lost, finished, picked, hk⟩ := learnQuery_plain hplain k r
    exact .inl (by rw [hk])
  | false =>
    cases q with
    | claimScheduler contextId =>
      rcases hr with rfl | rfl
      · cases v <;> exact .inl rfl
      · exact .inl rfl
    | activateTask contextId taskId claim predecessor =>
      rcases hr with rfl | rfl
      · cases hview : k.view with
        | seen w =>
          right; left
          obtain ⟨c, t, -, -, -, htask, -, -, rfl, -⟩ := activateTask_ok hrun
          have hid := Db.task_id htask
          refine ⟨contextId, taskId, claim, predecessor, w, rfl, rfl, ?_⟩
          simp only [learnQuery, activated, hview, dispatchPermit, hid]
          cases w.cmaSessionId <;> rfl
        | unread | lapsed =>
          left
          simp only [learnQuery, activated, hview]
      · exact .inl rfl
    | markConfirmationAttempted requestId contextId claim =>
      rcases hr with rfl | rfl
      · cases v with
        | true => exact .inr (.inr ⟨requestId, contextId, claim, rfl, rfl, rfl⟩)
        | false => exact .inl rfl
      · exact .inl rfl
    | listInputRequests | denyCancelledInputRequest => rcases hr with rfl | rfl <;> exact .inl rfl
    | _ => cases hplain

lemma learnQuery_permit_error (k : Known) (q : Query) (e : Exn) :
    (k.learnQuery q (.error e)).permit = k.permit := by
  cases hplain : plain q with
  | true =>
    obtain ⟨view, task, lost, finished, picked, hk⟩ := learnQuery_plain hplain k (.error e)
    rw [hk]
  | false => cases q <;> first | rfl | cases hplain

/-- Other calls use a permit up or leave it. -/
lemma learn_permit {c : Call} (k : Known) (hc : ∀ q, c ≠ .query q) (r : Except Exn c.Reply) :
    (k.learn c r).permit = k.permit ∨ (k.learn c r).permit = none := by
  cases c with
  | query q => exact absurd rfl (hc q)
  | createSession | sendMessage | confirmTool => cases r <;> exact .inr rfl
  | _ => cases r <;> exact .inl rfl

lemma learnQuery_rows_error (k : Known) (q : Query) (e : Exn) :
    (k.learnQuery q (.error e)).rows = k.rows ∨ (k.learnQuery q (.error e)).rows = [] := by
  cases hplain : plain q with
  | true =>
    obtain ⟨view, task, lost, finished, picked, hk⟩ := learnQuery_plain hplain k (.error e)
    exact .inl (by rw [hk])
  | false =>
    cases q with
    | claimScheduler | activateTask | listInputRequests | markConfirmationAttempted =>
      exact .inl rfl
    | denyCancelledInputRequest => exact .inr rfl
    | _ => cases hplain

lemma learn_rows_other {c : Call} (k : Known) (hc : ∀ q, c ≠ .query q) (r : Except Exn c.Reply) :
    (k.learn c r).rows = k.rows := by
  cases c with
  | query q => exact absurd rfl (hc q)
  | _ => cases r <;> rfl

end Known

end ManagedAgents.Controller
