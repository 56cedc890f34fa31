import ManagedAgents.Threads.Owned

/-!
What is bound is bound once and for good.

A context belongs to one of an agent's threads, a task to one of its logical sends and a place to
one thread, whatever methods are run in whatever order.
-/

namespace ManagedAgents.Threads

open ManagedAgents.Lib
open ManagedAgents.Controller (ContextId TaskId MessageId ClaimId Time)

variable {db db' db'' : Db} {q : Query} {fresh : ℕ} {now : Time}

/-- The unique indexes of the tables. -/
structure Db.Unique (db : Db) : Prop where
  context : ∀ {t t' r r' c}, db.threads.get? t = some r → db.threads.get? t' = some r' →
    r.agentId = r'.agentId → r.contextId = some c → r'.contextId = some c → t = t'
  task : ∀ {send send' r r' x}, db.tasks.get? send = some r → db.tasks.get? send' = some r' →
    r.agentId = r'.agentId → r.taskId = some x → r'.taskId = some x → send = send'

/-! ### Uniqueness -/

/-- A context that a thread has it had, or is given it under a claim. -/
lemma ThreadChange.context {t : ThreadId} {o : Option ThreadRow} {r' : ThreadRow} {c : ContextId}
    (h : ThreadChange q fresh now t o (some r')) (hc : r'.contextId = some c) :
    ∃ r, o = some r ∧ r'.agentId = r.agentId ∧ (r.contextId = some c ∨
      ∃ claimId, q = .bindContext t claimId c ∧ r.initializes claimId now = true) := by
  cases h with
  | same => exact ⟨_, rfl, rfl, .inl hc⟩
  | created hstate hnone =>
    rw [hnone] at hc
    cases hc
  | touched halike => exact ⟨_, rfl, halike.agentId, .inl (halike.contextId.symm.trans hc)⟩
  | claimed | released => exact ⟨_, rfl, rfl, .inl hc⟩
  | bound hq hholds =>
    cases hc
    exact ⟨_, rfl, rfl, .inr ⟨_, hq, hholds⟩⟩

/-- A task that a send has it had, or is bound to it while no send of the agent has it. -/
lemma SendChange.task {tasks : Table AgentTask.send} {send : ThreadId × MessageId}
    {o : Option AgentTask} {r' : AgentTask} {x : TaskId} (h : SendChange q tasks send o (some r'))
    (hx : r'.taskId = some x) :
    ∃ r, o = some r ∧ r'.agentId = r.agentId ∧ (r.taskId = some x ∨
      q = .bindTaskId send.1 send.2 x ∧
        ∀ r'' ∈ tasks.rows, r''.agentId = r.agentId → r''.taskId ≠ some x) := by
  cases h with
  | same => exact ⟨_, rfl, rfl, .inl hx⟩
  | recorded hq hpending hnone =>
    rw [hnone] at hx
    cases hx
  | bound hq hpending htask hfree =>
    cases hx
    exact ⟨_, rfl, rfl, .inr ⟨hq, hfree⟩⟩

/-- A context is bound while no thread of the agent has it. -/
lemma run_bindContext_free {t : ThreadId} {claimId : ClaimId} {c : ContextId} {r v : ThreadRow}
    (h : Query.run fresh (.bindContext t claimId c) db = .ok (v, db'))
    (hr : db.threads.get? t = some r) (hholds : r.initializes claimId db.now = true) :
    ∀ r' ∈ db.threads.rows, r'.agentId = r.agentId → r'.contextId ≠ some c := by
  simp only [Query.run, Threads.bindContext, hr, hholds, if_true] at h
  split at h
  · rename_i hfree
    rw [List.isEmpty_iff, Table.select, List.filter_eq_nil_iff] at hfree
    exact fun r' hr' hagent hc => hfree r' hr' (by simp [hagent, hc])
  · cases h

lemma Db.Unique.run {v : q.Reply} (h : db.Unique) (hrun : q.run fresh db = .ok (v, db')) :
    db'.Unique := by
  have heffect := Query.run_effect hrun
  refine ⟨fun {t t' r r' c} hr hr' hagent hc hc' => ?_,
    fun {send send' r r' x} hr hr' hagent hx hx' => ?_⟩
  · have hchange := heffect.thread t
    have hchange' := heffect.thread t'
    rw [hr] at hchange
    rw [hr'] at hchange'
    obtain ⟨r₀, hr₀, hagent₀, hbefore⟩ := hchange.context hc
    obtain ⟨r₁, hr₁, hagent₁, hbefore'⟩ := hchange'.context hc'
    have hagents : r₀.agentId = r₁.agentId := hagent₀.symm.trans (hagent.trans hagent₁)
    have hmem₀ := (Table.get?_eq_some.mp hr₀).1
    have hmem₁ := (Table.get?_eq_some.mp hr₁).1
    rcases hbefore with hold | ⟨claimId, rfl, hholds⟩
    · rcases hbefore' with hold' | ⟨claimId, rfl, hholds⟩
      · exact h.context hr₀ hr₁ hagents hold hold'
      · exact absurd hold (run_bindContext_free hrun hr₁ hholds r₀ hmem₀ hagents)
    · rcases hbefore' with hold' | ⟨claimId', hq, -⟩
      · exact absurd hold' (run_bindContext_free hrun hr₀ hholds r₁ hmem₁ hagents.symm)
      · cases hq
        rfl
  · have hchange := heffect.send send
    have hchange' := heffect.send send'
    rw [hr] at hchange
    rw [hr'] at hchange'
    obtain ⟨r₀, hr₀, hagent₀, hbefore⟩ := hchange.task hx
    obtain ⟨r₁, hr₁, hagent₁, hbefore'⟩ := hchange'.task hx'
    have hagents : r₀.agentId = r₁.agentId := hagent₀.symm.trans (hagent.trans hagent₁)
    have hmem₀ := (Table.get?_eq_some.mp hr₀).1
    have hmem₁ := (Table.get?_eq_some.mp hr₁).1
    rcases hbefore with hold | ⟨hq, hfree⟩
    · rcases hbefore' with hold' | ⟨-, hfree⟩
      · exact h.task hr₀ hr₁ hagents hold hold'
      · exact absurd hold (hfree r₀ hmem₀ hagents)
    · rcases hbefore' with hold' | ⟨hq', -⟩
      · exact absurd hold' (hfree r₁ hmem₁ hagents.symm)
      · rw [hq] at hq'
        injection hq' with hthread hmessage
        exact Prod.ext hthread hmessage

/-! ### Permanence -/

/-- A place that is bound stays bound to its thread. -/
lemma Query.run_bindings {v : q.Reply} (hrun : q.run fresh db = .ok (v, db'))
    {place : String × String × String} {b : SurfaceBinding}
    (hb : db.bindings.get? place = some b) : db'.bindings.get? place = some b := by
  have hinsert : ∀ {r : SurfaceBinding} {bindings},
      db.bindings.insert r = some bindings → bindings.get? place = some b := by
    intro r bindings h
    rw [Table.get?_insert h]
    split
    · rename_i heq
      rw [heq, Table.insert_fresh h] at hb
      cases hb
    · exact hb
  have hthread : ∀ {r w : ThreadRow} {created : Db}, insertThread r db = .ok (w, created) →
      created.bindings = db.bindings := by
    intro r w created h
    unfold insertThread at h
    split at h <;> cases h
    rfl
  cases q with
  | resolveExternalIdentity | getThread | ownsThread | getSurfaceBinding | selectSurfaceThread
  | getTaskBinding | updateTitleIfEmpty | archiveThread | restoreThread
  | releaseContextInitialization =>
    cases hrun
    exact hb
  | mapExternalIdentity =>
    simp only [Query.run, Threads.mapExternalIdentity] at hrun
    split at hrun <;> cases hrun <;> exact hb
  | createThread =>
    rw [hthread hrun]
    exact hb
  | createThreadIdempotent =>
    simp only [Query.run, Threads.createThreadIdempotent] at hrun
    split at hrun
    · split at hrun <;> cases hrun
      exact hb
    · rw [hthread hrun]
      exact hb
  | insertSurfaceThread =>
    simp only [Query.run, Threads.insertSurfaceThread] at hrun
    split at hrun
    · cases hrun
    · rename_i row created hcreated
      split at hrun
      · rename_i bindings hbindings
        cases hrun
        rw [hthread hcreated] at hbindings
        exact hinsert hbindings
      · cases hrun
        exact hb
  | bindSurface =>
    simp only [Query.run, Threads.bindSurface] at hrun
    split at hrun
    · split at hrun <;> cases hrun
      exact hb
    · split at hrun
      · cases hrun
      · split at hrun
        · rename_i bindings hbindings
          cases hrun
          exact hinsert hbindings
        · cases hrun
  | recordLogicalSend =>
    simp only [Query.run, Threads.recordLogicalSend] at hrun
    split at hrun
    · cases hrun
    · split at hrun
      · cases hrun
      · split at hrun
        · split at hrun <;> cases hrun
          exact hb
        · split at hrun <;> cases hrun
          exact hb
  | bindTaskId =>
    simp only [Query.run, Threads.bindTaskId] at hrun
    split at hrun
    · cases hrun
    · split at hrun
      · split at hrun <;> cases hrun
        exact hb
      · split at hrun <;> cases hrun
        exact hb
  | claimContextInitialization =>
    simp only [Query.run, Threads.claimContextInitialization] at hrun
    split at hrun
    · cases hrun
    · split at hrun
      · cases hrun
        exact hb
      · split at hrun <;> cases hrun <;> exact hb
  | bindContext =>
    simp only [Query.run, Threads.bindContext] at hrun
    split at hrun
    · cases hrun
    · split at hrun
      · split at hrun <;> cases hrun
        exact hb
      · split at hrun <;> cases hrun
        exact hb

/-- What is bound stays bound. -/
structure Db.Stays (db db' : Db) : Prop where
  grows : db.Grows db'
  place : ∀ {place b}, db.bindings.get? place = some b → db'.bindings.get? place = some b

lemma Db.Stays.refl (db : Db) : db.Stays db := ⟨.refl db, id⟩

lemma Db.Stays.trans (h : db.Stays db') (h' : db'.Stays db'') : db.Stays db'' :=
  ⟨h.grows.trans h'.grows, fun hb => h'.place (h.place hb)⟩

lemma Db.Stays.run {v : q.Reply} (h : db.Settled) (hrun : q.run fresh db = .ok (v, db')) :
    db.Stays db' := ⟨((Query.run_effect hrun).grows h).2, Query.run_bindings hrun⟩

/-! ### In every run -/

namespace Db

/-- A transaction, or nothing, or the clock. -/
inductive Moves (db db' : Db) : Prop
  | run {q : Query} {fresh : ℕ} {v : q.Reply} (h : q.run fresh db = .ok (v, db'))
  | same (h : db' = db)
  | tick {now : Time} (h : db' = { db with now := now })

lemma Moves.unique (h : db.Moves db') (hdb : db.Unique) : db'.Unique := by
  cases h with
  | run h => exact hdb.run h
  | same h => exact h ▸ hdb
  | tick h => exact h ▸ ⟨hdb.context, hdb.task⟩

lemma Moves.stays (h : db.Moves db') (hdb : db.Settled) : db.Stays db' := by
  cases h with
  | run h => exact .run hdb h
  | same h => exact h ▸ .refl db
  | tick h => exact h ▸ ⟨⟨(Grows.refl db).thread, (Grows.refl db).send⟩, id⟩

lemma Moves.settled (h : db.Moves db') (hdb : db.Settled) : db'.Settled := by
  cases h with
  | run h => exact ((Query.run_effect h).grows hdb).1
  | same h => exact h ▸ hdb
  | tick h => exact h ▸ hdb

end Db

lemma environment_moves {w w' : World} {a : Actor} {c : Call} {r : Except Exn c.Reply}
    (h : environment.exec w a c r w') : w.db.Moves w'.db := by
  obtain ⟨w₁, hw, rfl⟩ := h
  cases hw with
  | done hrun | unacknowledged hrun => exact .run hrun
  | refused | unavailable | external => exact .same rfl

lemma environment_drifts {w w' : World} (h : environment.drift w w') : w.db.Moves w'.db := by
  rcases h with ⟨now, -, rfl⟩ | ⟨q, v, db, hrun, rfl⟩
  · exact .tick rfl
  · exact .run hrun

lemma Reachable.unique {s : Handlers} (hs : Reachable s) : s.world.db.Unique :=
  Crew.Reachable.world (P := fun w => w.db.Unique) ⟨nofun, nofun⟩
    (fun h he => (environment_moves he).unique h) (fun h hd => (environment_drifts hd).unique h) hs

/-- **What is bound is bound once and for good.** In every state of every run of the handlers,
beside any other transactions, a context belongs to one thread of its agent and a task to one
logical send, and from then on every thread keeps its principal, its agent and its context, every
logical send its agent and its task, and every place its thread. -/
theorem bindings_permanent {s s' : Handlers} (hs : Reachable s)
    (hlater : Relation.ReflTransGen (Crew.Step works environment) s s') :
    s'.world.db.Unique ∧ s.world.db.Stays s'.world.db := by
  induction hlater with
  | refl => exact ⟨hs.unique, .refl _⟩
  | @tail s₁ s₂ hpath hstep ih =>
    obtain ⟨hunique, hstays⟩ := ih
    have hsettled := (Reachable.chained (Crew.Reachable.path hs hpath)).settled
    cases hstep with
    | start | deliver | settle | drop | post => exact ⟨hunique, hstays⟩
    | call _ hexec | send _ hexec =>
      have hmoves := environment_moves hexec
      exact ⟨hmoves.unique hunique, hstays.trans (hmoves.stays hsettled)⟩
    | drift hd =>
      have hmoves := environment_drifts hd
      exact ⟨hmoves.unique hunique, hstays.trans (hmoves.stays hsettled)⟩

/-- A thread, bound to its place, with its context. -/
theorem bindings_permanent_thread : ∃ s : Handlers, Reachable s ∧
    (s.world.db.threads.get? 1).bind (·.contextId) = some 9 ∧ s.world.db.Unique := by
  have hplay : (stage.play works {}
      [.tick (.mapExternalIdentity 7 "slack" "T" "U"), .tick (.createThread 7 1 none),
        .tick (.bindSurface "slack" "T" "C:1" 1), .tick (.recordLogicalSend 1 1 5),
        .tick (.claimContextInitialization 1 30), .tick (.bindContext 1 4 9),
        .tick (.bindTaskId 1 5 3)]).map
      (fun s : Handlers => (s.world.db.threads.get? 1).bind (·.contextId)) = some (some 9) := by
    decide +kernel
  obtain ⟨s, -, hs, hval⟩ := stage.played _ hplay
  exact ⟨s, hs, hval, (bindings_permanent hs .refl).1⟩

end ManagedAgents.Threads
