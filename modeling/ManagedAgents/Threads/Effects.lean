import ManagedAgents.Threads.Repository

/-!
What each repository method does to a thread and to a logical send, said once.

A thread keeps its principal, its agent and the context it has; a send keeps its agent and its task.
-/

namespace ManagedAgents.Threads

open ManagedAgents.Lib
open ManagedAgents.Controller (ContextId TaskId MessageId ClaimId Time Text)

variable {db db' : Db} {q : Query} {fresh : ℕ} {now : Time}

/-- The second row differs in its title and whether it is archived. -/
structure ThreadRow.Alike (r r' : ThreadRow) : Prop where
  principalId : r'.principalId = r.principalId
  agentId : r'.agentId = r.agentId
  contextId : r'.contextId = r.contextId
  contextState : r'.contextState = r.contextState
  claim : r'.contextInitClaimId = r.contextInitClaimId
  lease : r'.contextInitLeaseExpiresAt = r.contextInitLeaseExpiresAt

lemma ThreadRow.Alike.refl (r : ThreadRow) : r.Alike r := ⟨rfl, rfl, rfl, rfl, rfl, rfl⟩

/-- What a method makes of one thread's row. -/
inductive ThreadChange (q : Query) (fresh : ℕ) (now : Time) (threadId : ThreadId) :
    Option ThreadRow → Option ThreadRow → Prop
  | same {row} : ThreadChange q fresh now threadId row row
  | created {r : ThreadRow} (hstate : r.contextState = .uninitialized)
      (hcontext : r.contextId = none) :
    ThreadChange q fresh now threadId none (some r)
  | touched {r r' : ThreadRow} (h : r.Alike r') :
    ThreadChange q fresh now threadId (some r) (some r')
  | claimed {r : ThreadRow} {seconds : ℕ} (hq : q = .claimContextInitialization threadId seconds)
    (hfree : r.claimable now = true) :
    ThreadChange q fresh now threadId (some r)
      (some
        { r with
          contextState := .initializing
          contextInitClaimId := some fresh
          contextInitLeaseExpiresAt := some (now + seconds) })
  | bound {r : ThreadRow} {claimId : ClaimId} {contextId : ContextId}
    (hq : q = .bindContext threadId claimId contextId) (hholds : r.initializes claimId now = true) :
    ThreadChange q fresh now threadId (some r) (some (r.bindContext contextId))
  | released {r : ThreadRow} {claimId : ClaimId}
    (hq : q = .releaseContextInitialization threadId claimId)
    (hstate : r.contextState = .initializing)
    (hclaim : r.contextInitClaimId = some claimId) :
    ThreadChange q fresh now threadId (some r)
      (some
        { r with
          contextState := .uninitialized
          contextInitClaimId := none
          contextInitLeaseExpiresAt := none })

/-- What a method makes of one logical send. -/
inductive SendChange (q : Query) (tasks : Table AgentTask.send) (send : ThreadId × MessageId) :
    Option AgentTask → Option AgentTask → Prop
  | same {row} : SendChange q tasks send row row
  | recorded {r : AgentTask} (hq : q = .recordLogicalSend send.1 r.agentId send.2)
    (hpending : r.submissionStatus = .pending) (htask : r.taskId = none) :
    SendChange q tasks send none (some r)
  | bound {r : AgentTask} {taskId : TaskId} (hq : q = .bindTaskId send.1 send.2 taskId)
    (hpending : r.submissionStatus = .pending) (htask : r.taskId = none)
    (hfree : ∀ r' ∈ tasks.rows, r'.agentId = r.agentId → r'.taskId ≠ some taskId) :
    SendChange q tasks send (some r) (some (r.bind taskId))

/-- What a method does to the threads and the logical sends. -/
structure Effect (q : Query) (fresh : ℕ) (db db' : Db) : Prop where
  thread : ∀ threadId,
    ThreadChange q fresh db.now threadId (db.threads.get? threadId) (db'.threads.get? threadId)
  send : ∀ send, SendChange q db.tasks send (db.tasks.get? send) (db'.tasks.get? send)
  now : db'.now = db.now

namespace Effect

lemma same (hthreads : db'.threads = db.threads) (htasks : db'.tasks = db.tasks)
    (hnow : db'.now = db.now) : Effect q fresh db db' :=
  ⟨fun _ => hthreads ▸ .same, fun _ => htasks ▸ .same, hnow⟩

/-- Only threads change. -/
lemma threads (htasks : db'.tasks = db.tasks) (hnow : db'.now = db.now)
    (h : ∀ threadId, ThreadChange q fresh db.now threadId (db.threads.get? threadId)
      (db'.threads.get? threadId)) : Effect q fresh db db' :=
  ⟨h, fun _ => htasks ▸ .same, hnow⟩

/-- One thread's row changes. -/
lemma setThread {threadId : ThreadId} {f : ThreadRow → ThreadRow}
    {hf : ∀ r, (f r).threadId = r.threadId}
    (h : ∀ r, db.threads.get? threadId = some r →
      ThreadChange q fresh db.now threadId (some r) (some (f r))) :
    Effect q fresh db (db.setThread threadId f hf) := by
  refine threads rfl rfl fun threadId' => ?_
  simp only [Db.setThread, Table.get?_modify]
  split
  · rename_i heq
    subst heq
    cases hr : db.threads.get? threadId' with
    | none => exact .same
    | some r => exact h r hr
  · exact .same

lemma insertThread {row v : ThreadRow} (hstate : row.contextState = .uninitialized)
    (hcontext : row.contextId = none) (h : insertThread row db = .ok (v, db')) :
    Effect q fresh db db' ∧ v = row ∧ db'.bindings = db.bindings ∧
      db.threads.insert row = some db'.threads := by
  unfold Threads.insertThread at h
  split at h
  · rename_i created hinsert
    cases h
    refine ⟨threads rfl rfl fun threadId => ?_, rfl, rfl, hinsert⟩
    dsimp only
    rw [Table.get?_insert hinsert]
    split
    · rename_i heq
      rw [heq, Table.insert_fresh hinsert]
      exact .created hstate hcontext
    · exact .same
  · cases h

/-- Only the bindings and the identities differ afterwards. -/
lemma congr {db'' : Db} (h : Effect q fresh db db') (hthreads : db''.threads = db'.threads)
    (htasks : db''.tasks = db'.tasks) (hnow : db''.now = db'.now) : Effect q fresh db db'' :=
  ⟨hthreads ▸ h.thread, htasks ▸ h.send, hnow.trans h.now⟩

end Effect

/-- **Every method's effect.** -/
theorem Query.run_effect {v : q.Reply} (h : q.run fresh db = .ok (v, db')) :
    Effect q fresh db db' := by
  cases q with
  | resolveExternalIdentity | getThread | ownsThread | getSurfaceBinding | selectSurfaceThread
  | getTaskBinding =>
    cases h
    exact .same rfl rfl rfl
  | mapExternalIdentity principalId provider tenantId externalUserId =>
    simp only [Query.run, Threads.mapExternalIdentity] at h
    split at h <;> cases h <;> exact .same rfl rfl rfl
  | createThread principalId agentId title => exact (Effect.insertThread rfl rfl h).1
  | createThreadIdempotent principalId agentId creationRequestId title =>
    simp only [Query.run, Threads.createThreadIdempotent] at h
    split at h
    · split at h
      · cases h
        exact .same rfl rfl rfl
      · cases h
    · exact (Effect.insertThread rfl rfl h).1
  | updateTitleIfEmpty threadId title =>
    cases h
    refine Effect.setThread fun r _ => .touched ?_
    split
    · exact ⟨rfl, rfl, rfl, rfl, rfl, rfl⟩
    · exact .refl r
  | archiveThread principalId threadId | restoreThread principalId threadId =>
    cases h
    refine Effect.setThread fun r _ => .touched ?_
    split
    · exact ⟨rfl, rfl, rfl, rfl, rfl, rfl⟩
    · exact .refl r
  | insertSurfaceThread surface tenantId externalThreadId principalId agentId title =>
    simp only [Query.run, Threads.insertSurfaceThread] at h
    split at h
    · cases h
    · rename_i row created hrow
      split at h
      · cases h
        exact (Effect.insertThread rfl rfl hrow).1.congr rfl rfl rfl
      · cases h
        exact .same rfl rfl rfl
  | bindSurface surface tenantId externalThreadId threadId =>
    simp only [Query.run, Threads.bindSurface] at h
    split at h
    · split at h
      · cases h
        exact .same rfl rfl rfl
      · cases h
    · split at h
      · cases h
      · split at h
        · cases h
          exact .same rfl rfl rfl
        · cases h
  | recordLogicalSend threadId agentId clientMessageId =>
    simp only [Query.run, Threads.recordLogicalSend] at h
    split at h
    · cases h
    · split at h
      · cases h
      · split at h
        · split at h
          · cases h
            exact .same rfl rfl rfl
          · cases h
        · split at h
          · rename_i tasks hinsert
            cases h
            refine ⟨fun _ => .same, fun send => ?_, rfl⟩
            dsimp only
            rw [Table.get?_insert hinsert]
            split
            · rename_i heq
              rw [heq, Table.insert_fresh hinsert]
              exact .recorded rfl rfl rfl
            · exact .same
          · cases h
  | bindTaskId threadId clientMessageId taskId =>
    simp only [Query.run, Threads.bindTaskId] at h
    split at h
    · cases h
    · rename_i row hrow
      split at h
      · rename_i hpending
        split at h
        · rename_i hfree
          cases h
          refine ⟨fun _ => .same, fun send => ?_, rfl⟩
          dsimp only
          rw [Table.get?_modify]
          split
          · rename_i heq
            subst heq
            rw [hrow]
            refine .bound rfl hpending.1 hpending.2 fun r' hr' hagent htask => ?_
            rw [List.isEmpty_iff, Table.select, List.filter_eq_nil_iff] at hfree
            exact hfree r' hr' (by simp [hagent, htask])
          · exact .same
        · cases h
      · split at h
        · cases h
          exact .same rfl rfl rfl
        · cases h
  | claimContextInitialization threadId seconds =>
    simp only [Query.run, Threads.claimContextInitialization] at h
    split at h
    · cases h
    · rename_i row hrow
      split at h
      · rename_i hfree
        cases h
        refine Effect.setThread fun r hr => .claimed rfl ?_
        rw [hrow] at hr
        cases hr
        exact hfree
      · split at h <;> cases h <;> exact .same rfl rfl rfl
  | bindContext threadId claimId contextId =>
    simp only [Query.run, Threads.bindContext] at h
    split at h
    · cases h
    · rename_i row hrow
      split at h
      · rename_i hholds
        split at h
        · cases h
          refine Effect.setThread fun r hr => .bound rfl ?_
          rw [hrow] at hr
          cases hr
          exact hholds
        · cases h
      · split at h
        · cases h
          exact .same rfl rfl rfl
        · cases h
  | releaseContextInitialization threadId claimId =>
    cases h
    refine Effect.setThread fun r _ => ?_
    split
    · rename_i hheld
      exact .released rfl hheld.1 hheld.2
    · exact .touched (.refl r)

/-! ### What is read of a thread -/

lemma run_getThread {t : ThreadId} {row : ThreadRow}
    (h : Query.run fresh (.getThread t) db = .ok (some row, db')) :
    db'.threads.get? t = some row := by
  obtain ⟨hrow, rfl⟩ := Prod.mk.inj (Except.ok.inj h)
  exact hrow

lemma run_claimContextInitialization {t : ThreadId} {seconds : ℕ} {contextId : ContextId}
    (h : Query.run fresh (.claimContextInitialization t seconds) db = .ok (.ready contextId, db')) :
    ∃ row, db'.threads.get? t = some row ∧ row.contextId = some contextId := by
  simp only [Query.run, claimContextInitialization] at h
  split at h
  · cases h
  · rename_i row hrow
    split at h
    · cases h
    · split at h
      · rename_i hcontext
        cases h
        exact ⟨row, hrow, hcontext⟩
      · cases h

/-! ### What is bound -/

lemma run_bindTaskId {t : ThreadId} {m : MessageId} {x : TaskId} {r : AgentTask}
    (h : Query.run fresh (.bindTaskId t m x) db = .ok (r, db')) :
    ∃ r, db'.tasks.get? (t, m) = some r ∧ r.taskId = some x := by
  simp only [Query.run, bindTaskId] at h
  split at h
  · cases h
  · rename_i row hrow
    split at h
    · split at h
      · cases h
        refine ⟨row.bind x, ?_, rfl⟩
        dsimp only
        rw [Table.get?_modify, if_pos rfl, hrow]
        rfl
      · cases h
    · split at h
      · rename_i hbound
        cases h
        exact ⟨_, hrow, hbound.1⟩
      · cases h

lemma run_bindContext {t : ThreadId} {claimId : ClaimId} {contextId : ContextId} {row : ThreadRow}
    (h : Query.run fresh (.bindContext t claimId contextId) db = .ok (row, db')) :
    ∃ row, db'.threads.get? t = some row ∧ row.contextId = some contextId := by
  simp only [Query.run, bindContext] at h
  split at h
  · cases h
  · rename_i row hrow
    split at h
    · split at h
      · cases h
        refine ⟨row.bindContext contextId, ?_, rfl⟩
        dsimp only [Db.setThread]
        rw [Table.get?_modify, if_pos rfl, hrow]
        rfl
      · cases h
    · split at h
      · rename_i hready
        cases h
        exact ⟨_, hrow, hready.2⟩
      · cases h

/-! ### What stays -/

/-- A thread has a context once it is ready, and none before. -/
def ThreadRow.Settled (r : ThreadRow) : Prop := r.contextState ≠ .ready → r.contextId = none

def Db.Settled (db : Db) : Prop :=
  ∀ threadId r, db.threads.get? threadId = some r → r.Settled

/-- Threads keep their principal, their agent and their context, and sends their agent and task. -/
structure Db.Grows (db db' : Db) : Prop where
  thread : ∀ threadId r, db.threads.get? threadId = some r →
    ∃ r', db'.threads.get? threadId = some r' ∧ r'.principalId = r.principalId ∧
      r'.agentId = r.agentId ∧
        ∀ contextId, r.contextId = some contextId → r'.contextId = some contextId
  send : ∀ send r, db.tasks.get? send = some r →
    ∃ r', db'.tasks.get? send = some r' ∧ r'.agentId = r.agentId ∧
      ∀ taskId, r.taskId = some taskId → r'.taskId = some taskId

namespace Db.Grows

lemma refl (db : Db) : db.Grows db :=
  ⟨fun _ r h => ⟨r, h, rfl, rfl, fun _ => id⟩, fun _ r h => ⟨r, h, rfl, fun _ => id⟩⟩

lemma trans {db'' : Db} (h : db.Grows db') (h' : db'.Grows db'') : db.Grows db'' := by
  refine ⟨fun threadId r hr => ?_, fun send r hr => ?_⟩
  · obtain ⟨r', hr', hprincipal, hagent, hcontext⟩ := h.thread threadId r hr
    obtain ⟨r'', hr'', hprincipal', hagent', hcontext'⟩ := h'.thread threadId r' hr'
    exact ⟨r'', hr'', hprincipal'.trans hprincipal, hagent'.trans hagent,
      fun c hc => hcontext' c (hcontext c hc)⟩
  · obtain ⟨r', hr', hagent, htask⟩ := h.send send r hr
    obtain ⟨r'', hr'', hagent', htask'⟩ := h'.send send r' hr'
    exact ⟨r'', hr'', hagent'.trans hagent, fun t ht => htask' t (htask t ht)⟩

end Db.Grows

lemma ThreadRow.initializes_state {r : ThreadRow} {claimId : ClaimId}
    (h : r.initializes claimId now = true) :
    r.contextState = .initializing ∧ r.contextInitClaimId = some claimId := by
  simp only [initializes, Bool.and_eq_true, beq_iff_eq] at h
  exact h.1

lemma ThreadRow.claimable_state {r : ThreadRow} (h : r.claimable now = true) :
    r.contextState ≠ .ready := by
  intro hready
  simp [claimable, hready] at h

/-- **What stays.** -/
theorem Effect.grows (h : Effect q fresh db db') (hdb : db.Settled) :
    db'.Settled ∧ db.Grows db' := by
  refine ⟨fun threadId r' hr' => ?_, fun threadId r hr => ?_, fun send r hr => ?_⟩
  · have hchange := h.thread threadId
    rw [hr'] at hchange
    cases hrow : db.threads.get? threadId with
    | none =>
      rw [hrow] at hchange
      cases hchange with
      | created hstate hcontext => exact fun _ => hcontext
    | some r =>
      have hr := hdb threadId r hrow
      rw [hrow] at hchange
      cases hchange with
      | same => exact hr
      | touched halike =>
        intro hstate
        rw [halike.contextId]
        exact hr (halike.contextState ▸ hstate)
      | claimed hq hfree => exact fun _ => hr (ThreadRow.claimable_state hfree)
      | bound hq hholds => exact fun hstate => absurd rfl hstate
      | released hq hstate hclaim => exact fun _ => hr (by simp [hstate])
  · have hchange := h.thread threadId
    have hsettled := hdb threadId r hr
    rw [hr] at hchange
    generalize hrow : db'.threads.get? threadId = row at hchange
    cases hchange with
    | same => exact ⟨_, rfl, rfl, rfl, fun _ => id⟩
    | touched halike =>
      exact ⟨_, rfl, halike.principalId, halike.agentId, fun c hc => halike.contextId.trans hc⟩
    | claimed hq hfree => exact ⟨_, rfl, rfl, rfl, fun _ => id⟩
    | bound hq hholds =>
      have hnone := hsettled (by simp [(ThreadRow.initializes_state hholds).1])
      exact ⟨_, rfl, rfl, rfl, fun c hc => by rw [hnone] at hc; cases hc⟩
    | released hq hstate hclaim => exact ⟨_, rfl, rfl, rfl, fun _ => id⟩
  · have hchange := h.send send
    rw [hr] at hchange
    generalize hrow : db'.tasks.get? send = row at hchange
    cases hchange with
    | same => exact ⟨_, rfl, rfl, fun _ => id⟩
    | bound hq hpending htask hfree =>
      exact ⟨_, rfl, rfl, fun t ht => by rw [htask] at ht; cases ht⟩

end ManagedAgents.Threads
