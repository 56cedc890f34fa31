import Mathlib.Logic.Function.Basic
import ManagedAgents.Controller.Calls

/-!
What each repository method does to contexts and tasks, said once, with the guards it checked.

The tables are looked at through `context` and `task`; `CoreEffect` is the inversion of every
committed query that later invariants use.
-/

namespace ManagedAgents.Controller

open ManagedAgents.Lib

namespace Db

def context (db : Db) (contextId : ContextId) : Option ContextRow := db.contexts.get? contextId
def task (db : Db) (taskId : TaskId) : Option TaskRow := db.tasks.get? taskId
def approval (db : Db) (key : TaskId × EventId) : Option ApprovalRow := db.approvals.get? key

variable {db : Db} {contextId : ContextId} {taskId : TaskId} {claim : ClaimId}
  {c : ContextRow} {t : TaskRow}

lemma context_id (h : db.context contextId = some c) : c.contextId = contextId :=
  Table.get?_key h

lemma task_id (h : db.task taskId = some t) : t.taskId = taskId := Table.get?_key h

lemma context_setContext {f : ContextRow → ContextRow}
    (hf : ∀ c, (f c).contextId = c.contextId) (h : db.context contextId = some c) :
    (db.setContext contextId f hf).context = Function.update db.context contextId (some (f c)) := by
  funext contextId'
  by_cases hid : contextId' = contextId
  · subst hid
    rw [Function.update_self]
    unfold context setContext at *
    rw [Table.get?_modify, if_pos rfl, h, Option.map_some]
  · rw [Function.update_of_ne hid]
    unfold context setContext
    rw [Table.get?_modify, if_neg hid]

lemma task_setTask {f : TaskRow → TaskRow} (hf : ∀ t, (f t).taskId = t.taskId)
    (h : db.task taskId = some t) :
    (db.setTask taskId f hf).task = Function.update db.task taskId (some (f t)) := by
  funext taskId'
  by_cases hid : taskId' = taskId
  · subst hid
    rw [Function.update_self]
    unfold task setTask at *
    rw [Table.get?_modify, if_pos rfl, h, Option.map_some]
  · rw [Function.update_of_ne hid]
    unfold task setTask
    rw [Table.get?_modify, if_neg hid]

@[simp] lemma context_setTask {f : TaskRow → TaskRow} {hf} :
    (db.setTask taskId f hf).context = db.context := rfl

@[simp] lemma task_setContext {f : ContextRow → ContextRow} {hf} :
    (db.setContext contextId f hf).task = db.task := rfl

lemma leased_iff : db.leased contextId claim = true ↔
    ∃ c, db.context contextId = some c ∧ c.holds claim db.now = true := by
  exact Option.any_eq_true _ _

lemma joined_eq_some : db.joined taskId = some (t, c) ↔
    db.task taskId = some t ∧ db.context t.contextId = some c := by
  unfold joined task context
  constructor
  · intro h
    obtain ⟨t', ht, h⟩ := Option.bind_eq_some_iff.mp h
    obtain ⟨c', hc, h⟩ := Option.map_eq_some_iff.mp h
    cases h
    exact ⟨ht, hc⟩
  · rintro ⟨ht, hc⟩
    simp [ht, hc]

end Db

lemma ContextRow.holds_claim {c : ContextRow} {claim : ClaimId} {now : Time}
    (h : c.holds claim now = true) : c.schedulerClaimId = some claim := by
  simp only [holds, Bool.and_eq_true, beq_iff_eq] at h
  exact h.1

/-- What one committed query does to contexts and tasks. -/
inductive CoreEffect (fresh : ℕ) (db db' : Db) : Query → Prop
  | same {q} (hc : db'.context = db.context) (ht : db'.task = db.task) :
    CoreEffect fresh db db' q
  | opened {a c} (hnew : db.context a.proposedContextId = none)
    (hrow : c = { contextId := a.proposedContextId, creationMessageId := a.messageId })
    (hc : db'.context = Function.update db.context a.proposedContextId (some c))
    (ht : db'.task = db.task) : CoreEffect fresh db db' (.admitTurn a)
  | admitted {a c t}
    (hctx : db.context c.contextId = some c ∨ db.context c.contextId = none ∧
      c = { contextId := a.proposedContextId, creationMessageId := a.messageId })
    (hfresh : db.task a.proposedTaskId = none)
    (hmessage : ∀ u, db.task u.taskId = some u → u.contextId = c.contextId →
      u.messageId ≠ a.messageId)
    (hrow : t = admittedTask a { c with nextSequence := c.nextSequence + 1 } (rejectionReason c db))
    (hc : db'.context = Function.update db.context c.contextId
      (some { c with nextSequence := c.nextSequence + 1 }))
    (ht : db'.task = Function.update db.task a.proposedTaskId (some t)) :
    CoreEffect fresh db db' (.admitTurn a)
  | claimed {contextId c} (hctx : db.context contextId = some c)
    (hfree : c.schedulerClaimId = none ∨ ∃ e, c.schedulerLeaseExpiresAt = some e ∧ e ≤ db.now)
    (hc : db'.context = Function.update db.context contextId (some
      { c with
        schedulerClaimId := some fresh
        schedulerLeaseExpiresAt := some (db.now + leaseSeconds) }))
    (ht : db'.task = db.task) : CoreEffect fresh db db' (.claimScheduler contextId)
  | released {contextId claim c} (hctx : db.context contextId = some c)
    (hheld : c.schedulerClaimId = some claim)
    (hc : db'.context = Function.update db.context contextId (some
      { c with schedulerClaimId := none, schedulerLeaseExpiresAt := none }))
    (ht : db'.task = db.task) : CoreEffect fresh db db' (.releaseScheduler contextId claim)
  | wroteContext {contextId claim f c} (hctx : db.context contextId = some c)
    (hheld : c.holds claim db.now = true) (hcheck : (c.set f).check = true)
    (hc : db'.context = Function.update db.context contextId (some (c.set f)))
    (ht : db'.task = db.task) : CoreEffect fresh db db' (.updateContext contextId claim f)
  | wroteTask {taskId contextId claim f c t} (hctx : db.context contextId = some c)
    (hheld : c.holds claim db.now = true) (htask : db.task taskId = some t)
    (hc : db'.context = db.context)
    (ht : db'.task = Function.update db.task taskId (some (t.set f))) :
    CoreEffect fresh db db' (.updateTask taskId contextId claim f)
  | retried {taskId claim c t} (htask : db.task taskId = some t)
    (hctx : db.context t.contextId = some c) (hheld : c.holds claim db.now = true)
    (hactive : c.activeTaskId = some taskId) (hlive : t.internalState ≠ .terminal)
    (hunbound : t.cmaInputEventId = none) (hsession : c.cmaSessionId.isSome = true)
    (hcancel : t.cancelRequestedAt = none)
    (hc : db'.context =
      Function.update db.context t.contextId (some { c with activeTaskId := none }))
    (ht : db'.task = Function.update db.task taskId (some
      { t with
        internalState := .queued
        a2aState := .submitted
        heldReason := none
        cmaPredecessorEventId := none })) :
    CoreEffect fresh db db' (.resolveHeldTask taskId claim .retry)
  | failed {taskId claim c t} (htask : db.task taskId = some t)
    (hctx : db.context t.contextId = some c) (hheld : c.holds claim db.now = true)
    (hactive : c.activeTaskId = some taskId) (hlive : t.internalState ≠ .terminal)
    (hc : db'.context = Function.update db.context t.contextId (some
      { c with
        activeTaskId := none
        lifecycleState := if c.cmaSessionId.isNone then .failed else c.lifecycleState }))
    (ht : db'.task = Function.update db.task taskId (some
      { t with internalState := .terminal, a2aState := .failed, heldReason := none })) :
    CoreEffect fresh db db' (.resolveHeldTask taskId claim .fail)
  | activated {contextId taskId claim predecessor c t} (hctx : db.context contextId = some c)
    (hheld : c.holds claim db.now = true) (hfree : c.activeTaskId = none)
    (htask : db.task taskId = some t) (hof : t.contextId = contextId)
    (hqueued : t.internalState = .queued)
    (hc : db'.context = Function.update db.context contextId (some
      { c with activeTaskId := some taskId }))
    (ht : db'.task = Function.update db.task taskId (some
      { t with
        internalState := .dispatching
        cmaPredecessorEventId := predecessor
        dispatchAttempts := some (t.dispatchAttempts.getD 0 + 1) })) :
    CoreEffect fresh db db' (.activateTask contextId taskId claim predecessor)
  | canceled {taskId t} (htask : db.task taskId = some t) (hqueued : t.internalState = .queued)
    (hc : db'.context = db.context)
    (ht : db'.task = Function.update db.task taskId (some
      { t with a2aState := .canceled, internalState := .terminal })) :
    CoreEffect fresh db db' (.cancelTask taskId)
  | cancelRequested {taskId t} (htask : db.task taskId = some t)
    (hqueued : t.internalState ≠ .queued) (hlive : t.internalState ≠ .terminal)
    (hc : db'.context = db.context)
    (ht : db'.task = Function.update db.task taskId (some
      { t with cancelRequestedAt := some (t.cancelRequestedAt.getD db.now) })) :
    CoreEffect fresh db db' (.cancelTask taskId)

/-- The approvals with the guarded rows changed. -/
def Db.mapApprovals (db : Db) (guard : Guard) (f : ApprovalRow → ApprovalRow)
    (key : TaskId × EventId) : Option ApprovalRow :=
  (db.approval key).map fun r => if guard r then f r else r

lemma Db.approval_setApprovals {db : Db} (guard : Guard) (f : ApprovalRow → ApprovalRow)
    (hf : ∀ r, (f r).key = r.key) :
    (db.setApprovals guard f hf).approval = db.mapApprovals guard f := by
  funext key
  exact Table.get?_update _ _ _ hf _

/-- What one committed query does to approvals. -/
inductive ApprovalEffect (fresh : ℕ) (db db' : Db) : Query → Prop
  | same {q} (ha : db'.approval = db.approval) : ApprovalEffect fresh db db' q
  | added {requestId taskId eventId contextId claim}
    (hnone : db.approval (taskId, eventId) = none)
    (hunique : ∀ r, db.approval r.key = some r → r.requestId ≠ requestId)
    (ha : db'.approval = Function.update db.approval (taskId, eventId) (some
      { requestId := requestId, taskId := taskId, cmaEventId := eventId, createdAt := db.now })) :
    ApprovalEffect fresh db db' (.addInputRequest requestId taskId eventId contextId claim)
  | decided {contextId taskId claim requestId decision}
    (hsome : ∃ r, db.approval r.key = some r ∧
      db.undecided contextId taskId claim requestId r = true)
    (ha : db'.approval = db.mapApprovals (db.undecided contextId taskId claim requestId)
      fun r => { r with decision := some decision, status := .resolving }) :
    ApprovalEffect fresh db db' (.recordPolicyDecision contextId taskId claim requestId decision)
  | rotated {contextId taskId claim requestId offer}
    (hsome : ∃ r, db.approval r.key = some r ∧
      db.undecided contextId taskId claim requestId r = true)
    (ha : db'.approval = db.mapApprovals (db.undecided contextId taskId claim requestId)
      (·.rotate offer fresh)) :
    ApprovalEffect fresh db db' (.recordHumanReview contextId taskId claim requestId offer)
  | ruled {requestId taskId ruling r} (hrow : db.approval r.key = some r)
    (hid : r.requestId = requestId) (hdigest : r.reviewDigest.isSome = true)
    (hnew : r.humanRuling = none) (hpending : r.status = .pending)
    (ha : db'.approval = db.mapApprovals (·.requestId == requestId)
      fun r => { r with humanRuling := some ruling }) :
    ApprovalEffect fresh db db' (.recordHumanRuling requestId taskId ruling)
  | denied {requestId contextId claim}
    (ha : db'.approval = db.mapApprovals (db.deniable requestId contextId claim)
      fun r => { r with status := .resolving, decision := some .deny }) :
    ApprovalEffect fresh db db' (.denyCancelledInputRequest requestId contextId claim)
  | resolved {requestId contextId claim}
    (ha : db'.approval = db.mapApprovals (db.resolvable requestId contextId claim)
      fun r => { r with status := .resolved }) :
    ApprovalEffect fresh db db' (.resolveInputRequest requestId contextId claim)
  | marked {requestId contextId claim}
    (ha : db'.approval = db.mapApprovals (db.confirmable requestId contextId claim)
      fun r => { r with confirmationAttemptedAt := some db.now }) :
    ApprovalEffect fresh db db' (.markConfirmationAttempted requestId contextId claim)

variable {db db' : Db} {fresh : ℕ}

/-! ### Contexts and tasks -/

lemma claimScheduler_ok {contextId : ContextId} {v : Option ClaimId}
    (h : claimScheduler contextId fresh db = .ok (v, db')) :
    v = none ∧ db' = db ∨
      v = some fresh ∧ db'.approvals = db.approvals ∧ ∃ c, db.context contextId = some c ∧
        (c.schedulerClaimId = none ∨ ∃ e, c.schedulerLeaseExpiresAt = some e ∧ e ≤ db.now) ∧
        db'.context = Function.update db.context contextId (some
          { c with
            schedulerClaimId := some fresh
            schedulerLeaseExpiresAt := some (db.now + leaseSeconds) }) ∧ db'.task = db.task := by
  unfold claimScheduler at h
  dsimp only at h
  split at h
  · rename_i hany
    cases h
    obtain ⟨c, hc, hfree⟩ := (Option.any_eq_true _ _).mp hany
    refine .inr ⟨rfl, rfl, c, hc, ?_, Db.context_setContext _ hc, rfl⟩
    simp only [Bool.or_eq_true, Option.isNone_iff_eq_none, Option.any_eq_true,
      decide_eq_true_eq] at hfree
    exact hfree
  · cases h
    exact .inl ⟨rfl, rfl⟩

lemma releaseScheduler_effect {contextId : ContextId} {claim : ClaimId} {v : Bool}
    (h : releaseScheduler contextId claim db = .ok (v, db')) :
    CoreEffect fresh db db' (.releaseScheduler contextId claim) := by
  unfold releaseScheduler at h
  split at h
  · rename_i hany
    cases h
    obtain ⟨c, hc, hheld⟩ := (Option.any_eq_true _ _).mp hany
    exact .released hc (by simpa using hheld) (Db.context_setContext _ hc) rfl
  · cases h
    exact .same rfl rfl

lemma updateContext_ok {contextId : ContextId} {claim : ClaimId} {f : ContextFields}
    {v : ContextRow} (h : updateContext contextId claim f db = .ok (v, db')) :
    ∃ c, db.context contextId = some c ∧ c.holds claim db.now = true ∧
      (c.set f).check = true ∧ v = c.set f ∧
      db'.context = Function.update db.context contextId (some (c.set f)) ∧
      db'.task = db.task := by
  unfold updateContext at h
  split at h
  · cases h
  rename_i c hc
  split at h
  · cases h
  rename_i hleased
  split at h
  · cases h
  rename_i hcheck
  split at h
  · cases h
  cases h
  obtain ⟨c', hc', hheld⟩ := Db.leased_iff.mp (by simpa using hleased)
  have hcc : c' = c := by
    have := hc'.symm.trans hc
    simpa using this
  subst hcc
  exact ⟨_, hc', hheld, by simpa using hcheck, rfl, Db.context_setContext _ hc', rfl⟩

lemma updateTask_ok {taskId : TaskId} {contextId : ContextId} {claim : ClaimId} {f : TaskFields}
    {v : TaskRow} (h : updateTask taskId contextId claim f db = .ok (v, db')) :
    ∃ c t, db.context contextId = some c ∧ c.holds claim db.now = true ∧
      db.task taskId = some t ∧ v = t.set f ∧ db'.context = db.context ∧
      db'.task = Function.update db.task taskId (some (t.set f)) := by
  unfold updateTask at h
  split at h
  · cases h
  rename_i t ht
  split at h
  · cases h
  rename_i hleased
  cases h
  obtain ⟨c, hc, hheld⟩ := Db.leased_iff.mp (by simpa using hleased)
  exact ⟨c, t, hc, hheld, ht, rfl, rfl, Db.task_setTask _ ht⟩

lemma resolveHeldTask_effect {taskId : TaskId} {claim : ClaimId} {r : Resolution}
    {v : ContextId} (h : resolveHeldTask taskId claim r db = .ok (v, db')) :
    CoreEffect fresh db db' (.resolveHeldTask taskId claim r) := by
  unfold resolveHeldTask at h
  split at h
  · cases h
  rename_i t c hjoined
  obtain ⟨hjoined, hheld⟩ := Option.filter_eq_some_iff.mp hjoined
  obtain ⟨ht, hc⟩ := Db.joined_eq_some.mp hjoined
  split at h
  · cases h
  rename_i hguard
  simp only [Bool.or_eq_true, beq_iff_eq, Option.isNone_iff_eq_none, bne_iff_ne, ne_eq, not_or,
    not_not] at hguard
  obtain ⟨⟨hlive, -⟩, hactive⟩ := hguard
  have hcid : c.contextId = t.contextId := Db.context_id hc
  rw [← hcid] at hc
  split at h
  · split at h
    · cases h
    rename_i hretry
    simp only [Bool.or_eq_true, Bool.not_eq_true', Bool.or_eq_false_iff, beq_eq_false_iff_ne,
      Option.isSome_iff_ne_none, Option.isNone_iff_eq_none, ne_eq, not_or, not_not] at hretry
    obtain ⟨⟨⟨-, hunbound⟩, hsession⟩, hcancel⟩ := hretry
    cases h
    refine .retried ht (hcid ▸ hc) hheld hactive hlive hunbound
      (Option.isSome_iff_ne_none.mpr hsession) hcancel ?_ ?_
    · rw [← hcid]
      exact Db.context_setContext _ hc
    · rw [Db.task_setContext]
      exact Db.task_setTask _ ht
  · cases h
    refine .failed ht (hcid ▸ hc) hheld hactive hlive ?_ ?_
    · rw [← hcid]
      exact Db.context_setContext _ hc
    · rw [Db.task_setContext]
      exact Db.task_setTask _ ht

lemma activateTask_ok {contextId : ContextId} {taskId : TaskId} {claim : ClaimId}
    {predecessor : Option EventId} {v : TaskRow}
    (h : activateTask contextId taskId claim predecessor db = .ok (v, db')) :
    ∃ c t, db.context contextId = some c ∧ c.holds claim db.now = true ∧
      c.activeTaskId = none ∧ db.task taskId = some t ∧ t.contextId = contextId ∧
      t.internalState = .queued ∧
      v = { t with
        internalState := .dispatching
        cmaPredecessorEventId := predecessor
        dispatchAttempts := some (t.dispatchAttempts.getD 0 + 1) } ∧
      db'.context = Function.update db.context contextId (some
        { c with activeTaskId := some taskId }) ∧
      db'.task = Function.update db.task taskId (some v) := by
  unfold activateTask at h
  split at h
  · rename_i c t hc ht
    split at h
    · rename_i hguard
      simp only [Bool.and_eq_true, beq_iff_eq, Option.isNone_iff_eq_none] at hguard
      obtain ⟨⟨⟨hheld, hfree⟩, hof⟩, hqueued⟩ := hguard
      cases h
      refine ⟨c, t, hc, hheld, hfree, ht, hof, hqueued, rfl, ?_, ?_⟩
      · rw [Db.context_setTask]
        exact Db.context_setContext _ hc
      · exact Db.task_setTask _ ht
    · cases h
  · cases h

lemma cancelTask_effect {taskId : TaskId} {v : Option TaskRow}
    (h : cancelTask taskId db = .ok (v, db')) :
    CoreEffect fresh db db' (.cancelTask taskId) := by
  unfold cancelTask at h
  split at h
  · cases h
    exact .same rfl rfl
  rename_i t ht
  split at h
  · rename_i hqueued
    cases h
    exact .canceled ht (by simpa using hqueued) rfl (Db.task_setTask _ ht)
  rename_i hqueued
  split at h
  · rename_i hlive
    cases h
    exact .cancelRequested ht (by simpa using hqueued) (by simpa using hlive) rfl
      (Db.task_setTask _ ht)
  · cases h
    exact .same rfl rfl

lemma firstBySequence_none {l : List TaskRow} (h : firstBySequence l = none) : l = [] := by
  cases l with
  | nil => rfl
  | cons b rest =>
    unfold firstBySequence at h
    split at h
    · cases h
    · split at h <;> cases h

/-- The first queued row by sequence. -/
lemma firstBySequence_mem {l : List TaskRow} {t : TaskRow} (h : firstBySequence l = some t) :
    t ∈ l ∧ ∀ u ∈ l, t.sequence ≤ u.sequence := by
  induction l generalizing t with
  | nil => cases h
  | cons a rest ih =>
    unfold firstBySequence at h
    split at h
    · rename_i hnone
      cases h
      simp [firstBySequence_none hnone]
    · rename_i u hu
      obtain ⟨hmem, hmin⟩ := ih hu
      split at h
      · rename_i hlt
        cases h
        refine ⟨by simp [hmem], fun w hw => ?_⟩
        rcases List.mem_cons.mp hw with rfl | hw
        · exact Nat.le_of_lt hlt
        · exact hmin w hw
      · rename_i hge
        cases h
        refine ⟨by simp, fun w hw => ?_⟩
        rcases List.mem_cons.mp hw with rfl | hw
        · exact Nat.le_refl _
        · exact Nat.le_trans (Nat.not_lt.mp hge) (hmin w hw)

lemma nextQueued_ok {contextId : ContextId} {v : Option TaskRow}
    (h : nextQueued contextId db = .ok (v, db')) :
    db' = db ∧ ∀ t ∈ v, db.task t.taskId = some t ∧ t.contextId = contextId ∧
      t.internalState = .queued ∧ ∀ taskId u, db.task taskId = some u → u.contextId = contextId →
        u.internalState = .queued → t.sequence ≤ u.sequence := by
  unfold nextQueued at h
  cases h
  refine ⟨rfl, fun t ht => ?_⟩
  obtain ⟨hmem, hmin⟩ := firstBySequence_mem ht
  obtain ⟨hget, hq⟩ := Table.mem_select.mp hmem
  simp only [Bool.and_eq_true, beq_iff_eq] at hq
  refine ⟨hget, hq.1, hq.2, fun taskId u hu hof hqueued => hmin u (Table.mem_select.mpr ?_)⟩
  have hid := Db.task_id hu
  subst hid
  exact ⟨hu, by simp [hof, hqueued]⟩

/-- No row is found only when nothing is queued. -/
lemma nextQueued_none {contextId : ContextId} (h : nextQueued contextId db = .ok (none, db'))
    {taskId : TaskId} {t : TaskRow} (ht : db.task taskId = some t) (hof : t.contextId = contextId) :
    t.internalState ≠ .queued := by
  intro hqueued
  have hnone : firstBySequence (db.tasks.select fun t =>
      t.contextId == contextId && t.internalState == .queued) = none := by
    unfold nextQueued at h
    simp only [Except.ok.injEq, Prod.mk.injEq] at h
    exact h.1
  have hid := Db.task_id ht
  subst hid
  have hmem : t ∈ db.tasks.select fun t =>
      t.contextId == contextId && t.internalState == .queued :=
    Table.mem_select.mpr ⟨ht, by simp [hof, hqueued]⟩
  rw [firstBySequence_none hnone] at hmem
  cases hmem

lemma admitContext_ok {a : Admission} {c : ContextRow}
    (h : admitContext a db = .ok (c, db')) :
    db.context c.contextId = some c ∧ db' = db ∨
      db.context c.contextId = none ∧
        c = { contextId := a.proposedContextId, creationMessageId := a.messageId } ∧
        db'.context = Function.update db.context a.proposedContextId (some c) ∧
        db'.task = db.task ∧ db'.approvals = db.approvals ∧
        db'.clarifications = db.clarifications := by
  unfold admitContext at h
  split at h
  · split at h
    · rename_i c' hc'
      cases h
      exact .inl ⟨(Table.mem_select.mp (List.mem_of_mem_head? hc')).1, rfl⟩
    · dsimp only at h
      split at h
      · rename_i contexts hinsert
        cases h
        refine .inr ⟨Table.insert_fresh hinsert, rfl, ?_, rfl, rfl, rfl⟩
        funext contextId
        exact (Table.get?_insert hinsert contextId).trans (Function.update_apply _ _ _ _).symm
      · cases h
  · split at h
    · rename_i c' hc'
      cases h
      have hid := Table.get?_key hc'
      exact .inl ⟨by rw [hid]; exact hc', rfl⟩
    · cases h

/-- What an admission answers, and how the store differs from the one in which its context was
found or made. -/
lemma admitTurn_ok {a : Admission} {c' : ContextRow} {t : TaskRow} {created : Bool}
    (h : admitTurn a db = .ok ((c', t, created), db')) :
    ∃ c db₁, admitContext a db = .ok (c, db₁) ∧ db₁.context c.contextId = some c ∧
      (created = false ∧ c' = c ∧ db' = db₁ ∧ db₁.task t.taskId = some t ∧
          t.contextId = c.contextId ∧ t.messageId = a.messageId ∨
        created = true ∧ c' = { c with nextSequence := c.nextSequence + 1 } ∧
          db₁.task a.proposedTaskId = none ∧
          (∀ u, db₁.task u.taskId = some u → u.contextId = c.contextId →
            u.messageId ≠ a.messageId) ∧
          t = admittedTask a c' (rejectionReason c db₁) ∧
          db'.context = Function.update db₁.context c.contextId (some c') ∧
          db'.task = Function.update db₁.task a.proposedTaskId (some t)) := by
  unfold admitTurn at h
  split at h
  · cases h
  rename_i c db₁ hadmit
  have hc₁ : db₁.context c.contextId = some c := by
    rcases admitContext_ok hadmit with ⟨hc, rfl⟩ | ⟨-, hrow, hc, -, -⟩
    · exact hc
    · have hid : c.contextId = a.proposedContextId := by rw [hrow]
      rw [hc, hid, Function.update_self]
  refine ⟨c, db₁, hadmit, hc₁, ?_⟩
  split at h
  · rename_i hexisting
    cases h
    obtain ⟨hget, hq⟩ := Table.mem_select.mp (List.mem_of_mem_head? hexisting)
    simp only [Bool.and_eq_true, beq_iff_eq] at hq
    exact .inl ⟨rfl, rfl, rfl, hget, hq.1, hq.2⟩
  rename_i hnone
  have hmoved : (db₁.setContext c.contextId
      fun c => { c with nextSequence := c.nextSequence + 1 }).context =
        Function.update db₁.context c.contextId
          (some { c with nextSequence := c.nextSequence + 1 }) :=
    Db.context_setContext _ hc₁
  dsimp only at h
  split at h
  · cases h
  rename_i c₂ hc₂
  have hc₂ : c₂ = { c with nextSequence := c.nextSequence + 1 } := by
    have := congrFun hmoved c.contextId
    rw [Function.update_self] at this
    exact Option.some.inj (hc₂.symm.trans this)
  subst hc₂
  split at h
  · split at h
    · rename_i tasks hinsert
      cases h
      refine .inr ⟨rfl, rfl, Table.insert_fresh hinsert, ?_, rfl, hmoved, ?_⟩
      · intro u hu hof hmessage
        rw [List.head?_eq_none_iff] at hnone
        have hmem : u ∈ db₁.tasks.select fun t =>
            t.contextId == c.contextId && t.messageId == a.messageId :=
          Table.mem_select.mpr ⟨hu, by simp [hof, hmessage]⟩
        rw [hnone] at hmem
        cases hmem
      · funext taskId
        exact (Table.get?_insert hinsert taskId).trans (Function.update_apply _ _ _ _).symm
    · cases h
  · cases h

lemma admit_effect {a : Admission} {v : ContextRow × TaskRow × Bool}
    (h : admitTurn a db = .ok (v, db')) : CoreEffect fresh db db' (.admitTurn a) := by
  obtain ⟨c', t, created⟩ := v
  obtain ⟨c, db₁, hadmit, -, hcase⟩ := admitTurn_ok h
  rcases hcase with ⟨-, -, rfl, -⟩ | ⟨-, rfl, hfresh, hmessage, rfl, hc, ht⟩
  · rcases admitContext_ok hadmit with ⟨-, rfl⟩ | ⟨hnone, hrow, hc, ht, -⟩
    · exact .same rfl rfl
    · rw [hrow] at hnone
      exact .opened hnone hrow hc ht
  · rcases admitContext_ok hadmit with ⟨hctx, rfl⟩ | ⟨hnone, hrow, hc₁, ht₁, -⟩
    · exact .admitted (.inl hctx) hfresh hmessage rfl hc ht
    · have hid : c.contextId = a.proposedContextId := by rw [hrow]
      rw [hc₁, ← hid, Function.update_idem] at hc
      have hreason : rejectionReason c db₁ = rejectionReason c db := by
        have htasks : db₁.tasks.get? = db.tasks.get? := ht₁
        simp only [rejectionReason, htasks]
      rw [ht₁] at hfresh hmessage ht
      rw [hreason] at ht
      exact .admitted (.inr ⟨hnone, hrow⟩) hfresh hmessage rfl hc ht

/-- The task an admission answers with is there. -/
lemma admitTurn_row {ad : Admission} {c : ContextRow} {t : TaskRow} {created : Bool}
    (h : admitTurn ad db = .ok ((c, t, created), db')) :
    db'.task t.taskId = some t ∧ t.contextId = c.contextId := by
  obtain ⟨c₀, db₁, -, -, hcase⟩ := admitTurn_ok h
  rcases hcase with ⟨-, rfl, rfl, ht, hof, -⟩ | ⟨-, rfl, -, -, rfl, -, ht⟩
  · exact ⟨ht, hof⟩
  · exact ⟨by rw [ht]; exact Function.update_self _ _ _, rfl⟩

lemma admit_requests {a : Admission} {v : ContextRow × TaskRow × Bool}
    (h : admitTurn a db = .ok (v, db')) :
    db'.approvals = db.approvals ∧ db'.clarifications = db.clarifications := by
  unfold admitTurn at h
  split at h
  · cases h
  rename_i c db₁ hadmit
  have hrequests : db₁.approvals = db.approvals ∧ db₁.clarifications = db.clarifications := by
    rcases admitContext_ok hadmit with ⟨-, rfl⟩ | ⟨-, -, -, -, hrequests⟩
    · exact ⟨rfl, rfl⟩
    · exact hrequests
  dsimp only at h
  repeat' split at h
  all_goals first | cases h; exact hrequests | cases h

lemma admit_approvals {a : Admission} {v : ContextRow × TaskRow × Bool}
    (h : admitTurn a db = .ok (v, db')) : db'.approval = db.approval := by
  unfold Db.approval
  rw [(admit_requests h).1]

/-! ### Approvals -/

lemma exists_of_select {guard : Guard} (h : ¬(db.approvals.select guard).isEmpty = true) :
    ∃ r, db.approval r.key = some r ∧ guard r = true := by
  obtain ⟨r, hr⟩ := List.isEmpty_eq_false_iff_exists_mem.mp (by simpa using h)
  exact ⟨r, Table.mem_select.mp hr⟩

lemma addInputRequest_ok {requestId : RequestId} {taskId : TaskId} {eventId : EventId}
    {contextId : ContextId} {claim : ClaimId} {v : Unit}
    (h : addInputRequest requestId taskId eventId contextId claim db = .ok (v, db')) :
    (db'.context = db.context ∧ db'.task = db.task) ∧
      ApprovalEffect fresh db db' (.addInputRequest requestId taskId eventId contextId claim) := by
  unfold addInputRequest at h
  dsimp only at h
  split at h
  · cases h
    exact ⟨⟨rfl, rfl⟩, .same rfl⟩
  split at h
  · cases h
    exact ⟨⟨rfl, rfl⟩, .same rfl⟩
  rename_i approvals hinsert
  split at h
  · rename_i hempty
    cases h
    refine ⟨⟨rfl, rfl⟩, .added (Table.insert_fresh hinsert) (fun r hr hid => ?_) ?_⟩
    · have hmem : r ∈ db.approvals.select (·.requestId == requestId) :=
        Table.mem_select.mpr ⟨hr, by simpa using hid⟩
      rw [List.isEmpty_iff.mp hempty] at hmem
      cases hmem
    · funext key
      exact (Table.get?_insert hinsert key).trans (Function.update_apply _ _ _ _).symm
  · cases h

lemma recordPolicyDecision_ok {contextId : ContextId} {taskId : TaskId} {claim : ClaimId}
    {requestId : RequestId} {decision : Ruling} {v : Unit}
    (h : recordPolicyDecision contextId taskId claim requestId decision db = .ok (v, db')) :
    (db'.context = db.context ∧ db'.task = db.task) ∧ ApprovalEffect fresh db db'
      (.recordPolicyDecision contextId taskId claim requestId decision) := by
  unfold recordPolicyDecision at h
  dsimp only at h
  split at h
  · cases h
  · rename_i hsome
    cases h
    exact ⟨⟨rfl, rfl⟩, .decided (exists_of_select hsome) (Db.approval_setApprovals _ _ _)⟩

lemma recordHumanReview_ok {contextId : ContextId} {taskId : TaskId} {claim : ClaimId}
    {requestId : RequestId} {offer : Offer} {v : Unit}
    (h : recordHumanReview contextId taskId claim requestId offer fresh db = .ok (v, db')) :
    (db'.context = db.context ∧ db'.task = db.task) ∧ ApprovalEffect fresh db db'
      (.recordHumanReview contextId taskId claim requestId offer) := by
  unfold recordHumanReview at h
  dsimp only at h
  split at h
  · cases h
  · rename_i hsome
    cases h
    exact ⟨⟨rfl, rfl⟩, .rotated (exists_of_select hsome) (Db.approval_setApprovals _ _ _)⟩

/-- An accepted ruling is the one the row has, or becomes it. -/
lemma recordHumanRuling_ok {requestId : RequestId} {taskId : TaskId} {ruling : Ruling} {v : Bool}
    (h : recordHumanRuling requestId taskId ruling db = .ok (v, db')) :
    (db'.context = db.context ∧ db'.task = db.task) ∧
      (db' = db ∧ (v = true → ∃ r, db.approval r.key = some r ∧ r.requestId = requestId ∧
        r.humanRuling = some ruling) ∨
      v = true ∧ ∃ r, db.approval r.key = some r ∧ r.requestId = requestId ∧
        r.reviewDigest.isSome = true ∧ r.humanRuling = none ∧ r.status = .pending ∧
        db'.approval = db.mapApprovals (·.requestId == requestId)
          fun r => { r with humanRuling := some ruling }) := by
  unfold recordHumanRuling at h
  dsimp only at h
  split at h
  · cases h
    exact ⟨⟨rfl, rfl⟩, .inl ⟨rfl, fun h => by cases h⟩⟩
  rename_i r hr
  obtain ⟨hget, hvisible⟩ := Table.mem_select.mp (List.mem_of_mem_head? hr)
  simp only [Bool.and_eq_true, beq_iff_eq] at hvisible
  obtain ⟨⟨⟨hid, -⟩, hdigest⟩, -⟩ := hvisible
  split at h
  · cases h
    exact ⟨⟨rfl, rfl⟩, .inl ⟨rfl, fun hv => ⟨r, hget, hid, by simpa using hv⟩⟩⟩
  rename_i hnew
  split at h
  · cases h
    exact ⟨⟨rfl, rfl⟩, .inl ⟨rfl, fun h => by cases h⟩⟩
  · rename_i hopen
    simp only [Bool.or_eq_true, bne_iff_ne, ne_eq, not_or, not_not] at hopen
    cases h
    exact ⟨⟨rfl, rfl⟩, .inr ⟨rfl, r, hget, hid, hdigest, by simpa using hnew, hopen.1,
      Db.approval_setApprovals _ _ _⟩⟩

/-! ### Every query -/

/-- **Inversion.** Every committed query has one of the effects on contexts and tasks. -/
theorem Query.run_effect {q : Query} {v : q.Reply} (h : q.run fresh db = .ok (v, db')) :
    CoreEffect fresh db db' q := by
  cases q with
  | admitTurn a => exact admit_effect h
  | claimScheduler contextId =>
    rcases claimScheduler_ok h with ⟨-, rfl⟩ | ⟨-, -, c, hc, hfree, hc', ht'⟩
    · exact .same rfl rfl
    · exact .claimed hc hfree hc' ht'
  | releaseScheduler contextId claim => exact releaseScheduler_effect h
  | updateContext contextId claim f =>
    obtain ⟨c, hc, hheld, hcheck, -, hc', ht'⟩ := updateContext_ok h
    exact .wroteContext hc hheld hcheck hc' ht'
  | updateTask taskId contextId claim f =>
    obtain ⟨c, t, hc, hheld, ht, -, hc', ht'⟩ := updateTask_ok h
    exact .wroteTask hc hheld ht hc' ht'
  | resolveHeldTask taskId claim r => exact resolveHeldTask_effect h
  | activateTask contextId taskId claim predecessor =>
    obtain ⟨c, t, hc, hheld, hfree, ht, hof, hqueued, rfl, hc', ht'⟩ := activateTask_ok h
    exact .activated hc hheld hfree ht hof hqueued hc' ht'
  | cancelTask taskId => exact cancelTask_effect h
  | addInputRequest requestId taskId eventId contextId claim =>
    have hok : _ ∧ ApprovalEffect fresh db db' _ := addInputRequest_ok h
    exact .same hok.1.1 hok.1.2
  | addClarificationRequest requestId taskId eventId contextId claim =>
    change Controller.addClarificationRequest _ _ _ _ _ _ = _ at h
    unfold Controller.addClarificationRequest at h
    dsimp only at h
    split at h
    · cases h
      exact .same rfl rfl
    split at h
    · cases h
      exact .same rfl rfl
    split at h <;> cases h
    exact .same rfl rfl
  | recordPolicyDecision contextId taskId claim requestId decision =>
    have hok : _ ∧ ApprovalEffect fresh db db' _ := recordPolicyDecision_ok h
    exact .same hok.1.1 hok.1.2
  | recordHumanReview contextId taskId claim requestId offer =>
    have := (recordHumanReview_ok h).1
    exact .same this.1 this.2
  | recordHumanRuling requestId taskId ruling =>
    have hok := recordHumanRuling_ok h
    exact .same hok.1.1 hok.1.2
  | _ => cases h; exact .same rfl rfl

/-- **Inversion.** Every committed query has one of the effects on approvals. -/
theorem Query.run_approvals {q : Query} {v : q.Reply} (h : q.run fresh db = .ok (v, db')) :
    ApprovalEffect fresh db db' q := by
  cases q with
  | addInputRequest requestId taskId eventId contextId claim => exact (addInputRequest_ok h).2
  | recordPolicyDecision contextId taskId claim requestId decision =>
    exact (recordPolicyDecision_ok h).2
  | recordHumanReview contextId taskId claim requestId offer => exact (recordHumanReview_ok h).2
  | recordHumanRuling requestId taskId ruling =>
    rcases (recordHumanRuling_ok h).2 with ⟨rfl, -⟩ | ⟨-, r, hrow, hid, hdigest, hnew, hopen, ha⟩
    · exact .same rfl
    · exact .ruled hrow hid hdigest hnew hopen ha
  | denyCancelledInputRequest requestId contextId claim =>
    cases h
    exact .denied (Db.approval_setApprovals _ _ _)
  | resolveInputRequest requestId contextId claim =>
    cases h
    exact .resolved (Db.approval_setApprovals (db.resolvable requestId contextId claim)
      (fun r => { r with status := .resolved }) fun _ => rfl)
  | markConfirmationAttempted requestId contextId claim =>
    cases h
    exact .marked (Db.approval_setApprovals _ _ _)
  | admitTurn a => exact .same (admit_approvals h)
  | claimScheduler contextId =>
    rcases claimScheduler_ok h with ⟨-, rfl⟩ | ⟨-, ha, -⟩
    · exact .same rfl
    · exact .same (by unfold Db.approval; rw [ha])
  | releaseScheduler contextId claim =>
    change Controller.releaseScheduler _ _ _ = _ at h
    unfold Controller.releaseScheduler at h
    split at h <;> cases h <;> exact .same rfl
  | updateContext contextId claim f =>
    change Controller.updateContext _ _ _ _ = _ at h
    unfold Controller.updateContext at h
    repeat' split at h
    all_goals first | cases h; exact .same rfl | cases h
  | updateTask taskId contextId claim f =>
    change Controller.updateTask _ _ _ _ _ = _ at h
    unfold Controller.updateTask at h
    repeat' split at h
    all_goals first | cases h; exact .same rfl | cases h
  | resolveHeldTask taskId claim r =>
    change Controller.resolveHeldTask _ _ _ _ = _ at h
    unfold Controller.resolveHeldTask at h
    repeat' split at h
    all_goals first | cases h; exact .same rfl | cases h
  | activateTask contextId taskId claim predecessor =>
    change Controller.activateTask _ _ _ _ _ = _ at h
    unfold Controller.activateTask at h
    repeat' split at h
    all_goals first | cases h; exact .same rfl | cases h
  | cancelTask taskId =>
    change Controller.cancelTask _ _ = _ at h
    unfold Controller.cancelTask at h
    repeat' split at h
    all_goals cases h; exact .same rfl
  | addClarificationRequest requestId taskId eventId contextId claim =>
    change Controller.addClarificationRequest _ _ _ _ _ _ = _ at h
    unfold Controller.addClarificationRequest at h
    dsimp only at h
    repeat' split at h
    all_goals first | cases h; exact .same rfl | cases h
  | _ => cases h; exact .same rfl

end ManagedAgents.Controller
