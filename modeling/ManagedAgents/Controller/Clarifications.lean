import ManagedAgents.Controller.Approvals

/-!
What each repository method does to clarifications, said once, and what the store keeps of them: a
request id names one row, and a row has an answer exactly when it is no longer pending.
-/

namespace ManagedAgents.Controller

open ManagedAgents.Lib

namespace Db

def clarification (db : Db) (key : TaskId × EventId) : Option ClarificationRow :=
  db.clarifications.get? key

/-- The rows an answer may be recorded in. -/
def answerable (db : Db) (requestId : RequestId) (taskId : TaskId) (r : ClarificationRow) : Bool :=
  r.requestId == requestId && r.taskId == taskId && r.status == .pending
    && (db.tasks.get? r.taskId).any fun t =>
      t.internalState == .inputRequired || t.cancelRequestedAt.isSome

/-- The rows whose answer may be sent, once. -/
def respondable (db : Db) (requestId : RequestId) (contextId : ContextId) (claimId : ClaimId)
    (r : ClarificationRow) : Bool :=
  r.requestId == requestId && r.status == .resolving && r.responseAttemptedAt.isNone
    && db.leasedTask r.taskId contextId claimId

/-- The rows that are resolved. -/
def closable (db : Db) (requestId : RequestId) (contextId : ContextId) (claimId : ClaimId)
    (r : ClarificationRow) : Bool :=
  r.requestId == requestId && r.status == .resolving && db.leasedTask r.taskId contextId claimId

/-- The clarifications with the guarded rows changed. -/
def mapClarifications (db : Db) (guard : ClarificationRow → Bool)
    (f : ClarificationRow → ClarificationRow) (key : TaskId × EventId) : Option ClarificationRow :=
  (db.clarification key).map fun r => if guard r then f r else r

lemma clarification_setClarifications {db : Db} (guard : ClarificationRow → Bool)
    (f : ClarificationRow → ClarificationRow) (hf : ∀ r, (f r).key = r.key) :
    (db.setClarifications guard f hf).clarification = db.mapClarifications guard f := by
  funext key
  exact Table.get?_update _ _ _ hf _

variable {db : Db} {key : TaskId × EventId} {r r' : ClarificationRow}

lemma clarification_key (h : db.clarification key = some r) : r.key = key := Table.get?_key h

lemma mapClarifications_some {guard : ClarificationRow → Bool}
    {f : ClarificationRow → ClarificationRow} :
    db.mapClarifications guard f key = some r' ↔
      ∃ r, db.clarification key = some r ∧ (if guard r then f r else r) = r' :=
  Option.map_eq_some_iff

end Db

/-- What one committed query does to clarifications. -/
inductive ClarificationEffect (db db' : Db) : Query → Prop
  | same {q} (h : db'.clarification = db.clarification) : ClarificationEffect db db' q
  | added {requestId taskId eventId contextId claim}
    (hnone : db.clarification (taskId, eventId) = none)
    (hunique : ∀ r, db.clarification r.key = some r → r.requestId ≠ requestId)
    (h : db'.clarification = Function.update db.clarification (taskId, eventId) (some
      { requestId := requestId, taskId := taskId, cmaEventId := eventId, createdAt := db.now })) :
    ClarificationEffect db db' (.addClarificationRequest requestId taskId eventId contextId claim)
  | decided {requestId taskId answerKey}
    (h : db'.clarification = db.mapClarifications (db.answerable requestId taskId)
      fun r => { r with status := .resolving, answerObjectKey := some answerKey }) :
    ClarificationEffect db db' (.decideClarificationRequest requestId taskId answerKey)
  | marked {requestId contextId claim}
    (h : db'.clarification = db.mapClarifications (db.respondable requestId contextId claim)
      fun r => { r with responseAttemptedAt := some db.now }) :
    ClarificationEffect db db' (.markClarificationAttempted requestId contextId claim)
  | resolved {requestId contextId claim}
    (h : db'.clarification = db.mapClarifications (db.closable requestId contextId claim)
      fun r => { r with status := .resolved }) :
    ClarificationEffect db db' (.resolveInputRequest requestId contextId claim)

variable {db db' : Db} {fresh : ℕ} {q : Query} {key : TaskId × EventId} {r r' : ClarificationRow}

lemma decideClarificationRequest_ok {requestId : RequestId} {taskId : TaskId}
    {answerKey : ObjectKey} {v : Option ClarificationRow}
    (h : decideClarificationRequest requestId taskId answerKey db = .ok (v, db')) :
    db'.clarification = db.mapClarifications (db.answerable requestId taskId)
        (fun r => { r with status := .resolving, answerObjectKey := some answerKey }) ∧
      v = (db'.clarifications.select fun r =>
        r.requestId == requestId && r.taskId == taskId).head? := by
  cases h
  exact ⟨Db.clarification_setClarifications (db.answerable requestId taskId)
    (fun r => { r with status := .resolving, answerObjectKey := some answerKey }) fun _ => rfl, rfl⟩

lemma markClarificationAttempted_ok {requestId : RequestId} {contextId : ContextId}
    {claim : ClaimId} {v : Bool}
    (h : markClarificationAttempted requestId contextId claim db = .ok (v, db')) :
    db'.clarification = db.mapClarifications (db.respondable requestId contextId claim)
        (fun r => { r with responseAttemptedAt := some db.now }) ∧
      (v = true → ∃ r, db.clarification r.key = some r ∧
        db.respondable requestId contextId claim r = true) := by
  cases h
  refine ⟨Db.clarification_setClarifications (db.respondable requestId contextId claim)
    (fun r => { r with responseAttemptedAt := some db.now }) fun _ => rfl, fun hv => ?_⟩
  obtain ⟨r, hr⟩ := List.isEmpty_eq_false_iff_exists_mem.mp (by simpa using hv)
  exact ⟨r, Table.mem_select.mp hr⟩

lemma resolveInputRequest_ok {requestId : RequestId} {contextId : ContextId} {claim : ClaimId}
    {v : Unit} (h : resolveInputRequest requestId contextId claim db = .ok (v, db')) :
    db'.clarification = db.mapClarifications (db.closable requestId contextId claim)
      fun r => { r with status := .resolved } := by
  cases h
  exact Db.clarification_setClarifications (db.closable requestId contextId claim)
    (fun r => { r with status := .resolved }) fun _ => rfl

/-- **Inversion.** Every committed query has one of the effects on clarifications. -/
theorem Query.run_clarifications {v : q.Reply} (h : q.run fresh db = .ok (v, db')) :
    ClarificationEffect db db' q := by
  cases q with
  | addClarificationRequest requestId taskId eventId contextId claim =>
    change Controller.addClarificationRequest _ _ _ _ _ _ = _ at h
    unfold Controller.addClarificationRequest at h
    dsimp only at h
    split at h
    · cases h
      exact .same rfl
    split at h
    · cases h
      exact .same rfl
    rename_i clarifications hinsert
    split at h
    · rename_i hempty
      cases h
      refine .added (Table.insert_fresh hinsert) (fun r hr hid => ?_) ?_
      · have hmem : r ∈ db.clarifications.select (·.requestId == requestId) :=
          Table.mem_select.mpr ⟨hr, by simpa using hid⟩
        rw [List.isEmpty_iff.mp hempty] at hmem
        cases hmem
      · funext key
        exact (Table.get?_insert hinsert key).trans (Function.update_apply _ _ _ _).symm
    · cases h
  | decideClarificationRequest requestId taskId answerKey =>
    exact .decided (decideClarificationRequest_ok h).1
  | markClarificationAttempted requestId contextId claim =>
    exact .marked (markClarificationAttempted_ok h).1
  | resolveInputRequest requestId contextId claim => exact .resolved (resolveInputRequest_ok h)
  | admitTurn a => exact .same (by unfold Db.clarification; rw [(admit_requests h).2])
  | claimScheduler contextId =>
    change Controller.claimScheduler _ _ _ = _ at h
    unfold Controller.claimScheduler at h
    dsimp only at h
    split at h <;> cases h <;> exact .same rfl
  | releaseScheduler contextId claim =>
    change Controller.releaseScheduler _ _ _ = _ at h
    unfold Controller.releaseScheduler at h
    split at h <;> cases h <;> exact .same rfl
  | updateContext contextId claim f =>
    change Controller.updateContext _ _ _ _ = _ at h
    unfold Controller.updateContext at h
    repeat' split at h
    all_goals first | cases h; exact .same rfl | cases h
  | updateTask taskId contextId claim f =>
    change Controller.updateTask _ _ _ _ _ = _ at h
    unfold Controller.updateTask at h
    repeat' split at h
    all_goals first | cases h; exact .same rfl | cases h
  | resolveHeldTask taskId claim r =>
    change Controller.resolveHeldTask _ _ _ _ = _ at h
    unfold Controller.resolveHeldTask at h
    repeat' split at h
    all_goals first | cases h; exact .same rfl | cases h
  | activateTask contextId taskId claim predecessor =>
    change Controller.activateTask _ _ _ _ _ = _ at h
    unfold Controller.activateTask at h
    repeat' split at h
    all_goals first | cases h; exact .same rfl | cases h
  | cancelTask taskId =>
    change Controller.cancelTask _ _ = _ at h
    unfold Controller.cancelTask at h
    repeat' split at h
    all_goals cases h; exact .same rfl
  | addInputRequest requestId taskId eventId contextId claim =>
    change Controller.addInputRequest _ _ _ _ _ _ = _ at h
    unfold Controller.addInputRequest at h
    dsimp only at h
    repeat' split at h
    all_goals first | cases h; exact .same rfl | cases h
  | recordPolicyDecision contextId taskId claim requestId decision =>
    change Controller.recordPolicyDecision _ _ _ _ _ _ = _ at h
    unfold Controller.recordPolicyDecision at h
    dsimp only at h
    split at h <;> cases h
    exact .same rfl
  | recordHumanReview contextId taskId claim requestId offer =>
    change Controller.recordHumanReview _ _ _ _ _ _ _ = _ at h
    unfold Controller.recordHumanReview at h
    dsimp only at h
    split at h <;> cases h
    exact .same rfl
  | recordHumanRuling requestId taskId ruling =>
    change Controller.recordHumanRuling _ _ _ _ = _ at h
    unfold Controller.recordHumanRuling at h
    dsimp only at h
    repeat' split at h
    all_goals cases h; exact .same rfl
  | _ => cases h; exact .same rfl

lemma Db.requestsOf_clarification {taskId : TaskId} {row : ClarificationRow}
    (h : Request.clarification row ∈ db.requestsOf taskId) :
    db.clarification row.key = some row ∧ row.taskId = taskId := by
  rw [Db.requestsOf, List.mem_append] at h
  rcases h with h | h
  · obtain ⟨row', hrow, heq⟩ := List.mem_map.mp h
    cases heq
  · obtain ⟨row', hrow, heq⟩ := List.mem_map.mp h
    cases heq
    obtain ⟨hget, htask⟩ := Table.mem_select.mp hrow
    exact ⟨hget, by simpa using htask⟩

/-- The rows that are listed are there. -/
lemma listInputRequests_ok {taskId : TaskId} {requests : List Request}
    (h : listInputRequests taskId db = .ok (requests, db')) :
    db' = db ∧ ∀ request ∈ requests, request ∈ db.requestsOf taskId := by
  cases h
  exact ⟨rfl, fun request hrequest => (List.mem_insertionSort _).mp hrequest⟩

/-- What a query does to one clarification. -/
inductive AnswerChange (db : Db) (r : ClarificationRow) : Query → ClarificationRow → Prop
  | same {q : Query} : AnswerChange db r q r
  | decided {requestId taskId answerKey} (h : db.answerable requestId taskId r = true) :
    AnswerChange db r (.decideClarificationRequest requestId taskId answerKey)
      { r with status := .resolving, answerObjectKey := some answerKey }
  | marked {requestId contextId claim} (h : db.respondable requestId contextId claim r = true) :
    AnswerChange db r (.markClarificationAttempted requestId contextId claim)
      { r with responseAttemptedAt := some db.now }
  | resolved {requestId contextId claim} (h : db.closable requestId contextId claim r = true) :
    AnswerChange db r (.resolveInputRequest requestId contextId claim)
      { r with status := .resolved }

namespace AnswerChange

/-- A row keeps its identity. -/
lemma identity (h : AnswerChange db r q r') : r'.requestId = r.requestId ∧ r'.key = r.key := by
  cases h <;> exact ⟨rfl, rfl⟩

end AnswerChange

namespace ClarificationEffect

/-- Where a row comes from: another version of it, or nothing. -/
lemma origin (heff : ClarificationEffect db db' q) (hr' : db'.clarification key = some r') :
    (∃ r, db.clarification key = some r ∧ AnswerChange db r q r') ∨
      db.clarification key = none ∧ ∃ requestId taskId eventId contextId claim,
        q = .addClarificationRequest requestId taskId eventId contextId claim ∧
        key = (taskId, eventId) ∧ (∀ r, db.clarification r.key = some r → r.requestId ≠ requestId) ∧
        r' = { requestId := requestId, taskId := taskId, cmaEventId := eventId
               createdAt := db.now } := by
  cases heff with
  | same h =>
    rw [h] at hr'
    exact .inl ⟨r', hr', .same⟩
  | @added requestId taskId eventId contextId claim hnone hunique h =>
    rw [h, Function.update_apply] at hr'
    split at hr'
    · rename_i hkey
      cases hr'
      exact .inr ⟨hkey ▸ hnone, _, _, _, _, _, rfl, hkey, hunique, rfl⟩
    · exact .inl ⟨r', hr', .same⟩
  | decided h | marked h | resolved h =>
    rw [h] at hr'
    obtain ⟨r, hr, hmap⟩ := Db.mapClarifications_some.mp hr'
    refine .inl ⟨r, hr, ?_⟩
    split at hmap
    · rw [← hmap]
      constructor
      assumption
    · rw [← hmap]
      exact .same

/-- A row that is there stays, and changes at most so. -/
lemma row (heff : ClarificationEffect db db' q) (hr : db.clarification key = some r) :
    ∃ r', db'.clarification key = some r' ∧ AnswerChange db r q r' := by
  have hsome : (db'.clarification key).isSome = true := by
    cases heff with
    | same h => rw [h, hr]; rfl
    | added hnone hunique h =>
      rw [h, Function.update_apply]
      split
      · rfl
      · rw [hr]; rfl
    | decided h | marked h | resolved h => rw [h, Db.mapClarifications, hr]; rfl
  obtain ⟨r', hr'⟩ := Option.isSome_iff_exists.mp hsome
  rcases heff.origin hr' with ⟨r₀, hr₀, hchange⟩ | ⟨hnone, -⟩
  · rw [hr, Option.some.injEq] at hr₀
    exact ⟨r', hr', hr₀ ▸ hchange⟩
  · rw [hr] at hnone
    cases hnone

end ClarificationEffect

/-- What the store keeps of clarifications. -/
structure Orderly (db : Db) : Prop where
  /-- A request id names one row. -/
  unique : ∀ {key key' r r'}, db.clarification key = some r → db.clarification key' = some r' →
    r.requestId = r'.requestId → key = key'
  /-- A row has an answer when it is no longer pending. -/
  answered : ∀ {key r}, db.clarification key = some r →
    (r.status = .pending ↔ r.answerObjectKey = none)
  /-- Only answers are sent. -/
  attempted : ∀ {key r}, db.clarification key = some r → r.responseAttemptedAt.isSome = true →
    r.status ≠ .pending

theorem Orderly.step (h : Orderly db) (heff : ClarificationEffect db db' q) : Orderly db' := by
  constructor
  · intro key key' r r' hr hr' hid
    rcases heff.origin hr with ⟨r₀, hr₀, hchange⟩ | ⟨-, rid, tid, eid, x, u, rfl, rfl, hnew, rfl⟩
    · rcases heff.origin hr' with
        ⟨r₁, hr₁, hchange'⟩ | ⟨-, rid, tid, eid, x, u, rfl, rfl, hnew, rfl⟩
      · exact h.unique hr₀ hr₁ (hchange.identity.1.symm.trans (hid.trans hchange'.identity.1))
      · have hkey := Db.clarification_key hr₀
        exact absurd (hchange.identity.1.symm.trans hid) (hnew r₀ (hkey ▸ hr₀))
    · rcases heff.origin hr' with ⟨r₁, hr₁, hchange'⟩ | ⟨-, _, _, _, _, _, heq, rfl, -⟩
      · have hkey := Db.clarification_key hr₁
        exact absurd (hchange'.identity.1.symm.trans hid.symm) (hnew r₁ (hkey ▸ hr₁))
      · cases heq
        rfl
  · intro key r hr
    rcases heff.origin hr with ⟨r₀, hr₀, hchange⟩ | ⟨-, rid, tid, eid, x, u, rfl, rfl, hnew, rfl⟩
    · have hrow := h.answered hr₀
      cases hchange with
      | same | marked => exact hrow
      | decided => simp
      | resolved hguard =>
        simp only [Db.closable, Bool.and_eq_true, beq_iff_eq] at hguard
        rw [hguard.1.2] at hrow
        simpa using hrow
    · simp
  · intro key r hr hattempted
    rcases heff.origin hr with ⟨r₀, hr₀, hchange⟩ | ⟨-, rid, tid, eid, x, u, rfl, rfl, hnew, rfl⟩
    · cases hchange with
      | same => exact h.attempted hr₀ hattempted
      | decided | resolved => simp
      | marked hguard =>
        simp only [Db.respondable, Bool.and_eq_true, beq_iff_eq] at hguard
        rw [hguard.1.1.2]
        decide
    · cases hattempted

end ManagedAgents.Controller
