import ManagedAgents.Lib.Alone
import ManagedAgents.Controller.Runs

/-!
A worker that runs alone, with every call answered: transactions run or refuse as the store tells,
the provider shows one history, and time passes within the lease. What each call does to the rows
of one context and one task is said once.
-/

namespace ManagedAgents.Controller

open ManagedAgents.Lib

/-- A reply without an outage: only transactions are refused, and missing objects not found. -/
def Calm (events : List Event) (w : World) : (c : Call) → Except Exn c.Reply → Prop
  | .listEvents _, r => r = .ok events
  | .query q, .error e => q.run w.uuid w.db = .error e
  | .pendingGet key, .error _ => w.objects key = none
  | _, .error _ => False
  | _, .ok _ => True

/-- No lease ends. -/
def KeepsLeases (w w' : World) : Prop := ∀ contextId c claim,
  w.db.context contextId = some c → c.holds claim w.db.now = true →
    c.holds claim w'.db.now = true

abbrev calmEnvironment (events : List Event) : Environment Call Call.Reply Exn World :=
  environment.restrict (fun w c r _ => Calm events w c r) KeepsLeases

variable {events : List Event} {w w' : World} {a : Actor}

/-- Only the clock and the sessions differ. -/
structure Drifted (w w' : World) : Prop where
  db : ∃ now, w.db.now ≤ now ∧ w'.db = { w.db with now := now }
  uuid : w'.uuid = w.uuid
  objects : w'.objects = w.objects
  log : w'.log = w.log
  leases : ∀ contextId c claim, w.db.context contextId = some c →
    c.holds claim w.db.now = true → c.holds claim w'.db.now = true

lemma Drifted.of_drift (h : Relation.ReflTransGen (calmEnvironment events).drift w w') :
    Drifted w w' := by
  induction h with
  | refl => exact ⟨⟨_, Nat.le_refl _, rfl⟩, rfl, rfl, rfl, fun _ _ _ _ h => h⟩
  | tail _ hstep ih =>
    obtain ⟨⟨now, history, hnow, rfl⟩, hleases⟩ := hstep
    obtain ⟨⟨before, hbefore, hdb⟩, huuid, hobjects, hlog, hkept⟩ := ih
    rw [hdb] at hnow
    refine ⟨⟨now, Nat.le_trans hbefore hnow, by rw [hdb]⟩, huuid, hobjects, hlog,
      fun x c claim hx hc => ?_⟩
    refine hleases x c claim ?_ (hkept x c claim hx hc)
    rw [hdb]
    exact hx

/-- A transaction answers what it computes, and is logged. -/
lemma calm_query {q : Query} {r : Except Exn q.Reply}
    (h : (calmEnvironment events).exec w a (.query q) r w') :
    (∃ v, q.run w.uuid w.db = .ok (v, w'.db) ∧ r = .ok v ∧ w'.uuid = w.uuid + 1 ∧
      w'.objects = w.objects ∧ w'.log = ⟨a, .query q, .ok v, true, w.db, w'.db⟩ :: w.log) ∨
    ∃ e, q.run w.uuid w.db = .error e ∧ r = .error e ∧ w'.db = w.db ∧ w'.uuid = w.uuid ∧
      w'.objects = w.objects := by
  obtain ⟨hexec, hcalm⟩ := h
  rcases exec_query hexec with ⟨v, hrun, hr, hw⟩ | ⟨e, rfl, hw⟩
  · rcases hr with rfl | rfl
    · exact .inl ⟨v, hrun, rfl, by rw [hw], by rw [hw], by rw [hw]⟩
    · have hrefused : q.run w.uuid w.db = .error .other := hcalm
      rw [hrun] at hrefused
      cases hrefused
  · exact .inr ⟨e, hcalm, rfl, by rw [hw], by rw [hw], by rw [hw]⟩

/-- A call to the outside is logged, and that is all. -/
lemma calm_external {c : Call} {r : Except Exn c.Reply} (hc : c.external = true)
    (h : (calmEnvironment events).exec w a c r w') :
    w'.db = w.db ∧ w'.uuid = w.uuid ∧ w'.objects = w.objects ∧
      w'.log = ⟨a, c, r, false, w.db, w.db⟩ :: w.log ∧ Calm events w c r := by
  obtain ⟨⟨committed, w₁, hw, rfl⟩, hcalm⟩ := h
  cases hw with
  | external history => exact ⟨rfl, rfl, rfl, rfl, hcalm⟩
  | _ => cases hc

/-- Every call is answered. -/
lemma calm_total (w : World) (c : Call) : ∃ r w', (calmEnvironment events).exec w a c r w' := by
  have hexternal : ∀ c (v : c.Reply), c.external = true → Calm events w c (.ok v) →
      ∃ r w', (calmEnvironment events).exec w a c r w' := fun c v hc hcalm =>
    ⟨.ok v, _, ⟨false, _, .external w.history hc (fun _ h => by cases h), rfl⟩, hcalm⟩
  cases c with
  | query q =>
    cases hrun : q.run w.uuid w.db with
    | ok v => exact ⟨.ok v.1, _, ⟨true, _, .done hrun, rfl⟩, trivial⟩
    | error e => exact ⟨.error e, _, ⟨false, _, .refused hrun, rfl⟩, hrun⟩
  | findSession => exact hexternal _ none rfl trivial
  | createSession => exact hexternal _ 0 rfl trivial
  | listEvents => exact hexternal _ events rfl rfl
  | sendMessage => exact hexternal _ none rfl trivial
  | confirmTool | sendCustomToolResult | interrupt | schedule | schedulePush =>
    exact hexternal _ () rfl trivial
  | policyExchange => exact hexternal _ ⟨.deny, none⟩ rfl trivial
  | clock => exact hexternal _ 0 rfl trivial
  | pendingPut key text => exact ⟨.ok (), _, ⟨false, _, .put, rfl⟩, trivial⟩
  | pendingDelete key => exact ⟨.ok (), _, ⟨false, _, .delete, rfl⟩, trivial⟩
  | pendingGet key =>
    cases hobject : w.objects key with
    | some text => exact ⟨.ok text, _, ⟨false, _, .get hobject, rfl⟩, trivial⟩
    | none => exact ⟨.error .other, _, ⟨false, _, .getFailed, rfl⟩, hobject⟩
  | uuid4 => exact ⟨.ok w.uuid, _, ⟨false, _, .uuid4, rfl⟩, trivial⟩

lemma admitContext_now {b : Admission} {db db' : Db} {v : ContextRow}
    (h : admitContext b db = .ok (v, db')) : db'.now = db.now := by
  unfold admitContext at h
  dsimp only at h
  repeat' split at h
  all_goals first | (cases h; rfl) | cases h

lemma admitTurn_now {b : Admission} {db db' : Db} {v : ContextRow × TaskRow × Bool}
    (h : admitTurn b db = .ok (v, db')) : db'.now = db.now := by
  unfold admitTurn at h
  split at h
  · cases h
  rename_i hfound
  rw [← admitContext_now hfound]
  dsimp only at h
  repeat' split at h
  all_goals first | (cases h; rfl) | cases h

/-- Transactions do not move the clock. -/
lemma Query.run_now {q : Query} {fresh : ℕ} {db db' : Db} {v : q.Reply}
    (h : q.run fresh db = .ok (v, db')) : db'.now = db.now := by
  cases q with
  | admitTurn b => exact admitTurn_now h
  | _ =>
    simp only [Query.run, Controller.getContext, Controller.getTask, Controller.claimScheduler,
      Controller.releaseScheduler, Controller.updateContext, Controller.updateTask,
      Controller.resolveHeldTask, Controller.nextQueued, Controller.activateTask,
      Controller.cancelTask, Controller.addInputRequest, Controller.addClarificationRequest,
      Controller.listInputRequests, Controller.getInputRequest, Controller.recordPolicyDecision,
      Controller.recordHumanReview, Controller.recordHumanRuling,
      Controller.decideClarificationRequest, Controller.markClarificationAttempted,
      Controller.denyCancelledInputRequest, Controller.resolveInputRequest,
      Controller.markConfirmationAttempted] at h
    repeat' split at h
    all_goals first | (cases h; rfl) | cases h

/-! ### One context and one task -/

/-- The calls that send a decision or an answer to the provider. -/
def Call.sends : Call → Bool
  | confirmTool _ _ _ _ _ | sendCustomToolResult _ _ _ _ _ => true
  | _ => false

/-- What a run on one context's rows leaves alone but where it says so: the requests, the stored
objects, and what was sent, newest first. -/
structure Rest where
  approvals : Table ApprovalRow.key
  clarifications : Table ClarificationRow.key
  objects : ObjectKey → Option Text
  sent : List Call

def World.rest (w : World) : Rest where
  approvals := w.db.approvals
  clarifications := w.db.clarifications
  objects := w.objects
  sent := (w.log.map (·.call)).filter (·.sends)

/-- The rows of a context and of a task, under a lease of the claim, and no other context with
the session. -/
structure Held (contextId : ContextId) (claim : ClaimId) (c : ContextRow) (taskId : TaskId)
    (t : TaskRow) (x : Rest) (w : World) : Prop where
  context : w.db.context contextId = some c
  task : w.db.task taskId = some t
  held : c.holds claim w.db.now = true
  apart : ∀ y d, w.db.context y = some d → y ≠ contextId → d.cmaSessionId.isSome = true →
    d.cmaSessionId ≠ c.cmaSessionId
  rest : w.rest = x

variable {contextId : ContextId} {claim : ClaimId} {c : ContextRow} {taskId : TaskId} {t : TaskRow}
  {x : Rest}

/-- Requests and objects stay, and nothing is sent. -/
lemma rest_kept {e : Entry} (happrovals : w'.db.approvals = w.db.approvals)
    (hclarifications : w'.db.clarifications = w.db.clarifications)
    (hobjects : w'.objects = w.objects) (hlog : w'.log = e :: w.log)
    (he : e.call.sends = false) : w'.rest = w.rest := by
  simp [World.rest, happrovals, hclarifications, hobjects, hlog, he]

lemma rest_drifted (h : Drifted w w') : w'.rest = w.rest := by
  obtain ⟨now, -, hdb⟩ := h.db
  simp [World.rest, hdb, h.objects, h.log]

lemma updateTask_rest {db db' : Db} {f : TaskFields} {v : TaskRow}
    (h : updateTask taskId contextId claim f db = .ok (v, db')) :
    db'.approvals = db.approvals ∧ db'.clarifications = db.clarifications := by
  unfold updateTask at h
  repeat' split at h
  all_goals first | (cases h; exact ⟨rfl, rfl⟩) | cases h

lemma updateContext_rest {db db' : Db} {f : ContextFields} {v : ContextRow}
    (h : updateContext contextId claim f db = .ok (v, db')) :
    db'.approvals = db.approvals ∧ db'.clarifications = db.clarifications := by
  unfold updateContext at h
  repeat' split at h
  all_goals first | (cases h; exact ⟨rfl, rfl⟩) | cases h

namespace Held

lemma drift (h : Held contextId claim c taskId t x w) (hd : Drifted w w') :
    Held contextId claim c taskId t x w' := by
  obtain ⟨now, -, hdb⟩ := hd.db
  have hheld := hd.leases contextId c claim h.context h.held
  refine ⟨?_, ?_, hheld, ?_, (rest_drifted hd).trans h.rest⟩
  · rw [hdb]
    exact h.context
  · rw [hdb]
    exact h.task
  · rw [hdb]
    exact h.apart

/-- A call that writes neither contexts nor tasks. -/
lemma of_same (h : Held contextId claim c taskId t x w) (hc : w'.db.context = w.db.context)
    (ht : w'.db.task = w.db.task) (hnow : w'.db.now = w.db.now) (hrest : w'.rest = w.rest) :
    Held contextId claim c taskId t x w' :=
  ⟨by rw [hc]; exact h.context, by rw [ht]; exact h.task, by rw [hnow]; exact h.held,
    by rw [hc]; exact h.apart, hrest.trans h.rest⟩

lemma leased (h : Held contextId claim c taskId t x w) : w.db.leased contextId claim = true :=
  Db.leased_iff.mpr ⟨c, h.context, h.held⟩

variable {f : TaskFields} {g : ContextFields}

lemma updateTask (h : Held contextId claim c taskId t x w) :
    Alone (calmEnvironment events) a (ask (.updateTask taskId contextId claim f))
      (fun r w' => r = .ok (t.set f) ∧ Held contextId claim c taskId (t.set f) x w') w := by
  refine Alone.perform fun w₁ hd r w' he => ?_
  have h₁ := h.drift (.of_drift hd)
  rcases calm_query he with ⟨v, hrun, rfl, -, hobjects, hlog⟩ | ⟨e, hrun, -⟩
  · obtain ⟨c', t', -, -, ht', rfl, hc, ht⟩ := updateTask_ok hrun
    rw [h₁.task, Option.some.injEq] at ht'
    subst ht'
    obtain ⟨happrovals, hclarifications⟩ := updateTask_rest hrun
    refine ⟨rfl, by rw [hc]; exact h₁.context, by rw [ht, Function.update_self], ?_, ?_,
      (rest_kept happrovals hclarifications hobjects hlog rfl).trans h₁.rest⟩
    · rw [Query.run_now hrun]
      exact h₁.held
    · rw [hc]
      exact h₁.apart
  · have htask : w₁.db.tasks.get? taskId = some t := h₁.task
    simp [Query.run, Controller.updateTask, htask, h₁.leased] at hrun

lemma updateContext (h : Held contextId claim c taskId t x w) (hsession : g.cmaSessionId = none)
    (hcheck : (c.set g).check = true) :
    Alone (calmEnvironment events) a (ask (.updateContext contextId claim g))
      (fun r w' => r = .ok (c.set g) ∧ Held contextId claim (c.set g) taskId t x w') w := by
  refine Alone.perform fun w₁ hd r w' he => ?_
  have h₁ := h.drift (.of_drift hd)
  have hsame : (c.set g).cmaSessionId = c.cmaSessionId := by simp [ContextRow.set, hsession]
  rcases calm_query he with ⟨v, hrun, rfl, -, hobjects, hlog⟩ | ⟨e, hrun, -⟩
  · obtain ⟨c', hc', -, -, rfl, hc, ht⟩ := updateContext_ok hrun
    rw [h₁.context, Option.some.injEq] at hc'
    subst hc'
    obtain ⟨happrovals, hclarifications⟩ := updateContext_rest hrun
    refine ⟨rfl, by rw [hc, Function.update_self], by rw [ht]; exact h₁.task, ?_, ?_,
      (rest_kept happrovals hclarifications hobjects hlog rfl).trans h₁.rest⟩
    · rw [Query.run_now hrun]
      exact h₁.held
    · intro y d hd hy hsome
      rw [hc, Function.update_of_ne hy] at hd
      rw [hsame]
      exact h₁.apart y d hd hy hsome
  · exfalso
    have hctx : w₁.db.contexts.get? contextId = some c := h₁.context
    have hfree : (w₁.db.contexts.select fun o => o.contextId != contextId &&
        o.cmaSessionId == (c.set g).cmaSessionId).isEmpty = true ∨
        (c.set g).cmaSessionId.isSome = false := by
      by_cases hsome : (c.set g).cmaSessionId.isSome = true
      · left
        rw [List.isEmpty_iff, List.eq_nil_iff_forall_not_mem]
        intro o ho
        obtain ⟨hget, ho⟩ := Table.mem_select.mp ho
        simp only [Bool.and_eq_true, bne_iff_ne, beq_iff_eq] at ho
        rw [hsame] at ho hsome
        exact h₁.apart o.contextId o hget ho.1 (by rw [ho.2]; exact hsome) ho.2
      · exact .inr (by simpa using hsome)
    simp only [Query.run, Controller.updateContext, hctx, h₁.leased, hcheck] at hrun
    rcases hfree with hfree | hfree <;> simp [hfree] at hrun

/-- A query that only reads. -/
lemma read {q : Query} {P : q.Reply → Prop} (h : Held contextId claim c taskId t x w)
    (hq : ∀ fresh db, db.context contextId = some c → db.task taskId = some t →
      ∃ v, q.run fresh db = .ok (v, db) ∧ P v) :
    Alone (calmEnvironment events) a (ask q)
      (fun r w' => (∃ v, r = .ok v ∧ P v) ∧ Held contextId claim c taskId t x w') w := by
  refine Alone.perform fun w₁ hd r w' he => ?_
  have h₁ := h.drift (.of_drift hd)
  obtain ⟨v', hok, hP⟩ := hq w₁.uuid w₁.db h₁.context h₁.task
  rcases calm_query he with ⟨v, hrun, rfl, -, hobjects, hlog⟩ | ⟨e, hrun, -⟩
  · rw [hok, Except.ok.injEq, Prod.mk.injEq] at hrun
    obtain ⟨rfl, hdb⟩ := hrun
    have hrest : w'.rest = w₁.rest :=
      rest_kept (by rw [hdb]) (by rw [hdb]) hobjects hlog rfl
    exact ⟨⟨v', rfl, hP⟩, h₁.of_same (by rw [hdb]) (by rw [hdb]) (by rw [hdb]) hrest⟩
  · rw [hok] at hrun
    cases hrun

lemma getContext (h : Held contextId claim c taskId t x w) :
    Alone (calmEnvironment events) a (ask (.getContext contextId))
      (fun r w' => r = .ok (some c) ∧ Held contextId claim c taskId t x w') w := by
  refine (h.read (P := (· = some c)) fun fresh db hc ht => ⟨_, rfl, hc⟩).mono ?_
  rintro r w' ⟨⟨v, rfl, rfl⟩, h'⟩
  exact ⟨rfl, h'⟩

lemma getTask (h : Held contextId claim c taskId t x w) :
    Alone (calmEnvironment events) a (ask (.getTask taskId))
      (fun r w' => r = .ok (some t) ∧ Held contextId claim c taskId t x w') w := by
  refine (h.read (P := (· = some t)) fun fresh db hc ht => ⟨_, rfl, ht⟩).mono ?_
  rintro r w' ⟨⟨v, rfl, rfl⟩, h'⟩
  exact ⟨rfl, h'⟩

lemma nextQueued {y : ContextId} (h : Held contextId claim c taskId t x w) :
    Alone (calmEnvironment events) a (ask (.nextQueued y))
      (fun r w' => (∃ v, r = .ok v) ∧ Held contextId claim c taskId t x w') w := by
  refine (h.read (P := fun _ => True) fun fresh db hc ht => ⟨_, rfl, trivial⟩).mono ?_
  rintro r w' ⟨⟨v, rfl, -⟩, h'⟩
  exact ⟨⟨v, rfl⟩, h'⟩

/-- A call to the outside that sends nothing. -/
lemma outside {b : Call} (h : Held contextId claim c taskId t x w) (hb : b.external = true)
    (hlisting : ∀ sessionId, b ≠ .listEvents sessionId) (hsends : b.sends = false) :
    Alone (calmEnvironment events) a (perform b)
      (fun r w' => (∃ v, r = .ok v) ∧ Held contextId claim c taskId t x w') w := by
  refine Alone.perform fun w₁ hd r w' he => ?_
  obtain ⟨hdb, -, hobjects, hlog, hcalm⟩ := calm_external hb he
  have hrest : w'.rest = w₁.rest := rest_kept (by rw [hdb]) (by rw [hdb]) hobjects hlog hsends
  refine ⟨?_, (h.drift (.of_drift hd)).of_same (by rw [hdb]) (by rw [hdb]) (by rw [hdb]) hrest⟩
  cases r with
  | ok v => exact ⟨v, rfl⟩
  | error e =>
    cases b with
    | listEvents sessionId => exact absurd rfl (hlisting sessionId)
    | query | pendingPut | pendingGet | pendingDelete | uuid4 => cases hb
    | _ => exact hcalm.elim

lemma listEvents {sessionId : SessionId} (h : Held contextId claim c taskId t x w) :
    Alone (calmEnvironment events) a (perform (.listEvents sessionId))
      (fun r w' => r = .ok events ∧ Held contextId claim c taskId t x w') w := by
  refine Alone.perform fun w₁ hd r w' he => ?_
  obtain ⟨hdb, -, hobjects, hlog, hcalm⟩ := calm_external rfl he
  have hrest : w'.rest = w₁.rest := rest_kept (by rw [hdb]) (by rw [hdb]) hobjects hlog rfl
  exact ⟨hcalm, (h.drift (.of_drift hd)).of_same (by rw [hdb]) (by rw [hdb]) (by rw [hdb]) hrest⟩

/-! ### Small programs -/

lemma updateTask' (h : Held contextId claim c taskId t x w) :
    Alone (calmEnvironment events) a (Controller.updateTask' taskId contextId claim f)
      (fun r w' => r = .ok () ∧ Held contextId claim c taskId (t.set f) x w') w := by
  refine h.updateTask.bind (fun v w' h' => Alone.pure ⟨rfl, h'.2⟩) fun e w' h' => ?_
  cases h'.1

lemma updateContext' (h : Held contextId claim c taskId t x w) (hsession : g.cmaSessionId = none)
    (hcheck : (c.set g).check = true) :
    Alone (calmEnvironment events) a (Controller.updateContext' contextId claim g)
      (fun r w' => r = .ok () ∧ Held contextId claim (c.set g) taskId t x w') w := by
  refine (h.updateContext hsession hcheck).bind (fun v w' h' => Alone.pure ⟨rfl, h'.2⟩)
    fun e w' h' => ?_
  cases h'.1

/-- The task ends and the context is free. -/
lemma finish {state : A2aState} {terminalEventId : Option EventId}
    (h : Held contextId claim c taskId t x w) (hcheck : c.check = true) :
    Alone (calmEnvironment events) a
      (Controller.finish contextId taskId claim state terminalEventId)
      (fun r w' => r = .ok () ∧ Held contextId claim { c with activeTaskId := none } taskId
        (t.set (Known.finishFields state terminalEventId)) x w') w := by
  refine h.updateTask'.bind (fun v w' h' => ?_) fun e w' h' => ?_
  · exact (h'.2.updateContext' (g := { activeTaskId := some none }) rfl hcheck).mono
      fun r w'' h'' => h''
  · cases h'.1

end Held

/-! ### A whole run -/

/-- The rows of a context whose lease is free, and of a task. -/
structure Free (contextId : ContextId) (c : ContextRow) (taskId : TaskId) (t : TaskRow) (x : Rest)
    (w : World) : Prop where
  context : w.db.context contextId = some c
  task : w.db.task taskId = some t
  free : c.schedulerClaimId = none ∨ ∃ e, c.schedulerLeaseExpiresAt = some e ∧ e ≤ w.db.now
  apart : ∀ y d, w.db.context y = some d → y ≠ contextId → d.cmaSessionId.isSome = true →
    d.cmaSessionId ≠ c.cmaSessionId
  rest : w.rest = x

/-- The context's row once it is claimed. -/
def ContextRow.claimed (c : ContextRow) (claim : ClaimId) (now : Time) : ContextRow :=
  { c with
    schedulerClaimId := some claim
    schedulerLeaseExpiresAt := some (now + leaseSeconds) }

lemma claimScheduler_rest {db db' : Db} {fresh : ℕ} {v : Option ClaimId}
    (h : claimScheduler contextId fresh db = .ok (v, db')) :
    db'.approvals = db.approvals ∧ db'.clarifications = db.clarifications := by
  unfold claimScheduler at h
  dsimp only at h
  split at h <;> (cases h; exact ⟨rfl, rfl⟩)

lemma Free.claimScheduler (h : Free contextId c taskId t x w) :
    Alone (calmEnvironment events) a (ask (.claimScheduler contextId))
      (fun r w' => ∃ claim now, r = .ok (some claim) ∧
        Held contextId claim (c.claimed claim now) taskId t x w') w := by
  refine Alone.perform fun w₁ hd r w' he => ?_
  have hdrift := Drifted.of_drift hd
  obtain ⟨now, hnow, hdb⟩ := hdrift.db
  have hctx : w₁.db.context contextId = some c := by
    rw [hdb]
    exact h.context
  have hnow₁ : w.db.now ≤ w₁.db.now := by rw [hdb]; exact hnow
  have hfree : (c.schedulerClaimId.isNone ||
      c.schedulerLeaseExpiresAt.any (· ≤ w₁.db.now)) = true := by
    rcases h.free with hnone | ⟨e, he, hle⟩
    · simp [hnone]
    · simp [he, Nat.le_trans hle hnow₁]
  have hget : w₁.db.contexts.get? contextId = some c := hctx
  rcases calm_query he with ⟨v, hrun, rfl, -, hobjects, hlog⟩ | ⟨e, hrun, -⟩
  · obtain ⟨happrovals, hclarifications⟩ := claimScheduler_rest hrun
    have hrest := rest_kept happrovals hclarifications hobjects hlog rfl
    rcases claimScheduler_ok hrun with ⟨rfl, hsame⟩ | ⟨rfl, -, c', hc', -, hc, ht⟩
    · exfalso
      simp [Query.run, Controller.claimScheduler, hget, hfree] at hrun
    · rw [hctx, Option.some.injEq] at hc'
      subst hc'
      refine ⟨_, w₁.db.now, rfl, by rw [hc, Function.update_self]; rfl, ?_, ?_, ?_,
        (hrest.trans (rest_drifted hdrift)).trans h.rest⟩
      · rw [ht, hdb]
        exact h.task
      · rw [Query.run_now hrun]
        simp [ContextRow.holds, ContextRow.claimed, leaseSeconds]
      · intro y d hd' hy hsome
        rw [hc, Function.update_of_ne hy, hdb] at hd'
        exact h.apart y d hd' hy hsome
  · simp only [Query.run, Controller.claimScheduler] at hrun
    split at hrun <;> cases hrun

lemma releaseScheduler_rest {db db' : Db} {v : Bool}
    (h : releaseScheduler contextId claim db = .ok (v, db')) :
    db'.approvals = db.approvals ∧ db'.clarifications = db.clarifications := by
  unfold releaseScheduler at h
  split at h <;> (cases h; exact ⟨rfl, rfl⟩)

/-- The rows once the lease is given back, but for the lease. -/
def Settled (contextId : ContextId) (taskId : TaskId)
    (P : Option TaskId → TaskRow → Rest → Prop) (w : World) : Prop :=
  ∃ c t, w.db.context contextId = some c ∧ w.db.task taskId = some t ∧ P c.activeTaskId t w.rest

lemma Held.cleanup {cfg : Config} {P : Option TaskId → TaskRow → Rest → Prop}
    (h : Held contextId claim c taskId t x w) (hP : P c.activeTaskId t x) :
    Alone (calmEnvironment events) a (runOnceCleanup cfg contextId claim)
      (fun r w' => r = .ok () ∧ Settled contextId taskId P w') w := by
  have hrelease : Alone (calmEnvironment events) a (ask (.releaseScheduler contextId claim))
      (fun r w' => (∃ v, r = .ok v) ∧ Settled contextId taskId P w') w := by
    refine Alone.perform fun w₁ hd r w' he => ?_
    have h₁ := h.drift (.of_drift hd)
    rcases calm_query he with ⟨v, hrun, rfl, -, hobjects, hlog⟩ | ⟨e, hrun, -⟩
    · obtain ⟨happrovals, hclarifications⟩ := releaseScheduler_rest hrun
      have hrest := (rest_kept happrovals hclarifications hobjects hlog rfl).trans h₁.rest
      refine ⟨⟨v, rfl⟩, ?_⟩
      have heffect : CoreEffect 0 w₁.db _ (.releaseScheduler contextId claim) :=
        releaseScheduler_effect hrun
      cases heffect with
      | same hc ht =>
        exact ⟨c, t, by rw [hc]; exact h₁.context, by rw [ht]; exact h₁.task,
          by rw [hrest]; exact hP⟩
      | released hctx hheld hc ht =>
        rw [h₁.context, Option.some.injEq] at hctx
        subst hctx
        exact ⟨_, t, by rw [hc, Function.update_self], by rw [ht]; exact h₁.task,
          by rw [hrest]; exact hP⟩
    · simp only [Query.run, Controller.releaseScheduler] at hrun
      split at hrun <;> cases hrun
  refine hrelease.bind (fun v w' h' => ?_) fun e w' h' => ?_
  · obtain ⟨-, c', t', hc', ht', hP'⟩ := h'
    split
    · refine Alone.tryCatch (Q := fun r w'' => (∃ v, r = .ok v) ∧ Settled contextId taskId P w'')
        (Alone.perform fun w₁ hd r w'' he => ?_) (fun v w'' h'' => ⟨rfl, h''.2⟩) fun e w'' h'' => ?_
      · have hdrift := Drifted.of_drift hd
        obtain ⟨now, -, hdb₁⟩ := hdrift.db
        obtain ⟨hdb, -, hobjects, hlog, hcalm⟩ := calm_external rfl he
        have hrest : w''.rest = w'.rest :=
          (rest_kept (by rw [hdb]) (by rw [hdb]) hobjects hlog rfl).trans (rest_drifted hdrift)
        refine ⟨?_, c', t', ?_, ?_, by rw [hrest]; exact hP'⟩
        · cases r with
          | ok v => exact ⟨v, rfl⟩
          | error e => exact hcalm.elim
        · rw [hdb, hdb₁]
          exact hc'
        · rw [hdb, hdb₁]
          exact ht'
      · obtain ⟨v, hv⟩ := h''.1
        cases hv
    · exact Alone.pure ⟨rfl, c', t', hc', ht', hP'⟩
  · obtain ⟨v, hv⟩ := h'.1
    cases hv

/-- Asking for another wakeup changes nothing here. -/
lemma Held.scheduleNext (h : Held contextId claim c taskId t x w) :
    Alone (calmEnvironment events) a (Controller.scheduleNext contextId)
      (fun r w' => r = .ok () ∧ Held contextId claim c taskId t x w') w := by
  have hschedule : ∀ {w₁ n}, Held contextId claim c taskId t x w₁ →
      Alone (calmEnvironment events) a (perform (.schedule contextId n))
        (fun r w' => r = .ok () ∧ Held contextId claim c taskId t x w') w₁ := fun h₁ =>
    (h₁.outside rfl (fun _ hb => by cases hb) rfl).mono
      fun r w' ⟨⟨v, hv⟩, h'⟩ => ⟨hv, h'⟩
  refine h.getContext.bind (fun v w₁ h₁ => ?_) fun e w₁ h₁ => by cases h₁.1
  split
  · exact hschedule h₁.2
  · refine h₁.2.nextQueued.bind (fun v' w₂ h₂ => ?_) fun e w₂ h₂ => ?_
    · split
      · exact hschedule h₂.2
      · exact Alone.pure ⟨rfl, h₂.2⟩
    · obtain ⟨v', hv'⟩ := h₂.1
      cases hv'

/-- **A whole run does what its middle does.** -/
theorem Free.runOnce {cfg : Config} {S : Except Exn Unit → Prop}
    {P : Option TaskId → TaskRow → Rest → Prop} (h : Free contextId c taskId t x w)
    (hbody : ∀ claim now w', Held contextId claim (c.claimed claim now) taskId t x w' →
      Alone (calmEnvironment events) a (reconcileContext cfg (c.claimed claim now) claim)
        (fun r w'' => S r ∧ ∃ c' t' x', Held contextId claim c' taskId t' x' w'' ∧
          P c'.activeTaskId t' x') w') :
    Alone (calmEnvironment events) a (Controller.runOnce cfg contextId)
      (fun r w' => S r ∧ Settled contextId taskId P w') w := by
  refine h.claimScheduler.bind (fun v w₁ h₁ => ?_) fun e w₁ h₁ => ?_
  · obtain ⟨claim, now, hv, h₁⟩ := h₁
    cases hv
    have hreconcile : Alone (calmEnvironment events) a (reconcile cfg contextId claim)
        (fun r w'' => S r ∧ ∃ c' t' x', Held contextId claim c' taskId t' x' w'' ∧
          P c'.activeTaskId t' x') w₁ := by
      refine h₁.getContext.bind (fun v w₂ h₂ => ?_) fun e w₂ h₂ => by cases h₂.1
      obtain ⟨hv, h₂⟩ := h₂
      cases hv
      refine (hbody claim now w₂ h₂).bind (fun v w₃ h₃ => ?_) fun e w₃ h₃ => h₃
      obtain ⟨hS, c', t', x', h₃, hP⟩ := h₃
      refine h₃.scheduleNext.mono fun r w' h' => ?_
      obtain ⟨rfl, h'⟩ := h'
      exact ⟨hS, c', t', x', h', hP⟩
    refine hreconcile.ensure fun r w₂ h₂ => ?_
    obtain ⟨hS, c', t', x', h₂, hP⟩ := h₂
    refine (h₂.cleanup hP).mono fun r' w₃ h₃ => ?_
    obtain ⟨rfl, hsettled⟩ := h₃
    exact ⟨hS, hsettled⟩
  · obtain ⟨claim, now, hv, -⟩ := h₁
    cases hv

end ManagedAgents.Controller
