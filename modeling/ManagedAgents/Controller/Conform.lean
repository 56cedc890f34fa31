import ManagedAgents.Controller.Known

/-!
The controller's programs keep the contract: one lemma for each method, assembled in source
order.
-/

namespace ManagedAgents.Controller

open ManagedAgents.Lib

namespace Known

/-- The worker serves the task under its lease, with the context's session as given; or it has
seen that its lease is gone. -/
structure Serving (contextId : ContextId) (claim : ClaimId) (session : Option SessionId)
    (t : TaskView) (k : Known) : Prop where
  lease : k.holdsLease contextId claim
  live : k.lost = true ∨ k.finished = false ∧ k.task = some t ∧
    ∃ v, k.view = .seen v ∧ v.activeTaskId = some t.taskId ∧ v.cmaSessionId = session

variable {contextId : ContextId} {claim : ClaimId} {session session' : Option SessionId}
  {t t' : TaskView} {k : Known}

lemma Serving.of_lost (hl : k.holdsLease contextId claim) (h : k.lost = true) :
    Serving contextId claim session t k := ⟨hl, .inl h⟩

lemma Serving.wroteTask {f : TaskFields} (h : Serving contextId claim session t k)
    (hf : f.internalState ≠ some .terminal) :
    Serving contextId claim session (t.set f) (k.wroteTask f) := by
  refine ⟨h.lease, h.live.imp_right ?_⟩
  rintro ⟨hfin, htask, hview⟩
  refine ⟨?_, by simp [Known.wroteTask, htask], hview⟩
  simpa [Known.wroteTask, hfin] using hf

lemma Serving.wroteContext {f : ContextFields} (h : Serving contextId claim session t k)
    (hf : f.activeTaskId = none) (hs : f.cmaSessionId.getD session = session') :
    Serving contextId claim session' t (k.wroteContext f) := by
  obtain ⟨hl, hlive⟩ := h
  rcases hlive with hlost | ⟨hfin, htask, v, hv, hactive, hsession⟩
  · exact .of_lost (by simpa using hl) (by simpa using hlost)
  · rw [wroteContext_seen hv hf]
    refine ⟨hl, .inr ⟨hfin, htask, _, rfl, ?_, ?_⟩⟩
    · simpa [ContextView.set, hf] using hactive
    · simpa [ContextView.set, hsession] using hs

lemma Serving.readTask (h : Serving contextId claim session t k) (row : Option TaskRow) :
    Serving contextId claim session t (k.readTask t.taskId row) ∧
      ∀ r, Serving contextId claim session (row.getD r).view (k.readTask t.taskId row) := by
  obtain ⟨hl, hlive⟩ := h
  rcases hlive with hlost | ⟨hfin, htask, v, hv, hactive, hsession⟩
  · obtain ⟨task, lost, hk, hlost'⟩ := k.readTask_cases t.taskId row
    rw [hk]
    exact ⟨.of_lost hl (hlost' hlost), fun _ => .of_lost hl (hlost' hlost)⟩
  · by_cases hsame : row.map (·.view) = some t
    · have hk : k.readTask t.taskId row = k := by simp [Known.readTask, htask, hsame]
      rw [hk]
      have hs : Serving contextId claim session t k :=
        ⟨hl, .inr ⟨hfin, htask, v, hv, hactive, hsession⟩⟩
      refine ⟨hs, fun r => ?_⟩
      cases row with
      | none => cases hsame
      | some r' =>
        rw [Option.map_some, Option.some.injEq] at hsame
        exact hsame ▸ hs
    · have hk : k.readTask t.taskId row = { k with lost := true } := by
        simp [Known.readTask, htask, hsame]
      rw [hk]
      exact ⟨.of_lost hl rfl, fun _ => .of_lost hl rfl⟩

lemma Serving.readContext (h : Serving contextId claim session t k) (row : Option ContextRow) :
    Serving contextId claim session t (k.readContext row) ∧
      ∀ c : ContextRow,
        Serving contextId claim (row.getD c).cmaSessionId t (k.readContext row) := by
  obtain ⟨hl, hlive⟩ := h
  rcases hlive with hlost | ⟨hfin, htask, v, hv, hactive, hsession⟩
  · obtain ⟨view, lost, hk, hlost'⟩ := k.readContext_cases row
    rw [hk]
    exact ⟨.of_lost hl (hlost' hlost), fun _ => .of_lost hl (hlost' hlost)⟩
  · by_cases hsame : row.map (·.view) = some v
    · have hk : k.readContext row = k := by simp [Known.readContext, hv, hsame]
      rw [hk]
      refine ⟨⟨hl, .inr ⟨hfin, htask, v, hv, hactive, hsession⟩⟩, fun c => ?_⟩
      cases row with
      | none => cases hsame
      | some c' =>
        rw [Option.map_some, Option.some.injEq] at hsame
        exact ⟨hl, .inr ⟨hfin, htask, v, hv, hactive, hsame ▸ rfl⟩⟩
    · have hk : k.readContext row = { k with lost := true } := by
        simp [Known.readContext, hv, hsame]
      rw [hk]
      exact ⟨.of_lost hl rfl, fun _ => .of_lost hl rfl⟩

end Known

open Known

variable {contextId : ContextId} {claim : ClaimId} {session : Option SessionId}
  {sessionId : SessionId} {t : TaskView} {k : Known} {α : Type}

/-- Conformance with the lease kept whenever the program raises. -/
abbrev Keeps (contextId : ContextId) (claim : ClaimId) (p : Program α) (Q : α → Known → Prop)
    (k : Known) : Prop :=
  contract.Conforms p Q (fun k' => k'.holdsLease contextId claim) k

/-! ### Single calls -/

/-- A call after which the worker knows what it knew. -/
lemma conforms_quiet {c : Call} {P : Known → Prop} {Q : c.Reply → Known → Prop}
    (hallow : k.allowed c) (hsame : ∀ r, k.learn c r = k)
    (hQ : ∀ v, possible c (.ok v) → Q v k) (hP : P k) :
    contract.Conforms (perform c) Q P k := by
  refine Contract.conforms_perform hallow (fun v hv => ?_) fun e _ => ?_
  · rw [show contract.learn k c (.ok v) = k from hsame _]
    exact hQ v hv
  · rw [show contract.learn k c (.error e) = k from hsame _]
    exact hP

lemma conforms_hold {taskId : TaskId} {reason : Option HeldReason} {Q : Unit → Known → Prop}
    {P : Known → Prop} (hl : k.holdsLease contextId claim) (hQ : Q () k) (hP : P k) :
    contract.Conforms (hold taskId contextId claim reason) Q P k := by
  refine Contract.Conforms.bind (Q := fun _ => Q ()) ?_ fun _ _ h => Contract.conforms_pure h
  refine conforms_quiet ⟨hl, .inl rfl⟩ (fun r => ?_) (fun _ _ => hQ) hP
  cases r <;> rfl

lemma conforms_pendingGet {key : Option ObjectKey} {Q : Text → Known → Prop} {P : Known → Prop}
    (hQ : ∀ text, Q text k) (hP : P k) : contract.Conforms (pendingGet key) Q P k := by
  cases key with
  | none => exact Contract.conforms_throw hP
  | some key => exact conforms_quiet trivial (fun _ => rfl) (fun text _ => hQ text) hP

lemma conforms_pendingDelete {key : Option ObjectKey} {Q : Unit → Known → Prop}
    {P : Known → Prop} (hQ : Q () k) (hP : P k) :
    contract.Conforms (pendingDelete key) Q P k := by
  cases key with
  | none => exact Contract.conforms_pure hQ
  | some key => exact conforms_quiet trivial (fun _ => rfl) (fun _ _ => hQ) hP

lemma conforms_resolveInput {request : Request} {Q : Unit → Known → Prop} {P : Known → Prop}
    (hl : k.holdsLease contextId claim) (hQ : Q () k) (hP : P k) :
    contract.Conforms (resolveInput request contextId claim) Q P k :=
  conforms_quiet hl (fun _ => rfl) (fun _ _ => hQ) hP

/-- Listing changes what was listed last, and nothing else. -/
lemma conforms_listEvents {P : Known → Prop} {Q : List Event → Known → Prop}
    (hQ : ∀ events, Q events { k with listing := some (sessionId, events) }) (hP : P k) :
    contract.Conforms (perform (.listEvents sessionId)) Q P k :=
  Contract.conforms_perform trivial (fun events _ => hQ events) fun _ _ => hP

lemma conforms_listInputRequests {taskId : TaskId} {P : Known → Prop}
    {Q : List Request → Known → Prop} (hl : k.holdsLease contextId claim)
    (hQ : ∀ requests : List Request, (∀ r ∈ requests, r.taskId = taskId) →
      Q requests { k with rows := requests.filterMap Request.approval?, verdict := none })
    (hP : P k) : contract.Conforms (ask (.listInputRequests taskId)) Q P k :=
  Contract.conforms_perform ⟨contextId, claim, hl⟩ (fun requests h => hQ requests h) fun _ _ => hP

/-- Reading the active task again shows the same columns, or that the lease is gone. -/
lemma conforms_getTask {P : Known → Prop} {Q : Option TaskRow → Known → Prop}
    (h : Serving contextId claim session t k)
    (hQ : ∀ row task lost, (∀ r ∈ row, r.taskId = t.taskId) →
      Serving contextId claim session t { k with task := task, lost := lost } →
      (∀ r, Serving contextId claim session (row.getD r).view
        { k with task := task, lost := lost }) → Q row { k with task := task, lost := lost })
    (hP : P k) : contract.Conforms (ask (.getTask t.taskId)) Q P k := by
  refine Contract.conforms_perform trivial (fun row hid => ?_) fun _ _ => hP
  obtain ⟨hs, hrow⟩ := h.readTask row
  obtain ⟨task, lost, hk, -⟩ := k.readTask_cases t.taskId row
  change Q row (k.readTask t.taskId row)
  rw [hk] at hs hrow ⊢
  refine hQ row task lost (fun r hr => ?_) hs hrow
  cases hr
  exact hid

/-- Reading the context again shows the same columns, or that the lease is gone. -/
lemma conforms_getContext {P : Known → Prop} {Q : Option ContextRow → Known → Prop}
    (h : Serving contextId claim session t k)
    (hQ : ∀ row view lost, (∀ c ∈ row, c.contextId = contextId) →
      Serving contextId claim session t { k with view := view, lost := lost } →
      (∀ c, Serving contextId claim (row.getD c).cmaSessionId t
        { k with view := view, lost := lost }) → Q row { k with view := view, lost := lost })
    (hP : P k) : contract.Conforms (ask (.getContext contextId)) Q P k := by
  refine Contract.conforms_perform ⟨claim, h.lease⟩ (fun row hrow => ?_) fun _ _ => hP
  obtain ⟨hs, hc⟩ := h.readContext row
  obtain ⟨view, lost, hk, -⟩ := k.readContext_cases row
  change Q row (k.readContext row)
  rw [hk] at hs hc ⊢
  refine hQ row view lost (fun c hr => ?_) hs hc
  cases hr
  exact hrow

/-! ### Writes -/

lemma conforms_updateTask {taskId : TaskId} {f : TaskFields} {Q : Unit → Known → Prop}
    (hl : k.holdsLease contextId claim) (hf : f.isHold = false)
    (h : k.lost = true ∨ k.finished = false ∧ ∃ v, k.view = .seen v ∧ k.TaskWrite v taskId f)
    (hQ : Q () (k.wroteTask f)) :
    Keeps contextId claim (updateTask' taskId contextId claim f) Q k := by
  refine Contract.Conforms.bind (Q := fun _ => Q ()) ?_ fun _ _ h => Contract.conforms_pure h
  refine Contract.conforms_perform ⟨hl, .inr h⟩ (fun row _ => ?_) fun e _ => ?_
  · simpa [contract, learn, learnQuery, hf] using hQ
  · simpa [contract, learn, learnQuery, hf, forget, holdsLease] using hl

lemma conforms_updateContext {f : ContextFields} {Q : Unit → Known → Prop}
    (hl : k.holdsLease contextId claim)
    (h : k.lost = true ∨ ∃ v, k.view = .seen v ∧ k.ContextWrite v f)
    (hQ : Q () (k.wroteContext f)) :
    Keeps contextId claim (updateContext' contextId claim f) Q k := by
  refine Contract.Conforms.bind (Q := fun _ => Q ()) ?_ fun _ _ h => Contract.conforms_pure h
  exact Contract.conforms_perform ⟨hl, h⟩ (fun row _ => hQ) fun e _ => hl

/-- The two writes of a finish: the second one is allowed because the first one was made. -/
lemma conforms_finish {taskId : TaskId} {state : A2aState} {e : Option EventId}
    (hl : k.holdsLease contextId claim)
    (h : k.lost = true ∨ k.finished = false ∧ ∃ v, k.view = .seen v ∧
      k.TaskWrite v taskId (finishFields state e) ∧
      (v.cmaSessionId.isSome = true ∨ v.lifecycleState = .failed)) :
    Keeps contextId claim (finish contextId taskId claim state e)
      (fun _ k' => k'.holdsLease contextId claim) k := by
  have hwrite : k.lost = true ∨ k.finished = false ∧ ∃ v, k.view = .seen v ∧
      k.TaskWrite v taskId (finishFields state e) := by
    refine h.imp_right ?_
    rintro ⟨hfin, v, hv, hw, -⟩
    exact ⟨hfin, v, hv, hw⟩
  refine Contract.Conforms.bind
    (conforms_updateTask (Q := fun _ k' => k' = k.wroteTask (finishFields state e)) hl rfl
      hwrite rfl)
    ?_
  rintro _ _ rfl
  refine conforms_updateContext hl ?_ (by simpa using hl)
  refine h.imp_right ?_
  rintro ⟨-, v, hv, -, hstarted⟩
  exact ⟨v, hv, .clear (by simp [Known.wroteTask, finishFields]) hstarted⟩

lemma conforms_finishServing {state : A2aState} {e : Option EventId}
    (h : Serving contextId claim (some sessionId) t k) (hfinal : state.isFinal = true)
    (hend : ∀ v, k.view = .seen v → v.cmaSessionId = some sessionId → k.task = some t →
      k.Ends v t e) :
    Keeps contextId claim (finish contextId t.taskId claim state e)
      (fun _ k' => k'.holdsLease contextId claim) k := by
  refine conforms_finish h.lease (h.live.imp_right ?_)
  rintro ⟨hfin, htask, v, hv, hactive, hsession⟩
  exact ⟨hfin, v, hv, .finish hactive htask hfinal (hend v hv hsession htask),
    .inl (by rw [hsession]; rfl)⟩

lemma conforms_finishFailed {e : Option EventId} (h : Serving contextId claim session t k) :
    Keeps contextId claim (finishFailed contextId t.taskId claim e)
      (fun _ k' => k'.holdsLease contextId claim) k := by
  refine Contract.Conforms.bind
    (conforms_updateContext
      (Q := fun _ k' => k' = k.wroteContext { lifecycleState := some .failed })
      h.lease ?_ rfl) ?_
  · refine h.live.imp_right ?_
    rintro ⟨-, -, v, hv, hactive, -⟩
    exact ⟨v, hv, .failed (by rw [hactive]; rfl)⟩
  · rintro _ _ rfl
    refine conforms_finish (by simpa using h.lease) ?_
    rcases h.live with hlost | ⟨hfin, htask, v, hv, hactive, -⟩
    · exact .inl (by simpa using hlost)
    · rw [wroteContext_seen hv rfl]
      exact .inr ⟨hfin, _, rfl, .finish hactive htask rfl (.failed rfl), .inr rfl⟩

lemma conforms_bindInput {task : TaskRow} {eventId : EventId} {Q : Unit → Known → Prop}
    (h : Serving contextId claim (some sessionId) task.view k)
    (hnew : task.cmaInputEventId = none)
    (hevent : k.sent = some eventId ∨ ∃ events, k.listing = some (sessionId, events) ∧
      (bindCandidate task events).bind (·.id) = some eventId)
    (hQ : Serving contextId claim (some sessionId) (task.view.set (bindFields eventId))
      (k.wroteTask (bindFields eventId)) → Q () (k.wroteTask (bindFields eventId))) :
    Keeps contextId claim (bindInput task contextId claim eventId) Q k := by
  have hs := h.wroteTask (f := bindFields eventId) (by simp [bindFields])
  refine Contract.Conforms.bind
    (conforms_updateTask (Q := fun _ k' => k' = k.wroteTask (bindFields eventId)) h.lease rfl
      ?_ rfl)
    ?_
  · refine h.live.imp_right ?_
    rintro ⟨hfin, htask, v, hv, hactive, hsession⟩
    exact ⟨hfin, v, hv, .bind hactive hsession htask hnew hevent⟩
  · rintro _ _ rfl
    refine Contract.Conforms.tryCatch (H := Q ()) ?_ fun e k' hk' => Contract.conforms_pure hk'
    exact conforms_pendingDelete (hQ hs) (hQ hs)

/-! ### Confirmations -/

/-- The worker serves the task and has just listed these approvals. -/
def Listed (contextId : ContextId) (claim : ClaimId) (sessionId : SessionId) (t : TaskView)
    (rows : List ApprovalRow) (k : Known) : Prop :=
  Serving contextId claim (some sessionId) t k ∧ k.rows = rows

/-- A loop body goes on with `P`, or ends the method. -/
def Continues (contextId : ContextId) (claim : ClaimId) (P : Known → Prop) :
    Option α → Known → Prop
  | none, k => P k
  | some _, k => k.holdsLease contextId claim

variable {rows : List ApprovalRow}

/-- What the worker knows after a try block that sent something. -/
def AfterSend (contextId : ContextId) (claim : ClaimId) (P : Known → Prop) : Sent → Known → Prop
  | .finished, k => k.holdsLease contextId claim
  | _, k => P k

/-- The handler of a failed send: finish the task, or hold it and look whether it arrived. -/
lemma conforms_sendFailed {settled : List Event → Bool} {e : Exn}
    (h : Listed contextId claim sessionId t rows k) :
    Keeps contextId claim
      (match e with
        | .definitiveProvider => do
          finishFailed contextId t.taskId claim none
          pure .finished
        | _ => do
          hold t.taskId contextId claim (some .ambiguousConfirmation)
          let refreshed ← perform (.listEvents sessionId)
          pure (if settled refreshed then Sent.settled else .unsettled))
      (AfterSend contextId claim (Listed contextId claim sessionId t rows)) k := by
  have hheld : Keeps contextId claim (do
      hold t.taskId contextId claim (some .ambiguousConfirmation)
      let refreshed ← perform (.listEvents sessionId)
      pure (if settled refreshed then Sent.settled else .unsettled))
      (AfterSend contextId claim (Listed contextId claim sessionId t rows)) k := by
    refine .bind_same (conforms_hold h.1.lease rfl h.1.lease) fun _ => ?_
    refine .bind (Q := fun _ => Listed contextId claim sessionId t rows)
      (conforms_listEvents (fun events => ⟨⟨h.1.lease, h.1.live⟩, h.2⟩) h.1.lease) ?_
    intro refreshed k' hk'
    refine Contract.conforms_pure ?_
    split <;> exact hk'
  split
  · exact Contract.Conforms.bind (conforms_finishFailed h.1) fun _ _ h => Contract.conforms_pure h
  · exact hheld

lemma conforms_reconcileClarification {task : TaskRow} {events : List Event}
    {row : ClarificationRow} (h : Listed contextId claim sessionId task.view rows k) :
    Keeps contextId claim (reconcileClarification contextId task claim sessionId events row)
      (Continues contextId claim (Listed contextId claim sessionId task.view rows)) k := by
  have hresolve : ∀ k', Listed contextId claim sessionId task.view rows k' →
      Keeps contextId claim (do
        resolveInput (.clarification row) contextId claim
        pendingDelete row.answerObjectKey
        pure (none : Option Unit))
        (Continues contextId claim (Listed contextId claim sessionId task.view rows)) k' := by
    intro k' h'
    refine .bind_same (conforms_resolveInput h'.1.lease rfl h'.1.lease) fun _ => ?_
    refine .bind_same (conforms_pendingDelete rfl h'.1.lease) fun _ => ?_
    exact Contract.conforms_pure h'
  unfold reconcileClarification
  split
  · exact hresolve k h
  split
  · exact .bind_same (conforms_hold h.1.lease rfl h.1.lease) fun _ => Contract.conforms_pure h
  refine .bind_same (conforms_quiet h.1.lease (fun _ => rfl) (fun _ _ => rfl) h.1.lease)
    fun marked => ?_
  split
  · exact Contract.conforms_pure h
  refine .bind (Q := AfterSend contextId claim (Listed contextId claim sessionId task.view rows))
    (.tryCatch (H := Listed contextId claim sessionId task.view rows) ?_
      fun e k' hk' => conforms_sendFailed hk') ?_
  · refine .bind_same (conforms_pendingGet (fun _ => rfl) h) fun answer => ?_
    refine .bind_same (conforms_quiet trivial (fun _ => rfl) (fun _ _ => rfl) h) fun _ => ?_
    exact Contract.conforms_pure h
  · intro sent k' hk'
    cases sent with
    | settled => exact hresolve k' hk'
    | unsettled => exact Contract.conforms_pure hk'
    | finished => exact Contract.conforms_pure hk'

lemma conforms_confirmationReason {task : TaskRow} {row : ApprovalRow} {decision : Ruling}
    {P : Known → Prop} (hP : P k) :
    contract.Conforms (confirmationReason task row decision) (fun _ k' => k' = k) P k := by
  unfold confirmationReason
  split
  · exact .map (Q := fun _ k' => k' = k)
      (conforms_quiet trivial (fun _ => rfl) (fun _ _ => rfl) hP) fun _ _ h => h
  · exact Contract.conforms_pure rfl

lemma conforms_reconcileApproval {task : TaskRow} {events : List Event} {row : ApprovalRow}
    (h : Listed contextId claim sessionId task.view rows k) (hrow : row ∈ rows)
    (htask : row.taskId = task.taskId) (hstatus : row.status = .resolving) :
    Keeps contextId claim (reconcileApproval contextId task claim sessionId events row)
      (Continues contextId claim (Listed contextId claim sessionId task.view rows)) k := by
  unfold reconcileApproval
  split
  · exact .bind_same (conforms_resolveInput h.1.lease rfl h.1.lease)
      fun _ => Contract.conforms_pure h
  split
  · split
    · exact .bind_same (conforms_hold h.1.lease rfl h.1.lease) fun _ => Contract.conforms_pure h
    · exact Contract.conforms_pure h
  split
  · exact .bind_same (conforms_hold h.1.lease rfl h.1.lease) fun _ => Contract.conforms_pure h
  rename_i decision hdecision
  -- a successful mark permits one confirmation of the row
  refine .bind (Q := fun marked k' => Listed contextId claim sessionId task.view rows k' ∧
    (marked = true → k'.permit = some (.confirm row.requestId))) ?_ ?_
  · refine Contract.conforms_perform h.1.lease (fun marked _ => ?_) fun _ _ => h.1.lease
    cases marked with
    | true => exact ⟨⟨⟨h.1.lease, h.1.live⟩, h.2⟩, fun _ => rfl⟩
    | false => exact ⟨h, fun hm => by cases hm⟩
  rintro marked k' ⟨h', hpermit⟩
  cases marked with
  | false => exact Contract.conforms_pure h'
  | true =>
    refine .bind (Q := AfterSend contextId claim (Listed contextId claim sessionId task.view rows))
      (.tryCatch (H := Listed contextId claim sessionId task.view rows) ?_
        fun e k' hk' => conforms_sendFailed hk') ?_
    · refine .bind_same (conforms_confirmationReason h') fun reason => ?_
      have hallow : k'.allowed (.confirmTool task.taskId sessionId row.cmaEventId
          (decision == .allow) reason) :=
        ⟨row, h'.2 ▸ hrow, hpermit rfl, htask, rfl, hstatus, decision, hdecision, rfl⟩
      have hlisted : Listed contextId claim sessionId task.view rows { k' with permit := none } :=
        ⟨⟨h'.1.lease, h'.1.live⟩, h'.2⟩
      refine .bind (Q := fun _ => Listed contextId claim sessionId task.view rows)
        (Contract.conforms_perform hallow (fun _ _ => hlisted) fun _ _ => hlisted) ?_
      exact fun _ _ h => Contract.conforms_pure h
    · intro sent k' hk'
      cases sent with
      | settled =>
        exact .bind_same (conforms_resolveInput hk'.1.lease rfl hk'.1.lease)
          fun _ => Contract.conforms_pure hk'
      | unsettled => exact Contract.conforms_pure hk'
      | finished => exact Contract.conforms_pure hk'

/-- Sending what was decided: the task is still served unless it was finished. -/
lemma conforms_reconcileConfirmations {task : TaskRow} {events : List Event}
    (h : Serving contextId claim (some sessionId) task.view k) :
    Keeps contextId claim (reconcileConfirmations contextId task claim sessionId events)
      (fun finished k' => k'.holdsLease contextId claim ∧
        (finished = false → Serving contextId claim (some sessionId) task.view k')) k := by
  unfold reconcileConfirmations
  refine .bind (Q := fun requests k' => (∀ r ∈ requests, r.taskId = task.taskId) ∧
    Listed contextId claim sessionId task.view (requests.filterMap Request.approval?) k')
    (conforms_listInputRequests h.lease (fun requests hr => ⟨hr, ⟨⟨h.lease, h.live⟩, rfl⟩⟩)
      h.lease) ?_
  rintro requests k' ⟨htask, h'⟩
  refine .bind (Q := Continues contextId claim
    (Listed contextId claim sessionId task.view (requests.filterMap Request.approval?)))
    (Contract.conforms_loop h' fun request hmem k'' h'' => ?_) ?_
  · unfold reconcileRequest
    split
    · exact Contract.conforms_pure h''
    rename_i hstatus
    cases request with
    | clarification row => exact conforms_reconcileClarification h''
    | approval row =>
      refine conforms_reconcileApproval h'' (List.mem_filterMap.mpr ⟨_, hmem, rfl⟩)
        (htask _ hmem) ?_
      simpa [Request.status] using hstatus
  · intro o k'' h''
    cases o with
    | some _ => exact Contract.conforms_pure ⟨h'', fun h => by cases h⟩
    | none =>
      have hserving : ∀ k₁, Serving contextId claim (some sessionId) task.view k₁ →
          k₁.holdsLease contextId claim ∧ (false = false →
            Serving contextId claim (some sessionId) task.view k₁) :=
        fun _ h => ⟨h.lease, fun _ => h⟩
      refine .bind (Q := fun _ => Serving contextId claim (some sessionId) task.view)
        (conforms_getTask h''.1 (fun _ _ _ _ hs _ => hs) h''.1.lease) fun row k₁ h₁ => ?_
      refine .bind (Q := fun _ => Serving contextId claim (some sessionId) task.view)
        (conforms_listInputRequests h₁.lease (fun _ _ => ⟨h₁.lease, h₁.live⟩) h₁.lease)
          fun rs k₂ h₂ => ?_
      split
      · exact .bind_same (conforms_hold h₂.lease rfl h₂.lease)
          fun _ => Contract.conforms_pure (hserving _ h₂)
      · exact Contract.conforms_pure (hserving _ h₂)

/-! ### Policy -/

/-- Conformance with what was listed kept on every way out. -/
abbrev KeepsListed (contextId : ContextId) (claim : ClaimId) (sessionId : SessionId) (t : TaskView)
    (rows : List ApprovalRow) (p : Program α) (Q : α → Known → Prop) (k : Known) : Prop :=
  contract.Conforms p Q (Listed contextId claim sessionId t rows) k

lemma conforms_withdrawReview {row : ApprovalRow} {taskId : TaskId}
    (h : Listed contextId claim sessionId t rows k) :
    KeepsListed contextId claim sessionId t rows (withdrawReview contextId taskId claim row)
      (fun _ => Listed contextId claim sessionId t rows) k :=
  conforms_quiet h.1.lease (fun _ => rfl) (fun _ _ => h) h

lemma conforms_publishReview {row : ApprovalRow} {taskId : TaskId} {review : Option HumanReview}
    (h : Listed contextId claim sessionId t rows k) :
    KeepsListed contextId claim sessionId t rows
      (publishReview contextId taskId claim row review)
      (fun _ => Listed contextId claim sessionId t rows) k := by
  unfold publishReview
  split
  · exact Contract.conforms_throw h
  split
  · refine .bind_same (conforms_quiet trivial (fun _ => rfl) (fun _ _ => rfl) h) fun key => ?_
    refine .bind_same (conforms_quiet trivial (fun _ => rfl) (fun _ _ => rfl) h) fun _ => ?_
    refine .bind_same (conforms_quiet h.1.lease (fun _ => rfl) (fun _ _ => rfl) h) fun _ => ?_
    exact conforms_hold h.1.lease h h
  · exact conforms_hold h.1.lease h h

lemma conforms_publishDecision {row : ApprovalRow} {taskId : TaskId} {decision : Ruling}
    (h : Listed contextId claim sessionId t rows k)
    (hmay : k.MayDecide contextId taskId row.requestId decision) :
    KeepsListed contextId claim sessionId t rows
      (publishDecision contextId taskId claim row decision)
      (fun _ => Listed contextId claim sessionId t rows) k := by
  refine .bind_same (.tryCatch (H := fun k' => k' = k) ?_ ?_)
    fun _ => conforms_hold h.1.lease h h
  · exact conforms_quiet ⟨h.1.lease, hmay⟩ (fun _ => rfl) (fun _ _ => rfl) rfl
  · rintro e k' rfl
    split <;> exact Contract.conforms_throw h

/-- The request is about the invocation it was made for. -/
lemma toolPolicyRequest_spec {rootId : ContextId} {agentId : String} {invocationId : EventId}
    {source : Option Event} {request : ToolPolicyRequest}
    (h : toolPolicyRequest rootId agentId invocationId source = .ok request) :
    request.rootId = rootId ∧ request.invocationId = invocationId ∧ request.agentId = agentId := by
  unfold toolPolicyRequest at h
  dsimp only at h
  repeat' split at h
  all_goals first | (cases h; exact ⟨rfl, rfl, rfl⟩) | cases h

lemma conforms_resolveToolCall {request : ToolPolicyRequest} {resolution : PolicyResolution}
    (h : Listed contextId claim sessionId t rows k) :
    KeepsListed contextId claim sessionId t rows (resolveToolCall request resolution)
      (fun result k' => Listed contextId claim sessionId t rows k' ∧
        k'.verdict = some ⟨request, some resolution, result⟩ ∧
        (resolution.ruling = .deny → result.decision = .deny)) k := by
  refine .bind (Q := fun result k' => Listed contextId claim sessionId t rows k' ∧
    k'.verdict = some ⟨request, some resolution, result⟩) ?_ ?_
  · exact Contract.conforms_perform trivial
      (fun result _ => ⟨⟨⟨h.1.lease, h.1.live⟩, h.2⟩, rfl⟩)
      fun _ _ => ⟨⟨h.1.lease, h.1.live⟩, h.2⟩
  · rintro result k' ⟨h', hverdict⟩
    split
    · exact Contract.conforms_throw h'
    · rename_i hvalid
      exact Contract.conforms_pure ⟨h', hverdict, by grind⟩

/-- What an answer of the engine rests on: no ruling, or the one on the row's offer. -/
def Rests (row : ApprovalRow) (request : ToolPolicyRequest) (decision : ToolPolicyDecision)
    (k : Known) : Prop :=
  ∃ resolution, k.verdict = some ⟨request, resolution, decision⟩ ∧
    (row.humanRuling = none ∧ resolution = none ∨ ∃ ruling, row.humanRuling = some ruling ∧
      resolution = some ⟨row.reviewDigest, row.reviewAuthority, ruling⟩ ∧
      (ruling = .deny → decision.decision = .deny))

lemma conforms_consult {request : ToolPolicyRequest} {row : ApprovalRow}
    (h : Listed contextId claim sessionId t rows k) :
    KeepsListed contextId claim sessionId t rows (consult request row)
      (fun decision k' => Listed contextId claim sessionId t rows k' ∧
        Rests row request decision k') k := by
  unfold consult
  split
  · rename_i ruling hruling
    refine (conforms_resolveToolCall h).mono ?_ fun _ h => h
    rintro result k' ⟨h', hverdict, hdeny⟩
    exact ⟨h', _, hverdict, .inr ⟨ruling, hruling, rfl, hdeny⟩⟩
  · rename_i hruling
    exact Contract.conforms_perform trivial
      (fun decision _ => ⟨⟨⟨h.1.lease, h.1.live⟩, h.2⟩, none, rfl, .inl ⟨hruling, rfl⟩⟩)
      fun _ _ => ⟨⟨h.1.lease, h.1.live⟩, h.2⟩

lemma conforms_judge {cfg : Config} {source : Option Event} {row : ApprovalRow} {taskId : TaskId}
    (h : Listed contextId claim sessionId t rows k) (hrow : row ∈ rows)
    (htask : row.taskId = taskId) :
    KeepsListed contextId claim sessionId t rows (judge cfg contextId taskId claim source row)
      (fun _ => Listed contextId claim sessionId t rows) k := by
  unfold judge
  split
  · exact Contract.conforms_throw h
  split
  · exact Contract.conforms_throw h
  rename_i request hrequest
  obtain ⟨hroot, hinvocation, -⟩ := toolPolicyRequest_spec hrequest
  refine .bind (conforms_consult h) ?_
  rintro decision k' ⟨h', resolution, hverdict, hrests⟩
  split
  · exact conforms_publishReview h'
  split
  · exact conforms_withdrawReview h'
  rename_i answer hreview hoffer
  refine conforms_publishDecision h' ⟨row, h'.2 ▸ hrow, rfl, htask, _, hverdict, hroot, hinvocation,
    fun hallow => ?_, hrests.imp_left ?_⟩
  · simpa using hallow
  · rintro ⟨hruling, rfl⟩
    exact ⟨rfl, by simpa [hruling] using hoffer⟩

lemma conforms_judgeFailed {row : ApprovalRow} {taskId : TaskId} {code : PolicyCode}
    (h : Listed contextId claim sessionId t rows k) :
    KeepsListed contextId claim sessionId t rows
      (judgeFailed contextId taskId claim row code)
      (fun _ => Listed contextId claim sessionId t rows) k := by
  unfold judgeFailed
  split
  · exact .bind (conforms_withdrawReview h) fun _ _ h' => conforms_hold h'.1.lease h' h'
  · exact conforms_hold h.1.lease h h

/-- Between two rows the list stands; a result leaves the task served. -/
def Evaluated (contextId : ContextId) (claim : ClaimId) (sessionId : SessionId) (t : TaskView)
    (rows : List ApprovalRow) : Option Bool → Known → Prop
  | none, k => Listed contextId claim sessionId t rows k
  | some _, k => Serving contextId claim (some sessionId) t k

lemma conforms_evaluateRow {cfg : Config} {events : List Event} {request : Request}
    (h : Listed contextId claim sessionId t rows k)
    (hrow : ∀ row, request = .approval row → row ∈ rows ∧ row.taskId = t.taskId) :
    Keeps contextId claim (evaluateRow cfg contextId t.taskId claim events request)
      (Evaluated contextId claim sessionId t rows) k := by
  cases request with
  | clarification row => exact Contract.conforms_pure h
  | approval row =>
    obtain ⟨hmem, htask⟩ := hrow row rfl
    unfold evaluateRow
    dsimp only
    split
    · exact Contract.conforms_pure h
    refine .bind (Q := fun _ => Listed contextId claim sessionId t rows)
      (conforms_getContext h.1 (fun _ _ _ _ hs _ => ⟨hs, h.2⟩) h.1.lease) fun current k₁ h₁ => ?_
    split
    · exact Contract.conforms_pure h₁.1
    refine .bind (Q := fun _ => Listed contextId claim sessionId t rows)
      (conforms_getTask h₁.1 (fun _ _ _ _ hs _ => ⟨hs, h₁.2⟩) h₁.1.lease) fun task k₂ h₂ => ?_
    split
    · exact Contract.conforms_pure h₂.1
    split
    · exact Contract.conforms_pure h₂.1
    refine .bind_same (conforms_quiet trivial (fun _ => rfl) (fun _ _ => rfl) h₂.1.lease)
      fun now => ?_
    split
    · exact Contract.conforms_throw h₂.1.lease
    split
    · exact Contract.conforms_pure h₂.1
    refine .tryCatch (H := Listed contextId claim sessionId t rows) ?_ fun e k₃ h₃ => ?_
    · exact .bind (conforms_judge h₂ hmem htask) fun _ _ h₃ => Contract.conforms_pure h₃
    · split
      · exact Contract.conforms_throw h₃.1.lease
      · exact .bind ((conforms_judgeFailed h₃).mono (fun _ _ h => h) fun _ h => h.1.lease)
          fun _ _ h₄ => Contract.conforms_pure h₄.1

lemma conforms_evaluatePolicy {cfg : Config} {events : List Event}
    (h : Serving contextId claim (some sessionId) t k) :
    Keeps contextId claim (evaluatePolicy cfg contextId t.taskId claim events)
      (fun _ => Serving contextId claim (some sessionId) t) k := by
  refine .bind (Q := fun requests k' => (∀ r ∈ requests, r.taskId = t.taskId) ∧
    Listed contextId claim sessionId t (requests.filterMap Request.approval?) k')
    (conforms_listInputRequests h.lease (fun requests hr => ⟨hr, ⟨⟨h.lease, h.live⟩, rfl⟩⟩)
      h.lease) ?_
  rintro requests k' ⟨htask, h'⟩
  refine .bind (Q := Evaluated contextId claim sessionId t (requests.filterMap Request.approval?))
    (Contract.conforms_loop h' fun request hmem k'' h'' => conforms_evaluateRow h'' ?_) ?_
  · rintro row rfl
    have hmem' : Request.approval row ∈ requests :=
      (List.perm_insertionSort _ requests).mem_iff.mp hmem
    exact ⟨List.mem_filterMap.mpr ⟨_, hmem', rfl⟩, htask _ hmem'⟩
  · intro o k'' h''
    cases o with
    | none => exact Contract.conforms_pure h''.1
    | some _ => exact Contract.conforms_pure h''

lemma conforms_setWaitingState (h : Serving contextId claim session t k) :
    Keeps contextId claim (setWaitingState contextId t.taskId claim)
      (fun _ k' => k'.holdsLease contextId claim) k := by
  refine .bind (Q := fun _ => Serving contextId claim session t)
    (conforms_listInputRequests h.lease (fun _ _ => ⟨h.lease, h.live⟩) h.lease)
      fun requests k' h' => ?_
  refine conforms_updateTask h'.lease rfl (h'.live.imp_right ?_) (by simpa using h'.lease)
  rintro ⟨hfin, -, v, hv, hactive, -⟩
  exact ⟨hfin, v, hv, .status _ hactive⟩

lemma conforms_reviewAndWait {cfg : Config} {task : TaskRow} {events : List Event}
    (h : Serving contextId claim (some sessionId) task.view k) :
    Keeps contextId claim (reviewAndWait cfg contextId task claim sessionId events)
      (fun _ k' => k'.holdsLease contextId claim) k := by
  refine .bind (conforms_evaluatePolicy h) fun judged k₁ h₁ => ?_
  split
  · exact conforms_setWaitingState h₁
  refine .bind (Q := fun row k' => (row.getD task).taskId = task.taskId ∧
    Serving contextId claim (some sessionId) (row.getD task).view k')
    (conforms_getTask h₁ (fun row _ _ hid _ hrow => ⟨?_, hrow task⟩) h₁.lease) ?_
  · cases row with
    | none => rfl
    | some r => exact hid r rfl
  rintro row k₂ ⟨hid, h₂⟩
  dsimp only
  split
  · refine .bind (conforms_reconcileConfirmations h₂) ?_
    rintro finished k₃ ⟨hl, h₃⟩
    cases finished with
    | true => exact Contract.conforms_pure hl
    | false => exact hid ▸ conforms_setWaitingState (h₃ rfl)
  · exact Contract.conforms_pure h₂.lease

/-! ### The active task -/

lemma conforms_addRequests {taskId : TaskId} {ids : List EventId} {events : List Event}
    {Q : Unit → Known → Prop} (hl : k.holdsLease contextId claim) (hQ : Q () k) :
    Keeps contextId claim (addRequests contextId taskId claim ids events) Q k := by
  induction events with
  | nil => exact Contract.conforms_pure hQ
  | cons source rest ih =>
    unfold addRequests
    split
    · exact ih
    rename_i eventId _
    split
    · split
      · exact .bind_same (conforms_quiet ⟨hl, rfl⟩ (fun _ => rfl) (fun _ _ => rfl) hl) fun _ => ih
      split
      · exact .bind_same (conforms_quiet ⟨hl, rfl⟩ (fun _ => rfl) (fun _ _ => rfl) hl) fun _ => ih
      · exact ih
    · exact ih

lemma latestStatus_mem {events : List Event} {status : Event}
    (h : latestStatus events = some status) : status ∈ events :=
  List.mem_reverse.mp (List.mem_of_find?_eq_some h)

/-- A status that ends the task lies after its input. -/
lemma ends_of_mem {task : TaskRow} {events : List Event} {status : Event} {v : ContextView}
    (hlisting : k.listing = some (sessionId, events)) (hsession : v.cmaSessionId = some sessionId)
    (h : status ∈ sinceInput task events) : k.Ends v task.view status.id := by
  unfold sinceInput at h
  split at h
  · rename_i input hinput
    exact .event hsession hlisting hinput h
  · cases h

lemma conforms_reconcileStatus {cfg : Config} {task : TaskRow}
    (h : Serving contextId claim (some sessionId) task.view k) :
    Keeps contextId claim (reconcileStatus cfg contextId task claim sessionId)
      (fun _ k' => k'.holdsLease contextId claim) k := by
  refine .bind (Q := fun events k' => Serving contextId claim (some sessionId) task.view k' ∧
    k'.listing = some (sessionId, events))
    (conforms_listEvents (fun events => ⟨⟨h.lease, h.live⟩, rfl⟩) h.lease) ?_
  rintro events k₁ ⟨h₁, hlisting⟩
  split
  · exact Contract.conforms_pure h₁.lease
  rename_i status hstatus
  have hmem := latestStatus_mem hstatus
  refine .bind (Q := fun _ k' => Serving contextId claim (some sessionId) task.view k' ∧
    k'.listing = some (sessionId, events))
    (conforms_listInputRequests h₁.lease (fun _ _ => ⟨⟨h₁.lease, h₁.live⟩, hlisting⟩) h₁.lease) ?_
  rintro requests k₂ ⟨h₂, hlisting⟩
  dsimp only
  split
  · exact conforms_reviewAndWait h₂
  split
  · exact conforms_finishFailed h₂
  · exact conforms_finishFailed h₂
  · split
    · exact .bind_same (conforms_addRequests h₂.lease rfl) fun _ => conforms_reviewAndWait h₂
    · exact conforms_finishServing h₂ rfl fun v _ hsession _ => ends_of_mem hlisting hsession hmem
    · exact conforms_finishFailed h₂
    · exact Contract.conforms_pure h₂.lease
  · refine conforms_updateTask h₂.lease rfl (h₂.live.imp_right ?_) (by simpa using h₂.lease)
    rintro ⟨hfin, -, v, hv, hactive, -⟩
    exact ⟨hfin, v, hv, .status false hactive⟩
  · exact Contract.conforms_pure h₂.lease

lemma conforms_cancelRequest {taskId : TaskId} {request : Request}
    (h : Serving contextId claim session t k) :
    Keeps contextId claim (cancelRequest contextId taskId claim request)
      (fun _ => Serving contextId claim session t) k := by
  unfold cancelRequest
  split
  · split
    · refine .bind_same (conforms_quiet trivial (fun _ => rfl) (fun _ _ => rfl) h.lease)
        fun key => ?_
      refine .bind_same (conforms_quiet trivial (fun _ => rfl) (fun _ _ => rfl) h.lease)
        fun _ => ?_
      refine .bind_same (conforms_quiet trivial (fun _ => rfl) (fun _ _ => rfl) h.lease)
        fun decided => ?_
      split
      · exact .bind_same (conforms_quiet trivial (fun _ => rfl) (fun _ _ => rfl) h.lease)
          fun _ => Contract.conforms_pure h
      · exact Contract.conforms_pure h
    · exact Contract.conforms_pure h
  · split
    · refine .bind (Q := fun _ => Serving contextId claim session t)
        (Contract.conforms_perform h.lease (fun _ _ => ⟨h.lease, h.live⟩) fun _ _ => h.lease) ?_
      exact fun _ _ h' => Contract.conforms_pure h'
    · exact Contract.conforms_pure h

lemma conforms_sendInterrupt {task : TaskRow} (h : Serving contextId claim session task.view k) :
    Keeps contextId claim (sendInterrupt contextId task claim sessionId)
      (fun _ k' => k'.holdsLease contextId claim) k := by
  unfold sendInterrupt
  split
  · split
    · exact conforms_hold h.lease h.lease h.lease
    · exact Contract.conforms_pure h.lease
  refine .bind_same (conforms_quiet trivial (fun _ => rfl) (fun _ _ => rfl) h.lease) fun now => ?_
  refine .bind (Q := fun _ => Serving contextId claim session task.view) ?_ fun _ k₁ h₁ => ?_
  · refine conforms_updateTask h.lease rfl (h.live.imp_right ?_) ?_
    · rintro ⟨hfin, -, v, hv, hactive, -⟩
      exact ⟨hfin, v, hv, .interrupting hactive⟩
    · exact h.wroteTask
        (f := { cancelAttemptedAt := some (some now), internalState := some .interrupting })
        (by simp)
  · refine .tryCatch (H := Serving contextId claim session task.view)
      (conforms_quiet trivial (fun _ => rfl) (fun _ _ => h₁.lease) h₁) fun e k₂ h₂ => ?_
    split
    · exact conforms_finishFailed h₂
    · exact conforms_hold h₂.lease h₂.lease h₂.lease

lemma sinceInterrupt_mem {events rest : List Event} {e : Event}
    (h : sinceInterrupt events = some rest) (he : e ∈ rest) : e ∈ events := by
  unfold sinceInterrupt at h
  split at h
  · cases h
  · rename_i _ rest' hdrop
    cases h
    exact (List.dropWhile_sublist _).mem (hdrop ▸ List.mem_cons_of_mem _ he)

lemma conforms_reconcileCancel {task : TaskRow} {events : List Event}
    (h : Serving contextId claim (some sessionId) task.view k)
    (hlisting : k.listing = some (sessionId, events)) :
    Keeps contextId claim (reconcileCancel contextId task claim sessionId events)
      (fun _ k' => k'.holdsLease contextId claim) k := by
  unfold reconcileCancel
  dsimp only
  split
  · exact conforms_sendInterrupt h
  rename_i idle hidle
  obtain ⟨rest, hrest, hlatest⟩ := Option.bind_eq_some_iff.mp hidle
  have hmem := sinceInterrupt_mem hrest (latestStatus_mem hlatest)
  split
  · exact conforms_finishServing h rfl fun v _ hsession _ => ends_of_mem hlisting hsession hmem
  split
  · refine .bind (Q := fun _ => Serving contextId claim (some sessionId) task.view)
      (conforms_listInputRequests h.lease (fun _ _ => ⟨h.lease, h.live⟩) h.lease)
        fun requests k₁ h₁ => ?_
    refine .bind (Q := fun _ => Serving contextId claim (some sessionId) task.view)
      (Contract.conforms_loop h₁ fun request _ _ h' => conforms_cancelRequest h') fun _ k₂ h₂ => ?_
    exact .bind (conforms_reconcileConfirmations h₂) fun _ _ h₃ => Contract.conforms_pure h₃.1
  · exact conforms_sendInterrupt h

lemma conforms_activeSession {context : ContextRow}
    (h : Serving context.contextId claim context.cmaSessionId t k) :
    Keeps context.contextId claim (activeSession context t.taskId claim)
      (fun found k' => k'.holdsLease context.contextId claim ∧ ∀ sessionId ∈ found,
        Serving context.contextId claim (some sessionId) t k') k := by
  unfold activeSession
  split
  · rename_i sessionId hsession
    refine Contract.conforms_pure ⟨h.lease, fun s hs => ?_⟩
    cases hs
    exact hsession ▸ h
  rename_i hsession
  rw [hsession] at h
  refine .bind_same (conforms_quiet trivial (fun _ => rfl) (fun _ _ => rfl) h.lease)
    fun found => ?_
  split
  · exact .bind_same (conforms_hold h.lease rfl h.lease)
      fun _ => Contract.conforms_pure ⟨h.lease, fun s hs => by cases hs⟩
  · rename_i recovered
    refine .bind (Q := fun _ => Serving context.contextId claim (some recovered) t) ?_ ?_
    · refine conforms_updateContext h.lease (h.live.imp_right ?_) (h.wroteContext rfl rfl)
      rintro ⟨-, -, v, hv, hactive, hnone⟩
      exact ⟨v, hv, .session recovered hnone (by rw [hactive]; rfl)⟩
    · intro _ k' h'
      refine Contract.conforms_pure ⟨h'.lease, fun s hs => ?_⟩
      cases hs
      exact h'

lemma conforms_ensureBound {task : TaskRow} {events : List Event}
    (h : Serving contextId claim (some sessionId) task.view k)
    (hlisting : k.listing = some (sessionId, events)) :
    Keeps contextId claim (ensureBound contextId task claim events)
      (fun bound k' => k'.holdsLease contextId claim ∧ ∀ task' ∈ bound,
        Serving contextId claim (some sessionId) task'.view k' ∧
          k'.listing = some (sessionId, events)) k := by
  unfold ensureBound
  split
  · refine Contract.conforms_pure ⟨h.lease, fun task' ht => ?_⟩
    cases ht
    exact ⟨h, hlisting⟩
  rename_i hnew
  split
  · exact .bind_same (conforms_hold h.lease rfl h.lease)
      fun _ => Contract.conforms_pure ⟨h.lease, fun task' ht => by cases ht⟩
  rename_i candidate hcandidate
  split
  · exact Contract.conforms_throw h.lease
  rename_i eventId hid
  refine .bind (Q := fun _ k' => Serving contextId claim (some sessionId)
      (task.view.set (bindFields eventId)) k' ∧ k'.listing = some (sessionId, events))
    (conforms_bindInput h (by simpa using hnew) (.inr ⟨events, hlisting, ?_⟩)
      fun hs => ⟨hs, hlisting⟩) ?_
  · rw [hcandidate]
    exact hid
  rintro _ k₁ ⟨h₁, hlisting⟩
  refine .bind (Q := fun row k' =>
    Serving contextId claim (some sessionId) (row.getD task).view k' ∧
    k'.listing = some (sessionId, events))
    (conforms_getTask h₁ (fun _ _ _ _ _ hrow => ⟨hrow task, hlisting⟩) h₁.lease) ?_
  rintro row k₂ ⟨h₂, hlisting⟩
  refine Contract.conforms_pure ⟨h₂.lease, fun task' ht => ?_⟩
  cases ht
  exact ⟨h₂, hlisting⟩

lemma conforms_reconcileActive {cfg : Config} {context : ContextRow} {task : TaskRow}
    (h : Serving context.contextId claim context.cmaSessionId task.view k) :
    Keeps context.contextId claim (reconcileActive cfg context task claim)
      (fun _ k' => k'.holdsLease context.contextId claim) k := by
  refine .bind (conforms_activeSession h) ?_
  rintro found k₁ ⟨hl, h₁⟩
  split
  · exact Contract.conforms_pure hl
  rename_i sessionId
  have h₁ := h₁ sessionId rfl
  refine .bind (Q := fun events k' =>
    Serving context.contextId claim (some sessionId) task.view k' ∧
      k'.listing = some (sessionId, events))
    (conforms_listEvents (fun events => ⟨⟨h₁.lease, h₁.live⟩, rfl⟩) h₁.lease) ?_
  rintro events k₂ ⟨h₂, hlisting⟩
  refine .bind (conforms_ensureBound h₂ hlisting) ?_
  rintro bound k₃ ⟨hl, h₃⟩
  split
  · exact Contract.conforms_pure hl
  rename_i task'
  obtain ⟨h₃, hlisting⟩ := h₃ task' rfl
  split
  · exact conforms_reconcileCancel h₃ hlisting
  refine .bind (conforms_reconcileConfirmations h₃) ?_
  rintro finished k₄ ⟨hl, h₄⟩
  cases finished with
  | true => exact Contract.conforms_pure hl
  | false => exact conforms_reconcileStatus (h₄ rfl)

/-! ### Dispatch -/

lemma conforms_dispatchFirst {cfg : Config} {context : ContextRow} {task : TaskRow} {text : Text}
    (h : Serving context.contextId claim none task.view k)
    (hpermit : k.permit = some (.create task.taskId context.contextId))
    (hnew : task.cmaInputEventId = none) (hpred : task.cmaPredecessorEventId = none) :
    Keeps context.contextId claim (dispatchFirst cfg context task claim text)
      (fun _ k' => k'.holdsLease context.contextId claim) k := by
  unfold dispatchFirst
  refine .bind_same (conforms_quiet trivial (fun _ => rfl) (fun _ _ => rfl) h.lease)
    fun recovered => ?_
  refine .bind (Q := fun found k' => k'.holdsLease context.contextId claim ∧ ∀ sessionId ∈ found,
      Serving context.contextId claim none task.view k')
    (.tryCatch (H := Serving context.contextId claim none task.view) ?_ fun e k₁ h₁ => ?_) ?_
  · split
    · exact Contract.conforms_pure ⟨h.lease, fun _ _ => h⟩
    · refine .map (Q := fun _ => Serving context.contextId claim none task.view)
        (Contract.conforms_perform hpermit (fun _ _ => ⟨h.lease, h.live⟩)
          fun _ _ => ⟨h.lease, h.live⟩) fun _ _ h' => ⟨h'.lease, fun _ _ => h'⟩
  · split
    · exact .bind (conforms_finishFailed h₁)
        fun _ _ hl => Contract.conforms_pure ⟨hl, fun _ hs => by cases hs⟩
    · exact .bind_same (conforms_hold h₁.lease rfl h₁.lease)
        fun _ => Contract.conforms_pure ⟨h₁.lease, fun _ hs => by cases hs⟩
  rintro found k₁ ⟨hl, h₁⟩
  split
  · exact Contract.conforms_pure hl
  rename_i sessionId
  have h₁ := h₁ sessionId rfl
  refine .bind (Q := fun _ => Serving context.contextId claim (some sessionId) task.view) ?_ ?_
  · refine conforms_updateContext h₁.lease (h₁.live.imp_right ?_) (h₁.wroteContext rfl rfl)
    rintro ⟨-, -, v, hv, hactive, hnone⟩
    exact ⟨v, hv, .session sessionId hnone (by rw [hactive]; rfl)⟩
  intro _ k₂ h₂
  refine .bind (Q := fun events k' =>
    Serving context.contextId claim (some sessionId) task.view k' ∧
      k'.listing = some (sessionId, events))
    (conforms_listEvents (fun events => ⟨⟨h₂.lease, h₂.live⟩, rfl⟩) h₂.lease) ?_
  rintro events k₃ ⟨h₃, hlisting⟩
  split
  · rename_i eventId hevent
    refine .bind (Q := fun _ => Serving context.contextId claim (some sessionId)
      (task.view.set (bindFields eventId)))
      (conforms_bindInput h₃ hnew (.inr ⟨events, hlisting, ?_⟩) fun hs => hs) fun _ k₄ h₄ => ?_
    · simpa [bindCandidate, hpred, after] using hevent
    refine .bind (Q := fun row k' => (row.getD context).contextId = context.contextId ∧
      Serving context.contextId claim (row.getD context).cmaSessionId
        (task.view.set (bindFields eventId)) k')
      (conforms_getContext h₄ (fun row _ _ hid _ hc => ⟨?_, hc context⟩) h₄.lease) ?_
    · cases row with
      | none => rfl
      | some c => exact hid c rfl
    rintro row k₅ ⟨hid, h₅⟩
    refine .bind (Q := fun row' => Serving context.contextId claim (row.getD context).cmaSessionId
        (row'.getD task).view)
      (conforms_getTask h₅ (fun _ _ _ _ _ hrow => hrow task) h₅.lease) fun row' k₆ h₆ => ?_
    rw [← hid] at h₆ ⊢
    exact conforms_reconcileActive h₆
  · exact conforms_hold h₃.lease h₃.lease h₃.lease

lemma conforms_dispatchNext {task : TaskRow} {text : Text}
    (h : Serving contextId claim (some sessionId) task.view k) (hlost : k.lost = false)
    (hpermit : k.permit = some (.send task.taskId sessionId))
    (hnew : task.cmaInputEventId = none) :
    Keeps contextId claim (dispatchNext contextId task claim sessionId text)
      (fun _ k' => k'.holdsLease contextId claim) k := by
  have hallow : k.allowed (.sendMessage task.taskId sessionId text) := by
    refine ⟨hpermit, ?_⟩
    rcases h.live with hl | ⟨-, -, v, hv, hactive, hsession⟩
    · rw [hlost] at hl
      cases hl
    · exact ⟨v, hv, hactive, hsession⟩
  refine .bind (Q := fun sent k' => k'.holdsLease contextId claim ∧ ∀ id ∈ sent,
      Serving contextId claim (some sessionId) task.view k' ∧ k'.sent = id)
    (.tryCatch (H := Serving contextId claim (some sessionId) task.view) ?_ fun e k₁ h₁ => ?_) ?_
  · refine .map (Q := fun id k' => Serving contextId claim (some sessionId) task.view k' ∧
      k'.sent = id) (Contract.conforms_perform hallow (fun _ _ => ⟨⟨h.lease, h.live⟩, rfl⟩)
        fun _ _ => ⟨h.lease, h.live⟩) ?_
    rintro id k' ⟨h', hsent⟩
    refine ⟨h'.lease, fun id' hid => ?_⟩
    cases hid
    exact ⟨h', hsent⟩
  · split
    · refine .bind (conforms_finishServing h₁ rfl fun _ _ _ _ => .unbound hnew)
        fun _ _ hl => Contract.conforms_pure ⟨hl, fun _ hs => by cases hs⟩
    · exact .bind_same (conforms_hold h₁.lease rfl h₁.lease)
        fun _ => Contract.conforms_pure ⟨h₁.lease, fun _ hs => by cases hs⟩
  rintro sent k₁ ⟨hl, h₁⟩
  split
  · exact Contract.conforms_pure hl
  · rename_i eventId
    obtain ⟨h₁, hsent⟩ := h₁ _ rfl
    exact conforms_bindInput h₁ hnew (.inl hsent) fun hs => hs.lease
  · exact conforms_hold hl hl hl

/-- The worker has just activated the task. -/
structure Activated (context : ContextRow) (claim : ClaimId) (task : TaskRow) (k : Known) :
    Prop where
  serving : Serving context.contextId claim context.cmaSessionId task.view k
  kept : k.lost = false
  permit : k.permit = some (match context.cmaSessionId with
    | none => .create task.taskId context.contextId
    | some sessionId => .send task.taskId sessionId)
  unbound : task.cmaInputEventId = none
  first : context.cmaSessionId = none → task.cmaPredecessorEventId = none

lemma conforms_dispatch {cfg : Config} {context : ContextRow} {task : TaskRow}
    (h : Activated context claim task k) :
    Keeps context.contextId claim (dispatch cfg context task claim)
      (fun _ k' => k'.holdsLease context.contextId claim) k := by
  obtain ⟨hserving, hkept, hpermit, hunbound, hfirst⟩ := h
  refine .bind_same (conforms_pendingGet (fun _ => rfl) hserving.lease) fun text => ?_
  split
  · rename_i hsession
    rw [hsession] at hserving hpermit
    exact conforms_dispatchFirst hserving hpermit hunbound (hfirst hsession)
  · rename_i sessionId hsession
    rw [hsession] at hserving hpermit
    exact conforms_dispatchNext hserving hkept hpermit hunbound

/-- The worker has read a context without an active task, and nothing else. -/
structure Idle (context : ContextRow) (claim : ClaimId) (k : Known) : Prop where
  lease : k.holdsLease context.contextId claim
  kept : k.lost = false
  open' : k.finished = false
  view : k.view = .seen context.view
  free : context.activeTaskId = none

lemma conforms_reconcileQueue {cfg : Config} {context : ContextRow} (h : Idle context claim k) :
    Keeps context.contextId claim (reconcileQueue cfg context claim)
      (fun _ k' => k'.holdsLease context.contextId claim) k := by
  refine .bind (Q := fun row k' => Idle context claim k' ∧ k'.picked = row)
    (Contract.conforms_perform ⟨claim, h.lease⟩
      (fun row _ => ⟨⟨h.lease, h.kept, h.open', h.view, h.free⟩, rfl⟩) fun _ _ => h.lease) ?_
  rintro row k₁ ⟨h₁, hpicked⟩
  split
  · exact Contract.conforms_pure h₁.lease
  rename_i task
  split
  · rename_i hfailed
    have hfailed : context.lifecycleState = .failed := by simpa using hfailed
    exact conforms_finish h₁.lease
      (.inr ⟨h₁.open', _, h₁.view, .drop h₁.free hfailed hpicked, .inr hfailed⟩)
  rename_i hfailed
  have hfailed : context.lifecycleState ≠ .failed := by simpa using hfailed
  have hactivate : ∀ (events : List Event) k₂, Idle context claim k₂ → k₂.picked = some task →
      k₂.Starts context.view (lastEventId events) →
      (context.cmaSessionId = none → events = []) →
      Keeps context.contextId claim (do
        let task ← ask (.activateTask context.contextId task.taskId claim (lastEventId events))
        dispatch cfg context task claim)
        (fun _ k' => k'.holdsLease context.contextId claim) k₂ := by
    intro events k₂ h₂ hpicked hstarts hnone
    refine .bind (Q := Activated context claim) (Contract.conforms_perform
      ⟨h₂.lease, h₂.open', _, h₂.view, h₂.free, hfailed, ⟨task, hpicked, rfl⟩, hstarts⟩
      (fun task' htask => ?_) fun _ _ => h₂.lease) fun task' k₃ h₃ => conforms_dispatch h₃
    have htask : task'.view = ⟨task.taskId, none, lastEventId events⟩ := htask
    have hk : contract.learn k₂ (.query (.activateTask context.contextId task.taskId claim
        (lastEventId events))) (.ok task') = k₂.activated context.contextId task' := rfl
    rw [hk, Known.activated, h₂.view]
    refine ⟨⟨h₂.lease, .inr ⟨h₂.open', rfl, _, rfl, rfl, rfl⟩⟩, h₂.kept, ?_, ?_, fun hs => ?_⟩
    · cases hs : context.cmaSessionId <;> simp [ContextRow.view, hs]
    · exact congrArg TaskView.cmaInputEventId htask
    · rw [show task'.cmaPredecessorEventId = _ from congrArg TaskView.cmaPredecessorEventId htask,
        hnone hs]
      rfl
  split
  · rename_i sessionId hsession
    refine .bind (Q := fun events k' => Idle context claim k' ∧ k'.picked = some task ∧
      k'.listing = some (sessionId, events))
      (conforms_listEvents (fun events =>
        ⟨⟨h₁.lease, h₁.kept, h₁.open', h₁.view, h₁.free⟩, hpicked, rfl⟩) h₁.lease) ?_
    rintro events k₂ ⟨h₂, hpicked, hlisting⟩
    refine hactivate events k₂ h₂ hpicked ?_ fun hnone => ?_
    · simpa [Known.Starts, ContextRow.view, hsession] using ⟨events, hlisting, rfl⟩
    · rw [hsession] at hnone
      cases hnone
  · rename_i hsession
    refine hactivate [] k₁ h₁ hpicked ?_ fun _ => rfl
    simp [Known.Starts, ContextRow.view, hsession, lastEventId]

lemma conforms_schedule {delay : ℕ} (hl : k.holdsLease contextId claim) :
    Keeps contextId claim (perform (.schedule contextId delay))
      (fun _ k' => k'.holdsLease contextId claim) k :=
  conforms_quiet trivial (fun _ => rfl) (fun _ _ => hl) hl

/-- A read after which only the lease matters. -/
lemma conforms_read {q : Query} (hallow : k.allowedQuery q)
    (hlease : ∀ r, (k.learnQuery q r).lease = k.lease) (hl : k.holdsLease contextId claim) :
    Keeps contextId claim (ask q) (fun _ k' => k'.holdsLease contextId claim) k := by
  refine Contract.conforms_perform hallow (fun r _ => ?_) fun e _ => ?_
  · exact (hlease (.ok r)).trans hl
  · exact (hlease (.error e)).trans hl

lemma learnQuery_getContext_lease (r : Except Exn (Option ContextRow)) :
    (k.learnQuery (.getContext contextId) r).lease = k.lease := by
  cases r with
  | error e => rfl
  | ok row =>
    obtain ⟨view, lost, hk, -⟩ := k.readContext_cases row
    change (k.readContext row).lease = k.lease
    rw [hk]

/-- What a worker knows right after it was granted the lease. -/
def granted (contextId : ContextId) (claim : ClaimId) : Known :=
  { lease := some (contextId, claim) }

lemma conforms_reconcileContext {cfg : Config} {context : ContextRow}
    (hk : k = { granted context.contextId claim with view := .seen context.view }) :
    Keeps context.contextId claim (reconcileContext cfg context claim)
      (fun _ k' => k'.holdsLease context.contextId claim) k := by
  subst hk
  unfold reconcileContext
  split
  · rename_i activeId hactive
    refine .bind (Q := fun row k' => k'.holdsLease context.contextId claim ∧ ∀ task ∈ row,
      Serving context.contextId claim context.cmaSessionId task.view k') ?_ ?_
    · refine Contract.conforms_perform trivial (fun row hid => ?_) fun _ _ => rfl
      cases row with
      | none => exact ⟨rfl, fun task ht => by cases ht⟩
      | some task =>
        have hk : contract.learn { granted context.contextId claim with view := .seen context.view }
            (.query (.getTask activeId)) (.ok (some task)) =
            { granted context.contextId claim with
              view := .seen context.view
              task := some task.view } := by
          simp [contract, Known.learn, Known.learnQuery, Known.readTask, granted, ContextRow.view,
            hactive]
        rw [hk]
        refine ⟨rfl, fun task' ht => ?_⟩
        cases ht
        have hid : task.taskId = activeId := hid
        exact ⟨rfl, .inr ⟨rfl, rfl, _, rfl, by rw [← hid] at hactive; exact hactive, rfl⟩⟩
    · rintro row k₂ ⟨hl₂, htask⟩
      split
      · exact conforms_reconcileActive (htask _ rfl)
      · exact Contract.conforms_pure hl₂
  · rename_i hfree
    exact conforms_reconcileQueue ⟨rfl, rfl, rfl, rfl, hfree⟩

lemma conforms_scheduleNext (hl : k.holdsLease contextId claim) :
    Keeps contextId claim (scheduleNext contextId)
      (fun _ k' => k'.holdsLease contextId claim) k := by
  refine .bind (conforms_read ⟨claim, hl⟩ learnQuery_getContext_lease hl) fun refreshed k₁ hl₁ => ?_
  split
  · exact conforms_schedule hl₁
  refine .bind (conforms_read ⟨claim, hl₁⟩ (fun r => by cases r <;> rfl) hl₁) fun next k₂ hl₂ => ?_
  split
  · exact conforms_schedule hl₂
  · exact Contract.conforms_pure hl₂

lemma conforms_reconcile {cfg : Config} :
    Keeps contextId claim (reconcile cfg contextId claim)
      (fun _ k' => k'.holdsLease contextId claim) (granted contextId claim) := by
  refine .bind (Q := fun row k' => k'.holdsLease contextId claim ∧ ∀ c ∈ row,
    c.contextId = contextId ∧ k' = { granted contextId claim with view := .seen c.view }) ?_ ?_
  · refine Contract.conforms_perform ⟨claim, rfl⟩ (fun row hid => ?_) fun _ _ => rfl
    cases row with
    | none => exact ⟨rfl, fun c hc => by cases hc⟩
    | some c =>
      refine ⟨rfl, fun c' hc => ?_⟩
      cases hc
      exact ⟨hid, rfl⟩
  rintro row k₁ ⟨hl, hrow⟩
  split
  · exact Contract.conforms_pure hl
  rename_i context
  obtain ⟨rfl, hk⟩ := hrow context rfl
  exact .bind (conforms_reconcileContext hk) fun _ k₂ hl₂ => conforms_scheduleNext hl₂

lemma conforms_runOnceCleanup {cfg : Config} {P : Known → Prop}
    (hl : k.holdsLease contextId claim) (hP : P k) :
    contract.Conforms (runOnceCleanup cfg contextId claim) (fun _ => P) P k := by
  refine .bind_same (conforms_quiet hl (fun _ => rfl) (fun _ _ => rfl) hP) fun _ => ?_
  split
  · refine .tryCatch (H := P) (conforms_quiet trivial (fun _ => rfl) (fun _ _ => hP) hP) ?_
    exact fun _ _ h => Contract.conforms_pure h
  · exact Contract.conforms_pure hP

/-- **A reconciliation keeps the contract**, whatever is answered. -/
theorem conforms_runOnce (cfg : Config) (contextId : ContextId) :
    contract.Conforms (runOnce cfg contextId) (fun _ _ => True) (fun _ => True) {} := by
  refine .bind (Q := fun granted? k' => ∀ claim ∈ granted?, k' = granted contextId claim) ?_ ?_
  · refine Contract.conforms_perform rfl (fun claim _ => ?_) fun _ _ => trivial
    intro claim hc
    cases hc
    rfl
  intro claim k₁ hk
  split
  · exact Contract.conforms_throw trivial
  rename_i claim
  rw [hk claim rfl]
  exact .ensure conforms_reconcile
    (fun _ _ hl => conforms_runOnceCleanup hl trivial)
    fun _ hl => conforms_runOnceCleanup hl trivial

/-- **A resolution keeps the contract.** -/
theorem conforms_resolve (cfg : Config) (taskId : TaskId) (resolution : Resolution)
    (verifiedNoSideEffect : Bool) :
    contract.Conforms (resolve cfg taskId resolution verifiedNoSideEffect) (fun _ _ => True)
      (fun _ => True) {} := by
  unfold resolve
  split
  · exact Contract.conforms_throw trivial
  refine .bind_same (Contract.conforms_perform trivial (fun row _ => ?_) fun _ _ => trivial)
    fun row => ?_
  · cases row <;> rfl
  split
  · exact Contract.conforms_throw trivial
  rename_i row
  refine .bind (Q := fun granted? k' => ∀ claim ∈ granted?, k' = granted row.contextId claim) ?_ ?_
  · refine Contract.conforms_perform rfl (fun claim _ => ?_) fun _ _ => trivial
    intro claim hc
    cases hc
    rfl
  intro claim k₁ hk
  split
  · exact Contract.conforms_throw trivial
  rename_i claim
  rw [hk claim rfl]
  have hl : (granted row.contextId claim).holdsLease row.contextId claim := rfl
  have hrelease : contract.Conforms (do let _ ← ask (.releaseScheduler row.contextId claim))
      (fun _ k' => k' = granted row.contextId claim) (fun _ => True)
      (granted row.contextId claim) :=
    .bind_same (conforms_quiet hl (fun _ => rfl) (fun _ _ => rfl) trivial)
      fun _ => Contract.conforms_pure rfl
  refine .bind_same (.ensure (Q := fun _ k' => k' = granted row.contextId claim)
    (E := fun k' => k' = granted row.contextId claim) ?_ ?_ ?_) fun _ => ?_
  · exact .bind_same (conforms_quiet ⟨⟨_, hl⟩, rfl, rfl⟩ (fun _ => rfl) (fun _ _ => rfl) rfl)
      fun _ => Contract.conforms_pure rfl
  · rintro _ _ rfl
    exact hrelease
  · rintro _ rfl
    exact hrelease.mono (fun _ _ _ => trivial) fun _ h => h
  · refine .bind_same (conforms_quiet trivial (fun _ => rfl) (fun _ _ => rfl) trivial) fun _ => ?_
    split
    · exact conforms_quiet trivial (fun _ => rfl) (fun _ _ => trivial) trivial
    · exact Contract.conforms_pure trivial

/-- Every program of the system keeps the contract. -/
lemma conforms_job {p : Program Unit} (h : Job p) :
    contract.Conforms p (fun _ _ => True) (fun _ => True) {} := by
  rcases h with ⟨cfg, contextId, rfl⟩ | ⟨cfg, taskId, resolution, verified, rfl⟩
  · exact conforms_runOnce cfg contextId
  · exact conforms_resolve cfg taskId resolution verified

end ManagedAgents.Controller
