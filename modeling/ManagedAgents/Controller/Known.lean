import ManagedAgents.Controller.System

/-!
What one program knows, and what it may do with it: the contract every scheduler worker and every
admin resolution keeps.

A worker under a lease knows the columns only a lease holder writes. It never learns that its
lease ended, except by reading a row that differs from what it knows; from then on it may write
anything, since the store will refuse it. Permits are what a committed marker allows once: one
creation or one message after an activation, one confirmation after its mark.
-/

namespace ManagedAgents.Controller

open ManagedAgents.Lib

/-- The columns of a context that only the holder of its lease writes. -/
structure ContextView where
  cmaSessionId : Option SessionId
  lifecycleState : Lifecycle
  activeTaskId : Option TaskId
  deriving DecidableEq

def ContextRow.view (c : ContextRow) : ContextView :=
  ⟨c.cmaSessionId, c.lifecycleState, c.activeTaskId⟩

def ContextView.set (v : ContextView) (fields : ContextFields) : ContextView :=
  { cmaSessionId := fields.cmaSessionId.getD v.cmaSessionId
    lifecycleState := fields.lifecycleState.getD v.lifecycleState
    activeTaskId := fields.activeTaskId.getD v.activeTaskId }

/-- The columns of an active task that say where it stands in the session. -/
structure TaskView where
  taskId : TaskId
  cmaInputEventId : Option EventId
  cmaPredecessorEventId : Option EventId
  deriving DecidableEq

def TaskRow.view (t : TaskRow) : TaskView :=
  ⟨t.taskId, t.cmaInputEventId, t.cmaPredecessorEventId⟩

def TaskView.set (t : TaskView) (fields : TaskFields) : TaskView :=
  { t with cmaInputEventId := fields.cmaInputEventId.getD t.cmaInputEventId }

@[simp] lemma ContextRow.view_set (c : ContextRow) (f : ContextFields) :
    (c.set f).view = c.view.set f := rfl

@[simp] lemma TaskRow.view_set (t : TaskRow) (f : TaskFields) :
    (t.set f).view = t.view.set f := rfl

/-- What is known of the context: not read yet, read, or no longer certain. -/
inductive Sight
  | unread
  | seen (v : ContextView)
  | lapsed

inductive Permit
  | create (task : TaskId) (contextId : ContextId)
  | send (task : TaskId) (sessionId : SessionId)
  | confirm (requestId : RequestId)
  deriving DecidableEq

/-- The answer of the policy engine to the last exchange. -/
structure Verdict where
  request : ToolPolicyRequest
  resolution : Option PolicyResolution
  decision : ToolPolicyDecision

structure Known where
  lease : Option (ContextId × ClaimId) := none
  view : Sight := .unread
  /-- The active task. -/
  task : Option TaskView := none
  /-- A row was read that shows the lease has ended. -/
  lost : Bool := false
  /-- A task was made terminal. -/
  finished : Bool := false
  /-- The queued task chosen last. -/
  picked : Option TaskRow := none
  /-- The session listed last, with its events. -/
  listing : Option (SessionId × List Event) := none
  /-- The event of the message just sent. -/
  sent : Option EventId := none
  permit : Option Permit := none
  /-- The approvals listed last. -/
  rows : List ApprovalRow := []
  verdict : Option Verdict := none

/-- An update that only changes why a task is held. -/
def TaskFields.isHold (f : TaskFields) : Bool :=
  f.a2aState.isNone && f.internalState.isNone && f.cmaInputEventId.isNone
    && f.inputObjectKey.isNone && f.cmaTerminalEventId.isNone && f.cancelAttemptedAt.isNone

/-- The states a worker finishes a task in. -/
def A2aState.isFinal : A2aState → Bool
  | .completed | .failed | .canceled => true
  | _ => false

def Request.approval? : Request → Option ApprovalRow
  | approval row => some row
  | clarification _ => none

namespace Known

/-! ### Learning -/

/-- A failed write leaves it open what the row is. -/
def forget (k : Known) : Known := { k with view := .lapsed, task := none, picked := none }

def readContext (k : Known) (row : Option ContextRow) : Known :=
  match k.view with
  | .unread =>
    match row with
    | some c => { k with view := .seen c.view }
    | none => k
  | .seen v => if row.map (·.view) = some v then k else { k with lost := true }
  | .lapsed => k

def readTask (k : Known) (taskId : TaskId) (row : Option TaskRow) : Known :=
  match k.task with
  | none =>
    match k.view, row with
    | .seen v, some t =>
      if v.activeTaskId = some taskId then { k with task := some t.view } else k
    | _, _ => k
  | some t =>
    if t.taskId = taskId ∧ row.map (·.view) ≠ some t then { k with lost := true } else k

/-- Reading a task changes at most what is known of it and whether the lease is lost. -/
lemma readTask_cases (k : Known) (taskId : TaskId) (row : Option TaskRow) :
    ∃ task lost, k.readTask taskId row = { k with task := task, lost := lost } ∧
      (k.lost = true → lost = true) := by
  unfold readTask
  split
  · split
    · split
      · exact ⟨_, k.lost, rfl, id⟩
      · exact ⟨k.task, k.lost, rfl, id⟩
    · exact ⟨k.task, k.lost, rfl, id⟩
  · split
    · exact ⟨k.task, true, rfl, fun _ => rfl⟩
    · exact ⟨k.task, k.lost, rfl, id⟩

lemma readContext_cases (k : Known) (row : Option ContextRow) :
    ∃ view lost, k.readContext row = { k with view := view, lost := lost } ∧
      (k.lost = true → lost = true) := by
  unfold readContext
  split
  · split
    · exact ⟨_, k.lost, rfl, id⟩
    · exact ⟨k.view, k.lost, rfl, id⟩
  · split
    · exact ⟨k.view, k.lost, rfl, id⟩
    · exact ⟨k.view, true, rfl, fun _ => rfl⟩
  · exact ⟨k.view, k.lost, rfl, id⟩

def wroteContext (k : Known) (f : ContextFields) : Known :=
  match k.view with
  | .seen v =>
    { k with
      view := .seen (v.set f)
      task := if f.activeTaskId.isSome then none else k.task }
  | _ => k

lemma wroteContext_lease (k : Known) (f : ContextFields) :
    (k.wroteContext f).lease = k.lease := by
  unfold wroteContext
  split <;> rfl

@[simp] lemma wroteContext_lost (k : Known) (f : ContextFields) :
    (k.wroteContext f).lost = k.lost := by
  unfold wroteContext
  split <;> rfl

lemma wroteContext_seen {k : Known} {v : ContextView} {f : ContextFields} (hv : k.view = .seen v)
    (hf : f.activeTaskId = none) : k.wroteContext f = { k with view := .seen (v.set f) } := by
  simp [wroteContext, hv, hf]

def wroteTask (k : Known) (f : TaskFields) : Known :=
  { k with
    task := k.task.map (·.set f)
    finished := k.finished || f.internalState == some .terminal }

/-- What an activation allows: to create the session, or to send to it. -/
def activated (k : Known) (contextId : ContextId) (t : TaskRow) : Known :=
  match k.view with
  | .seen v =>
    { k with
      view := .seen { v with activeTaskId := some t.taskId }
      task := some t.view
      picked := none
      permit := match v.cmaSessionId with
        | none => some (.create t.taskId contextId)
        | some sessionId => some (.send t.taskId sessionId) }
  | _ => k

def learnQuery (k : Known) : (q : Query) → Except Exn q.Reply → Known
  | .claimScheduler contextId, .ok (some claim) => { k with lease := some (contextId, claim) }
  | .getContext _, .ok row => k.readContext row
  | .getTask taskId, .ok row => k.readTask taskId row
  | .updateContext _ _ f, .ok _ => k.wroteContext f
  | .updateContext _ _ _, .error _ => k.forget
  | .updateTask _ _ _ f, .ok _ => if f.isHold then k else k.wroteTask f
  | .updateTask _ _ _ f, .error _ => if f.isHold then k else k.forget
  | .activateTask contextId _ _ _, .ok t => k.activated contextId t
  | .activateTask _ _ _ _, .error _ => k.forget
  | .nextQueued _, .ok row => { k with picked := row }
  | .listInputRequests _, .ok requests =>
    { k with rows := requests.filterMap Request.approval?, verdict := none }
  | .denyCancelledInputRequest _ _ _, _ => { k with rows := [] }
  | .markConfirmationAttempted requestId _ _, .ok true =>
    { k with permit := some (.confirm requestId) }
  | _, _ => k

/-- Queries that teach at most something about the context and its tasks. -/
def plain : Query → Bool
  | .claimScheduler _ | .activateTask _ _ _ _ | .listInputRequests _
  | .denyCancelledInputRequest _ _ _ | .markConfirmationAttempted _ _ _ => false
  | _ => true

lemma learnQuery_plain {q : Query} (h : plain q = true) (k : Known) (r : Except Exn q.Reply) :
    ∃ view task lost finished picked, k.learnQuery q r =
      { k with
        view := view
        task := task
        lost := lost
        finished := finished
        picked := picked } := by
  cases q with
  | claimScheduler | activateTask | listInputRequests | denyCancelledInputRequest
  | markConfirmationAttempted => cases h
  | getContext contextId =>
    cases r with
    | error e => exact ⟨_, _, _, _, _, rfl⟩
    | ok row =>
      obtain ⟨view, lost, hk, -⟩ := k.readContext_cases row
      exact ⟨view, k.task, lost, k.finished, k.picked, hk⟩
  | getTask taskId =>
    cases r with
    | error e => exact ⟨_, _, _, _, _, rfl⟩
    | ok row =>
      obtain ⟨task, lost, hk, -⟩ := k.readTask_cases taskId row
      exact ⟨k.view, task, lost, k.finished, k.picked, hk⟩
  | updateContext contextId claim f =>
    cases r with
    | error e => exact ⟨_, _, _, _, _, rfl⟩
    | ok row =>
      simp only [learnQuery, wroteContext]
      split <;> exact ⟨_, _, _, _, _, rfl⟩
  | updateTask taskId contextId claim f =>
    cases r <;> simp only [learnQuery] <;> split <;> exact ⟨_, _, _, _, _, rfl⟩
  | _ => cases r <;> exact ⟨_, _, _, _, _, rfl⟩

def learn (k : Known) : (c : Call) → Except Exn c.Reply → Known
  | .query q, r => k.learnQuery q r
  | .listEvents sessionId, .ok events => { k with listing := some (sessionId, events) }
  | .createSession _ _ _ _, _ => { k with permit := none }
  | .sendMessage _ _ _, .ok sent => { k with permit := none, sent := sent }
  | .sendMessage _ _ _, .error _ => { k with permit := none }
  | .confirmTool _ _ _ _ _, _ => { k with permit := none }
  | .policyExchange request resolution, .ok decision =>
    { k with verdict := some ⟨request, resolution, decision⟩ }
  | .policyExchange _ _, .error _ => { k with verdict := none }
  | _, _ => k

/-! ### What may be done -/

/-- The updates of a context the worker may make, given the row it knows. -/
inductive ContextWrite (k : Known) (v : ContextView) : ContextFields → Prop
  | session (sessionId) (hnone : v.cmaSessionId = none) (hactive : v.activeTaskId.isSome = true) :
    ContextWrite k v { cmaSessionId := some (some sessionId), lifecycleState := some .ready }
  | failed (hactive : v.activeTaskId.isSome = true) :
    ContextWrite k v { lifecycleState := some .failed }
  | clear (hfinished : k.finished = true)
    (hstarted : v.cmaSessionId.isSome = true ∨ v.lifecycleState = .failed) :
    ContextWrite k v { activeTaskId := some none }

/-- The fields `bind_input` sets. -/
def bindFields (eventId : EventId) : TaskFields :=
  { cmaInputEventId := some (some eventId)
    inputObjectKey := some none
    internalState := some .waiting
    a2aState := some .working
    heldReason := some none }

/-- The fields `finish` sets. -/
def finishFields (state : A2aState) (terminalEventId : Option EventId) : TaskFields :=
  { internalState := some .terminal
    a2aState := some state
    cmaTerminalEventId := some terminalEventId
    heldReason := some none }

/-- The fields a wait sets. -/
def statusFields (humanPending : Bool) : TaskFields :=
  { internalState := some (if humanPending then .inputRequired else .waiting)
    a2aState := some (if humanPending then .inputRequired else .working) }

/-- Where the end of a task may lie: after its input, or nowhere when it has no input or the
context has failed. -/
inductive Ends (k : Known) (v : ContextView) (t : TaskView) : Option EventId → Prop
  | failed {e} (hfailed : v.lifecycleState = .failed) : Ends k v t e
  | unbound {e} (hnone : t.cmaInputEventId = none) : Ends k v t e
  | event {sessionId events input e} (hsession : v.cmaSessionId = some sessionId)
    (hlisting : k.listing = some (sessionId, events)) (hinput : t.cmaInputEventId = some input)
    (he : e ∈ after events (some input)) : Ends k v t e.id

/-- The updates of a task the worker may make. -/
inductive TaskWrite (k : Known) (v : ContextView) : TaskId → TaskFields → Prop
  | bind {t sessionId eventId} (hactive : v.activeTaskId = some t.taskId)
    (hsession : v.cmaSessionId = some sessionId) (htask : k.task = some t)
    (hnew : t.cmaInputEventId = none)
    (hevent : k.sent = some eventId ∨ ∃ events, k.listing = some (sessionId, events) ∧
      ((after events t.cmaPredecessorEventId).find? (·.isUserMessage)).bind (·.id) =
        some eventId) :
    TaskWrite k v t.taskId (bindFields eventId)
  | status {taskId} (humanPending : Bool) (hactive : v.activeTaskId = some taskId) :
    TaskWrite k v taskId (statusFields humanPending)
  | interrupting {taskId now} (hactive : v.activeTaskId = some taskId) :
    TaskWrite k v taskId
      { cancelAttemptedAt := some (some now), internalState := some .interrupting }
  | finish {t state terminalEventId} (hactive : v.activeTaskId = some t.taskId)
    (htask : k.task = some t) (hfinal : state.isFinal = true)
    (hend : Ends k v t terminalEventId) :
    TaskWrite k v t.taskId (finishFields state terminalEventId)
  | drop {t : TaskRow} (hnone : v.activeTaskId = none) (hfailed : v.lifecycleState = .failed)
    (hpicked : k.picked = some t) : TaskWrite k v t.taskId (finishFields .failed none)

/-- What a decision on a request rests on: a verdict about the row as it was listed, without an
offer, or with the ruling given on the offer it shows. -/
structure MayDecide (k : Known) (contextId : ContextId) (taskId : TaskId) (requestId : RequestId)
    (decision : Ruling) : Prop where
  rests : ∃ row ∈ k.rows, row.requestId = requestId ∧ row.taskId = taskId ∧
    ∃ verdict, k.verdict = some verdict ∧ verdict.request.rootId = contextId ∧
      verdict.request.invocationId = row.cmaEventId ∧
      (decision = .allow → verdict.decision.decision = .allow) ∧
      (verdict.resolution = none ∧ row.reviewDigest = none ∨
        ∃ ruling, row.humanRuling = some ruling ∧
          verdict.resolution = some ⟨row.reviewDigest, row.reviewAuthority, ruling⟩ ∧
          (ruling = .deny → verdict.decision.decision = .deny))

/-- Where a new turn starts: at the end of the session, when there is one. -/
def Starts (k : Known) (v : ContextView) (predecessor : Option EventId) : Prop :=
  match v.cmaSessionId with
  | none => predecessor = none
  | some sessionId => ∃ events, k.listing = some (sessionId, events) ∧
    predecessor = lastEventId events

def holdsLease (k : Known) (contextId : ContextId) (claim : ClaimId) : Prop :=
  k.lease = some (contextId, claim)

@[simp] lemma holdsLease_wroteContext {k : Known} {contextId : ContextId} {claim : ClaimId}
    {f : ContextFields} :
    (k.wroteContext f).holdsLease contextId claim ↔ k.holdsLease contextId claim := by
  rw [holdsLease, holdsLease, wroteContext_lease]

@[simp] lemma holdsLease_wroteTask {k : Known} {contextId : ContextId} {claim : ClaimId}
    {f : TaskFields} :
    (k.wroteTask f).holdsLease contextId claim ↔ k.holdsLease contextId claim := Iff.rfl

def allowedQuery (k : Known) : Query → Prop
  | .claimScheduler _ => k.lease = none
  | .releaseScheduler contextId claim => k.holdsLease contextId claim
  | .updateContext contextId claim f => k.holdsLease contextId claim ∧
    (k.lost = true ∨ ∃ v, k.view = .seen v ∧ k.ContextWrite v f)
  | .updateTask taskId contextId claim f => k.holdsLease contextId claim ∧
    (f.isHold = true ∨ k.lost = true ∨
      k.finished = false ∧ ∃ v, k.view = .seen v ∧ k.TaskWrite v taskId f)
  | .resolveHeldTask _ claim _ => (∃ contextId, k.holdsLease contextId claim) ∧
    k.view = .unread ∧ k.picked = none
  | .activateTask contextId taskId claim predecessor => k.holdsLease contextId claim ∧
    k.finished = false ∧ ∃ v, k.view = .seen v ∧ v.activeTaskId = none ∧
      v.lifecycleState ≠ .failed ∧ (∃ t, k.picked = some t ∧ t.taskId = taskId) ∧
      k.Starts v predecessor
  | .addInputRequest requestId taskId eventId contextId claim => k.holdsLease contextId claim ∧
    requestId = approvalRequestId taskId eventId
  | .addClarificationRequest requestId taskId eventId contextId claim =>
    k.holdsLease contextId claim ∧ requestId = approvalRequestId taskId eventId
  | .recordPolicyDecision contextId taskId claim requestId decision =>
    k.holdsLease contextId claim ∧ k.MayDecide contextId taskId requestId decision
  | .recordHumanReview contextId _ claim _ _ => k.holdsLease contextId claim
  | .markClarificationAttempted _ contextId claim => k.holdsLease contextId claim
  | .denyCancelledInputRequest _ contextId claim => k.holdsLease contextId claim
  | .resolveInputRequest _ contextId claim => k.holdsLease contextId claim
  | .markConfirmationAttempted _ contextId claim => k.holdsLease contextId claim
  | .admitTurn _ | .cancelTask _ | .recordHumanRuling _ _ _ => False
  | .findContextByCreationMessageId _ | .findTaskByMessageId _ _ => False
  | .getContext contextId => ∃ claim, k.holdsLease contextId claim
  | .nextQueued contextId => ∃ claim, k.holdsLease contextId claim
  | .listInputRequests _ => ∃ contextId claim, k.holdsLease contextId claim
  | .getTask _ | .getInputRequest _ _
  | .decideClarificationRequest _ _ _ => True

def allowed (k : Known) : Call → Prop
  | .query q => k.allowedQuery q
  | .createSession task contextId _ _ => k.permit = some (.create task contextId)
  | .sendMessage task sessionId _ => k.permit = some (.send task sessionId) ∧
    ∃ v, k.view = .seen v ∧ v.activeTaskId = some task ∧ v.cmaSessionId = some sessionId
  | .confirmTool task _ toolUseId approved _ => ∃ row ∈ k.rows,
    k.permit = some (.confirm row.requestId) ∧ row.taskId = task ∧ row.cmaEventId = toolUseId ∧
    row.status = .resolving ∧ ∃ decision, row.decision = some decision ∧
      approved = (decision == .allow)
  | _ => True

/-! ### What may be answered -/

/-- Replies about a row are about the row asked for. -/
def possibleQuery : (q : Query) → Except Exn q.Reply → Prop
  | .getContext contextId, .ok (some c) => c.contextId = contextId
  | .getTask taskId, .ok (some t) => t.taskId = taskId
  | .activateTask _ taskId _ predecessor, .ok t =>
    t.view = { taskId := taskId, cmaInputEventId := none, cmaPredecessorEventId := predecessor }
  | .listInputRequests taskId, .ok requests => ∀ r ∈ requests, r.taskId = taskId
  | _, _ => True

def possible : (c : Call) → Except Exn c.Reply → Prop
  | .query q, r => possibleQuery q r
  | _, _ => True

end Known

/-- The contract of the controller's programs. -/
def contract : Contract Call Call.Reply Exn Known where
  possible _ c r := Known.possible c r
  allowed := Known.allowed
  learn := Known.learn

end ManagedAgents.Controller
