import Mathlib.Data.List.Sort
import ManagedAgents.Controller.Rows

/-!
The controller's repository: each method is one transaction on the store, from `repository.py`
and `runtime_repository.py`. A transaction answers with a value and the store it leaves, or
raises and leaves the store as it was. Ids the methods draw with `uuid4` are arguments.
-/

namespace ManagedAgents.Controller

open ManagedAgents.Lib

/-- What the programs raise. -/
inductive Exn
  | lostSchedulerClaim | schedulerBusy | valueError | keyError | uniqueViolation
  | checkViolation | definitiveProvider | policy (code : PolicyCode) | timeout | runtimeError
  /-- Any other exception, such as a lost connection. -/
  | other
  deriving DecidableEq

abbrev Tx (α : Type) := Db → Except Exn (α × Db)

namespace Db

def setContext (db : Db) (contextId : ContextId) (f : ContextRow → ContextRow)
    (hf : ∀ c, (f c).contextId = c.contextId := by intro; rfl) : Db :=
  { db with contexts := db.contexts.modify contextId f hf }

def setTask (db : Db) (taskId : TaskId) (f : TaskRow → TaskRow)
    (hf : ∀ t, (f t).taskId = t.taskId := by intro; rfl) : Db :=
  { db with tasks := db.tasks.modify taskId f hf }

def setApprovals (db : Db) (p : ApprovalRow → Bool) (f : ApprovalRow → ApprovalRow)
    (hf : ∀ r, (f r).key = r.key := by intro; rfl) : Db :=
  { db with approvals := db.approvals.update p f hf }

def setClarifications (db : Db) (p : ClarificationRow → Bool)
    (f : ClarificationRow → ClarificationRow)
    (hf : ∀ r, (f r).key = r.key := by intro; rfl) : Db :=
  { db with clarifications := db.clarifications.update p f hf }

/-- The `EXISTS` of every fenced update: the claim holds the context's lease. -/
def leased (db : Db) (contextId : ContextId) (claimId : ClaimId) : Bool :=
  (db.contexts.get? contextId).any (·.holds claimId db.now)

/-- `cma_tasks t JOIN cma_contexts c`, at one task. -/
def joined (db : Db) (taskId : TaskId) : Option (TaskRow × ContextRow) :=
  (db.tasks.get? taskId).bind fun t => (db.contexts.get? t.contextId).map fun c => (t, c)

/-- The task belongs to the context whose lease the claim holds. -/
def leasedTask (db : Db) (taskId : TaskId) (contextId : ContextId) (claimId : ClaimId) : Bool :=
  (db.joined taskId).any fun (_, c) => c.contextId == contextId && c.holds claimId db.now

/-- The task is also the active one and not terminal. -/
def leasedActive (db : Db) (taskId : TaskId) (contextId : ContextId) (claimId : ClaimId) : Bool :=
  (db.joined taskId).any fun (t, c) => c.contextId == contextId &&
    c.activeTaskId == some t.taskId && t.internalState != .terminal && c.holds claimId db.now

def cancelRequested (db : Db) (taskId : TaskId) : Bool :=
  (db.tasks.get? taskId).any (·.cancelRequestedAt.isSome)

end Db

/-! ### Contexts and tasks -/

def getContext (contextId : ContextId) : Tx (Option ContextRow) :=
  fun db => .ok (db.contexts.get? contextId, db)

def getTask (taskId : TaskId) : Tx (Option TaskRow) :=
  fun db => .ok (db.tasks.get? taskId, db)

def findContextByCreationMessageId (messageId : MessageId) : Tx (Option ContextRow) :=
  fun db => .ok ((db.contexts.select (·.creationMessageId == messageId)).head?, db)

def findTaskByMessageId (contextId : ContextId) (messageId : MessageId) : Tx (Option TaskRow) :=
  fun db => .ok ((db.tasks.select fun t =>
    t.contextId == contextId && t.messageId == messageId).head?, db)

structure Admission where
  proposedContextId : ContextId
  requestedContextId : Option ContextId
  messageId : MessageId
  proposedTaskId : TaskId
  inputObjectKey : ObjectKey

/-- The context an admission is for: the one the first message already made, a new one, or the
one requested. -/
def admitContext (a : Admission) : Tx ContextRow := fun db =>
  match a.requestedContextId with
  | none =>
    match (db.contexts.select fun c => c.creationMessageId == a.messageId).head? with
    | some c => .ok (c, db)
    | none =>
      let row : ContextRow :=
        { contextId := a.proposedContextId, creationMessageId := a.messageId }
      match db.contexts.insert row with
      | some contexts => .ok (row, { db with contexts })
      | none => .error .uniqueViolation
  | some contextId =>
    match db.contexts.get? contextId with
    | some c => .ok (c, db)
    | none => .error .keyError

/-- Why a new task of the context would be rejected at once. -/
def rejectionReason (c : ContextRow) (db : Db) : Option HeldReason :=
  if (c.activeTaskId.bind db.tasks.get?).any (·.internalState == .inputRequired) then
    some .inputRequired
  else if c.lifecycleState == .failed then some .contextFailed
  else none

/-- The row an admission inserts, once the context's counter has been moved. -/
def admittedTask (a : Admission) (c : ContextRow) (reason : Option HeldReason) : TaskRow :=
  { taskId := a.proposedTaskId
    contextId := c.contextId
    messageId := a.messageId
    sequence := c.nextSequence - 1
    a2aState := if reason.isSome then .rejected else .submitted
    internalState := if reason.isSome then .terminal else .queued
    inputObjectKey := some a.inputObjectKey
    heldReason := reason
    dispatchAttempts := some 0 }

/-- `admit`: create a context and turn, or recover an existing message id. -/
def admitTurn (a : Admission) : Tx (ContextRow × TaskRow × Bool) := fun db =>
  match admitContext a db with
  | .error e => .error e
  | .ok (c, db) =>
    match (db.tasks.select fun t =>
        t.contextId == c.contextId && t.messageId == a.messageId).head? with
    | some existing => .ok ((c, existing, false), db)
    | none =>
      let db := db.setContext c.contextId fun c => { c with nextSequence := c.nextSequence + 1 }
      match db.contexts.get? c.contextId with
      | none => .error .keyError
      | some c =>
        let task := admittedTask a c (rejectionReason c db)
        if (db.tasks.select fun t =>
            t.contextId == c.contextId && t.sequence == task.sequence).isEmpty then
          match db.tasks.insert task with
          | some tasks => .ok ((c, task, true), { db with tasks })
          | none => .error .uniqueViolation
        else .error .uniqueViolation

def leaseSeconds : ℕ := 60

def claimScheduler (contextId : ContextId) (claimId : ClaimId) : Tx (Option ClaimId) := fun db =>
  let free := (db.contexts.get? contextId).any fun c =>
    c.schedulerClaimId.isNone || c.schedulerLeaseExpiresAt.any (· ≤ db.now)
  if free then
    .ok (some claimId, db.setContext contextId fun c =>
      { c with
        schedulerClaimId := some claimId
        schedulerLeaseExpiresAt := some (db.now + leaseSeconds) })
  else .ok (none, db)

def releaseScheduler (contextId : ContextId) (claimId : ClaimId) : Tx Bool := fun db =>
  if (db.contexts.get? contextId).any (·.schedulerClaimId == some claimId) then
    .ok (true, db.setContext contextId fun c =>
      { c with schedulerClaimId := none, schedulerLeaseExpiresAt := none })
  else .ok (false, db)

/-- The columns `update_context` may set; `none` leaves one alone. -/
structure ContextFields where
  cmaSessionId : Option (Option SessionId) := none
  lifecycleState : Option Lifecycle := none
  activeTaskId : Option (Option TaskId) := none

def ContextRow.set (c : ContextRow) (fields : ContextFields) : ContextRow :=
  { c with
    cmaSessionId := fields.cmaSessionId.getD c.cmaSessionId
    lifecycleState := fields.lifecycleState.getD c.lifecycleState
    activeTaskId := fields.activeTaskId.getD c.activeTaskId }

/-- The columns `update_task` is used to set; `none` leaves one alone. -/
structure TaskFields where
  a2aState : Option A2aState := none
  internalState : Option InternalState := none
  cmaInputEventId : Option (Option EventId) := none
  inputObjectKey : Option (Option ObjectKey) := none
  cmaTerminalEventId : Option (Option EventId) := none
  cancelAttemptedAt : Option (Option Time) := none
  heldReason : Option (Option HeldReason) := none

def TaskRow.set (t : TaskRow) (fields : TaskFields) : TaskRow :=
  { t with
    a2aState := fields.a2aState.getD t.a2aState
    internalState := fields.internalState.getD t.internalState
    cmaInputEventId := fields.cmaInputEventId.getD t.cmaInputEventId
    inputObjectKey := fields.inputObjectKey.getD t.inputObjectKey
    cmaTerminalEventId := fields.cmaTerminalEventId.getD t.cmaTerminalEventId
    cancelAttemptedAt := fields.cancelAttemptedAt.getD t.cancelAttemptedAt
    heldReason := fields.heldReason.getD t.heldReason }

def updateContext (contextId : ContextId) (claimId : ClaimId) (fields : ContextFields) :
    Tx ContextRow := fun db =>
  match db.contexts.get? contextId with
  | none => .error .lostSchedulerClaim
  | some c =>
    if !db.leased contextId claimId then .error .lostSchedulerClaim
    else if !(c.set fields).check then .error .checkViolation
    else if (c.set fields).cmaSessionId.isSome && !(db.contexts.select fun o =>
        o.contextId != contextId && o.cmaSessionId == (c.set fields).cmaSessionId).isEmpty then
      .error .uniqueViolation
    else .ok (c.set fields, db.setContext contextId (·.set fields))

def updateTask (taskId : TaskId) (contextId : ContextId) (claimId : ClaimId)
    (fields : TaskFields) : Tx TaskRow := fun db =>
  match db.tasks.get? taskId with
  | none => .error .lostSchedulerClaim
  | some t =>
    if !db.leased contextId claimId then .error .lostSchedulerClaim
    else .ok (t.set fields, db.setTask taskId (·.set fields))

inductive Resolution
  | fail | retry
  deriving DecidableEq

/-- Resolve an active held task atomically under the scheduler lease. -/
def resolveHeldTask (taskId : TaskId) (claimId : ClaimId) (resolution : Resolution) :
    Tx ContextId := fun db =>
  match (db.joined taskId).filter fun (_, c) => c.holds claimId db.now with
  | none => .error .valueError
  | some (t, c) =>
    if t.internalState == .terminal || t.heldReason.isNone || c.activeTaskId != some taskId then
      .error .valueError
    else match resolution with
    | .retry =>
      if !(t.heldReason == some .ambiguousSend || t.heldReason == some .ambiguousDispatch)
          || t.cmaInputEventId.isSome || c.cmaSessionId.isNone || t.cancelRequestedAt.isSome then
        .error .valueError
      else
        let db := db.setTask taskId fun t =>
          { t with
            internalState := .queued
            a2aState := .submitted
            heldReason := none
            cmaPredecessorEventId := none }
        .ok (c.contextId, db.setContext c.contextId fun c => { c with activeTaskId := none })
    | .fail =>
      let db := db.setTask taskId fun t =>
        { t with internalState := .terminal, a2aState := .failed, heldReason := none }
      .ok (c.contextId, db.setContext c.contextId fun c =>
        { c with
          activeTaskId := none
          lifecycleState := if c.cmaSessionId.isNone then .failed else c.lifecycleState })

/-- The first of some rows by sequence. -/
def firstBySequence : List TaskRow → Option TaskRow
  | [] => none
  | t :: rest =>
    match firstBySequence rest with
    | none => some t
    | some u => if u.sequence < t.sequence then some u else some t

def nextQueued (contextId : ContextId) : Tx (Option TaskRow) := fun db =>
  .ok (firstBySequence (db.tasks.select fun t =>
    t.contextId == contextId && t.internalState == .queued), db)

/-- Bind the one active task and its dispatch marker in one transaction. -/
def activateTask (contextId : ContextId) (taskId : TaskId) (claimId : ClaimId)
    (predecessorEventId : Option EventId) : Tx TaskRow := fun db =>
  match db.contexts.get? contextId, db.tasks.get? taskId with
  | some c, some t =>
    if c.holds claimId db.now && c.activeTaskId.isNone && t.contextId == contextId
        && t.internalState == .queued then
      let activate := fun t : TaskRow =>
        { t with
          internalState := .dispatching
          cmaPredecessorEventId := predecessorEventId
          dispatchAttempts := some (t.dispatchAttempts.getD 0 + 1) }
      let db := db.setContext contextId fun c => { c with activeTaskId := some taskId }
      .ok (activate t, db.setTask taskId activate)
    else .error .lostSchedulerClaim
  | _, _ => .error .lostSchedulerClaim

def cancelTask (taskId : TaskId) : Tx (Option TaskRow) := fun db =>
  match db.tasks.get? taskId with
  | none => .ok (none, db)
  | some t =>
    if t.internalState == .queued then
      let cancel := fun t : TaskRow => { t with a2aState := .canceled, internalState := .terminal }
      .ok (some (cancel t), db.setTask taskId cancel)
    else if t.internalState != .terminal then
      let cancel := fun t : TaskRow =>
        { t with cancelRequestedAt := some (t.cancelRequestedAt.getD db.now) }
      .ok (some (cancel t), db.setTask taskId cancel)
    else .ok (some t, db)

/-! ### Requests for human input -/

/-- One condition on an approval row and the task and lease it is guarded by. -/
abbrev Guard := ApprovalRow → Bool

def addInputRequest (requestId : RequestId) (taskId : TaskId) (cmaEventId : EventId)
    (contextId : ContextId) (claimId : ClaimId) : Tx Unit := fun db =>
  let row : ApprovalRow := { requestId, taskId, cmaEventId, createdAt := db.now }
  if !db.leased contextId claimId then .ok ((), db)
  else match db.approvals.insert row with
    | none => .ok ((), db)
    | some approvals =>
      if (db.approvals.select (·.requestId == requestId)).isEmpty then
        .ok ((), { db with approvals })
      else .error .uniqueViolation

def addClarificationRequest (requestId : RequestId) (taskId : TaskId) (cmaEventId : EventId)
    (contextId : ContextId) (claimId : ClaimId) : Tx Unit := fun db =>
  let row : ClarificationRow := { requestId, taskId, cmaEventId, createdAt := db.now }
  if !db.leased contextId claimId then .ok ((), db)
  else match db.clarifications.insert row with
    | none => .ok ((), db)
    | some clarifications =>
      if (db.clarifications.select (·.requestId == requestId)).isEmpty then
        .ok ((), { db with clarifications })
      else .error .uniqueViolation

/-- A fixed order on request ids, standing for the order of their text. -/
def RequestId.le : RequestId → RequestId → Bool
  | .approval task event, .approval task' event' =>
    task < task' || task == task' && event ≤ event'
  | .approval _ _, .random _ => true
  | .random _, .approval _ _ => false
  | .random n, .random n' => n ≤ n'

/-- The sort key `(created_at, request_id)`. -/
def Request.le (a b : Request) : Bool :=
  a.createdAt < b.createdAt || a.createdAt == b.createdAt && a.requestId.le b.requestId

def Db.requestsOf (db : Db) (taskId : TaskId) : List Request :=
  (db.approvals.select (·.taskId == taskId)).map .approval ++
    (db.clarifications.select (·.taskId == taskId)).map .clarification

def listInputRequests (taskId : TaskId) : Tx (List Request) := fun db =>
  .ok ((db.requestsOf taskId).insertionSort (Request.le · ·), db)

def getInputRequest (requestId : RequestId) (taskId : TaskId) : Tx (Option Request) := fun db =>
  .ok ((db.requestsOf taskId).find? (·.requestId == requestId), db)

/-- The rows a decision or an offer may be recorded in. -/
def Db.undecided (db : Db) (contextId : ContextId) (taskId : TaskId) (claimId : ClaimId)
    (requestId : RequestId) : Guard := fun r =>
  r.requestId == requestId && r.taskId == taskId && r.status == .pending
    && r.decision.isNone && r.confirmationAttemptedAt.isNone
    && db.leasedActive r.taskId contextId claimId && !db.cancelRequested r.taskId

/-- Commit the authorization checkpoint before any provider side effect. -/
def recordPolicyDecision (contextId : ContextId) (taskId : TaskId) (claimId : ClaimId)
    (requestId : RequestId) (decision : Ruling) : Tx Unit := fun db =>
  let guard := db.undecided contextId taskId claimId requestId
  if (db.approvals.select guard).isEmpty then .error .lostSchedulerClaim
  else .ok ((), db.setApprovals guard fun r =>
    { r with decision := some decision, status := .resolving })

/-- What an offer shows: its digest, authority and text, or nothing to withdraw it. -/
structure Offer where
  digest : Option Digest := none
  authority : Option Authority := none
  objectKey : Option ObjectKey := none

/-- The row with a new offer under a new id. -/
def ApprovalRow.rotate (r : ApprovalRow) (offer : Offer) (fresh : ℕ) : ApprovalRow :=
  { r with
    requestId := .random fresh
    reviewDigest := offer.digest
    reviewAuthority := offer.authority
    reviewObjectKey := offer.objectKey
    humanRuling := none }

/-- Rotate the surface id on every new offer; an old button cannot grant new consent. -/
def recordHumanReview (contextId : ContextId) (taskId : TaskId) (claimId : ClaimId)
    (requestId : RequestId) (offer : Offer) (fresh : ℕ) : Tx Unit := fun db =>
  let guard := db.undecided contextId taskId claimId requestId
  if (db.approvals.select guard).isEmpty then .error .lostSchedulerClaim
  else .ok ((), db.setApprovals guard (·.rotate offer fresh))

/-- First authenticated ruling wins; repeated identical submissions are idempotent. -/
def recordHumanRuling (requestId : RequestId) (taskId : TaskId) (ruling : Ruling) :
    Tx Bool := fun db =>
  let visible : Guard := fun r =>
    r.requestId == requestId && r.taskId == taskId && r.reviewDigest.isSome
      && (db.joined r.taskId).any fun (t, c) => c.activeTaskId == some t.taskId
        && t.cancelRequestedAt.isNone && t.internalState != .terminal
  match (db.approvals.select visible).head? with
  | none => .ok (false, db)
  | some r =>
    if r.humanRuling.isSome then .ok (r.humanRuling == some ruling, db)
    else if r.status != .pending || r.reviewObjectKey.isNone then .ok (false, db)
    else .ok (true, db.setApprovals (·.requestId == requestId) fun r =>
      { r with humanRuling := some ruling })

def decideClarificationRequest (requestId : RequestId) (taskId : TaskId)
    (answerObjectKey : ObjectKey) : Tx (Option ClarificationRow) := fun db =>
  let guard : ClarificationRow → Bool := fun r =>
    r.requestId == requestId && r.taskId == taskId && r.status == .pending
      && (db.tasks.get? r.taskId).any fun t =>
        t.internalState == .inputRequired || t.cancelRequestedAt.isSome
  let decided := db.setClarifications guard fun r =>
    { r with status := .resolving, answerObjectKey := some answerObjectKey }
  .ok ((decided.clarifications.select fun r =>
    r.requestId == requestId && r.taskId == taskId).head?, decided)

def markClarificationAttempted (requestId : RequestId) (contextId : ContextId)
    (claimId : ClaimId) : Tx Bool := fun db =>
  let guard : ClarificationRow → Bool := fun r =>
    r.requestId == requestId && r.status == .resolving && r.responseAttemptedAt.isNone
      && db.leasedTask r.taskId contextId claimId
  .ok (!(db.clarifications.select guard).isEmpty, db.setClarifications guard fun r =>
    { r with responseAttemptedAt := some db.now })

/-- The rows the cleanup of a cancellation denies. -/
def Db.deniable (db : Db) (requestId : RequestId) (contextId : ContextId) (claimId : ClaimId) :
    Guard := fun r =>
  r.requestId == requestId && (r.status == .pending || r.status == .resolving)
    && r.confirmationAttemptedAt.isNone && db.leasedActive r.taskId contextId claimId
    && db.cancelRequested r.taskId

/-- Cancellation cleanup is independent of policy availability and remains fenced. -/
def denyCancelledInputRequest (requestId : RequestId) (contextId : ContextId)
    (claimId : ClaimId) : Tx Unit := fun db =>
  .ok ((), db.setApprovals (db.deniable requestId contextId claimId) fun r =>
    { r with status := .resolving, decision := some .deny })

/-- The rows that are resolved. -/
def Db.resolvable (db : Db) (requestId : RequestId) (contextId : ContextId) (claimId : ClaimId) :
    Guard := fun r =>
  r.requestId == requestId && r.status == .resolving && db.leasedTask r.taskId contextId claimId

def resolveInputRequest (requestId : RequestId) (contextId : ContextId) (claimId : ClaimId) :
    Tx Unit := fun db =>
  let clarification : ClarificationRow → Bool := fun r => r.requestId == requestId
    && r.status == .resolving && db.leasedTask r.taskId contextId claimId
  let db := db.setApprovals (db.resolvable requestId contextId claimId) fun r =>
    { r with status := .resolved }
  .ok ((), db.setClarifications clarification fun r => { r with status := .resolved })

/-- The rows whose confirmation may be sent, once. -/
def Db.confirmable (db : Db) (requestId : RequestId) (contextId : ContextId) (claimId : ClaimId) :
    Guard := fun r =>
  r.requestId == requestId && r.status == .resolving && r.confirmationAttemptedAt.isNone
    && (r.decision == some .deny || !db.cancelRequested r.taskId) && r.decision.isSome
    && db.leasedActive r.taskId contextId claimId

def markConfirmationAttempted (requestId : RequestId) (contextId : ContextId)
    (claimId : ClaimId) : Tx Bool := fun db =>
  let guard := db.confirmable requestId contextId claimId
  .ok (!(db.approvals.select guard).isEmpty, db.setApprovals guard fun r =>
    { r with confirmationAttemptedAt := some db.now })

/-! ### The garbage collector's view -/

/-- The object keys some row still needs. -/
def Db.pendingInputKeys (db : Db) : List ObjectKey :=
  db.tasks.rows.filterMap (·.inputObjectKey) ++
  (db.approvals.select (·.status != .resolved)).filterMap (·.decisionReasonObjectKey) ++
  (db.approvals.select fun r => r.status != .resolved &&
    (db.tasks.get? r.taskId).any (·.internalState != .terminal)).filterMap (·.reviewObjectKey) ++
  (db.clarifications.select (·.status != .resolved)).filterMap (·.answerObjectKey)

end ManagedAgents.Controller
