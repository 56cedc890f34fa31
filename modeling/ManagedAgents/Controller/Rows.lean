import ManagedAgents.Lib.Table

/-!
The rows the controller store keeps: contexts, tasks, tool approvals and clarifications.

Identifiers are opaque, non-empty tokens. A request id is either the stable one derived from a
task and a provider event, or one of the random ones that replace it when an offer is rotated.
Timestamps of rows that nothing reads are left out.
-/

namespace ManagedAgents.Controller

open ManagedAgents.Lib

abbrev ContextId := ℕ
abbrev TaskId := ℕ
abbrev MessageId := ℕ
abbrev ClaimId := ℕ
abbrev SessionId := ℕ
abbrev EventId := ℕ
abbrev ObjectKey := ℕ
abbrev Digest := ℕ
abbrev Authority := ℕ
abbrev Time := ℕ
abbrev Text := String

inductive RequestId
  | approval (task : TaskId) (event : EventId)
  | random (n : ℕ)
  deriving DecidableEq

/-- Stable opaque identity: a name-based hash, taken to be injective. -/
def approvalRequestId (taskId : TaskId) (providerEventId : EventId) : RequestId :=
  .approval taskId providerEventId

inductive Lifecycle
  | initializing | ready | failed
  deriving DecidableEq

inductive InternalState
  | queued | dispatching | waiting | inputRequired | interrupting | terminal
  deriving DecidableEq

inductive A2aState
  | submitted | working | inputRequired | completed | failed | canceled | rejected
  deriving DecidableEq

inductive RequestStatus
  | pending | resolving | resolved
  deriving DecidableEq

/-- A decision on a tool call, or a human ruling on one. -/
inductive Ruling
  | allow | deny
  deriving DecidableEq

/-- The reasons that begin with `policy-`. -/
inductive PolicyCode
  | unavailable | invalidRequest | invalidResponse | publicationFailure | runtimeTimeout
  | runtimeFailure | invalidPolicy | unsupportedPolicy | remedyUnsupported | staleReview
  | unpublishedDecision
  deriving DecidableEq

inductive HeldReason
  | ambiguousCreate | initialInputNotVisible | ambiguousSend | inputEventNotReturned
  | ambiguousDispatch | ambiguousConfirmation | ambiguousInterrupt
  | policy (code : PolicyCode)
  | contextFailed | inputRequired
  deriving DecidableEq

def HeldReason.isPolicy : HeldReason → Bool
  | .policy _ => true
  | _ => false

structure ContextRow where
  contextId : ContextId
  creationMessageId : MessageId
  cmaSessionId : Option SessionId := none
  lifecycleState : Lifecycle := .initializing
  nextSequence : ℕ := 1
  activeTaskId : Option TaskId := none
  schedulerClaimId : Option ClaimId := none
  schedulerLeaseExpiresAt : Option Time := none
  deriving DecidableEq

/-- The table's check: an initializing context has no session and a ready one has. -/
def ContextRow.check (c : ContextRow) : Bool :=
  match c.lifecycleState with
  | .initializing => c.cmaSessionId.isNone
  | .ready => c.cmaSessionId.isSome
  | .failed => true

/-- `scheduler_claim_id = claim AND scheduler_lease_expires_at > CURRENT_TIMESTAMP`. -/
def ContextRow.holds (c : ContextRow) (claim : ClaimId) (now : Time) : Bool :=
  c.schedulerClaimId == some claim && c.schedulerLeaseExpiresAt.any (now < ·)

structure TaskRow where
  taskId : TaskId
  contextId : ContextId
  messageId : MessageId
  sequence : ℕ
  a2aState : A2aState
  internalState : InternalState
  cmaInputEventId : Option EventId := none
  inputObjectKey : Option ObjectKey := none
  cmaPredecessorEventId : Option EventId := none
  cmaTerminalEventId : Option EventId := none
  dispatchAttempts : Option ℕ := none
  cancelRequestedAt : Option Time := none
  cancelAttemptedAt : Option Time := none
  heldReason : Option HeldReason := none
  deriving DecidableEq

/-- A row of `cma_input_requests`, always of kind `tool_approval`. -/
structure ApprovalRow where
  requestId : RequestId
  taskId : TaskId
  cmaEventId : EventId
  status : RequestStatus := .pending
  decision : Option Ruling := none
  decisionReasonObjectKey : Option ObjectKey := none
  confirmationAttemptedAt : Option Time := none
  reviewDigest : Option Digest := none
  reviewAuthority : Option Authority := none
  reviewObjectKey : Option ObjectKey := none
  humanRuling : Option Ruling := none
  createdAt : Time
  deriving DecidableEq

/-- A row of `cma_clarification_requests`. -/
structure ClarificationRow where
  requestId : RequestId
  taskId : TaskId
  cmaEventId : EventId
  status : RequestStatus := .pending
  answerObjectKey : Option ObjectKey := none
  responseAttemptedAt : Option Time := none
  createdAt : Time
  deriving DecidableEq

/-- What identifies a request besides its id: the task and the event it is about. -/
def ApprovalRow.key (r : ApprovalRow) : TaskId × EventId := (r.taskId, r.cmaEventId)
def ClarificationRow.key (r : ClarificationRow) : TaskId × EventId := (r.taskId, r.cmaEventId)

/-- A request of either kind, as `list_input_requests` returns them. -/
inductive Request
  | approval (row : ApprovalRow)
  | clarification (row : ClarificationRow)
  deriving DecidableEq

namespace Request

def requestId : Request → RequestId
  | approval r => r.requestId
  | clarification r => r.requestId

def taskId : Request → TaskId
  | approval r => r.taskId
  | clarification r => r.taskId

def cmaEventId : Request → EventId
  | approval r => r.cmaEventId
  | clarification r => r.cmaEventId

def status : Request → RequestStatus
  | approval r => r.status
  | clarification r => r.status

def createdAt : Request → Time
  | approval r => r.createdAt
  | clarification r => r.createdAt

end Request

structure Db where
  contexts : Table ContextRow.contextId := .empty
  tasks : Table TaskRow.taskId := .empty
  approvals : Table ApprovalRow.key := .empty
  clarifications : Table ClarificationRow.key := .empty
  now : Time := 0

end ManagedAgents.Controller
