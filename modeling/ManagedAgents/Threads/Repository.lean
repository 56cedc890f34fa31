import ManagedAgents.Controller.Rows

/-!
Threads, their surface bindings and logical sends, from `thread_repository.py` and `repository.ts`,
and the identities of `repositories.py`.

Each method is one transaction, or one of the two halves of a transaction that reads before it
writes. A transaction that is aborted and run again leaves nothing behind, and is not written out.
Ids are opaque tokens, and those the methods draw with `uuid4` are arguments.
-/

namespace ManagedAgents.Threads

open ManagedAgents.Lib
open ManagedAgents.Controller (ContextId TaskId MessageId ClaimId Time Text)

abbrev ThreadId := ℕ
abbrev PrincipalId := ℕ
abbrev AgentId := ℕ
abbrev BindingId := ℕ
abbrev CreationRequestId := ℕ

inductive ContextState
  | uninitialized | initializing | ready
  deriving DecidableEq

structure ThreadRow where
  threadId : ThreadId
  principalId : PrincipalId
  agentId : AgentId
  creationRequestId : Option CreationRequestId := none
  title : Option Text := none
  contextId : Option ContextId := none
  contextState : ContextState := .uninitialized
  contextInitClaimId : Option ClaimId := none
  contextInitLeaseExpiresAt : Option Time := none
  archivedAt : Option Time := none
  deriving DecidableEq

structure SurfaceBinding where
  bindingId : BindingId
  threadId : ThreadId
  surface : String
  tenantId : String
  externalThreadId : String
  deriving DecidableEq

/-- What a surface's thread is bound by, once. -/
def SurfaceBinding.place (b : SurfaceBinding) : String × String × String :=
  (b.surface, b.tenantId, b.externalThreadId)

inductive SubmissionStatus
  | pending | bound | failed
  deriving DecidableEq

/-- A row of `agent_tasks`: a logical send, and the task it became. -/
structure AgentTask where
  taskBindingId : BindingId
  threadId : ThreadId
  agentId : AgentId
  clientMessageId : MessageId
  taskId : Option TaskId := none
  submissionStatus : SubmissionStatus := .pending
  deriving DecidableEq

def AgentTask.send (r : AgentTask) : ThreadId × MessageId := (r.threadId, r.clientMessageId)

structure ExternalIdentity where
  principalId : PrincipalId
  provider : String
  tenantId : String
  externalUserId : String
  deriving DecidableEq

def ExternalIdentity.user (r : ExternalIdentity) : String × String × String :=
  (r.provider, r.tenantId, r.externalUserId)

structure Db where
  threads : Table ThreadRow.threadId := .empty
  bindings : Table SurfaceBinding.place := .empty
  tasks : Table AgentTask.send := .empty
  identities : Table ExternalIdentity.user := .empty
  now : Time := 0

/-- What the programs raise. -/
inductive Exn
  | valueError | keyError | runtimeError | bindingConflict | uniqueViolation | surfaceCreationRace
  /-- The controller explicitly rejected the request before a task was admitted. -/
  | definitiveRequest
  | retryableControlPlane | retryablePushSetup | retryableDelivery | recursionError
  /-- Any other exception, such as a lost connection. -/
  | other
  deriving DecidableEq

abbrev Tx (α : Type) := Db → Except Exn (α × Db)

/-- The thread's row changed, but for its id. -/
def Db.setThread (db : Db) (threadId : ThreadId) (f : ThreadRow → ThreadRow)
    (hf : ∀ r, (f r).threadId = r.threadId) : Db :=
  { db with threads := db.threads.modify threadId f hf }

/-! ### Identities -/

def resolveExternalIdentity (provider tenantId externalUserId : String) : Tx (Option PrincipalId) :=
  fun db => .ok ((db.identities.get? (provider, tenantId, externalUserId)).map (·.principalId), db)

/-- `ON CONFLICT DO UPDATE`: the user's principal is replaced. -/
def mapExternalIdentity (principalId : PrincipalId) (provider tenantId externalUserId : String) :
    Tx Unit := fun db =>
  match db.identities.insert { principalId, provider, tenantId, externalUserId } with
  | some identities => .ok ((), { db with identities })
  | none =>
    .ok ((),
      { db with
        identities := db.identities.modify (provider, tenantId, externalUserId)
          (fun r => { r with principalId }) fun _ => rfl })

/-! ### Threads -/

def insertThread (row : ThreadRow) : Tx ThreadRow := fun db =>
  match db.threads.insert row with
  | some threads => .ok (row, { db with threads })
  | none => .error .uniqueViolation

def createThread (principalId : PrincipalId) (agentId : AgentId) (title : Option Text)
    (fresh : ThreadId) : Tx ThreadRow :=
  insertThread { threadId := fresh, principalId, agentId, title }

/-- A creation request is answered with the thread it made before. -/
def createThreadIdempotent (principalId : PrincipalId) (agentId : AgentId)
    (creationRequestId : CreationRequestId) (title : Option Text) (fresh : ThreadId) :
    Tx ThreadRow :=
  fun db =>
  match (db.threads.select fun r =>
      r.principalId == principalId && r.creationRequestId == some creationRequestId).head? with
  | some row => if row.agentId = agentId then .ok (row, db) else .error .bindingConflict
  | none =>
    insertThread
      { threadId := fresh
        principalId
        agentId
        creationRequestId := some creationRequestId
        title } db

def getThread (threadId : ThreadId) : Tx (Option ThreadRow) :=
  fun db => .ok (db.threads.get? threadId, db)

def updateTitleIfEmpty (threadId : ThreadId) (title : Text) : Tx Unit := fun db =>
  .ok ((), db.setThread threadId (fun r =>
    if r.title.all (·.isEmpty) then { r with title := some (String.ofList (title.toList.take 60)) }
    else r) fun r => by split <;> rfl)

def archiveThread (principalId : PrincipalId) (threadId : ThreadId) : Tx Unit := fun db =>
  .ok ((), db.setThread threadId (fun r =>
    if r.principalId = principalId ∧ r.archivedAt = none then { r with archivedAt := some db.now }
    else r) fun r => by split <;> rfl)

def restoreThread (principalId : PrincipalId) (threadId : ThreadId) : Tx Unit := fun db =>
  .ok ((), db.setThread threadId (fun r =>
    if r.principalId = principalId then { r with archivedAt := none } else r) fun r => by
      split <;> rfl)

/-- The principal's thread, which is not archived. -/
def ThreadRow.ownedBy (r : ThreadRow) (principalId : PrincipalId) : Bool :=
  r.principalId == principalId && r.archivedAt.isNone

def ownsThread (principalId : PrincipalId) (threadId : ThreadId) : Tx Bool :=
  fun db => .ok ((db.threads.get? threadId).any (·.ownedBy principalId), db)

/-! ### Surface bindings -/

section

variable (surface tenantId externalThreadId : String)

def getSurfaceBinding : Tx (Option SurfaceBinding) :=
  fun db => .ok (db.bindings.get? (surface, tenantId, externalThreadId), db)

/-- The binding joined with its thread, as `get_or_create_surface_thread` reads it. -/
def selectSurfaceThread : Tx (Option (ThreadRow × SurfaceBinding)) := fun db =>
  .ok ((db.bindings.get? (surface, tenantId, externalThreadId)).bind fun b =>
    (db.threads.get? b.threadId).map fun r => (r, b), db)

/-- A new thread and its binding, unless the place was bound meanwhile; then both are rolled back.
-/
def insertSurfaceThread (principalId : PrincipalId) (agentId : AgentId) (title : Option Text)
    (fresh : ℕ) : Tx (Option (ThreadRow × SurfaceBinding)) := fun db =>
  match insertThread { threadId := fresh, principalId, agentId, title } db with
  | .error e => .error e
  | .ok (row, created) =>
    let binding : SurfaceBinding :=
      { bindingId := fresh, threadId := fresh, surface, tenantId, externalThreadId }
    match created.bindings.insert binding with
    | some bindings => .ok (some (row, binding), { created with bindings })
    | none => .ok (none, db)

def bindSurface (threadId : ThreadId) (fresh : BindingId) : Tx SurfaceBinding := fun db =>
  match db.bindings.get? (surface, tenantId, externalThreadId) with
  | some b => if b.threadId = threadId then .ok (b, db) else .error .bindingConflict
  | none =>
    if (db.threads.get? threadId).isNone then .error .other
    else
      let binding : SurfaceBinding :=
        { bindingId := fresh, threadId, surface, tenantId, externalThreadId }
      match db.bindings.insert binding with
      | some bindings => .ok (binding, { db with bindings })
      | none => .error .bindingConflict

end

/-! ### Logical sends -/

def recordLogicalSend (threadId : ThreadId) (agentId : AgentId) (clientMessageId : MessageId)
    (fresh : BindingId) : Tx AgentTask := fun db =>
  match db.threads.get? threadId with
  | none => .error .keyError
  | some thread =>
    if thread.agentId ≠ agentId then .error .bindingConflict
    else
      match db.tasks.get? (threadId, clientMessageId) with
      | some row => if row.agentId = agentId then .ok (row, db) else .error .bindingConflict
      | none =>
        let row : AgentTask := { taskBindingId := fresh, threadId, agentId, clientMessageId }
        match db.tasks.insert row with
        | some tasks => .ok (row, { db with tasks })
        | none => .error .uniqueViolation

/-- The task's binding, of which an agent has one. -/
def getTaskBinding (agentId : AgentId) (taskId : TaskId) : Tx (Option AgentTask) :=
  fun db => .ok ((db.tasks.select fun r =>
    r.agentId == agentId && r.taskId == some taskId).head?, db)

def AgentTask.bind (r : AgentTask) (taskId : TaskId) : AgentTask :=
  { r with taskId := some taskId, submissionStatus := .bound }

@[simp] lemma AgentTask.bind_send (r : AgentTask) (taskId : TaskId) :
    (r.bind taskId).send = r.send :=
  rfl

def bindTaskId (threadId : ThreadId) (clientMessageId : MessageId) (taskId : TaskId) :
    Tx AgentTask :=
  fun db =>
  match db.tasks.get? (threadId, clientMessageId) with
  | none => .error .keyError
  | some row =>
    if row.submissionStatus = .pending ∧ row.taskId = none then
      if (db.tasks.select fun r => r.agentId == row.agentId && r.taskId == some taskId).isEmpty then
        .ok (row.bind taskId,
          { db with
            tasks :=
              db.tasks.modify (threadId, clientMessageId) (·.bind taskId) (·.bind_send taskId) })
      else .error .bindingConflict
    else if row.taskId = some taskId ∧ row.submissionStatus = .bound then .ok (row, db)
    else .error .bindingConflict

/-! ### The initialization of a thread's context -/

inductive ContextClaim
  | acquired (claimId : ClaimId)
  | busy
  | ready (contextId : ContextId)
  deriving DecidableEq

/-- Nobody initializes the thread's context under a running lease, and it has none. -/
def ThreadRow.claimable (r : ThreadRow) (now : Time) : Bool :=
  r.contextState == .uninitialized ||
    r.contextState == .initializing && r.contextInitLeaseExpiresAt.all (· ≤ now)

def claimContextInitialization (threadId : ThreadId) (leaseDurationSeconds : ℕ) (fresh : ClaimId) :
    Tx ContextClaim := fun db =>
  match db.threads.get? threadId with
  | none => .error .keyError
  | some row =>
    if row.claimable db.now then
      .ok (.acquired fresh, db.setThread threadId (fun r =>
        { r with
          contextState := .initializing
          contextInitClaimId := some fresh
          contextInitLeaseExpiresAt := some (db.now + leaseDurationSeconds) }) fun _ => rfl)
    else
      match row.contextState, row.contextId with
      | .ready, some contextId => .ok (.ready contextId, db)
      | _, _ => .ok (.busy, db)

/-- The claim still holds the lease under which the thread's context is initialized. -/
def ThreadRow.initializes (r : ThreadRow) (claimId : ClaimId) (now : Time) : Bool :=
  r.contextState == .initializing && r.contextInitClaimId == some claimId
    && r.contextInitLeaseExpiresAt.any (now < ·)

def ThreadRow.bindContext (r : ThreadRow) (contextId : ContextId) : ThreadRow :=
  { r with
    contextId := some contextId
    contextState := .ready
    contextInitClaimId := none
    contextInitLeaseExpiresAt := none }

@[simp] lemma ThreadRow.bindContext_threadId (r : ThreadRow) (contextId : ContextId) :
    (r.bindContext contextId).threadId = r.threadId := rfl

/-- An agent's context belongs to one thread. -/
def bindContext (threadId : ThreadId) (claimId : ClaimId) (contextId : ContextId) : Tx ThreadRow :=
  fun db =>
  match db.threads.get? threadId with
  | none => .error .keyError
  | some row =>
    if row.initializes claimId db.now then
      if (db.threads.select fun r =>
          r.agentId == row.agentId && r.contextId == some contextId).isEmpty then
        .ok (row.bindContext contextId,
          db.setThread threadId (·.bindContext contextId) (·.bindContext_threadId contextId))
      else .error .bindingConflict
    else if row.contextState = .ready ∧ row.contextId = some contextId then .ok (row, db)
    else .error .bindingConflict

def releaseContextInitialization (threadId : ThreadId) (claimId : ClaimId) : Tx Unit := fun db =>
  .ok ((), db.setThread threadId (fun r =>
    if r.contextState = .initializing ∧ r.contextInitClaimId = some claimId then
      { r with
        contextState := .uninitialized
        contextInitClaimId := none
        contextInitLeaseExpiresAt := none }
    else r) fun r => by split <;> rfl)

/-! ### The methods -/

/-- A repository method with its arguments. -/
inductive Query
  | resolveExternalIdentity (provider tenantId externalUserId : String)
  | mapExternalIdentity (principalId : PrincipalId) (provider tenantId externalUserId : String)
  | createThread (principalId : PrincipalId) (agentId : AgentId) (title : Option Text)
  | createThreadIdempotent (principalId : PrincipalId) (agentId : AgentId)
      (creationRequestId : CreationRequestId) (title : Option Text)
  | getThread (threadId : ThreadId)
  | updateTitleIfEmpty (threadId : ThreadId) (title : Text)
  | archiveThread (principalId : PrincipalId) (threadId : ThreadId)
  | restoreThread (principalId : PrincipalId) (threadId : ThreadId)
  | ownsThread (principalId : PrincipalId) (threadId : ThreadId)
  | getSurfaceBinding (surface tenantId externalThreadId : String)
  | selectSurfaceThread (surface tenantId externalThreadId : String)
  | insertSurfaceThread (surface tenantId externalThreadId : String) (principalId : PrincipalId)
      (agentId : AgentId) (title : Option Text)
  | bindSurface (surface tenantId externalThreadId : String) (threadId : ThreadId)
  | recordLogicalSend (threadId : ThreadId) (agentId : AgentId) (clientMessageId : MessageId)
  | getTaskBinding (agentId : AgentId) (taskId : TaskId)
  | bindTaskId (threadId : ThreadId) (clientMessageId : MessageId) (taskId : TaskId)
  | claimContextInitialization (threadId : ThreadId) (leaseDurationSeconds : ℕ)
  | bindContext (threadId : ThreadId) (claimId : ClaimId) (contextId : ContextId)
  | releaseContextInitialization (threadId : ThreadId) (claimId : ClaimId)

namespace Query

@[reducible] def Reply : Query → Type
  | resolveExternalIdentity _ _ _ => Option PrincipalId
  | createThread _ _ _ => ThreadRow
  | createThreadIdempotent _ _ _ _ => ThreadRow
  | getThread _ => Option ThreadRow
  | ownsThread _ _ => Bool
  | getSurfaceBinding _ _ _ => Option SurfaceBinding
  | selectSurfaceThread _ _ _ => Option (ThreadRow × SurfaceBinding)
  | insertSurfaceThread _ _ _ _ _ _ => Option (ThreadRow × SurfaceBinding)
  | bindSurface _ _ _ _ => SurfaceBinding
  | recordLogicalSend _ _ _ => AgentTask
  | getTaskBinding _ _ => Option AgentTask
  | bindTaskId _ _ _ => AgentTask
  | claimContextInitialization _ _ => ContextClaim
  | bindContext _ _ _ => ThreadRow
  | _ => Unit

/-- The method's transaction; `fresh` is the id it draws, if it draws one. -/
def run (fresh : ℕ) : (q : Query) → Tx q.Reply
  | resolveExternalIdentity provider tenantId externalUserId =>
    Threads.resolveExternalIdentity provider tenantId externalUserId
  | mapExternalIdentity principalId provider tenantId externalUserId =>
    Threads.mapExternalIdentity principalId provider tenantId externalUserId
  | createThread principalId agentId title => Threads.createThread principalId agentId title fresh
  | createThreadIdempotent principalId agentId creationRequestId title =>
    Threads.createThreadIdempotent principalId agentId creationRequestId title fresh
  | getThread threadId => Threads.getThread threadId
  | updateTitleIfEmpty threadId title => Threads.updateTitleIfEmpty threadId title
  | archiveThread principalId threadId => Threads.archiveThread principalId threadId
  | restoreThread principalId threadId => Threads.restoreThread principalId threadId
  | ownsThread principalId threadId => Threads.ownsThread principalId threadId
  | getSurfaceBinding surface tenantId externalThreadId =>
    Threads.getSurfaceBinding surface tenantId externalThreadId
  | selectSurfaceThread surface tenantId externalThreadId =>
    Threads.selectSurfaceThread surface tenantId externalThreadId
  | insertSurfaceThread surface tenantId externalThreadId principalId agentId title =>
    Threads.insertSurfaceThread surface tenantId externalThreadId principalId agentId title fresh
  | bindSurface surface tenantId externalThreadId threadId =>
    Threads.bindSurface surface tenantId externalThreadId threadId fresh
  | recordLogicalSend threadId agentId clientMessageId =>
    Threads.recordLogicalSend threadId agentId clientMessageId fresh
  | getTaskBinding agentId taskId => Threads.getTaskBinding agentId taskId
  | bindTaskId threadId clientMessageId taskId => Threads.bindTaskId threadId clientMessageId taskId
  | claimContextInitialization threadId leaseDurationSeconds =>
    Threads.claimContextInitialization threadId leaseDurationSeconds fresh
  | bindContext threadId claimId contextId => Threads.bindContext threadId claimId contextId
  | releaseContextInitialization threadId claimId =>
    Threads.releaseContextInitialization threadId claimId

end Query

end ManagedAgents.Threads
