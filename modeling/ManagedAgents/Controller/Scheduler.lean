import ManagedAgents.Controller.Calls

/-!
One bounded, fenced reconciliation step for a context, from `scheduler.py`, and the resolution of
held tasks, from `admin.py`.

Long methods are cut at their comments and branches, in source order. A loop body returns `none`
to continue and a result to return from the method. Logging and the optional preview hints, which
only read, are left out.
-/

namespace ManagedAgents.Controller

open ManagedAgents.Lib

structure Config where
  appName : String
  policyEngine : Bool
  pushTrigger : Bool

/-- Python's `str(row[column])` of a key, fed to the store: a missing key names no object. -/
def pendingGet : Option ObjectKey → Program Text
  | some key => perform (.pendingGet key)
  | none => throw .other

def pendingDelete : Option ObjectKey → Program Unit
  | some key => perform (.pendingDelete key)
  | none => pure ()

/-- `update_task`, its row dropped. -/
def updateTask' (taskId : TaskId) (contextId : ContextId) (claim : ClaimId) (fields : TaskFields) :
    Program Unit := do
  let _ ← ask (.updateTask taskId contextId claim fields)

def updateContext' (contextId : ContextId) (claim : ClaimId) (fields : ContextFields) :
    Program Unit := do
  let _ ← ask (.updateContext contextId claim fields)

def hold (taskId : TaskId) (contextId : ContextId) (claim : ClaimId)
    (reason : Option HeldReason) : Program Unit :=
  updateTask' taskId contextId claim { heldReason := some reason }

def finish (contextId : ContextId) (taskId : TaskId) (claim : ClaimId) (state : A2aState)
    (terminalEventId : Option EventId) : Program Unit := do
  updateTask' taskId contextId claim
    { internalState := some .terminal
      a2aState := some state
      cmaTerminalEventId := some terminalEventId
      heldReason := some none }
  updateContext' contextId claim { activeTaskId := some none }

/-- Mark the context failed, then finish its task as failed. -/
def finishFailed (contextId : ContextId) (taskId : TaskId) (claim : ClaimId)
    (terminalEventId : Option EventId) : Program Unit := do
  updateContext' contextId claim { lifecycleState := some .failed }
  finish contextId taskId claim .failed terminalEventId

def bindInput (task : TaskRow) (contextId : ContextId) (claim : ClaimId) (eventId : EventId) :
    Program Unit := do
  updateTask' task.taskId contextId claim
    { cmaInputEventId := some (some eventId)
      inputObjectKey := some none
      internalState := some .waiting
      a2aState := some .working
      heldReason := some none }
  tryCatch (pendingDelete task.inputObjectKey) fun _ => pure ()

def resolveInput (request : Request) (contextId : ContextId) (claim : ClaimId) : Program Unit :=
  ask (.resolveInputRequest request.requestId contextId claim)

/-- How a try block that sends something to the provider ended. -/
inductive Sent
  | settled | unsettled | finished

/-! ### Confirmations -/

def reconcileClarification (contextId : ContextId) (task : TaskRow) (claim : ClaimId)
    (sessionId : SessionId) (events : List Event) (row : ClarificationRow) :
    Program (Option Unit) := do
  let resolve : Program (Option Unit) := do
    resolveInput (.clarification row) contextId claim
    pendingDelete row.answerObjectKey
    pure none
  if events.any (·.answers row.cmaEventId) then resolve
  else if row.responseAttemptedAt.isSome then
    hold task.taskId contextId claim (some .ambiguousConfirmation)
    pure none
  else if !(← ask (.markClarificationAttempted row.requestId contextId claim)) then pure none
  else
    let send : Program Sent := do
      let answer ← pendingGet row.answerObjectKey
      perform (.sendCustomToolResult task.taskId sessionId row.cmaEventId answer
        task.cancelRequestedAt.isSome)
      pure .settled
    let sent ← tryCatch send fun
      | .definitiveProvider => do
        finishFailed contextId task.taskId claim none
        pure .finished
      | _ => do
        hold task.taskId contextId claim (some .ambiguousConfirmation)
        let refreshed ← perform (.listEvents sessionId)
        pure (if refreshed.any (·.answers row.cmaEventId) then .settled else .unsettled)
    match sent with
    | .settled => resolve
    | .unsettled => pure none
    | .finished => pure (some ())

/-- The text a confirmation carries. -/
def confirmationReason (task : TaskRow) (row : ApprovalRow) (decision : Ruling) :
    Program (Option Text) :=
  match row.decisionReasonObjectKey with
  | some key => some <$> perform (.pendingGet key)
  | none => pure <|
    if decision == .deny && task.cancelRequestedAt.isNone then some "Denied by OpenAPPA policy."
    else none

def reconcileApproval (contextId : ContextId) (task : TaskRow) (claim : ClaimId)
    (sessionId : SessionId) (events : List Event) (row : ApprovalRow) :
    Program (Option Unit) := do
  if events.any (·.confirms row.cmaEventId row.decision) then
    resolveInput (.approval row) contextId claim
    pure none
  else if row.confirmationAttemptedAt.isSome then
    if task.heldReason != some .ambiguousConfirmation then
      hold task.taskId contextId claim (some .ambiguousConfirmation)
    pure none
  else
    match row.decision with
    | none =>
      hold task.taskId contextId claim (some (.policy .unpublishedDecision))
      pure none
    | some decision =>
      if !(← ask (.markConfirmationAttempted row.requestId contextId claim)) then pure none
      else
        let send : Program Sent := do
          let reason ← confirmationReason task row decision
          perform (.confirmTool task.taskId sessionId row.cmaEventId (decision == .allow) reason)
          pure .settled
        let sent ← tryCatch send fun
          | .definitiveProvider => do
            finishFailed contextId task.taskId claim none
            pure .finished
          | _ => do
            hold task.taskId contextId claim (some .ambiguousConfirmation)
            let refreshed ← perform (.listEvents sessionId)
            pure (if refreshed.any (·.confirms row.cmaEventId (some decision)) then .settled
              else .unsettled)
        match sent with
        | .settled => do
          resolveInput (.approval row) contextId claim
          pure none
        | .unsettled => pure none
        | .finished => pure (some ())

def reconcileRequest (contextId : ContextId) (task : TaskRow) (claim : ClaimId)
    (sessionId : SessionId) (events : List Event) (request : Request) : Program (Option Unit) :=
  if request.status != .resolving then pure none
  else match request with
    | .clarification row => reconcileClarification contextId task claim sessionId events row
    | .approval row => reconcileApproval contextId task claim sessionId events row

/-- Nothing the task was held for is left: an uncertain confirmation, or a policy failure. -/
def holdSettled (reason : Option HeldReason) (requests : List Request) : Bool :=
  (reason == some .ambiguousConfirmation && !requests.any (·.status == .resolving)) ||
  (reason.any (·.isPolicy) && !requests.any fun
    | .approval row => row.status != .resolved
    | .clarification _ => false)

/-- `_reconcile_confirmations`: send what was decided; true when the task was finished. -/
def reconcileConfirmations (contextId : ContextId) (task : TaskRow) (claim : ClaimId)
    (sessionId : SessionId) (events : List Event) : Program Bool := do
  let requests ← ask (.listInputRequests task.taskId)
  match ← Prog.loop (reconcileRequest contextId task claim sessionId events) requests with
  | some () => pure true
  | none =>
    let current := (← ask (.getTask task.taskId)).getD task
    let requests ← ask (.listInputRequests task.taskId)
    if holdSettled current.heldReason requests then
      hold task.taskId contextId claim none
    pure false

/-! ### Policy -/

/-- `resolve_tool_call`: a resolution is final, and a denial stays one. -/
def resolveToolCall (request : ToolPolicyRequest) (resolution : PolicyResolution) :
    Program ToolPolicyDecision := do
  let result ← perform (.policyExchange request (some resolution))
  if result.decision == .humanReview ||
      (resolution.ruling == .deny && result.decision != .deny) then
    throw (.policy .invalidResponse)
  pure result

/-- Ask the engine, with the ruling on the row's offer when there is one. -/
def consult (request : ToolPolicyRequest) (row : ApprovalRow) : Program ToolPolicyDecision :=
  match row.humanRuling with
  | some ruling => resolveToolCall request ⟨row.reviewDigest, row.reviewAuthority, ruling⟩
  | none => perform (.policyExchange request none)

/-- Publish the offer the engine asks a human to rule on, unless it is already out. -/
def publishReview (contextId : ContextId) (taskId : TaskId) (claim : ClaimId) (row : ApprovalRow)
    (review : Option HumanReview) : Program Unit := do
  match review with
  | none => throw (.policy .invalidResponse)
  | some review =>
    if some review.fingerprint != row.reviewDigest then
      let key ← perform .uuid4
      perform (.pendingPut key review.description)
      ask (.recordHumanReview contextId taskId claim row.requestId
        { digest := some review.fingerprint
          authority := some review.authority
          objectKey := some key })
    hold taskId contextId claim none

/-- Record the decision; any failure but a lost lease is a publication failure. -/
def publishDecision (contextId : ContextId) (taskId : TaskId) (claim : ClaimId)
    (row : ApprovalRow) (decision : Ruling) : Program Unit := do
  tryCatch (ask (.recordPolicyDecision contextId taskId claim row.requestId decision)) fun
    | .lostSchedulerClaim => throw .lostSchedulerClaim
    | _ => throw (.policy .publicationFailure)
  hold taskId contextId claim none

/-- Withdraw the offer a row carries. -/
def withdrawReview (contextId : ContextId) (taskId : TaskId) (claim : ClaimId)
    (row : ApprovalRow) : Program Unit :=
  ask (.recordHumanReview contextId taskId claim row.requestId {})

/-- The try block of `_evaluate_policy`, for one row. -/
def judge (cfg : Config) (contextId : ContextId) (taskId : TaskId) (claim : ClaimId)
    (source : Option Event) (row : ApprovalRow) : Program Unit := do
  if !cfg.policyEngine then throw (.policy .unavailable)
  else match toolPolicyRequest contextId cfg.appName row.cmaEventId source with
  | .error code => throw (.policy code)
  | .ok request =>
    let decision ← consult request row
    match decision.decision with
    | .humanReview => publishReview contextId taskId claim row decision.review
    | answer =>
      if row.reviewDigest.isSome && row.humanRuling.isNone then
        -- A changed policy must invalidate the offered review first.
        withdrawReview contextId taskId claim row
      else publishDecision contextId taskId claim row (if answer == .allow then .allow else .deny)

/-- The reason code a failed evaluation is held for. -/
def policyReason : Exn → PolicyCode
  | .policy code => code
  | .timeout => .runtimeTimeout
  | _ => .unavailable

def judgeFailed (contextId : ContextId) (taskId : TaskId) (claim : ClaimId) (row : ApprovalRow)
    (code : PolicyCode) : Program Unit := do
  if code == .staleReview || (row.reviewDigest.isSome && row.humanRuling.isNone) then
    withdrawReview contextId taskId claim row
  hold taskId contextId claim (some (.policy code))

def evaluateRow (cfg : Config) (contextId : ContextId) (taskId : TaskId) (claim : ClaimId)
    (events : List Event) (request : Request) : Program (Option Bool) :=
  match request with
  | .clarification _ => pure none
  | .approval row =>
    if row.status != .pending then pure none
    else do
      match ← ask (.getContext contextId) with
      | none => pure (some false)
      | some current =>
        match ← ask (.getTask taskId) with
        | none => pure (some false)
        | some task =>
          if task.cancelRequestedAt.isSome then pure (some false)
          else
            let now ← perform .clock
            match current.schedulerLeaseExpiresAt with
            | none => throw .other
            | some expiry =>
              if (expiry : Int) - now - 5 ≤ 1 then pure (some true)
              else
                tryCatch
                  (do
                    judge cfg contextId taskId claim (byId events row.cmaEventId) row
                    pure none)
                  fun
                  | .lostSchedulerClaim => throw .lostSchedulerClaim
                  | e => do
                    judgeFailed contextId taskId claim row (policyReason e)
                    pure (some false)

/-- Where the event of a request stands in the history. -/
def historyRank (events : List Event) (request : Request) : ℕ :=
  events.findIdx (·.id == some request.cmaEventId)

/-- `_evaluate_policy`: decide the pending approvals in history order. -/
def evaluatePolicy (cfg : Config) (contextId : ContextId) (taskId : TaskId) (claim : ClaimId)
    (events : List Event) : Program Bool := do
  let rows ← ask (.listInputRequests taskId)
  let rows := rows.insertionSort (historyRank events · ≤ historyRank events ·)
  let result ← Prog.loop (evaluateRow cfg contextId taskId claim events) rows
  pure (result.getD true)

/-- Someone still has to answer. -/
def Request.humanPending : Request → Bool
  | .clarification row => row.status != .resolved
  | .approval row => row.reviewDigest.isSome && row.humanRuling.isNone && row.status == .pending

def setWaitingState (contextId : ContextId) (taskId : TaskId) (claim : ClaimId) :
    Program Unit := do
  let requests ← ask (.listInputRequests taskId)
  let humanPending := requests.any (·.humanPending)
  updateTask' taskId contextId claim
    { internalState := some (if humanPending then .inputRequired else .waiting)
      a2aState := some (if humanPending then .inputRequired else .working) }

/-- Evaluate policy, send what was decided, and wait for the rest. -/
def reviewAndWait (cfg : Config) (contextId : ContextId) (task : TaskRow) (claim : ClaimId)
    (sessionId : SessionId) (events : List Event) : Program Unit := do
  if !(← evaluatePolicy cfg contextId task.taskId claim events) then
    setWaitingState contextId task.taskId claim
  else
    let refreshed := (← ask (.getTask task.taskId)).getD task
    if refreshed.cancelRequestedAt.isNone then
      if !(← reconcileConfirmations contextId refreshed claim sessionId events) then
        setWaitingState contextId task.taskId claim

/-! ### The active task -/

/-- Add the requests a `requires_action` status names. -/
def addRequests (contextId : ContextId) (taskId : TaskId) (claim : ClaimId) (ids : List EventId) :
    List Event → Program Unit
  | [] => pure ()
  | source :: rest => do
    match source.id with
    | none => pure ()
    | some eventId =>
      if ids.contains eventId then
        if source.isToolUse then
          ask (.addInputRequest (approvalRequestId taskId eventId) taskId eventId contextId claim)
        else if source.asksUser then
          ask (.addClarificationRequest (approvalRequestId taskId eventId) taskId eventId contextId
            claim)
    addRequests contextId taskId claim ids rest

/-- The events since the one the task is bound to. -/
def sinceInput (task : TaskRow) (events : List Event) : List Event :=
  match task.cmaInputEventId with
  | some id => after events (some id)
  | none => []

/-- Act on the latest status of an uncancelled task. -/
def reconcileStatus (cfg : Config) (contextId : ContextId) (task : TaskRow) (claim : ClaimId)
    (sessionId : SessionId) : Program Unit := do
  let events ← perform (.listEvents sessionId)
  match latestStatus (sinceInput task events) with
  | none => pure ()
  | some status =>
    let requests ← ask (.listInputRequests task.taskId)
    let unresolved := requests.any (·.status != .resolved)
    if unresolved && (status.kind? == some .running ||
        (status.kind? == some .idle && status.stopKind != some .requiresAction)) then
      -- Previously discovered approvals survive partial provider resume.
      reviewAndWait cfg contextId task claim sessionId events
    else
      match status.kind? with
      | some .terminated | some .budgetReached =>
        finishFailed contextId task.taskId claim status.id
      | some .idle =>
        match status.stopReason with
        | some ⟨.requiresAction, ids⟩ =>
          addRequests contextId task.taskId claim ids events
          reviewAndWait cfg contextId task claim sessionId events
        | some ⟨.endTurn, _⟩ => finish contextId task.taskId claim .completed status.id
        | some ⟨.budgetReached, _⟩ => finishFailed contextId task.taskId claim status.id
        | _ => pure ()
      | some .running =>
        updateTask' task.taskId contextId claim
          { internalState := some .waiting, a2aState := some .working }
      | _ => pure ()

/-- The events after the first interrupt, when there is one. -/
def sinceInterrupt (events : List Event) : Option (List Event) :=
  match events.dropWhile (·.type != .userInterrupt) with
  | [] => none
  | _ :: rest => some rest

/-- Decide what a cancelled task still waits for. -/
def cancelRequest (contextId : ContextId) (taskId : TaskId) (claim : ClaimId)
    (request : Request) : Program (Option Unit) :=
  match request with
  | .clarification row =>
    if row.status == .pending then do
      let key ← perform .uuid4
      perform (.pendingPut key "Task cancelled by user.")
      let decided ← ask (.decideClarificationRequest row.requestId taskId key)
      if decided.bind (·.answerObjectKey) != some key then perform (.pendingDelete key)
      pure none
    else pure none
  | .approval row =>
    if row.status == .pending ||
        (row.status == .resolving && row.confirmationAttemptedAt.isNone) then do
      ask (.denyCancelledInputRequest row.requestId contextId claim)
      pure none
    else pure none

/-- Ask the provider to stop, once. -/
def sendInterrupt (contextId : ContextId) (task : TaskRow) (claim : ClaimId)
    (sessionId : SessionId) : Program Unit := do
  if task.cancelAttemptedAt.isSome then
    if task.heldReason != some .ambiguousInterrupt then
      hold task.taskId contextId claim (some .ambiguousInterrupt)
  else
    let now ← perform .clock
    updateTask' task.taskId contextId claim
      { cancelAttemptedAt := some (some now), internalState := some .interrupting }
    tryCatch (perform (.interrupt sessionId)) fun
      | .definitiveProvider => finishFailed contextId task.taskId claim none
      | _ => hold task.taskId contextId claim (some .ambiguousInterrupt)

def reconcileCancel (contextId : ContextId) (task : TaskRow) (claim : ClaimId)
    (sessionId : SessionId) (events : List Event) : Program Unit := do
  let idle := (sinceInterrupt (sinceInput task events)).bind latestStatus
  match idle with
  | none => sendInterrupt contextId task claim sessionId
  | some idle =>
    if (idle.kind? == some .idle || idle.kind? == some .terminated)
        && idle.stopKind != some .requiresAction then
      finish contextId task.taskId claim .canceled idle.id
    else if idle.stopKind == some .requiresAction then
      let requests ← ask (.listInputRequests task.taskId)
      let _ ← Prog.loop (cancelRequest contextId task.taskId claim) requests
      let _ ← reconcileConfirmations contextId task claim sessionId events
    else sendInterrupt contextId task claim sessionId

/-- The context's session, found again when its creation was not recorded. -/
def activeSession (context : ContextRow) (taskId : TaskId) (claim : ClaimId) :
    Program (Option SessionId) := do
  match context.cmaSessionId with
  | some sessionId => pure (some sessionId)
  | none =>
    match ← perform (.findSession context.contextId context.creationMessageId) with
    | none =>
      hold taskId context.contextId claim (some .ambiguousCreate)
      pure none
    | some recovered =>
      updateContext' context.contextId claim
        { cmaSessionId := some (some recovered), lifecycleState := some .ready }
      pure (some recovered)

/-- The first user message after the task's predecessor. -/
def bindCandidate (task : TaskRow) (events : List Event) : Option Event :=
  (after events task.cmaPredecessorEventId).find? (·.isUserMessage)

/-- The task with its input event, guessed from the history when it was not recorded. -/
def ensureBound (contextId : ContextId) (task : TaskRow) (claim : ClaimId)
    (events : List Event) : Program (Option TaskRow) := do
  if task.cmaInputEventId.isSome then pure (some task)
  else
    match bindCandidate task events with
    | none =>
      hold task.taskId contextId claim (some .ambiguousDispatch)
      pure none
    | some candidate =>
      match candidate.id with
      | none => throw .keyError
      | some eventId =>
        bindInput task contextId claim eventId
        pure (some ((← ask (.getTask task.taskId)).getD task))

def reconcileActive (cfg : Config) (context : ContextRow) (task : TaskRow) (claim : ClaimId) :
    Program Unit := do
  match ← activeSession context task.taskId claim with
  | none => pure ()
  | some sessionId =>
    let events ← perform (.listEvents sessionId)
    match ← ensureBound context.contextId task claim events with
    | none => pure ()
    | some task =>
      if task.cancelRequestedAt.isSome then
        reconcileCancel context.contextId task claim sessionId events
      else if !(← reconcileConfirmations context.contextId task claim sessionId events) then
        reconcileStatus cfg context.contextId task claim sessionId

/-! ### Dispatch -/

/-- The first turn: find or create the session, then bind its first user message. -/
def dispatchFirst (cfg : Config) (context : ContextRow) (task : TaskRow) (claim : ClaimId)
    (text : Text) : Program Unit := do
  let recovered ← perform (.findSession context.contextId context.creationMessageId)
  let create : Program (Option SessionId) := do
    match recovered with
    | some sessionId => pure (some sessionId)
    | none =>
      some <$> perform
        (.createSession task.taskId context.contextId context.creationMessageId text)
  let session ← tryCatch create fun
    | .definitiveProvider => do
      finishFailed context.contextId task.taskId claim none
      pure none
    | _ => do
      hold task.taskId context.contextId claim (some .ambiguousCreate)
      pure none
  match session with
  | none => pure ()
  | some sessionId =>
    updateContext' context.contextId claim
      { cmaSessionId := some (some sessionId), lifecycleState := some .ready }
    let events ← perform (.listEvents sessionId)
    match (events.find? (·.isUserMessage)).bind (·.id) with
    | some eventId =>
      bindInput task context.contextId claim eventId
      let context' := (← ask (.getContext context.contextId)).getD context
      let task' := (← ask (.getTask task.taskId)).getD task
      reconcileActive cfg context' task' claim
    | none => hold task.taskId context.contextId claim (some .initialInputNotVisible)

/-- A later turn: send its message to the session. -/
def dispatchNext (contextId : ContextId) (task : TaskRow) (claim : ClaimId)
    (sessionId : SessionId) (text : Text) : Program Unit := do
  let send : Program (Option (Option EventId)) :=
    some <$> perform (.sendMessage task.taskId sessionId text)
  let sent ← tryCatch send fun
    | .definitiveProvider => do
      finish contextId task.taskId claim .failed none
      pure none
    | _ => do
      hold task.taskId contextId claim (some .ambiguousSend)
      pure none
  match sent with
  | none => pure ()
  | some (some eventId) => bindInput task contextId claim eventId
  | some none => hold task.taskId contextId claim (some .inputEventNotReturned)

def dispatch (cfg : Config) (context : ContextRow) (task : TaskRow) (claim : ClaimId) :
    Program Unit := do
  let text ← pendingGet task.inputObjectKey
  match context.cmaSessionId with
  | none => dispatchFirst cfg context task claim text
  | some sessionId => dispatchNext context.contextId task claim sessionId text

/-- The id of the last event, where a new turn will start. -/
def lastEventId (events : List Event) : Option EventId := events.getLast?.bind (·.id)

/-- No task is active: start the next one, or fail it when the context has failed. -/
def reconcileQueue (cfg : Config) (context : ContextRow) (claim : ClaimId) : Program Unit := do
  match ← ask (.nextQueued context.contextId) with
  | none => pure ()
  | some task =>
    if context.lifecycleState == .failed then
      finish context.contextId task.taskId claim .failed none
    else
      let events ← match context.cmaSessionId with
        | some sessionId => perform (.listEvents sessionId)
        | none => pure []
      let task ← ask (.activateTask context.contextId task.taskId claim (lastEventId events))
      dispatch cfg context task claim

/-- Serve the active task, or start the next one. -/
def reconcileContext (cfg : Config) (context : ContextRow) (claim : ClaimId) : Program Unit := do
  match context.activeTaskId with
  | some activeId =>
    match ← ask (.getTask activeId) with
    | some task => reconcileActive cfg context task claim
    | none => pure ()
  | none => reconcileQueue cfg context claim

/-- Ask for another wakeup while something is active or queued. -/
def scheduleNext (contextId : ContextId) : Program Unit := do
  let refreshed ← ask (.getContext contextId)
  if (refreshed.bind (·.activeTaskId)).isSome then
    perform (.schedule contextId 30)
  else if (← ask (.nextQueued contextId)).isSome then
    perform (.schedule contextId 0)

def reconcile (cfg : Config) (contextId : ContextId) (claim : ClaimId) : Program Unit := do
  match ← ask (.getContext contextId) with
  | none => pure ()
  | some context =>
    reconcileContext cfg context claim
    scheduleNext contextId

/-- The finally block of `run_once`. -/
def runOnceCleanup (cfg : Config) (contextId : ContextId) (claim : ClaimId) : Program Unit := do
  let _ ← ask (.releaseScheduler contextId claim)
  if cfg.pushTrigger then
    tryCatch (perform (.schedulePush contextId)) fun _ => pure ()

def runOnce (cfg : Config) (contextId : ContextId) : Program Unit := do
  match ← ask (.claimScheduler contextId) with
  | none => throw .schedulerBusy
  | some claim => (reconcile cfg contextId claim).ensure (runOnceCleanup cfg contextId claim)

/-! ### Admin -/

/-- `ControllerAdmin.resolve`. -/
def resolve (cfg : Config) (taskId : TaskId) (resolution : Resolution)
    (verifiedNoSideEffect : Bool) : Program Unit := do
  if resolution == .retry && !verifiedNoSideEffect then throw .valueError
  else match ← ask (.getTask taskId) with
  | none => throw .valueError
  | some row =>
    match ← ask (.claimScheduler row.contextId) with
    | none => throw .runtimeError
    | some claim =>
      let body : Program Unit := do
        let _ ← ask (.resolveHeldTask taskId claim resolution)
      let release : Program Unit := do
        let _ ← ask (.releaseScheduler row.contextId claim)
      body.ensure release
      perform (.schedule row.contextId 0)
      if cfg.pushTrigger then perform (.schedulePush row.contextId)

end ManagedAgents.Controller
