import ManagedAgents.Threads.Service

/-!
What the application does on Slack's messages, stops and tool confirmations, from `agent_input.py`.

The events come verified and validated. Ingress claims, projections, published events and Slack
itself are outside. Whatever a handler raises after its ingress claim is noted, and raised again.
-/

namespace ManagedAgents.Threads

open ManagedAgents.Lib
open ManagedAgents.Controller (TaskId MessageId RequestId Text)

/-- What the handlers read of the configuration. -/
structure Config where
  slackTeamAllowlist : String := ""
  slackUserAllowlist : String := ""
  slackBotToken : Bool := true
  a2aEventSinkUrl : Bool := true
  /-- The registered application agent. -/
  agentId : Option AgentId := none

structure SlackMessageReceived where
  slackEventId : String
  teamId : String
  channelId : String
  threadTs : String
  userId : String
  text : Text
  link : Bool := false
  linkThreadId : Option ThreadId := none
  channelType : Option String := none
  eventType : String := "app_mention"

structure SlackThreadStopRequested where
  eventId : String
  teamId : String
  channelId : String
  threadTs : String
  userId : String

structure SlackToolConfirmationRequested where
  interactionId : String
  teamId : String
  channelId : String
  threadTs : String
  userId : String
  taskId : TaskId
  inputRequestId : RequestId
  approved : Bool
  reason : Option Text := none
  responseMessageTs : Option String := none

/-- A text as an opaque id. -/
def token (text : String) : ℕ := text.toList.foldl (fun n c => 1114112 * n + c.toNat + 1) 0

namespace AgentInput

/-! ### Parts of the handlers -/

def allowedByDevelopmentFilter (config : Config) (teamId userId : String) : Bool :=
  (config.slackTeamAllowlist.isEmpty || config.slackTeamAllowlist == teamId)
    && (config.slackUserAllowlist.isEmpty || config.slackUserAllowlist == userId)

/-- `_authorize`. -/
def authorize (config : Config) (teamId userId : String) : Program (Option PrincipalId) :=
  if allowedByDevelopmentFilter config teamId userId then
    ask (.resolveExternalIdentity "slack" teamId userId)
  else pure none

/-- `_claim`. -/
def claim (surface eventId : String) : Program (Option IngressToken) := do
  match ← perform (.claimIngress surface eventId) with
  | .acquired token => pure (some token)
  | .busy => throw .retryableDelivery
  | .completed => pure none

def place (channelId threadTs : String) : String := channelId ++ ":" ++ threadTs

/-- `_binding`. -/
def binding (teamId channelId threadTs : String) : Program (Option SurfaceBinding) :=
  ask (.getSurfaceBinding "slack" teamId (place channelId threadTs))

/-- `_owned_thread`. -/
def ownedThread (principal : Option PrincipalId) (binding : Option SurfaceBinding) :
    Program (Option ThreadId) :=
  match principal, binding with
  | some principal, some binding => do
    let owned ← ask (.ownsThread principal binding.threadId)
    pure (if owned then some binding.threadId else none)
  | _, _ => pure none

/-- The body, with what it raises noted in the ingress. -/
def guarded (surface eventId : String) (token : IngressToken) (body : Program Unit) :
    Program Unit :=
  tryCatch body fun e => do
    perform (.failIngress surface eventId token e)
    throw e

/-- `_check_binding`. -/
def checkBinding (row : ThreadRow) (principal : PrincipalId) (agentId : AgentId) : Program Unit :=
  if row.principalId ≠ principal ∨ row.agentId ≠ agentId then throw .bindingConflict
  else if row.archivedAt.isSome then throw .bindingConflict
  else pure ()

section

variable (principal : PrincipalId) (agentId : AgentId) (surface tenantId externalThreadId : String)
  (title : Option Text)

/-- The transaction of `get_or_create_surface_thread`. -/
def surfaceThread : Program (ThreadRow × SurfaceBinding) := do
  match ← ask (.selectSurfaceThread surface tenantId externalThreadId) with
  | some (row, binding) =>
    checkBinding row principal agentId
    match ← ask (.getThread binding.threadId) with
    | some thread => pure (thread, binding)
    | none => throw .runtimeError
  | none =>
    match ← ask
        (.insertSurfaceThread surface tenantId externalThreadId principal agentId title) with
    | some created => pure created
    | none => throw .surfaceCreationRace

/-- `get_or_create_surface_thread`; a lost race is followed by reads of their own, or by another
attempt, as often as the interpreter allows. -/
def getOrCreateSurfaceThread : ℕ → Program (ThreadRow × SurfaceBinding)
  | 0 => throw .recursionError
  | depth + 1 =>
    tryCatch (surfaceThread principal agentId surface tenantId externalThreadId title) fun e =>
      if e = .surfaceCreationRace then do
        match ← ask (.getSurfaceBinding surface tenantId externalThreadId) with
        | none => getOrCreateSurfaceThread depth
        | some binding =>
          match ← ask (.getThread binding.threadId) with
          | none => throw .runtimeError
          | some thread =>
            checkBinding thread principal agentId
            pure (thread, binding)
      else throw e

end

def reply (teamId channelId threadTs text : String) : Program Unit :=
  perform (.publish (.controlReply teamId channelId threadTs text))

/-- The thread a link names, if it is the principal's. -/
def linkTarget (principal : PrincipalId) (threadId : Option ThreadId) :
    Program (Option ThreadRow) :=
  match threadId with
  | none => pure none
  | some threadId => do
    match ← ask (.getThread threadId) with
    | none => pure none
    | some target => do
      let owned ← ask (.ownsThread principal target.threadId)
      pure (if owned then some target else none)

/-- `_link_existing`. -/
def linkExisting (principal : PrincipalId) (teamId channelId threadTs : String)
    (threadId : Option ThreadId) : Program (Option ThreadId) := do
  match ← linkTarget principal threadId with
  | some target =>
    let present ← binding teamId channelId threadTs
    if present.any (some ·.threadId != threadId) then
      reply teamId channelId threadTs "This Slack thread is already linked to another thread."
      pure none
    else
      let linked ← tryCatch (do
        let _ ← ask (.bindSurface "slack" teamId (place channelId threadTs) target.threadId)
        pure true) fun e => if e = .bindingConflict then pure false else throw e
      if linked then
        reply teamId channelId threadTs
          ("Linked this thread to Claude thread " ++ toString target.threadId ++ ".")
        pure threadId
      else
        reply teamId channelId threadTs "This Slack thread is already linked to another thread."
        pure none
  | none =>
    reply teamId channelId threadTs "That thread does not exist or is not owned by your identity."
    pure none

/-- `application_control_plane`. -/
def controlPlane {α : Type} (config : Config) (body : Program α) : Program α :=
  if config.a2aEventSinkUrl then body else throw .runtimeError

/-- `_slack`. -/
def slack (config : Config) (call : Call) : Program Unit :=
  if config.slackBotToken then do
    let _ ← perform call
    pure ()
  else throw .runtimeError

/-! ### The handlers -/

/-- The interpreter's recursion limit. -/
def recursionLimit : ℕ := 1000

def applicationAgentId (config : Config) : Program AgentId :=
  match config.agentId with
  | some agentId => pure agentId
  | none => throw .runtimeError

/-- The turn of a message, in a thread that is there or made for it. -/
def sendMessage (config : Config) (detail : SlackMessageReceived) (principal : PrincipalId)
    (token : IngressToken) : Program Unit := do
  let agentId ← applicationAgentId config
  let (thread, binding) ← getOrCreateSurfaceThread principal agentId "slack" detail.teamId
    (place detail.channelId detail.threadTs) (some (String.ofList (detail.text.toList.take 60)))
    recursionLimit
  perform (.publish (.workStarted detail.slackEventId))
  perform (.faultsHit "before_agent_send" detail.slackEventId)
  let task ← controlPlane config (Service.sendTurn thread.threadId
    (Threads.token ("slack:event:" ++ detail.teamId ++ ":" ++ detail.slackEventId)) detail.text)
  perform (.faultsHit "after_agent_send" detail.slackEventId)
  perform (.ensureProjection binding.bindingId task.id detail.slackEventId)
  perform (.publish (.projection detail.slackEventId thread.threadId task.id binding.bindingId))
  perform (.faultsHit "before_ingress_complete" detail.slackEventId)
  perform (.completeIngress "slack" detail.slackEventId token (some thread.threadId) (some task.id))

/-- The place was bound to a thread that is not the principal's. -/
def refuses (principal : PrincipalId) (binding : Option SurfaceBinding) : Program Bool :=
  match binding with
  | none => pure false
  | some binding => do
    let owned ← ownedThread (some principal) (some binding)
    pure owned.isNone

/-- What is done on a message once its ingress is claimed. -/
def messageBody (config : Config) (detail : SlackMessageReceived)
    (binding : Option SurfaceBinding) (token : IngressToken) : Program Unit := do
  match ← authorize config detail.teamId detail.userId with
  | none =>
    reply detail.teamId detail.channelId detail.threadTs
      "This Slack identity is not linked to an application principal."
    perform (.completeIngress "slack" detail.slackEventId token none none)
  | some principal =>
    if detail.link then
      let threadId ← linkExisting principal detail.teamId detail.channelId detail.threadTs
        detail.linkThreadId
      perform (.completeIngress "slack" detail.slackEventId token threadId none)
    else if blank detail.text then throw .valueError
    else
      if ← refuses principal binding then
        reply detail.teamId detail.channelId detail.threadTs
          "This request is not authorized for the linked thread."
        perform (.completeIngress "slack" detail.slackEventId token none none)
      else sendMessage config detail principal token

/-- `_message`. -/
def message (config : Config) (detail : SlackMessageReceived) : Program Unit := do
  let binding ← binding detail.teamId detail.channelId detail.threadTs
  if detail.eventType = "message" ∧ detail.channelType ≠ some "im" ∧ binding = none then pure ()
  else
    match ← claim "slack" detail.slackEventId with
    | none => pure ()
    | some token =>
      guarded "slack" detail.slackEventId token (messageBody config detail binding token)

/-- What is done on a stop once its ingress is claimed. -/
def stopBody (config : Config) (detail : SlackThreadStopRequested) (patience : ℕ)
    (token : IngressToken) : Program Unit := do
  let principal ← authorize config detail.teamId detail.userId
  let binding ← binding detail.teamId detail.channelId detail.threadTs
  match ← ownedThread principal binding with
  | none => perform (.completeIngress "slack-stop" detail.eventId token none none)
  | some threadId =>
    let task ← controlPlane config (Service.cancelActiveTask threadId patience)
    slack config (.setAgentStatus detail.channelId detail.threadTs "active")
    perform (.completeIngress "slack-stop" detail.eventId token (some threadId) (task.map (·.id)))

/-- `_stop`. -/
def stop (config : Config) (detail : SlackThreadStopRequested) (patience : ℕ) : Program Unit := do
  match ← claim "slack-stop" detail.eventId with
  | none => pure ()
  | some token =>
    guarded "slack-stop" detail.eventId token (stopBody config detail patience token)

/-- The requests a task waits for, of which it must say. -/
def requestsFromTask (task : Task) : Program (List RequestId) :=
  match task.requests with
  | some requests => pure requests
  | none => throw .valueError

/-- The request still waits for a response. -/
def awaits (task : Task) (requestId : RequestId) : Program Bool := do
  if task.state = .inputRequired then
    let requests ← requestsFromTask task
    pure (requests.contains requestId)
  else pure false

/-- Hand the decision on; true when the request turned out to be resolved. -/
def confirm (detail : SlackToolConfirmationRequested) (threadId : ThreadId) : Program Bool := do
  let task ← Service.getTask threadId detail.taskId true
  let pending ← requestsFromTask task
  if task.state ≠ .inputRequired ∨ detail.inputRequestId ∉ pending then pure true
  else
    tryCatch
      (do
        let _ ← Service.continueHumanInput threadId detail.taskId
          (Threads.token ("slack:interaction:" ++ detail.teamId ++ ":" ++ detail.interactionId))
          { requestId := detail.inputRequestId
            allow := detail.approved
            reason := detail.reason.filter (!·.isEmpty) }
        pure false)
      fun e => do
        let current ← Service.getTask threadId detail.taskId true
        if ← awaits current detail.inputRequestId then throw e
        else pure true

def confirmationText (detail : SlackToolConfirmationRequested) (resolved : Bool) : String :=
  if resolved then "This approval was already resolved."
  else
    (if detail.approved then "Approval submitted to OpenAPPA" else "Denial submitted to OpenAPPA")
      ++ " by <@" ++ detail.userId ++ ">"
      ++ ((detail.reason.filter (!·.isEmpty)).map ("\nReason: " ++ ·)).getD ""

/-- Slack is shown what came of a tool confirmation. -/
def showConfirmation (config : Config) (detail : SlackToolConfirmationRequested) (resolved : Bool) :
    Program Unit :=
  match detail.responseMessageTs.filter (!·.isEmpty) with
  | some messageTs =>
    slack config (.updateMessage detail.channelId messageTs (confirmationText detail resolved))
  | none => pure ()

/-- The agent works on, unless there was nothing to confirm. -/
def showProcessing (config : Config) (detail : SlackToolConfirmationRequested) (resolved : Bool) :
    Program Unit :=
  if resolved then pure ()
  else slack config (.setAgentStatus detail.channelId detail.threadTs "processing")

/-- What is done on a tool confirmation once its ingress is claimed. -/
def toolConfirmationBody (config : Config) (detail : SlackToolConfirmationRequested)
    (token : IngressToken) : Program Unit := do
  let principal ← authorize config detail.teamId detail.userId
  let binding ← binding detail.teamId detail.channelId detail.threadTs
  match ← ownedThread principal binding with
  | none => perform (.completeIngress "slack-interaction" detail.interactionId token none none)
  | some threadId =>
    let resolved ← controlPlane config (confirm detail threadId)
    showConfirmation config detail resolved
    showProcessing config detail resolved
    perform (.completeIngress "slack-interaction" detail.interactionId token (some threadId)
      (some detail.taskId))

/-- `_tool_confirmation`. -/
def toolConfirmation (config : Config) (detail : SlackToolConfirmationRequested) :
    Program Unit := do
  match ← claim "slack-interaction" detail.interactionId with
  | none => pure ()
  | some token =>
    guarded "slack-interaction" detail.interactionId token
      (toolConfirmationBody config detail token)

end AgentInput

end ManagedAgents.Threads
