import ManagedAgents.Controller.TaskView
import ManagedAgents.Lib.Prog
import ManagedAgents.Push.Repository

/-!
The push dispatcher, from `push_dispatcher.py`, with the service and the admin commands that write
configurations, from `push_config.py` and `admin.py`, and the triggers' check of a wakeup.

A task is read as the controller's service shows it. Its serialisations, the digest and the policy
that normalises a url are the deployment's.
-/

namespace ManagedAgents.Push

open ManagedAgents.Lib
open ManagedAgents.Controller (ContextId TaskId ClaimId Time Text A2aState TaskRow TaskObject)

inductive Call
  | query (q : Query)
  | getTask (taskId : TaskId)
  | post (url : Url) (content : Text) (deliveryId : Text)
  | clock
  | sendWakeup (contextId : ContextId) (reason : Text) (delaySeconds : ℕ)
  deriving DecidableEq

def Call.Reply : Call → Type
  | query q => q.Reply
  | getTask _ => TaskObject
  | post _ _ _ => ℕ
  | clock => Time
  | sendWakeup _ _ _ => Unit

abbrev Program (α : Type) := Prog Call Call.Reply Exn α

abbrev perform (c : Call) : Program c.Reply := Prog.perform c

abbrev ask (q : Query) : Program q.Reply := perform (.query q)

/-- What a deployment fixes: the callback url it allows, how urls are normalised, the two
serialisations of a task's `StreamResponse`, the digest and how a task's id is written. -/
structure Deployment where
  allowedUrl : Url
  normalizedUrl : Url → Option Url
  serialize : TaskObject → List UInt8
  json : TaskObject → Text
  sha256 : List UInt8 → Text
  taskName : TaskId → Text

namespace Deployment

variable (e : Deployment)

def encode (text : Text) : List UInt8 := text.toUTF8.data.toList

def fingerprint (task : TaskObject) : Fingerprint := e.sha256 (e.serialize task)

def deliveryId (taskId : TaskId) (configId : ConfigId) (fingerprint : Fingerprint) : Text :=
  e.sha256 (encode (configId ++ "\x00" ++ e.taskName taskId ++ "\x00" ++ fingerprint))

end Deployment

/-! ### Wakeups -/

/-- `schedule_context` of every trigger. -/
def scheduleContext (contextId : ContextId) (reason : Text) (delaySeconds : ℕ) : Program Unit :=
  if reason = "" ∨ 900 < delaySeconds then throw (.valueError "Invalid push wakeup")
  else do
    let _ ← perform (.sendWakeup contextId reason delaySeconds)
    pure ()

/-! ### Delivery -/

def backoff : List ℕ := [5, 15, 30, 60, 120, 300]

def claimLease : ℕ := 30

/-- The seconds from now until the last of these times, from one to nine hundred. -/
def remaining (due : List Time) (now : Time) : ℕ :=
  match due.max? with
  | some last => min 900 (max 1 (last - now))
  | none => 1

/-- What a wakeup does about a row it cannot claim. -/
def postpone (taskId : TaskId) (configId : ConfigId) : Program (Option ℕ) := do
  match ← ask (.get taskId configId) with
  | none => pure none
  | some row =>
    if row.permanentFailureAt.isSome then pure none
    else
      let due := row.nextAttemptAt.toList ++ row.deliveryLeaseExpiresAt.toList
      if due = [] then pure (some 1)
      else do
        let now ← perform .clock
        pure (some (remaining due now))

/-- How far a delivery came. -/
inductive Progress
  | unchanged
  | superseded
  | answered (fingerprint : Fingerprint) (status : ℕ)
  | failed

section

variable (e : Deployment)

/-- Read the task and post it, unless it is as it was delivered before. -/
def send (row : PushConfig) (taskId : TaskId) (configId : ConfigId) (claimId : ClaimId) :
    Program Progress := do
  let task ← perform (.getTask taskId)
  let fingerprint := e.fingerprint task
  if row.lastDeliveredFingerprint = some fingerprint then pure .unchanged
  else
    -- Recheck once after the provider read, including a concurrent delete.
    let current : Bool ← ask (.claimed taskId configId claimId)
    if current then
      let status ← perform
        (.post row.url (e.json task) (e.deliveryId taskId configId fingerprint))
      pure (.answered fingerprint status)
    else pure .superseded

/-- Record a failure, to be retried after the returned delay or for good. -/
def conclude (row : PushConfig) (taskId : TaskId) (configId : ConfigId) (claimId : ClaimId)
    (transient : Bool) : Program (Option ℕ) := do
  let delay := if transient then backoff[row.attemptCount]? else none
  let finished : Bool ← ask (.finish taskId configId claimId none delay delay.isNone)
  pure (if finished then delay else some 1)

def transientStatus (status : ℕ) : Bool := status = 408 || status = 429 || 500 ≤ status

/-- The part of `_deliver` that runs under a claim. -/
def attempt (taskId : TaskId) (configId : ConfigId) (claimId : ClaimId) : Program (Option ℕ) := do
  match ← ask (.get taskId configId) with
  | none => pure none
  | some row =>
    let progress ← tryCatch (send e row taskId configId claimId) fun _ => pure .failed
    match progress with
    | .unchanged => pure none
    | .superseded => pure (some 1)
    | .answered fingerprint status =>
      if 200 ≤ status ∧ status < 300 then do
        let finished : Bool ←
          ask (.finish taskId configId claimId (some fingerprint) none false)
        pure (if finished then none else some 1)
      else conclude row taskId configId claimId (transientStatus status)
    | .failed => conclude row taskId configId claimId true

/-- `_deliver`: the delay after which the configuration needs another wakeup, if it does. -/
def deliver (taskId : TaskId) (configId : ConfigId) : Program (Option ℕ) := do
  match ← ask (.claim taskId configId claimLease) with
  | none => postpone taskId configId
  | some claimId =>
    Prog.ensure (attempt e taskId configId claimId) (ask (.release taskId configId claimId))

def final : A2aState → Bool
  | .completed | .canceled | .failed | .rejected => true
  | _ => false

/-- A final task that was delivered as it is needs no lease. -/
def settled (row : PushConfig) (state : A2aState) : Program Bool :=
  if final state ∧ row.lastDeliveredFingerprint.any (· ≠ "") then
    tryCatch (do
      let task ← perform (.getTask row.taskId)
      pure (row.lastDeliveredFingerprint = some (e.fingerprint task))) fun _ => pure false
  else pure false

def serve (row : PushConfig) (state : A2aState) : Program (Option ℕ) := do
  let skip ← settled e row state
  if skip then pure none else deliver e row.taskId row.configId

/-- The delays of the rows of a context. -/
def deliverAll : List (PushConfig × A2aState) → Program (List ℕ)
  | [] => pure []
  | (row, state) :: rest => do
    let delay ← serve e row state
    let delays ← deliverAll rest
    pure (delay.toList ++ delays)

def runContext (contextId : ContextId) : Program Unit := do
  let rows ← ask (.listContext contextId)
  let delays ← deliverAll e rows
  match delays.min? with
  | some delay => scheduleContext contextId "push-retry" delay
  | none => pure ()

/-! ### Configurations -/

/-- A `TaskPushNotificationConfig` as a client sends it. -/
structure ConfigRequest where
  id : ConfigId := ""
  taskId : Option TaskId := none
  url : Url := ""
  token : Text := ""
  authentication : Bool := false

def idFirst (c : Char) : Bool := c.isAlphanum

def idRest (c : Char) : Bool := c.isAlphanum || c = '.' || c = '_' || c = '-'

/-- `_CONFIG_ID.fullmatch`, and not a dot segment. -/
def validConfigId (id : ConfigId) : Bool :=
  match id.toList with
  | [] => false
  | first :: rest => idFirst first && rest.all idRest && rest.length ≤ 127

def resolvedConfigId (request : ConfigRequest) : ConfigId :=
  if request.id = "" then "inline-" ++ (e.sha256 (Deployment.encode e.allowedUrl)).take 24
  else request.id

/-- The checks of `create`: the task and the id the configuration is stored under. -/
def checkConfig (request : ConfigRequest) (taskId : Option TaskId) :
    Except Exn (TaskId × ConfigId) := do
  let resolved := taskId <|> request.taskId
  match resolved with
  | none => throw (.invalidParams "Push taskId does not match the Task")
  | some resolved =>
    if request.taskId.any (· ≠ resolved) then
      throw (.invalidParams "Push taskId does not match the Task")
    else if request.token ≠ "" ∨ request.authentication then
      throw (.invalidParams "Push token and authentication are unsupported")
    else if e.allowedUrl = "" then throw (.invalidParams "Push callback URL is not allowed")
    else
      match e.normalizedUrl request.url with
      | none => throw (.invalidParams "Invalid push callback URL")
      | some url =>
        if url ≠ e.allowedUrl then throw (.invalidParams "Push callback URL is not allowed")
        else if validConfigId (resolvedConfigId e request) then
          pure (resolved, resolvedConfigId e request)
        else throw (.invalidParams "Invalid push configuration ID")

def PushConfig.wire (row : PushConfig) : ConfigRequest :=
  { id := row.configId
    taskId := some row.taskId
    url := row.url }

/-- `create` of `PushConfigService`. -/
def createConfig (request : ConfigRequest) (taskId : Option TaskId) : Program ConfigRequest := do
  match checkConfig e request taskId with
  | .error refusal => throw refusal
  | .ok (resolved, configId) =>
    let row ← tryCatch (ask (.create resolved configId e.allowedUrl)) fun
      | .keyError => throw .taskNotFound
      | .pushConfigConflict => throw (.invalidParams "Push configuration ID is already used")
      | error => throw error
    match ← ask (.getTask resolved) with
    | none => throw .assertion
    | some task => do
      scheduleContext task.contextId "push-config-created" 0
      pure row.wire

end

def deleteConfig (taskId : TaskId) (configId : ConfigId) : Program Unit := do
  match ← ask (.getTask taskId) with
  | none => throw .taskNotFound
  | some _ => do
    let _ ← ask (.delete taskId configId)
    pure ()

/-- `retry_push` of the admin commands. -/
def retryPush (taskId : TaskId) (configId : ConfigId) : Program Unit := do
  match ← ask (.getTask taskId) with
  | none => throw (.valueError "Unknown task")
  | some task => do
    let reset : Bool ← ask (.resetDelivery taskId configId)
    if reset then
      scheduleContext task.contextId "admin-retry-push" 0
    else
      throw
        (.runtimeError "Push config is unknown, deleted, or has an active delivery claim")

end ManagedAgents.Push
