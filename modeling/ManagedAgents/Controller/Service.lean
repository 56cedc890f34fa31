import ManagedAgents.Controller.Scheduler
import ManagedAgents.Controller.TaskView

/-!
Admission, continuation, cancellation and durable task reads, from `service.py`.

A request the service rejects is an answer of its own; everything else that is raised goes through.
Clients' messages come decoded, with the human-input envelope read or found wanting.
-/

namespace ManagedAgents.Controller

open ManagedAgents.Lib

def humanInputExtensionUri : String :=
  "https://ryfeus.github.io/claude-managed-agents-ui-eda/a2a/extensions/human-input/v1"

/-- A client's answer to a request. -/
inductive HumanInputResponse
  | toolApproval (requestId : RequestId) (decision : Ruling)
  | clarification (requestId : RequestId) (answer : Text)

/-- The metadata a message carries under the human-input extension. -/
inductive Envelope
  | missing | invalid
  | response (response : HumanInputResponse)

inductive MessagePart
  | text (s : Text) | other
  deriving DecidableEq

structure Message where
  role : Role := .user
  messageId : Option MessageId := none
  contextId : Option ContextId := none
  taskId : Option TaskId := none
  extensions : List String := []
  parts : List MessagePart := []
  envelope : Envelope := .missing

/-- What the service itself refuses. -/
inductive Rejection
  | invalidParams (message : String)
  | taskNotFound

abbrev Answer (α : Type) := Except Rejection α

def invalid {α : Type} (message : String) : Program (Answer α) :=
  pure (.error (.invalidParams message))

/-- `_view_options`. -/
def viewOptions (historyLength : Option ℤ) (options : Option TaskViewOptions) :
    Answer TaskViewOptions :=
  let selected := options.getD { historyLength }
  if selected.historyLength.any (· < 0) then
    .error (.invalidParams "historyLength must be nonnegative")
  else .ok selected

namespace Service

/-! ### Reads -/

/-- The text of a turn that is not bound yet. The scheduler can bind the event and remove the
object between the reads. -/
def pendingText (taskId : TaskId) (task : TaskRow) : Program (TaskRow × Option Text) :=
  match task.cmaInputEventId, task.inputObjectKey with
  | none, some key =>
    tryCatch
      (do
        let text ← perform (.pendingGet key)
        pure (task, some text))
      fun e => do
        match ← ask (.getTask taskId) with
        | none => throw e
        | some refreshed =>
          if refreshed.inputObjectKey == some key then throw e else pure (refreshed, none)
  | _, _ => pure (task, none)

/-- The offers a view has to describe. -/
def offerKey : Request → Option ObjectKey
  | .approval row =>
    if row.status == .pending && row.humanRuling.isNone then row.reviewObjectKey else none
  | .clarification _ => none

/-- The text of an offer that is shown. -/
def describe (shown : Bool) (request : Request) : Program (Option Text) :=
  match offerKey request with
  | some key => if shown then some <$> perform (.pendingGet key) else pure none
  | none => pure none

def describeRows (shown : Bool) : List Request → Program (List ViewRow)
  | [] => pure []
  | request :: rest => do
    let description ← describe shown request
    let rows ← describeRows shown rest
    pure ({ request, reviewDescription := description } :: rows)

/-- The history of a context's session, when it has one. -/
def sessionEvents : Option SessionId → Program (List Event)
  | some sessionId => perform (.listEvents sessionId)
  | none => pure []

variable (str : Json → CodePoints)

/-- The view of a task that was read. -/
def viewTask (task : TaskRow) (pendingText : Option Text) (view : TaskViewOptions) :
    Program (Answer TaskObject) := do
  match ← ask (.getContext task.contextId) with
  | none => pure (.error .taskNotFound)
  | some context =>
    let events ← sessionEvents context.cmaSessionId
    let requests ← ask (.listInputRequests task.taskId)
    let rows ← describeRows (view.humanInputEnabled && task.cancelRequestedAt.isNone) requests
    match buildTask str task events rows view pendingText with
    | .ok object => pure (.ok object)
    | .error e => throw e

/-- `get_task`. -/
def getTask (taskId : TaskId) (historyLength : Option ℤ) (options : Option TaskViewOptions) :
    Program (Answer TaskObject) :=
  match viewOptions historyLength options with
  | .error e => pure (.error e)
  | .ok view => do
    match ← ask (.getTask taskId) with
    | none => pure (.error .taskNotFound)
    | some task =>
      let (task, text) ← pendingText taskId task
      viewTask str task text view

/-! ### Sending -/

/-- The context an admission was for. -/
def findAdmitted (a : Admission) : Program (Option ContextRow) :=
  match a.requestedContextId with
  | none => ask (.findContextByCreationMessageId a.messageId)
  | some contextId => ask (.getContext contextId)

/-- The fallback of `admit` after a constraint was violated. -/
def recover (a : Admission) : Program (ContextRow × TaskRow × Bool) := do
  match ← findAdmitted a with
  | none => throw .uniqueViolation
  | some context =>
    match ← ask (.findTaskByMessageId context.contextId a.messageId) with
    | none => throw .uniqueViolation
    | some task => pure (context, task, false)

/-- `admit`, with its transaction's retries made one. -/
def admitOrRecover (a : Admission) : Program (ContextRow × TaskRow × Bool) :=
  tryCatch (ask (.admitTurn a)) fun
    | .uniqueViolation => recover a
    | e => throw e

/-- What `str.strip` removes. -/
def isSpace (c : Char) : Bool :=
  [0x20, 0x85, 0xA0, 0x1680, 0x2028, 0x2029, 0x202F, 0x205F, 0x3000].contains c.toNat
    || (0x09 ≤ c.toNat && c.toNat ≤ 0x0D) || (0x1C ≤ c.toNat && c.toNat ≤ 0x1F)
    || (0x2000 ≤ c.toNat && c.toNat ≤ 0x200A)

/-- The text of a new turn. -/
def turnBody (message : Message) : Answer Text :=
  if !message.extensions.isEmpty then
    .error (.invalidParams "Extensions must continue an existing task")
  else if message.parts.isEmpty || message.parts.contains .other then
    .error (.invalidParams "Only text parts are supported")
  else
    let body := String.join (message.parts.filterMap fun
      | .text s => some s
      | .other => none)
    if body.toList.all isSpace then .error (.invalidParams "Text input cannot be empty")
    else .ok body

/-- Delete an object that nothing came to need. -/
def discardUnless (needed : Bool) (key : ObjectKey) : Program Unit :=
  if needed then pure () else perform (.pendingDelete key)

/-- The try block of `send`: an input whose admission failed is deleted. -/
def admitInput (a : Admission) : Program (Option (ContextRow × TaskRow × Bool)) :=
  tryCatch (some <$> admitOrRecover a) fun
    | .keyError => do
      perform (.pendingDelete a.inputObjectKey)
      pure none
    | e => do
      perform (.pendingDelete a.inputObjectKey)
      throw e

/-- Wake the scheduler for a task that is not over. -/
def wake (contextId : ContextId) (task : TaskRow) : Program Unit :=
  if task.internalState == .terminal then pure () else perform (.schedule contextId 0)

/-- Store the input, admit the turn and wake the scheduler, even on an idempotent retry. -/
def sendTurn (requested : Option ContextId) (messageId : MessageId) (body : Text)
    (view : TaskViewOptions) : Program (Answer TaskObject) := do
  let key ← perform .uuid4
  perform (.pendingPut key body)
  let proposedContextId ← perform .uuid4
  let proposedTaskId ← perform .uuid4
  let admitted ← admitInput
    { proposedContextId
      requestedContextId := requested
      messageId
      proposedTaskId
      inputObjectKey := key }
  match admitted with
  | none => invalid "Unknown CMA context"
  | some (context, task, created) =>
    discardUnless created key
    wake context.contextId task
    getTask str task.taskId none (some view)

/-- The try block of a clarification's answer: an answer that failed is deleted. -/
def decide (requestId : RequestId) (taskId : TaskId) (answerKey : ObjectKey) :
    Program (Option ClarificationRow) :=
  tryCatch (ask (.decideClarificationRequest requestId taskId answerKey)) fun e => do
    perform (.pendingDelete answerKey)
    throw e

/-- Answer a clarification. -/
def continueClarification (contextId : ContextId) (task : TaskRow) (requestId : RequestId)
    (answer : Text) (options : TaskViewOptions) : Program (Answer TaskObject) := do
  match ← ask (.getInputRequest requestId task.taskId) with
  | some (.clarification prior) =>
    if prior.status != .pending then getTask str task.taskId none (some options)
    else if task.internalState != .inputRequired then
      invalid "Task is not waiting for human input"
    else
      let answerKey ← perform .uuid4
      perform (.pendingPut answerKey answer)
      let row ← decide requestId task.taskId answerKey
      discardUnless (row.bind (·.answerObjectKey) == some answerKey) answerKey
      if row.isNone then invalid "Unknown clarification request"
      else do
        perform (.schedule contextId 0)
        getTask str task.taskId none (some options)
  | _ => invalid "Unknown clarification request"

/-- Rule on an offer. -/
def continueApproval (contextId : ContextId) (task : TaskRow) (requestId : RequestId)
    (decision : Ruling) (options : TaskViewOptions) : Program (Answer TaskObject) := do
  if !(← ask (.recordHumanRuling requestId task.taskId decision)) then
    invalid "Unknown, stale, or conflicting OpenAPPA review"
  else
    perform (.schedule contextId 0)
    getTask str task.taskId none (some options)

/-- `_continue`: a client's response to a request of a task. -/
def continue' (message : Message) (taskId : TaskId) (options : TaskViewOptions) :
    Program (Answer TaskObject) :=
  if !options.humanInputEnabled || !message.extensions.contains humanInputExtensionUri then
    invalid "Ordinary text cannot continue an existing task"
  else if !message.parts.isEmpty || message.extensions.any (· != humanInputExtensionUri) then
    invalid "Human input must use only the declared extension"
  else do
    match ← ask (.getTask taskId) with
    | none => pure (.error .taskNotFound)
    | some task =>
      if some task.contextId != message.contextId then pure (.error .taskNotFound)
      else
        match message.envelope with
        | .missing => invalid "Missing human-input/v1 response"
        | .invalid => invalid "Invalid human-input/v1 response"
        | .response (.clarification requestId answer) =>
          continueClarification str task.contextId task requestId answer options
        | .response (.toolApproval requestId decision) =>
          continueApproval str task.contextId task requestId decision options

/-- `send`: a new turn, or the continuation of a task. -/
def send (message : Message) (historyLength : Option ℤ)
    (options : Option TaskViewOptions) : Program (Answer TaskObject) :=
  match viewOptions historyLength options with
  | .error e => pure (.error e)
  | .ok view =>
    match message.role, message.messageId with
    | .user, some messageId =>
      match message.taskId with
      | some taskId => continue' str message taskId view
      | none =>
        match turnBody message with
        | .error e => pure (.error e)
        | .ok body => sendTurn str message.contextId messageId body view
    | _, _ => invalid "A USER message with messageId is required"

/-- The scheduler has to stop a task that is not over; a queued one is pushed as it is. -/
def wakeOrPush (cfg : Config) (after : TaskRow) : Program Unit :=
  if after.internalState != .terminal then perform (.schedule after.contextId 0)
  else if cfg.pushTrigger then tryCatch (perform (.schedulePush after.contextId)) fun _ => pure ()
  else pure ()

/-- `cancel`. -/
def cancel (cfg : Config) (taskId : TaskId) (options : Option TaskViewOptions) :
    Program (Answer TaskObject) := do
  match ← ask (.getTask taskId) with
  | none => pure (.error .taskNotFound)
  | some _ =>
    match ← ask (.cancelTask taskId) with
    | none => throw .other
    | some after =>
      wakeOrPush cfg after
      getTask str taskId none options

end Service

end ManagedAgents.Controller
