import ManagedAgents.Controller.Repository
import ManagedAgents.Controller.Struct

/-!
Task views built from provider history and controller metadata, from `task_view.py`.

A message id of the view is made of an opaque id and a prefix; the revision of a pending input, a
hash of request ids, stands for those ids. A view that cannot be built raises. What Python's `str`
makes of a value that is no string is a parameter.
-/

namespace ManagedAgents.Controller

open ManagedAgents.Lib

structure TaskViewOptions where
  historyLength : Option ℤ := none
  humanInputEnabled : Bool := false

inductive Role
  | user | agent
  deriving DecidableEq

/-- The ids of a view's messages. -/
inductive ViewMessageId
  | given (messageId : MessageId)
  | cma (eventId : EventId)
  | input (taskId : TaskId) (revision : List RequestId)
  | rejected (taskId : TaskId)
  | failed (taskId : TaskId)
  deriving DecidableEq

/-- One request of a human-input message. -/
inductive HumanInputRequest
  | toolApproval (requestId : RequestId) (name : CodePoints) (arguments : Json) (message : Text)
  | clarification (requestId : RequestId) (prompt : CodePoints)
      (choices : Option (List CodePoints))

def HumanInputRequest.requestId : HumanInputRequest → RequestId
  | toolApproval id _ _ _ => id
  | clarification id _ _ => id

/-- The metadata that carries a request can store its texts and numbers. -/
def HumanInputRequest.storable : HumanInputRequest → Bool
  | toolApproval _ name arguments _ => encodable name && arguments.encodable && arguments.fits
  | clarification _ prompt choices => encodable prompt && (choices.getD []).all encodable

structure ViewMessage where
  messageId : ViewMessageId
  contextId : ContextId
  taskId : TaskId
  role : Role
  text : Text
  /-- The requests of the human-input extension, when the message carries it. -/
  requests : List HumanInputRequest := []

/-- The task as its clients see it. -/
structure TaskObject where
  id : TaskId
  contextId : ContextId
  state : A2aState
  statusMessage : Option ViewMessage := none
  history : List ViewMessage := []

/-- A request row, with the text of its offer where it was read. -/
structure ViewRow where
  request : Request
  reviewDescription : Option Text := none

/-- `text_from_event`: the text parts, joined. -/
def textFromEvent (event : Event) : CodePoints :=
  (event.content.filterMap fun
    | .text s => some s
    | .other => none).flatten

/-- `_message`: a history event, whose text can be encoded, as a message of the task. -/
def eventMessage (task : TaskRow) (event : Event) (eventId : EventId) : ViewMessage :=
  { messageId := if event.isUserMessage then .given task.messageId else .cma eventId
    contextId := task.contextId
    taskId := task.taskId
    role := if event.isUserMessage then .user else .agent
    text := decoded (textFromEvent event) }

/-- The rows that still wait for somebody and can be shown. -/
def ViewRow.isPending (row : ViewRow) : Bool :=
  match row.request with
  | .clarification r => r.status != .resolved
  | .approval r => r.status == .pending && row.reviewDescription.any (!·.isEmpty)
      && r.humanRuling.isNone

namespace Json

/-- `value or {}`: what Python counts as false becomes an empty object. -/
def orEmpty : Json → Json
  | null | bool false | num 0 _ | str [] | arr [] | obj [] => obj []
  | value => value

/-- A string, which is not empty. -/
def text? : Json → Option CodePoints
  | str s => if s.isEmpty then none else some s
  | _ => none

/-- `str(value)`. -/
def toText (str : Json → CodePoints) : Json → CodePoints
  | .str s => s
  | value => str value

def str? : Json → Option CodePoints
  | str s => some s
  | _ => none

end Json

/-- `choices`: absent, or a list of strings; anything else is no clarification. -/
def clarificationChoices (input : Json) : Option (Option (List CodePoints)) :=
  match input.field? "choices" with
  | none | some .null => some none
  | some (.arr items) => some <$> items.mapM Json.str?
  | some _ => none

variable (str : Json → CodePoints)

/-- What a pending row shows, from its event; a row whose event is not there shows nothing. The
models take a name, or a prompt, that is not empty and can be encoded. -/
def requestPayload (events : List Event) (row : ViewRow) :
    Except Exn (Option HumanInputRequest) :=
  match byId events row.request.cmaEventId with
  | none => .ok none
  | some source =>
    let toolInput := source.input.orEmpty
    match row.request with
    | .approval r =>
      match source.name with
      | none => .error .keyError
      | some value =>
        let name := value.toText str
        if name.isEmpty || !encodable name || !toolInput.isObj then .error .valueError
        else .ok (some (.toolApproval r.requestId name toolInput (row.reviewDescription.getD "")))
    | .clarification r =>
      if !toolInput.isObj then .error .other
      else
        match toolInput.field? "prompt" with
        | none => .error .keyError
        | some value =>
          let prompt := value.toText str
          match clarificationChoices toolInput with
          | none => .error .valueError
          | some choices =>
            if prompt.isEmpty || !encodable prompt then .error .valueError
            else .ok (some (.clarification r.requestId prompt choices))

/-- The payloads of some rows, unless one of them raises. -/
def requestPayloads (events : List Event) : List ViewRow → Except Exn (List HumanInputRequest)
  | [] => .ok []
  | row :: rest => do
    let payload ← requestPayload str events row
    let payloads ← requestPayloads events rest
    pure (payload.toList ++ payloads)

/-- `_pending_message`, with the revision that is appended to its id. -/
def pendingMessage (task : TaskRow) (events : List Event) (rows : List ViewRow)
    (revision : List RequestId) : Except Exn (Option ViewMessage) :=
  if task.cancelRequestedAt.isSome then .ok none
  else
    match requestPayloads str events (rows.filter (·.isPending)) with
    | .error e => .error e
    | .ok [] => .ok none
    | .ok payloads =>
      -- `metadata.update` encodes the texts, and overflows on an integer that has no double near it
      if payloads.all (·.storable) then .ok (some
        { messageId := .input task.taskId revision
          contextId := task.contextId
          taskId := task.taskId
          role := .agent
          text := "Human input required"
          requests := payloads })
      else .error .other

/-- The events up to the one that ends a task, when there is one. -/
def throughEvent (endId : Option EventId) : List Event → List Event
  | [] => []
  | event :: rest =>
    if endId.isSome && event.id == endId then [event] else event :: throughEvent endId rest

/-- The task's slice of the history: from its input to its end. -/
def taskSlice (task : TaskRow) (events : List Event) : List Event :=
  match task.cmaInputEventId with
  | none => []
  | some startId =>
    throughEvent task.cmaTerminalEventId (events.dropWhile (·.id != some startId))

/-- The events of the slice that are messages. -/
def messageEvents (task : TaskRow) (events : List Event) : List Event :=
  (taskSlice task events).filter fun event =>
    (event.type == .userMessage || event.type == .agentMessage) && event.id.isSome

/-- The messages of the slice. -/
def sliceMessages (task : TaskRow) (events : List Event) : List ViewMessage :=
  (messageEvents task events).filterMap fun event => event.id.map (eventMessage task event)

/-- The text of every message of the slice can be encoded. -/
def textsEncodable (task : TaskRow) (events : List Event) : Bool :=
  (messageEvents task events).all fun event => encodable (textFromEvent event)

/-- All messages of the task; before it is bound, the one that waits to be sent. -/
def fullHistory (task : TaskRow) (events : List Event) (pendingText : Option Text) :
    List ViewMessage :=
  let waiting := match task.cmaInputEventId, pendingText with
    | none, some text =>
      [{ messageId := .given task.messageId
         contextId := task.contextId
         taskId := task.taskId
         role := .user
         text := text }]
    | _, _ => []
  waiting ++ sliceMessages task events

/-- The last messages, as many as asked for. -/
def recentHistory (historyLength : Option ℤ) (messages : List ViewMessage) : List ViewMessage :=
  match historyLength with
  | none => messages
  | some n => if n > 0 then messages.drop (messages.length - n.toNat) else []

/-- Somebody has to answer, as the revision of the view counts it. -/
def ViewRow.awaited (row : ViewRow) : Bool :=
  match row.request with
  | .clarification r => r.status != .resolved
  | .approval r => r.reviewDigest.isSome && r.status == .pending && r.humanRuling.isNone

/-- The sorted ids of the awaited requests, which the revision is the hash of. -/
def awaitedIds (rows : List ViewRow) : List RequestId :=
  ((rows.filter (·.awaited)).map (·.request.requestId)).insertionSort (RequestId.le · ·)

/-- The status message of a task that waits for input. -/
def inputMessage (task : TaskRow) (events : List Event) (rows : List ViewRow)
    (options : TaskViewOptions) : Except Exn ViewMessage :=
  let revision := awaitedIds rows
  let plain : ViewMessage :=
    { messageId := .input task.taskId revision
      contextId := task.contextId
      taskId := task.taskId
      role := .agent
      text := "This task requires user input." }
  if options.humanInputEnabled then
    match pendingMessage str task events rows revision with
    | .error e => .error e
    | .ok message => .ok (message.getD plain)
  else .ok plain

/-- Why a task was rejected. -/
def rejectedMessage (task : TaskRow) : ViewMessage :=
  { messageId := .rejected task.taskId
    contextId := task.contextId
    taskId := task.taskId
    role := .agent
    text := if task.heldReason == some .contextFailed then
        "This context is unavailable after a provider failure."
      else "Resolve the pending input request before starting another turn." }

/-- Why a task failed. -/
def failedMessage (task : TaskRow) (events : List Event) : ViewMessage :=
  let terminal := events.find? (·.id == task.cmaTerminalEventId)
  let budgetReached := terminal.any fun e =>
    e.type == .budgetReached || e.stopKind == some .budgetReached
  { messageId := .failed task.taskId
    contextId := task.contextId
    taskId := task.taskId
    role := .agent
    text := if budgetReached then
        "The CMA session reached its budget before this task completed."
      else "The CMA session ended before this task completed." }

/-- `build_task`. -/
def buildTask (task : TaskRow) (events : List Event) (rows : List ViewRow)
    (options : TaskViewOptions) (pendingText : Option Text) : Except Exn TaskObject :=
  -- `a2a.Part` takes no text that cannot be encoded
  if !textsEncodable task events then .error .valueError
  else
    let messages := fullHistory task events pendingText
    let result : TaskObject :=
      { id := task.taskId
        contextId := task.contextId
        state := task.a2aState
        history := recentHistory options.historyLength messages }
    match task.a2aState with
    | .completed => .ok { result with statusMessage := messages.reverse.find? (·.role == .agent) }
    | .inputRequired => do
      let message ← inputMessage str task events rows options
      pure { result with statusMessage := some message }
    | .rejected => .ok { result with statusMessage := some (rejectedMessage task) }
    | .failed => .ok { result with statusMessage := some (failedMessage task events) }
    | .submitted | .working | .canceled => .ok result

end ManagedAgents.Controller
