import ManagedAgents.Controller.Provider
import ManagedAgents.Lib.JsString

/-!
A2A tasks as the web function reads them, and what `mapper.ts` makes of them: the requests a task
waits for, the messages of a thread and the events that finish a run. A message's text is a string
of JavaScript; the strings of its metadata are given by their code points, as in every JSON value.
-/

namespace ManagedAgents.Web

open ManagedAgents.Lib
open ManagedAgents.Controller (Json)

/-! ### Tasks -/

inductive Role
  | unspecified | user | agent
  deriving DecidableEq

inductive TaskState
  | unspecified | submitted | working | completed | failed | canceled | inputRequired | rejected
  | authRequired
  deriving DecidableEq

inductive Part
  | text (value : Units)
  | other
  deriving DecidableEq

structure A2AMessage where
  messageId : String
  role : Role
  parts : List Part
  extensions : List String := []
  metadata : List (CodePoints × Json) := []

structure TaskStatus where
  state : TaskState
  message : Option A2AMessage := none

structure Task where
  id : String
  status : Option TaskStatus
  history : List A2AMessage := []

def Task.state? (task : Task) : Option TaskState := task.status.map (·.state)

/-! ### Requests -/

def humanInput : String :=
  "https://ryfeus.github.io/claude-managed-agents-ui-eda/a2a/extensions/human-input/v1"

/-- A request, as `request` parses it. -/
inductive RequestItem
  | toolApproval (requestId : CodePoints) (name : CodePoints)
      (arguments : List (CodePoints × Json)) (message : Option CodePoints)
  | clarification (requestId : CodePoints) (prompt : CodePoints)
      (choices : Option (List CodePoints))

namespace RequestItem

def requestId : RequestItem → CodePoints
  | toolApproval id _ _ _ => id
  | clarification id _ _ => id

/-- `z.string().min(1)`. -/
def text : Option Json → Option CodePoints
  | some (.str s) => if s = [] then none else some s
  | _ => none

/-- `z.string().nullable().optional()`. -/
def optionalString : Option Json → Option (Option CodePoints)
  | none | some .null => some none
  | some (.str s) => some (some s)
  | _ => none

def string : Json → Option CodePoints
  | .str s => some s
  | _ => none

/-- `z.array(z.string()).nullable().optional()`. -/
def optionalStrings : Option Json → Option (Option (List CodePoints))
  | none | some .null => some none
  | some (.arr items) => (items.mapM string).map some
  | _ => none

/-- `z.record(z.string(), z.unknown())`, which leaves `__proto__` out. -/
def record : Option Json → Option (List (CodePoints × Json))
  | some (.obj fields) => some (fields.filter (·.1 != codes "__proto__"))
  | _ => none

/-- `z.tuple([z.literal("allow"), z.literal("deny")])`. -/
def allowedResponses : Option Json → Option Unit
  | some (.arr [.str first, .str second]) =>
    if first = codes "allow" ∧ second = codes "deny" then some () else none
  | _ => none

def parseApproval (item : Json) : Option RequestItem := do
  let requestId ← text (item.field? "requestId")
  let tool ← item.field? "tool"
  let name ← text (tool.field? "name")
  let arguments ← record (tool.field? "arguments")
  allowedResponses (item.field? "allowedResponses")
  let message ← optionalString (item.field? "message")
  pure (toolApproval requestId name arguments message)

def parseClarification (item : Json) : Option RequestItem := do
  let requestId ← text (item.field? "requestId")
  let prompt ← text (item.field? "prompt")
  let choices ← optionalStrings (item.field? "choices")
  pure (clarification requestId prompt choices)

/-- `request`, a union told apart by its kind. -/
def parse (item : Json) : Option RequestItem :=
  match item.field? "kind" with
  | some (.str kind) =>
    if kind = codes "tool_approval" then parseApproval item
    else if kind = codes "clarification" then parseClarification item
    else none
  | _ => none

end RequestItem

/-- `Interrupt`, which carries the request it is for. -/
structure Interrupt where
  id : CodePoints
  message : Option CodePoints
  metadata : RequestItem

def RequestItem.interrupt (item : RequestItem) : Interrupt :=
  { id := item.requestId
    message := match item with
      | toolApproval _ _ _ message => message
      | clarification _ prompt _ => some prompt
    metadata := item }

/-- `z.array(request)`. -/
def parseRequests : Json → Option (List RequestItem)
  | .arr items => items.mapM RequestItem.parse
  | _ => none

/-- The requests a task waits for; it throws when they do not parse. -/
def interrupts (task : Task) : Option (List Interrupt) :=
  match task.status with
  | some { state := .inputRequired, message := some message } =>
    if message.extensions.contains humanInput then
      match (message.metadata.lookup (codes humanInput)).bind (·.field? "requests") with
      | none | some .null => some []
      | some requests => (parseRequests requests).map (·.map (·.interrupt))
    else some []
  | _ => some []

/-! ### Messages -/

def text (message : A2AMessage) : Units :=
  (ascii "\n").intercalate (message.parts.filterMap fun
    | .text value => some value
    | .other => none)

/-- Ids of a thread's messages. In the source those of a preview and of a pending request are
strings `preview-<id>` and `pending-<task>`; that a canonical id has one of these forms is left
out. -/
inductive MessageId
  | canonical (id : String)
  | preview (id : Units)
  | pending (taskId : String)
  deriving DecidableEq

inductive MessageRole
  | user | assistant
  deriving DecidableEq

structure ToolCall where
  id : CodePoints
  name : CodePoints
  arguments : List (CodePoints × Json)

structure Message where
  id : MessageId
  role : MessageRole
  content : Units
  toolCalls : List ToolCall := []
  interrupts : List Interrupt := []

def Interrupt.toolCall? (item : Interrupt) : Option ToolCall :=
  match item.metadata with
  | .toolApproval _ name arguments _ => some { id := item.id, name, arguments }
  | .clarification _ _ _ => none

def pendingMessage (task : Task) : Option (Option Message) := do
  let pending ← interrupts task
  if pending.isEmpty then pure none
  else pure (some
    { id := .pending task.id
      role := .assistant
      content := []
      toolCalls := pending.filterMap Interrupt.toolCall?
      interrupts := pending })

/-- `message`: only users and agents speak. -/
def message (original : A2AMessage) : Option Message :=
  match original.role with
  | .user => some { id := .canonical original.messageId, role := .user, content := text original }
  | .agent =>
    some { id := .canonical original.messageId, role := .assistant, content := text original }
  | .unspecified => none

/-- One more message of the history, unless its id is there already. -/
def addMessage (messages : List Message) (original : A2AMessage) : List Message :=
  match message original with
  | some converted =>
    if messages.any (·.id == converted.id) then messages else messages ++ [converted]
  | none => messages

def isActive (task : Task) : Bool :=
  match task.state? with
  | some .submitted | some .working | some .inputRequired => true
  | _ => false

/-- The messages `history` returns for the tasks it read; it throws with `pendingMessage`. -/
def history (tasks : List Task) : Option (List Message) := do
  let messages := (tasks.flatMap (·.history)).foldl addMessage []
  match tasks.find? isActive with
  | none => pure messages
  | some active =>
    let pending ← pendingMessage active
    pure (messages ++ pending.toList)

/-! ### Events -/

inductive RunOutcome
  | success
  | interrupt (interrupts : List Interrupt)

/-- What is written to the client. -/
inductive BaseEvent
  | runStarted (threadId runId : String)
  | messagesSnapshot (messages : List Message)
  | textMessageStart (messageId : MessageId)
  | textMessageContent (messageId : MessageId) (delta : Units)
  | textMessageEnd (messageId : MessageId)
  | toolCallStart (toolCallId toolCallName : CodePoints)
  | toolCallArgs (toolCallId : CodePoints) (delta : List (CodePoints × Json))
  | toolCallEnd (toolCallId : CodePoints)
  | runFinished (threadId runId : String) (outcome : RunOutcome)
  | runError (code : Option String) (message : String)
  | heartbeat

def ToolCall.events (call : ToolCall) : List BaseEvent :=
  [.toolCallStart call.id call.name, .toolCallArgs call.id call.arguments, .toolCallEnd call.id]

/-- The events that finish a run, when the task's state does. -/
def finish (task : Task) (threadId runId : String) : Option (Option (List BaseEvent)) :=
  match task.state? with
  | some .completed => some (some [.runFinished threadId runId .success])
  | some .canceled => some (some [.runError (some "TASK_CANCELLED") "The task was cancelled."])
  | some .failed | some .rejected =>
    some (some [.runError none "The task could not be completed."])
  | some .inputRequired => do
    let pending ← interrupts task
    if pending.isEmpty then pure (some [.runError none "This task requires unsupported input."])
    else
      let calls := pending.filterMap Interrupt.toolCall?
      pure (some
        (calls.flatMap ToolCall.events ++ [.runFinished threadId runId (.interrupt pending)]))
  | _ => some none

end ManagedAgents.Web
