import ManagedAgents.Lib.Prog
import ManagedAgents.Threads.Repository

/-!
Logical turns of a thread as tasks of the controller: `ThreadAgentService` of `service.py`, and
`ThreadService` of `service.ts` where it differs.

An id is never empty; a message's missing context stands for the empty one. Loops over pages end
when the invocation does, after as many pages as it is given.
-/

namespace ManagedAgents.Threads

open ManagedAgents.Lib
open ManagedAgents.Controller (ContextId TaskId MessageId ClaimId RequestId A2aState Text)

/-! ### Calls -/

/-- A human's response to a request for an approval. -/
structure ToolApproval where
  requestId : RequestId
  allow : Bool
  reason : Option Text

/-- A message to the controller: a turn, or a response for a task. -/
structure Message where
  messageId : MessageId
  contextId : Option ContextId
  taskId : Option TaskId := none
  text : Option Text := none
  response : Option ToolApproval := none

/-- What is read of a task; the requests it waits for can be unreadable. -/
structure Task where
  id : TaskId
  contextId : ContextId
  state : A2aState
  requests : Option (List RequestId) := some []

structure TaskPage where
  tasks : List Task
  nextPageToken : Option Text

/-- What is published for Slack. -/
inductive Published
  | controlReply (teamId channelId threadTs text : String)
  | workStarted (slackEventId : String)
  | projection (slackEventId : String) (threadId : ThreadId) (taskId : TaskId)
      (bindingId : BindingId)

abbrev IngressToken := ℕ

inductive IngressClaim
  | acquired (token : IngressToken) | busy | completed

/-- A call to the repository, to the controller, or to one of the others. -/
inductive Call
  | query (q : Query)
  | getAgentCard (agentId : AgentId)
  | sendMessage (agentId : AgentId) (message : Message) (humanInput : Bool)
  | getTask (agentId : AgentId) (taskId : TaskId) (humanInput : Bool)
  | listTasks (agentId : AgentId) (contextId : ContextId) (pageToken : Option Text)
  | cancelTask (agentId : AgentId) (taskId : TaskId)
  | createPushConfig (agentId : AgentId) (taskId : TaskId)
  | claimIngress (surface eventId : String)
  | completeIngress (surface eventId : String) (token : IngressToken)
      (threadId : Option ThreadId) (taskId : Option TaskId)
  | failIngress (surface eventId : String) (token : IngressToken) (error : Exn)
  | ensureProjection (bindingId : BindingId) (taskId : TaskId) (slackEventId : String)
  | publish (event : Published)
  | faultsHit (point eventId : String)
  | setAgentStatus (channelId threadTs status : String)
  | updateMessage (channelId messageTs text : String)

@[reducible] def Call.Reply : Call → Type
  | query q => q.Reply
  | sendMessage _ _ _ => Task
  | getTask _ _ _ => Task
  | listTasks _ _ _ => TaskPage
  | cancelTask _ _ => Task
  | claimIngress _ _ => IngressClaim
  | _ => Unit

abbrev Program (α : Type) := Prog Call Call.Reply Exn α

def perform (c : Call) : Program c.Reply := Prog.perform c

def ask (q : Query) : Program q.Reply := perform (.query q)

/-! ### Texts -/

/-- `str.isspace`, of one character. -/
def isSpace (c : Char) : Bool :=
  let n := c.toNat
  (9 ≤ n && n ≤ 13) || (28 ≤ n && n ≤ 32) || n == 0x85 || n == 0xa0 || n == 0x1680
    || (0x2000 ≤ n && n ≤ 0x200a) || n == 0x2028 || n == 0x2029 || n == 0x202f || n == 0x205f
    || n == 0x3000

/-- `not text.strip()`. -/
def blank (text : Text) : Bool := text.toList.all isSpace

/-! ### Turns -/

namespace Service

def thread (threadId : ThreadId) : Program ThreadRow := do
  match ← ask (.getThread threadId) with
  | some thread => pure thread
  | none => throw .keyError

/-- The context a turn is sent in, or the claim under which the turn makes one. -/
inductive Turn
  | within (contextId : ContextId)
  | first (claimId : ClaimId)

def Turn.contextId : Turn → Option ContextId
  | within contextId => some contextId
  | first _ => none

def claimAttempts : ℕ := 11

def attempt (claimSeconds : ℕ) (threadId : ThreadId) : Program (Option Turn) := do
  match ← ask (.claimContextInitialization threadId claimSeconds) with
  | .acquired claimId => pure (some (.first claimId))
  | .ready contextId => pure (some (.within contextId))
  | .busy => pure none

/-- The thread's context, or a claim on it; eleven attempts are made for one. -/
def openTurn (claimSeconds : ℕ) (thread : ThreadRow) : Program Turn := do
  match thread.contextId with
  | some contextId => pure (.within contextId)
  | none =>
    let turn ← Prog.loop (fun _ => attempt claimSeconds thread.threadId) (List.range claimAttempts)
    match turn with
    | some turn => pure turn
    | none => throw .retryableControlPlane

/-- Send a turn. A failed response can follow the task's admission; the claim is kept then. -/
def submit (thread : ThreadRow) (turn : Turn) (clientMessageId : MessageId) (text : Text) :
    Program Task :=
  let message : Message :=
    { messageId := clientMessageId
      contextId := turn.contextId
      text := some text }
  tryCatch (perform (.sendMessage thread.agentId message false)) fun e => do
    match e, turn with
    | .definitiveRequest, .first claimId =>
      ask (.releaseContextInitialization thread.threadId claimId)
      throw e
    | _, _ => throw e

/-- The context that was made becomes the thread's, and the one that was there stays. -/
def closeTurn (thread : ThreadRow) (turn : Turn) (task : Task) : Program Unit :=
  match turn with
  | .first claimId => do
    let _ ← ask (.bindContext thread.threadId claimId task.contextId)
    pure ()
  | .within contextId => if task.contextId = contextId then pure () else throw .runtimeError

def contextSeconds : ℕ := 30

/-- `send_turn`. -/
def sendTurn (threadId : ThreadId) (clientMessageId : MessageId) (text : Text) : Program Task := do
  if blank text then throw .valueError
  else
    let thread ← thread threadId
    perform (.getAgentCard thread.agentId)
    let _ ← ask (.recordLogicalSend threadId thread.agentId clientMessageId)
    let turn ← openTurn contextSeconds thread
    let task ← submit thread turn clientMessageId text
    closeTurn thread turn task
    let _ ← ask (.bindTaskId threadId clientMessageId task.id)
    tryCatch (perform (.createPushConfig thread.agentId task.id)) fun _ =>
      throw .retryablePushSetup
    pure task

/-- `send` of `service.ts`. -/
def send (threadId : ThreadId) (messageId : MessageId) (text : Text) : Program Task := do
  let thread ← thread threadId
  let _ ← ask (.recordLogicalSend threadId thread.agentId messageId)
  let turn ← openTurn contextSeconds thread
  let task ← submit thread turn messageId text
  closeTurn thread turn task
  let _ ← ask (.bindTaskId threadId messageId task.id)
  perform (.createPushConfig thread.agentId task.id)
  ask (.updateTitleIfEmpty threadId text)
  pure task

/-! ### Tasks of a thread -/

/-- `_bound`. -/
def bound (threadId : ThreadId) (taskId : TaskId) : Program ThreadRow := do
  let thread ← thread threadId
  match ← ask (.getTaskBinding thread.agentId taskId) with
  | some binding => if binding.threadId = threadId then pure thread else throw .keyError
  | none => throw .keyError

def getTask (threadId : ThreadId) (taskId : TaskId) (humanInput : Bool) : Program Task := do
  let thread ← bound threadId taskId
  let task ← perform (.getTask thread.agentId taskId humanInput)
  if thread.contextId = some task.contextId then pure task else throw .runtimeError

def cancelTask (threadId : ThreadId) (taskId : TaskId) : Program Task := do
  let thread ← bound threadId taskId
  perform (.cancelTask thread.agentId taskId)

def continueHumanInput (threadId : ThreadId) (taskId : TaskId) (clientMessageId : MessageId)
    (response : ToolApproval) : Program Task := do
  let thread ← bound threadId taskId
  perform (.sendMessage thread.agentId
    { messageId := clientMessageId
      contextId := thread.contextId
      taskId := some taskId
      response := some response } true)

/-- The tasks of a context from a page on. -/
def pages (thread : ThreadRow) (contextId : ContextId) (pageToken : Option Text) :
    ℕ → Program (List Task)
  | 0 => throw .other
  | n + 1 => do
    let page ← perform (.listTasks thread.agentId contextId pageToken)
    match page.nextPageToken with
    | none => pure page.tasks
    | some next => do
      let rest ← pages thread contextId (some next) n
      pure (page.tasks ++ rest)

def listTasks (threadId : ThreadId) (patience : ℕ) : Program (List Task) := do
  let thread ← thread threadId
  match thread.contextId with
  | none => pure []
  | some contextId => pages thread contextId none patience

def active : A2aState → Bool
  | .submitted | .working | .inputRequired => true
  | _ => false

def cancelActiveTask (threadId : ThreadId) (patience : ℕ) : Program (Option Task) := do
  let tasks ← listTasks threadId patience
  match tasks.find? fun task => active task.state with
  | none => pure none
  | some task => do
    let task ← cancelTask threadId task.id
    pure (some task)

end Service

end ManagedAgents.Threads
