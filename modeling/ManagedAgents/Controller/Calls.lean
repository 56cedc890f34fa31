import ManagedAgents.Lib.Prog
import ManagedAgents.Controller.Provider
import ManagedAgents.Controller.Repository

/-!
The calls the controller's programs make: repository methods, provider and policy requests, the
pending-input store, the wakeup queues, the clock and fresh ids.
-/

namespace ManagedAgents.Controller

open ManagedAgents.Lib

/-- A repository method with its arguments. -/
inductive Query
  | getContext (contextId : ContextId)
  | getTask (taskId : TaskId)
  | findContextByCreationMessageId (messageId : MessageId)
  | findTaskByMessageId (contextId : ContextId) (messageId : MessageId)
  | admitTurn (a : Admission)
  | claimScheduler (contextId : ContextId)
  | releaseScheduler (contextId : ContextId) (claimId : ClaimId)
  | updateContext (contextId : ContextId) (claimId : ClaimId) (fields : ContextFields)
  | updateTask (taskId : TaskId) (contextId : ContextId) (claimId : ClaimId) (fields : TaskFields)
  | resolveHeldTask (taskId : TaskId) (claimId : ClaimId) (resolution : Resolution)
  | nextQueued (contextId : ContextId)
  | activateTask (contextId : ContextId) (taskId : TaskId) (claimId : ClaimId)
      (predecessorEventId : Option EventId)
  | cancelTask (taskId : TaskId)
  | addInputRequest (requestId : RequestId) (taskId : TaskId) (cmaEventId : EventId)
      (contextId : ContextId) (claimId : ClaimId)
  | addClarificationRequest (requestId : RequestId) (taskId : TaskId) (cmaEventId : EventId)
      (contextId : ContextId) (claimId : ClaimId)
  | listInputRequests (taskId : TaskId)
  | getInputRequest (requestId : RequestId) (taskId : TaskId)
  | recordPolicyDecision (contextId : ContextId) (taskId : TaskId) (claimId : ClaimId)
      (requestId : RequestId) (decision : Ruling)
  | recordHumanReview (contextId : ContextId) (taskId : TaskId) (claimId : ClaimId)
      (requestId : RequestId) (offer : Offer)
  | recordHumanRuling (requestId : RequestId) (taskId : TaskId) (ruling : Ruling)
  | decideClarificationRequest (requestId : RequestId) (taskId : TaskId)
      (answerObjectKey : ObjectKey)
  | markClarificationAttempted (requestId : RequestId) (contextId : ContextId)
      (claimId : ClaimId)
  | denyCancelledInputRequest (requestId : RequestId) (contextId : ContextId) (claimId : ClaimId)
  | resolveInputRequest (requestId : RequestId) (contextId : ContextId) (claimId : ClaimId)
  | markConfirmationAttempted (requestId : RequestId) (contextId : ContextId) (claimId : ClaimId)

namespace Query

@[reducible] def Reply : Query → Type
  | getContext _ => Option ContextRow
  | getTask _ => Option TaskRow
  | findContextByCreationMessageId _ => Option ContextRow
  | findTaskByMessageId _ _ => Option TaskRow
  | admitTurn _ => ContextRow × TaskRow × Bool
  | claimScheduler _ => Option ClaimId
  | releaseScheduler _ _ => Bool
  | updateContext _ _ _ => ContextRow
  | updateTask _ _ _ _ => TaskRow
  | resolveHeldTask _ _ _ => ContextId
  | nextQueued _ => Option TaskRow
  | activateTask _ _ _ _ => TaskRow
  | cancelTask _ => Option TaskRow
  | addInputRequest _ _ _ _ _ => Unit
  | addClarificationRequest _ _ _ _ _ => Unit
  | listInputRequests _ => List Request
  | getInputRequest _ _ => Option Request
  | recordPolicyDecision _ _ _ _ _ => Unit
  | recordHumanReview _ _ _ _ _ => Unit
  | recordHumanRuling _ _ _ => Bool
  | decideClarificationRequest _ _ _ => Option ClarificationRow
  | markClarificationAttempted _ _ _ => Bool
  | denyCancelledInputRequest _ _ _ => Unit
  | resolveInputRequest _ _ _ => Unit
  | markConfirmationAttempted _ _ _ => Bool

/-- The method's transaction; `fresh` is the id it draws, if it draws one. -/
def run (fresh : ℕ) : (q : Query) → Tx q.Reply
  | getContext contextId => Controller.getContext contextId
  | getTask taskId => Controller.getTask taskId
  | findContextByCreationMessageId messageId =>
    Controller.findContextByCreationMessageId messageId
  | findTaskByMessageId contextId messageId => Controller.findTaskByMessageId contextId messageId
  | admitTurn a => Controller.admitTurn a
  | claimScheduler contextId => Controller.claimScheduler contextId fresh
  | releaseScheduler contextId claimId => Controller.releaseScheduler contextId claimId
  | updateContext contextId claimId fields => Controller.updateContext contextId claimId fields
  | updateTask taskId contextId claimId fields =>
    Controller.updateTask taskId contextId claimId fields
  | resolveHeldTask taskId claimId resolution =>
    Controller.resolveHeldTask taskId claimId resolution
  | nextQueued contextId => Controller.nextQueued contextId
  | activateTask contextId taskId claimId predecessor =>
    Controller.activateTask contextId taskId claimId predecessor
  | cancelTask taskId => Controller.cancelTask taskId
  | addInputRequest requestId taskId cmaEventId contextId claimId =>
    Controller.addInputRequest requestId taskId cmaEventId contextId claimId
  | addClarificationRequest requestId taskId cmaEventId contextId claimId =>
    Controller.addClarificationRequest requestId taskId cmaEventId contextId claimId
  | listInputRequests taskId => Controller.listInputRequests taskId
  | getInputRequest requestId taskId => Controller.getInputRequest requestId taskId
  | recordPolicyDecision contextId taskId claimId requestId decision =>
    Controller.recordPolicyDecision contextId taskId claimId requestId decision
  | recordHumanReview contextId taskId claimId requestId offer =>
    Controller.recordHumanReview contextId taskId claimId requestId offer fresh
  | recordHumanRuling requestId taskId ruling =>
    Controller.recordHumanRuling requestId taskId ruling
  | decideClarificationRequest requestId taskId answerObjectKey =>
    Controller.decideClarificationRequest requestId taskId answerObjectKey
  | markClarificationAttempted requestId contextId claimId =>
    Controller.markClarificationAttempted requestId contextId claimId
  | denyCancelledInputRequest requestId contextId claimId =>
    Controller.denyCancelledInputRequest requestId contextId claimId
  | resolveInputRequest requestId contextId claimId =>
    Controller.resolveInputRequest requestId contextId claimId
  | markConfirmationAttempted requestId contextId claimId =>
    Controller.markConfirmationAttempted requestId contextId claimId

end Query

/-- Any call. A provider call that acts carries the task it is made for, which the provider
does not see. -/
inductive Call
  | query (q : Query)
  | findSession (contextId : ContextId) (creationMessageId : MessageId)
  | createSession (task : TaskId) (contextId : ContextId) (creationMessageId : MessageId)
      (initialText : Text)
  | listEvents (sessionId : SessionId)
  | sendMessage (task : TaskId) (sessionId : SessionId) (text : Text)
  | confirmTool (task : TaskId) (sessionId : SessionId) (toolUseId : EventId) (approved : Bool)
      (reason : Option Text)
  | sendCustomToolResult (task : TaskId) (sessionId : SessionId) (customToolUseId : EventId)
      (answer : Text) (isError : Bool)
  | interrupt (sessionId : SessionId)
  | policyExchange (request : ToolPolicyRequest) (resolve : Option PolicyResolution)
  | pendingPut (key : ObjectKey) (text : Text)
  | pendingGet (key : ObjectKey)
  | pendingDelete (key : ObjectKey)
  | schedule (contextId : ContextId) (delaySeconds : ℕ)
  | schedulePush (contextId : ContextId)
  | clock
  | uuid4

@[reducible] def Call.Reply : Call → Type
  | query q => q.Reply
  | findSession _ _ => Option SessionId
  | createSession _ _ _ _ => SessionId
  | listEvents _ => List Event
  | sendMessage _ _ _ => Option EventId
  | confirmTool _ _ _ _ _ => Unit
  | sendCustomToolResult _ _ _ _ _ => Unit
  | interrupt _ => Unit
  | policyExchange _ _ => ToolPolicyDecision
  | pendingPut _ _ => Unit
  | pendingGet _ => Text
  | pendingDelete _ => Unit
  | schedule _ _ => Unit
  | schedulePush _ => Unit
  | clock => Time
  | uuid4 => ℕ

abbrev Program (α : Type) := Prog Call Call.Reply Exn α

def perform (c : Call) : Program c.Reply := Prog.perform c

def ask (q : Query) : Program q.Reply := perform (.query q)

end ManagedAgents.Controller
