import ManagedAgents.Controller.Staff

/-!
The parts of the scheduler's programs by which nothing is begun, nobody's words are taken or passed
on, and nothing is stored or deleted.
-/

namespace ManagedAgents.Controller

open ManagedAgents.Lib

variable {taskId : TaskId}

/-- The calls by which nothing is begun, nobody's words are taken or passed on, and nothing is
stored or deleted. -/
def Routine : Call → Prop
  | .query (.admitTurn _) | .query (.activateTask _ _ _ _) | .pendingPut _ _ | .pendingDelete _
  | .query (.decideClarificationRequest _ _ _) | .query (.recordPolicyDecision _ _ _ _ _)
  | .sendCustomToolResult _ _ _ _ _ => False
  | _ => True

/-- Those of them by which no request is added, no review recorded and the engine asked nothing. -/
def Plain : Call → Prop
  | .query (.addInputRequest _ _ _ _ _) | .query (.addClarificationRequest _ _ _ _ _)
  | .query (.recordHumanReview _ _ _ _ _) | .policyExchange _ _ => False
  | c => Routine c

section

variable {c : Call}

lemma Plain.routine (h : Plain c) : Routine c := by
  cases c with
  | query q => cases q <;> trivial
  | policyExchange => trivial
  | _ => exact h

lemma Viewing.plain (h : Viewing c) : Plain c := by
  cases c with
  | query q => cases q <;> trivial
  | _ => trivial

lemma Cancelling.plain (h : Cancelling c) : Plain c := by
  cases c with
  | query q => cases q <;> trivial
  | _ => trivial

end

section

variable {contextId : ContextId} {claim : ClaimId} {cfg : Config} {task : TaskRow}
  {sessionId : SessionId} {events : List Event}

lemma plain_hold {reason : Option HeldReason} : (hold taskId contextId claim reason).Every Plain :=
  every_ask trivial fun _ => .pure

lemma plain_updateContext {f : ContextFields} : (updateContext' contextId claim f).Every Plain :=
  every_ask trivial fun _ => .pure

lemma plain_finish {state : A2aState} {e : Option EventId} :
    (finish contextId taskId claim state e).Every Plain :=
  .bind (every_ask trivial fun _ => .pure) fun _ => plain_updateContext

lemma plain_finishFailed {e : Option EventId} :
    (finishFailed contextId taskId claim e).Every Plain :=
  plain_updateContext.bind fun _ => plain_finish

lemma plain_pendingGet {key : Option ObjectKey} : (pendingGet key).Every Plain := by
  cases key with
  | none => exact .throw
  | some key => exact Prog.every_perform trivial

lemma plain_confirmationReason {row : ApprovalRow} {decision : Ruling} :
    (confirmationReason task row decision).Every Plain := by
  unfold confirmationReason
  split
  · exact .map (Prog.every_perform trivial)
  · exact .pure

lemma plain_reconcileApproval {row : ApprovalRow} :
    (reconcileApproval contextId task claim sessionId events row).Every Plain := by
  unfold reconcileApproval
  split
  · exact .bind (Prog.every_perform trivial) fun _ => .pure
  split
  · split
    · exact plain_hold.bind fun _ => .pure
    · exact .pure
  cases row.decision with
  | none => exact plain_hold.bind fun _ => .pure
  | some decision =>
    refine every_ask trivial fun marked => ?_
    split
    · exact .pure
    refine .bind (.tryCatch ?_ fun e => ?_) fun sent => ?_
    · exact plain_confirmationReason.bind fun _ => every_call trivial fun _ => .pure
    · cases e with
      | definitiveProvider => exact plain_finishFailed.bind fun _ => .pure
      | _ => exact plain_hold.bind fun _ => every_call trivial fun _ => .pure
    · cases sent with
      | settled => exact .bind (Prog.every_perform trivial) fun _ => .pure
      | _ => exact .pure

lemma every_consult {P : Call → Prop} {request : ToolPolicyRequest} {row : ApprovalRow}
    (h : ∀ resolution, P (.policyExchange request resolution)) : (consult request row).Every P := by
  unfold consult
  cases row.humanRuling with
  | none => exact Prog.every_perform (h none)
  | some ruling =>
    refine every_call (h _) fun result => ?_
    dsimp only
    split
    · exact .bind .throw fun _ => .pure
    · exact .pure

lemma routine_judgeFailed {row : ApprovalRow} {code : PolicyCode} :
    (judgeFailed contextId taskId claim row code).Every Routine := by
  unfold judgeFailed
  dsimp only
  split
  · exact .bind (Prog.every_perform trivial) fun _ => plain_hold.mono Plain.routine
  · exact plain_hold.mono Plain.routine

lemma plain_setWaitingState : (setWaitingState contextId taskId claim).Every Plain :=
  every_ask trivial fun _ => every_ask trivial fun _ => .pure

lemma routine_addRequests {ids : List EventId} :
    (addRequests contextId taskId claim ids events).Every Routine := by
  induction events with
  | nil => exact .pure
  | cons source rest ih =>
    unfold addRequests
    cases source.id with
    | none => exact ih
    | some eventId =>
      dsimp only
      split
      · split
        · exact every_ask trivial fun _ => ih
        · split
          · exact every_ask trivial fun _ => ih
          · exact ih
      · exact ih

lemma plain_sendInterrupt : (sendInterrupt contextId task claim sessionId).Every Plain := by
  unfold sendInterrupt
  split
  · split
    · exact plain_hold
    · exact .pure
  · refine every_call trivial fun now => .bind (every_ask trivial fun _ => .pure) fun _ => ?_
    refine .tryCatch (Prog.every_perform trivial) fun e => ?_
    cases e with
    | definitiveProvider => exact plain_finishFailed
    | _ => exact plain_hold

lemma plain_resolve {resolution : Resolution} {verified : Bool} :
    (resolve cfg taskId resolution verified).Every Plain := by
  unfold resolve
  split
  · exact .throw
  refine every_ask trivial fun row => ?_
  cases row with
  | none => exact .throw
  | some row =>
    refine every_ask trivial fun granted => ?_
    cases granted with
    | none => exact .throw
    | some claim =>
      refine .bind (Contract.Conforms.ensure (Q := fun _ _ => True) (E := fun _ => True)
        (every_ask trivial fun _ => .pure) (fun _ _ _ => every_ask trivial fun _ => .pure)
        fun _ _ => every_ask trivial fun _ => .pure) fun _ => every_call trivial fun _ => ?_
      split
      · exact Prog.every_perform trivial
      · exact .pure

lemma plain_scheduleNext : (scheduleNext contextId).Every Plain := by
  refine every_ask trivial fun refreshed => ?_
  split
  · exact Prog.every_perform trivial
  refine every_ask trivial fun queued => ?_
  split
  · exact Prog.every_perform trivial
  · exact .pure

lemma plain_runOnceCleanup : (runOnceCleanup cfg contextId claim).Every Plain := by
  refine every_ask trivial fun _ => ?_
  split
  · exact .tryCatch (Prog.every_perform trivial) fun _ => .pure
  · exact .pure

end

section

variable {κ α : Type} {C : Contract Call Call.Reply Exn κ} {p : Program α} {k : κ}

/-- A contract for which nothing of this matters. -/
class Lenient (C : Contract Call Call.Reply Exn κ) : Prop where
  allowed : ∀ {k c}, Routine c → C.allowed k c

/-- A contract for which at most the requests and reviews matter. -/
class Tolerant (C : Contract Call Call.Reply Exn κ) : Prop where
  allowed : ∀ {k c}, Plain c → C.allowed k c

instance [Lenient C] : Tolerant C := ⟨fun h => Lenient.allowed h.routine⟩

variable [Preorder κ] [C.Growing]

lemma abides_routine [Lenient C] (h : p.Every Routine) : C.Abides p k := .every h Lenient.allowed

lemma abides_plain [Tolerant C] (h : p.Every Plain) : C.Abides p k := .every h Tolerant.allowed

end

end ManagedAgents.Controller
