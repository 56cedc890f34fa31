import ManagedAgents.Threads.Effects
import ManagedAgents.Threads.System

/-!
Whatever a Slack handler has the controller do concerns a thread that belongs to the user it acts
for.

A handler's file says what it was told. It commands the controller only after it resolved the user
of its event and saw that the thread is this principal's and not archived; and it names a task only
after it read that the task is bound to that thread.
-/

namespace ManagedAgents.Threads

open ManagedAgents.Lib
open ManagedAgents.Controller (ContextId TaskId MessageId ClaimId RequestId Text)

abbrev File := Dossier Errand Call.Reply Exn

/-! ### What a handler may have the controller do -/

/-- Rows are what was asked for. -/
def possible : (c : Call) → Except Exn c.Reply → Prop
  | .query (.getThread threadId), .ok (some row) => row.threadId = threadId
  | .query (.selectSurfaceThread _ _ _), .ok (some (row, b)) => row.threadId = b.threadId
  | _, _ => True

/-- The user of the event is this principal. -/
def Resolved (d : File) (p : PrincipalId) : Prop :=
  d.Heard (.query (.resolveExternalIdentity "slack" d.job.teamId d.job.userId)) (some p)

/-- The answer shows the thread to be the principal's, and not archived. -/
inductive Checks (p : PrincipalId) (t : ThreadId) : Prog.Exchange Call.Reply Exn → Prop
  | owned : Checks p t ⟨.query (.ownsThread p t), .ok true⟩
  | joined {surface tenantId externalThreadId row b} (hrow : row.threadId = t)
    (howned : row.ownedBy p = true) :
    Checks p t
      ⟨.query (.selectSurfaceThread surface tenantId externalThreadId), .ok (some (row, b))⟩
  | created {surface tenantId externalThreadId agentId title row b} (hrow : row.threadId = t) :
    Checks p t ⟨.query (.insertSurfaceThread surface tenantId externalThreadId p agentId title),
      .ok (some (row, b))⟩
  | read {row} (howned : row.ownedBy p = true) :
    Checks p t ⟨.query (.getThread t), .ok (some row)⟩

/-- The thread was seen to be the principal's, and not archived. -/
def Seen (d : File) (p : PrincipalId) (t : ThreadId) : Prop := ∃ x ∈ d.said, Checks p t x

/-- The thread is one of the user's. -/
def Owner (d : File) (t : ThreadId) : Prop := ∃ p, Resolved d p ∧ Seen d p t

/-- The thread's row was read. -/
def Read (d : File) (t : ThreadId) (row : ThreadRow) : Prop :=
  d.Heard (.query (.getThread t)) (some row) ∧ row.threadId = t

/-- The task was seen to be bound to the thread. -/
def Bound (d : File) (t : ThreadId) (row : ThreadRow) (taskId : TaskId) : Prop :=
  Read d t row ∧
    ∃ b, d.Heard (.query (.getTaskBinding row.agentId taskId)) (some b) ∧ b.threadId = t

/-- The context of a turn is the thread's, or one it makes under the thread's claim. -/
inductive Within (d : File) (row : ThreadRow) : Option ContextId → Prop
  | its {contextId} (h : row.contextId = some contextId) : Within d row (some contextId)
  | ready {seconds contextId}
    (h : d.Heard (.query (.claimContextInitialization row.threadId seconds)) (.ready contextId)) :
    Within d row (some contextId)
  | first {seconds claimId}
    (h : d.Heard (.query (.claimContextInitialization row.threadId seconds)) (.acquired claimId)) :
    Within d row none

def allowed (d : File) : Call → Prop
  | .sendMessage agentId message _ =>
    ∃ t row, Owner d t ∧ Read d t row ∧ row.agentId = agentId ∧
      match message.taskId with
      | none => Within d row message.contextId ∧
        ∃ r, d.Heard (.query (.recordLogicalSend t agentId message.messageId)) r
      | some taskId => message.contextId = row.contextId ∧ Bound d t row taskId
  | .getTask agentId taskId _ | .cancelTask agentId taskId =>
    ∃ t row, Owner d t ∧ row.agentId = agentId ∧ Bound d t row taskId
  | .listTasks agentId contextId _ =>
    ∃ t row, Owner d t ∧ Read d t row ∧ row.agentId = agentId ∧ row.contextId = some contextId
  | _ => True

def contract : Contract Call Call.Reply Exn File := .filed possible allowed

section

variable {d d' : File} {p : PrincipalId} {t : ThreadId} {row : ThreadRow} {taskId : TaskId}

lemma Resolved.mono (h : Resolved d p) (hle : d ≤ d') : Resolved d' p := by
  have hjob : d.job = d'.job := hle.1
  unfold Resolved at h ⊢
  rw [← hjob]
  exact d.heard_mono h hle

lemma Seen.mono (h : Seen d p t) (hle : d ≤ d') : Seen d' p t := by
  obtain ⟨x, hx, hchecks⟩ := h
  exact ⟨x, List.IsSuffix.subset hle.2 hx, hchecks⟩

lemma Owner.mono (h : Owner d t) (hle : d ≤ d') : Owner d' t := by
  obtain ⟨p, hresolved, hseen⟩ := h
  exact ⟨p, hresolved.mono hle, hseen.mono hle⟩

lemma Read.mono (h : Read d t row) (hle : d ≤ d') : Read d' t row :=
  ⟨d.heard_mono h.1 hle, h.2⟩

end

/-! ### Following the contract -/

/-- The program keeps the contract, and what it returns is as said. -/
abbrev Follows {α : Type} (prog : Program α) (Q : α → File → Prop) (d : File) : Prop :=
  Lib.Follows possible allowed prog Q d

variable {α β : Type} {prog : Program α} {Q Q' : α → File → Prop} {R : β → File → Prop} {d : File}
  {p : PrincipalId} {t : ThreadId} {row : ThreadRow} {taskId : TaskId}

lemma Follows.ask {q : Query} :
    Follows (ask q) (fun v d' => possible (.query q) (.ok v) ∧ d'.Heard (.query q) v) d :=
  Lib.Follows.perform trivial

/-! ### The service -/

lemma follows_thread : Follows (Service.thread t) (fun row d' => Read d' t row) d := by
  refine Follows.ask.bind fun o d' hle hheard => ?_
  cases o with
  | none => exact .throw
  | some row => exact .pure ⟨hheard.2, hheard.1⟩

lemma follows_attempt {seconds : ℕ} :
    Follows (Service.attempt seconds row.threadId)
      (fun turn d' => ∀ turn' : Service.Turn, turn = some turn' →
        Within d' row turn'.contextId) d := by
  refine Follows.ask.bind fun claim d' _ hheard => ?_
  cases claim with
  | acquired claimId =>
    refine .pure fun turn' hturn => ?_
    cases hturn
    exact .first hheard.2
  | ready contextId =>
    refine .pure fun turn' hturn => ?_
    cases hturn
    exact .ready hheard.2
  | busy => exact .pure nofun

lemma follows_openTurn {seconds : ℕ} :
    Follows (Service.openTurn seconds row) (fun turn d' => Within d' row turn.contextId) d := by
  unfold Service.openTurn
  cases hcontext : row.contextId with
  | some contextId => exact .pure (.its hcontext)
  | none =>
    refine Follows.bind (Q := fun turn d' => ∀ turn' : Service.Turn, turn = some turn' →
        Within d' row turn'.contextId) ?_ fun turn d' hle hturn => ?_
    · -- until an attempt succeeds nothing is known but what was
      exact .loop nofun fun _ _ _ _ _ => follows_attempt
    · cases turn with
      | none => exact .throw
      | some turn => exact .pure (hturn turn rfl)

lemma follows_submit {turn : Service.Turn} {clientMessageId : MessageId} {text : Text}
    (howner : Owner d t) (hread : Read d t row) (hwithin : Within d row turn.contextId)
    (hrecorded : ∃ r, d.Heard (.query (.recordLogicalSend t row.agentId clientMessageId)) r) :
    Follows (Service.submit row turn clientMessageId text) (fun _ _ => True) d := by
  refine .tryCatch (.quiet ⟨t, row, howner, hread, rfl, hwithin, hrecorded⟩) fun e d' _ => ?_
  split
  · exact Follows.ask.bind fun _ _ _ _ => .throw
  · exact .throw

lemma follows_closeTurn {turn : Service.Turn} {task : Task} :
    Follows (Service.closeTurn row turn task) (fun _ _ => True) d := by
  unfold Service.closeTurn
  cases turn with
  | first claimId => exact Follows.ask.bind fun _ _ _ _ => .pure trivial
  | within contextId =>
    dsimp only
    split
    · exact .pure trivial
    · exact .throw

/-- A turn is sent within the thread, on its logical send. -/
lemma follows_sendTurn {clientMessageId : MessageId} {text : Text} (howner : Owner d t) :
    Follows (Service.sendTurn t clientMessageId text) (fun _ _ => True) d := by
  unfold Service.sendTurn
  split
  · exact .throw
  refine follows_thread.bind fun row d₁ hle₁ hread => ?_
  refine .call trivial fun _ d₂ hle₂ => ?_
  refine Follows.ask.bind fun r d₃ hle₃ hrecorded => ?_
  refine follows_openTurn.bind fun turn d₄ hle₄ hwithin => ?_
  have hle : d ≤ d₄ := le_trans hle₁ (le_trans hle₂ (le_trans hle₃ hle₄))
  refine (follows_submit (howner.mono hle)
    (hread.mono (le_trans hle₂ (le_trans hle₃ hle₄))) hwithin
    ⟨r, Dossier.heard_mono hrecorded.2 hle₄⟩).bind fun task _ _ _ => ?_
  refine follows_closeTurn.bind fun _ _ _ _ => Follows.ask.bind fun _ _ _ _ => ?_
  refine Follows.bind (.tryCatch (.quiet trivial) fun _ _ _ => .throw) fun _ _ _ _ => ?_
  exact .pure trivial

lemma follows_bound : Follows (Service.bound t taskId) (fun row d' => Bound d' t row taskId) d := by
  refine follows_thread.bind fun row d₁ _ hread => Follows.ask.bind fun o d₂ hle hheard => ?_
  cases o with
  | none => exact .throw
  | some b =>
    dsimp only
    split
    · rename_i hthread
      exact .pure ⟨hread.mono hle, b, hheard.2, hthread⟩
    · exact .throw

lemma follows_getTask {humanInput : Bool} (howner : Owner d t) :
    Follows (Service.getTask t taskId humanInput) (fun _ _ => True) d := by
  refine follows_bound.bind fun row d' hle hbound => ?_
  refine .call ⟨t, row, howner.mono hle, rfl, hbound⟩ fun task _ _ => ?_
  split
  · exact .pure trivial
  · exact .throw

lemma follows_cancelTask (howner : Owner d t) :
    Follows (Service.cancelTask t taskId) (fun _ _ => True) d :=
  follows_bound.bind fun row _ hle hbound => .quiet ⟨t, row, howner.mono hle, rfl, hbound⟩

lemma follows_continueHumanInput {clientMessageId : MessageId} {response : ToolApproval}
    (howner : Owner d t) :
    Follows (Service.continueHumanInput t taskId clientMessageId response) (fun _ _ => True) d :=
  follows_bound.bind fun row _ hle hbound =>
    .quiet ⟨t, row, howner.mono hle, hbound.1, rfl, rfl, hbound⟩

lemma follows_pages {contextId : ContextId} (howner : Owner d t) (hread : Read d t row)
    (hcontext : row.contextId = some contextId) (patience : ℕ) (pageToken : Option Text) :
    Follows (Service.pages row contextId pageToken patience) (fun _ _ => True) d := by
  induction patience generalizing pageToken d with
  | zero => exact .throw
  | succ n ih =>
    refine .call ⟨t, row, howner, hread, rfl, hcontext⟩ fun page d' hle => ?_
    cases page.nextPageToken with
    | none => exact .pure trivial
    | some next =>
      exact (ih (howner.mono hle) (hread.mono hle) _).bind fun _ _ _ _ => .pure trivial

lemma follows_cancelActiveTask {patience : ℕ} (howner : Owner d t) :
    Follows (Service.cancelActiveTask t patience) (fun _ _ => True) d := by
  have hlist : Follows (Service.listTasks t patience) (fun _ _ => True) d := by
    refine follows_thread.bind fun row d' hle hread => ?_
    cases hcontext : row.contextId with
    | none => exact .pure trivial
    | some contextId => exact follows_pages (howner.mono hle) hread hcontext _ _
  refine hlist.bind fun tasks d' hle _ => ?_
  split
  · exact .pure trivial
  · exact (follows_cancelTask (howner.mono hle)).bind fun _ _ _ _ => .pure trivial

/-! ### The handlers -/

section

variable {config : Config} {principal : Option PrincipalId} {binding : Option SurfaceBinding}
  {surface tenantId externalThreadId eventId : String} {agentId : AgentId} {title : Option Text}
  {token : IngressToken}

lemma follows_authorize (config : Config) (d : File) :
    Follows (AgentInput.authorize config d.job.teamId d.job.userId)
      (fun o d' => ∀ p, o = some p → Resolved d' p) d := by
  unfold AgentInput.authorize
  split
  · refine Follows.ask.mono fun o d' hle hheard p hp => ?_
    have hjob : d.job = d'.job := hle.1
    rw [hp, hjob] at hheard
    exact hheard.2
  · exact .pure nofun

lemma follows_claim : Follows (AgentInput.claim surface eventId) (fun _ _ => True) d := by
  refine .call trivial fun claim d' _ => ?_
  cases claim with
  | acquired token => exact .pure trivial
  | busy => exact .throw
  | completed => exact .pure trivial

lemma follows_ownedThread (h : ∀ p, principal = some p → Resolved d p) :
    Follows (AgentInput.ownedThread principal binding) (fun o d' => ∀ t, o = some t → Owner d' t)
      d := by
  unfold AgentInput.ownedThread
  split
  · rename_i p b
    refine Follows.ask.bind fun owned d' hle hheard => .pure fun t ht => ?_
    cases owned with
    | false => cases ht
    | true =>
      cases ht
      exact ⟨p, (h p rfl).mono hle, _, hheard.2, .owned⟩
  · exact .pure nofun

lemma follows_guarded {body : Program Unit} (h : Follows body (fun _ _ => True) d) :
    Follows (AgentInput.guarded surface eventId token body) (fun _ _ => True) d :=
  .tryCatch h fun _ _ _ => .call trivial fun _ _ _ => .throw

lemma follows_checkBinding :
    Follows (AgentInput.checkBinding row p agentId) (fun _ _ => row.ownedBy p = true) d := by
  unfold AgentInput.checkBinding
  split
  · exact .throw
  · rename_i hsame
    split
    · exact .throw
    · rename_i harchived
      refine .pure ?_
      simp only [ThreadRow.ownedBy, Bool.and_eq_true, beq_iff_eq]
      exact ⟨Decidable.not_not.mp (not_or.mp hsame).1, by simpa using harchived⟩

/-- The thread of a place is the principal's, whether it was there or is new. -/
lemma follows_surfaceThread (h : Resolved d p) :
    Follows (AgentInput.surfaceThread p agentId surface tenantId externalThreadId title)
      (fun pair d' => Owner d' pair.1.threadId) d := by
  refine Follows.ask.bind fun o d₁ hle₁ hheard => ?_
  rcases o with _ | ⟨joined, b⟩
  · refine Follows.ask.bind fun created d₂ hle₂ hcreated => ?_
    rcases created with _ | ⟨created, b⟩
    · exact .throw
    · exact .pure ⟨p, h.mono (le_trans hle₁ hle₂), _, hcreated.2, .created rfl⟩
  · refine follows_checkBinding.bind fun _ d₂ hle₂ howned => ?_
    refine Follows.ask.bind fun o d₃ hle₃ hread => ?_
    cases o with
    | none => exact .throw
    | some thread =>
      have hjoined : joined.threadId = b.threadId := hheard.1
      have hthread : thread.threadId = b.threadId := hread.1
      exact .pure ⟨p, h.mono (le_trans hle₁ (le_trans hle₂ hle₃)), _,
        Dossier.heard_mono hheard.2 (le_trans hle₂ hle₃),
        .joined (hjoined.trans hthread.symm) howned⟩

lemma follows_getOrCreateSurfaceThread {depth : ℕ} (h : Resolved d p) :
    Follows (AgentInput.getOrCreateSurfaceThread p agentId surface tenantId externalThreadId title
      depth) (fun pair d' => Owner d' pair.1.threadId) d := by
  induction depth generalizing d with
  | zero => exact .throw
  | succ depth ih =>
    refine .tryCatch (follows_surfaceThread h) fun e d₁ hle₁ => ?_
    split
    · refine Follows.ask.bind fun o d₂ hle₂ _ => ?_
      cases o with
      | none => exact ih (h.mono (le_trans hle₁ hle₂))
      | some b =>
        refine Follows.ask.bind fun o d₃ hle₃ hread => ?_
        cases o with
        | none => exact .throw
        | some thread =>
          have hthread : thread.threadId = b.threadId := hread.1
          refine follows_checkBinding.bind fun _ d₄ hle₄ howned => .pure ?_
          refine ⟨p, h.mono (le_trans hle₁ (le_trans hle₂ (le_trans hle₃ hle₄))), _,
            Dossier.heard_mono hread.2 hle₄, ?_⟩
          rw [hthread]
          exact .read howned
    · exact .throw

lemma follows_linkExisting {teamId channelId threadTs : String} {threadId : Option ThreadId} :
    Follows (AgentInput.linkExisting p teamId channelId threadTs threadId) (fun _ _ => True) d := by
  have htarget : Follows (AgentInput.linkTarget p threadId) (fun _ _ => True) d := by
    cases threadId with
    | none => exact .pure trivial
    | some threadId =>
      refine .call trivial fun target _ _ => ?_
      cases target with
      | none => exact .pure trivial
      | some target => exact .call trivial fun _ _ _ => .pure trivial
  refine htarget.bind fun target d₁ _ _ => ?_
  cases target with
  | none => exact .call trivial fun _ _ _ => .pure trivial
  | some target =>
    refine .call trivial fun present d₂ _ => ?_
    split
    · exact .call trivial fun _ _ _ => .pure trivial
    · refine Follows.bind (Q := fun _ _ => True)
        (.tryCatch (.call trivial fun _ _ _ => .pure trivial) fun e _ _ => ?_)
        fun linked _ _ _ => ?_
      · split
        · exact .pure trivial
        · exact .throw
      · split
        · exact .call trivial fun _ _ _ => .pure trivial
        · exact .call trivial fun _ _ _ => .pure trivial

lemma follows_controlPlane {α : Type} {body : Program α} {Q : α → File → Prop}
    (h : Follows body Q d) : Follows (AgentInput.controlPlane config body) Q d := by
  unfold AgentInput.controlPlane
  split
  · exact h
  · exact .throw

lemma follows_slack {c : Call} (hallow : allowed d c) :
    Follows (AgentInput.slack config c) (fun _ _ => True) d := by
  unfold AgentInput.slack
  split
  · exact .call hallow fun _ _ _ => .pure trivial
  · exact .throw

lemma follows_sendMessage {detail : SlackMessageReceived} (h : Resolved d p) :
    Follows (AgentInput.sendMessage config detail p token) (fun _ _ => True) d := by
  have hagent : Follows (AgentInput.applicationAgentId config) (fun _ _ => True) d := by
    unfold AgentInput.applicationAgentId
    split
    · exact .pure trivial
    · exact .throw
  refine hagent.bind fun agentId d₁ hle₁ _ => ?_
  refine (follows_getOrCreateSurfaceThread (h.mono hle₁)).bind fun pair d₂ _ howner => ?_
  obtain ⟨thread, b⟩ := pair
  refine .call trivial fun _ d₃ hle₃ => .call trivial fun _ d₄ hle₄ => ?_
  refine (follows_controlPlane (follows_sendTurn (howner.mono (le_trans hle₃ hle₄)))).bind
    fun task _ _ _ => ?_
  refine .call trivial fun _ _ _ => .call trivial fun _ _ _ => .call trivial fun _ _ _ => ?_
  exact .call trivial fun _ _ _ => .quiet trivial

lemma follows_message {detail : SlackMessageReceived} (hjob : d.job = .message config detail) :
    Follows (AgentInput.message config detail) (fun _ _ => True) d := by
  refine .call trivial fun binding d₁ hle₁ => ?_
  split
  · exact .pure trivial
  refine follows_claim.bind fun claim d₂ hle₂ _ => ?_
  cases claim with
  | none => exact .pure trivial
  | some token =>
    have hjob₂ : d₂.job = .message config detail := (le_trans hle₁ hle₂).1.symm.trans hjob
    have hteam : detail.teamId = d₂.job.teamId := by rw [hjob₂]; rfl
    have huser : detail.userId = d₂.job.userId := by rw [hjob₂]; rfl
    refine follows_guarded ?_
    unfold AgentInput.messageBody
    have hauthorize := follows_authorize config d₂
    rw [← hteam, ← huser] at hauthorize
    refine hauthorize.bind fun principal d₃ hle₃ hprincipal => ?_
    cases principal with
    | none => exact .call trivial fun _ _ _ => .quiet trivial
    | some p =>
      have hresolved : Resolved d₃ p := hprincipal p rfl
      dsimp only
      split
      · exact follows_linkExisting.bind fun _ _ _ _ => .quiet trivial
      split
      · exact .throw
      have hrefused : Follows (AgentInput.refuses p binding) (fun _ _ => True) d₃ := by
        cases binding with
        | none => exact .pure trivial
        | some b =>
          refine (follows_ownedThread fun p' hp' => ?_).bind fun _ _ _ _ => .pure trivial
          cases hp'
          exact hresolved
      refine hrefused.bind fun refused d₄ hle₄ _ => ?_
      split
      · exact .call trivial fun _ _ _ => .quiet trivial
      · exact follows_sendMessage (hresolved.mono hle₄)

lemma follows_stop {detail : SlackThreadStopRequested} {patience : ℕ}
    (hjob : d.job = .stop config detail patience) :
    Follows (AgentInput.stop config detail patience) (fun _ _ => True) d := by
  refine follows_claim.bind fun claim d₁ hle₁ _ => ?_
  cases claim with
  | none => exact .pure trivial
  | some token =>
    have hjob₁ : d₁.job = .stop config detail patience := hle₁.1.symm.trans hjob
    have hteam : detail.teamId = d₁.job.teamId := by rw [hjob₁]; rfl
    have huser : detail.userId = d₁.job.userId := by rw [hjob₁]; rfl
    refine follows_guarded ?_
    unfold AgentInput.stopBody
    have hauthorize := follows_authorize config d₁
    rw [← hteam, ← huser] at hauthorize
    refine hauthorize.bind fun principal d₂ _ hprincipal => .call trivial fun binding d₃ hle₃ => ?_
    refine (follows_ownedThread fun p hp => (hprincipal p hp).mono hle₃).bind
      fun threadId d₄ _ howner => ?_
    cases threadId with
    | none => exact .quiet trivial
    | some t =>
      refine (follows_controlPlane (follows_cancelActiveTask (howner t rfl))).bind
        fun task d₅ _ _ => ?_
      exact Follows.bind (follows_slack trivial) fun _ _ _ _ => .quiet trivial

lemma follows_requestsFromTask {task : Task} :
    Follows (AgentInput.requestsFromTask task) (fun _ _ => True) d := by
  unfold AgentInput.requestsFromTask
  split
  · exact .pure trivial
  · exact .throw

lemma follows_confirm {detail : SlackToolConfirmationRequested} (howner : Owner d t) :
    Follows (AgentInput.confirm detail t) (fun _ _ => True) d := by
  refine (follows_getTask howner).bind fun task d₁ hle₁ _ => ?_
  refine follows_requestsFromTask.bind fun pending d₂ hle₂ _ => ?_
  split
  · exact .pure trivial
  have howner₂ := howner.mono (le_trans hle₁ hle₂)
  refine .tryCatch ((follows_continueHumanInput howner₂).bind fun _ _ _ _ => .pure trivial)
    fun e d₃ hle₃ => ?_
  refine (follows_getTask (howner₂.mono hle₃)).bind fun current d₄ _ _ => ?_
  have hawaits :
      Follows (AgentInput.awaits current detail.inputRequestId) (fun _ _ => True) d₄ := by
    unfold AgentInput.awaits
    split
    · exact follows_requestsFromTask.bind fun _ _ _ _ => .pure trivial
    · exact .pure trivial
  refine hawaits.bind fun waiting _ _ _ => ?_
  split
  · exact .throw
  · exact .pure trivial

lemma follows_toolConfirmation {detail : SlackToolConfirmationRequested}
    (hjob : d.job = .toolConfirmation config detail) :
    Follows (AgentInput.toolConfirmation config detail) (fun _ _ => True) d := by
  refine follows_claim.bind fun claim d₁ hle₁ _ => ?_
  cases claim with
  | none => exact .pure trivial
  | some token =>
    have hjob₁ : d₁.job = .toolConfirmation config detail := hle₁.1.symm.trans hjob
    have hteam : detail.teamId = d₁.job.teamId := by rw [hjob₁]; rfl
    have huser : detail.userId = d₁.job.userId := by rw [hjob₁]; rfl
    refine follows_guarded ?_
    unfold AgentInput.toolConfirmationBody
    have hauthorize := follows_authorize config d₁
    rw [← hteam, ← huser] at hauthorize
    refine hauthorize.bind fun principal d₂ _ hprincipal => .call trivial fun binding d₃ hle₃ => ?_
    refine (follows_ownedThread fun p hp => (hprincipal p hp).mono hle₃).bind
      fun threadId d₄ _ howner => ?_
    cases threadId with
    | none => exact .quiet trivial
    | some t =>
      refine (follows_controlPlane (follows_confirm (howner t rfl))).bind fun resolved d₅ _ _ => ?_
      have hshow : Follows (AgentInput.showConfirmation config detail resolved) (fun _ _ => True)
          d₅ := by
        unfold AgentInput.showConfirmation
        split
        · exact follows_slack trivial
        · exact .pure trivial
      refine hshow.bind fun _ d₆ _ _ => ?_
      have hprocessing : Follows (AgentInput.showProcessing config detail resolved)
          (fun _ _ => True) d₆ := by
        unfold AgentInput.showProcessing
        split
        · exact .pure trivial
        · exact follows_slack trivial
      exact hprocessing.bind fun _ _ _ _ => .quiet trivial

end

/-- Every handler keeps the contract. -/
theorem conforms_errand (l : Errand) :
    contract.Conforms l.program (fun _ _ => True) (fun _ => True) { said := [], job := l } := by
  have h : Follows l.program (fun _ _ => True) { said := [], job := l } := by
    cases l with
    | message config detail => exact follows_message rfl
    | stop config detail patience => exact follows_stop rfl
    | toolConfirmation config detail => exact follows_toolConfirmation rfl
  exact Contract.Conforms.mono h (fun _ _ _ => trivial) fun _ _ => trivial

end ManagedAgents.Threads
