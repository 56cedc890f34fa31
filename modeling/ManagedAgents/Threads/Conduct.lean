import ManagedAgents.Threads.Authority

/-!
What Slack's handlers do, whoever answers them.

A handler asks for a projection only of the thread that its message's place was seen to be bound to,
and of the task that it had bound to the message's logical send. It settles only an event it had
claimed, a message with a task only after its projection; and it returns only from an event that is
settled, or not for the agent.
-/

namespace ManagedAgents.Threads

open ManagedAgents.Lib
open ManagedAgents.Controller (ContextId TaskId MessageId ClaimId Text)

/-- The surface and the id under which a handler's event is claimed. -/
def Errand.ingress : Errand → String × String
  | message _ detail => ("slack", detail.slackEventId)
  | stop _ detail _ => ("slack-stop", detail.eventId)
  | toolConfirmation _ detail => ("slack-interaction", detail.interactionId)

namespace Events

abbrev Said := Prog.Exchange Call.Reply Exn

/-! ### What a handler may ask for -/

/-- The logical send of a message. -/
def sendOf (detail : SlackMessageReceived) : MessageId :=
  Threads.token ("slack:event:" ++ detail.teamId ++ ":" ++ detail.slackEventId)

/-- The place of a message. -/
def placeOf (detail : SlackMessageReceived) : String × String × String :=
  ("slack", detail.teamId, AgentInput.place detail.channelId detail.threadTs)

/-- A binding that is read is of the place, and one that is made is of the thread that is made. -/
def possible : (c : Call) → Except Exn c.Reply → Prop
  | .query (.getThread threadId), .ok (some row) => row.threadId = threadId
  | .query (.insertSurfaceThread _ _ _ _ _ _), .ok (some (row, b)) => row.threadId = b.threadId
  | _, _ => True

/-- The answer shows the place to be bound like this. -/
inductive Shows (place : String × String × String) (b : SurfaceBinding) : Said → Prop
  | read : Shows place b ⟨.query (.getSurfaceBinding place.1 place.2.1 place.2.2), .ok (some b)⟩
  | joined {row} :
    Shows place b ⟨.query (.selectSurfaceThread place.1 place.2.1 place.2.2), .ok (some (row, b))⟩
  | created {p agentId title row} :
    Shows place b ⟨.query (.insertSurfaceThread place.1 place.2.1 place.2.2 p agentId title),
      .ok (some (row, b))⟩

/-- The message's place was seen to be bound like this. -/
def Placed (d : File) (detail : SlackMessageReceived) (b : SurfaceBinding) : Prop :=
  ∃ x ∈ d.said, Shows (placeOf detail) b x

/-- The task was bound to the message's logical send in the thread of its place. -/
def Sent (d : File) (detail : SlackMessageReceived) (b : SurfaceBinding) (taskId : TaskId) : Prop :=
  Placed d detail b ∧ ∃ r, d.Heard (.query (.bindTaskId b.threadId (sendOf detail) taskId)) r

def claimed (event : String × String) (token : IngressToken) : Said :=
  ⟨.claimIngress event.1 event.2, .ok (.acquired token)⟩

def made (eventId : String) (taskId : TaskId) (bindingId : BindingId) : Said :=
  ⟨.ensureProjection bindingId taskId eventId, .ok ()⟩

def asked (eventId : String) (threadId : ThreadId) (taskId : TaskId) (bindingId : BindingId) :
    Said :=
  ⟨.publish (.projection eventId threadId taskId bindingId), .ok ()⟩

/-- Under the claim a projection of the task was made, and then asked for. -/
def Projecting (d : File) (token : IngressToken) (threadId : Option ThreadId) (taskId : TaskId) :
    Prop :=
  ∃ t b, threadId = some t ∧ d.Told [asked d.job.ingress.2 t taskId b,
    made d.job.ingress.2 taskId b, claimed d.job.ingress token]

def allowed (d : File) : Call → Prop
  | .publish (.projection slackEventId threadId taskId bindingId) =>
    ∃ config detail b, d.job = .message config detail ∧ slackEventId = detail.slackEventId ∧
      threadId = b.threadId ∧ bindingId = b.bindingId ∧ Sent d detail b taskId
  | .completeIngress surface eventId token threadId taskId =>
    (surface, eventId) = d.job.ingress ∧ d.Told [claimed d.job.ingress token] ∧
      ∀ config detail x, d.job = .message config detail → taskId = some x →
        Projecting d token threadId x
  | .failIngress surface eventId token _ =>
    (surface, eventId) = d.job.ingress ∧ d.Told [claimed d.job.ingress token]
  | _ => True

/-- The message is of a channel, and its place was seen to be bound to no thread. -/
def Ignored (d : File) : Prop :=
  ∃ config detail, d.job = .message config detail ∧ detail.eventType = "message" ∧
    detail.channelType ≠ some "im" ∧
    d.Heard (.query (.getSurfaceBinding "slack" detail.teamId
      (AgentInput.place detail.channelId detail.threadTs))) none

/-- The event was found to be settled, or the handler has settled it. -/
def Settled (d : File) : Prop :=
  d.Heard (.claimIngress d.job.ingress.1 d.job.ingress.2) .completed ∨
    ∃ token threadId taskId,
      d.Heard (.completeIngress d.job.ingress.1 d.job.ingress.2 token threadId taskId) ()

/-- A handler that is done has settled its event, or it was not for the agent. -/
def Done (l : Errand) (d : File) : Prop := d.job = l ∧ (Settled d ∨ Ignored d)

lemma Placed.mono {d d' : File} {detail : SlackMessageReceived} {b : SurfaceBinding}
    (h : Placed d detail b) (hle : d ≤ d') : Placed d' detail b := by
  obtain ⟨x, hx, hshows⟩ := h
  exact ⟨x, List.IsSuffix.subset hle.2 hx, hshows⟩

/-- The program keeps the contract, and what it returns is as said. -/
abbrev Follows {α : Type} (prog : Program α) (Q : α → File → Prop) (d : File) : Prop :=
  Lib.Follows possible allowed prog Q d

/-- A call that is neither for a projection nor settles an event. -/
def Plain : Call → Prop
  | .publish (.projection _ _ _ _) | .completeIngress _ _ _ _ _ | .failIngress _ _ _ _ => False
  | _ => True

variable {α β : Type} {d : File} {t : ThreadId} {row : ThreadRow} {taskId : TaskId}
  {config : Config} {surface eventId : String} {token : IngressToken} {teamId userId : String}
  {principal : Option PrincipalId} {p : PrincipalId} {agentId : AgentId}

lemma follows_ask {q : Query} :
    Follows (ask q) (fun v d' => possible (.query q) (.ok v) ∧ d'.Heard (.query q) v) d :=
  Lib.Follows.perform trivial

/-- A plain program may run at any time. -/
lemma follows_plain {prog : Program α} (h : prog.Every Plain) :
    Follows prog (fun _ _ => True) d := by
  refine .every h fun d c hc => ?_
  unfold allowed
  split
  · exact hc.elim
  · exact hc.elim
  · exact hc.elim
  · trivial

lemma plain_ask {q : Query} : (ask q).Every Plain := Prog.every_perform trivial

/-! ### The service -/

lemma plain_thread : (Service.thread t).Every Plain :=
  plain_ask.bind fun o => by
    cases o with
    | none => exact .throw
    | some row => exact .pure

lemma plain_openTurn {seconds : ℕ} : (Service.openTurn seconds row).Every Plain := by
  have hattempt : (Service.attempt seconds row.threadId).Every Plain :=
    plain_ask.bind fun claim => by cases claim <;> exact .pure
  unfold Service.openTurn
  cases row.contextId with
  | some contextId => exact .pure
  | none =>
    refine Prog.Every.bind (.loop fun _ => hattempt) fun turn => ?_
    cases turn with
    | none => exact .throw
    | some turn => exact .pure

lemma plain_submit {turn : Service.Turn} {clientMessageId : MessageId} {text : Text} :
    (Service.submit row turn clientMessageId text).Every Plain := by
  refine .tryCatch (Prog.every_perform trivial) fun e => ?_
  split
  · exact plain_ask.bind fun _ => .throw
  · exact .throw

lemma plain_closeTurn {turn : Service.Turn} {task : Task} :
    (Service.closeTurn row turn task).Every Plain := by
  unfold Service.closeTurn
  cases turn with
  | first claimId => exact plain_ask.bind fun _ => .pure
  | within contextId =>
    dsimp only
    split
    · exact .pure
    · exact .throw

/-- The task of a turn was bound to its logical send. -/
lemma follows_sendTurn {m : MessageId} {text : Text} :
    Follows (Service.sendTurn t m text)
      (fun task d' => ∃ r, d'.Heard (.query (.bindTaskId t m task.id)) r) d := by
  unfold Service.sendTurn
  split
  · exact .throw
  refine Lib.Follows.bind (follows_plain plain_thread) fun row d₁ _ _ => ?_
  refine .call trivial fun _ d₂ _ => ?_
  refine Lib.Follows.bind (follows_plain plain_ask) fun _ d₃ _ _ => ?_
  refine Lib.Follows.bind (follows_plain plain_openTurn) fun turn d₄ _ _ => ?_
  refine Lib.Follows.bind (follows_plain plain_submit) fun task d₅ _ _ => ?_
  refine Lib.Follows.bind (follows_plain plain_closeTurn) fun _ d₆ _ _ => ?_
  refine Lib.Follows.bind follows_ask fun r d₇ _ hbound => ?_
  refine Lib.Follows.bind (Q := fun _ _ => True) ?_ fun _ d₈ hle _ => ?_
  · exact .tryCatch (.quiet trivial) fun _ _ _ => .throw
  · exact .pure ⟨r, Dossier.heard_mono hbound.2 hle⟩

lemma plain_bound : (Service.bound t taskId).Every Plain :=
  plain_thread.bind fun row => plain_ask.bind fun o => by
    cases o with
    | none => exact .throw
    | some b =>
      dsimp only
      split
      · exact .pure
      · exact .throw

lemma plain_getTask {humanInput : Bool} : (Service.getTask t taskId humanInput).Every Plain :=
  plain_bound.bind fun row => Prog.Every.bind (Prog.every_perform trivial) fun task => by
    split
    · exact .pure
    · exact .throw

lemma plain_cancelTask : (Service.cancelTask t taskId).Every Plain :=
  plain_bound.bind fun _ => Prog.every_perform trivial

lemma plain_pages {contextId : ContextId} (pageToken : Option Text) (patience : ℕ) :
    (Service.pages row contextId pageToken patience).Every Plain := by
  induction patience generalizing pageToken with
  | zero => exact .throw
  | succ n ih =>
    refine Prog.Every.bind (Prog.every_perform trivial) fun page => ?_
    cases page.nextPageToken with
    | none => exact .pure
    | some next => exact (ih _).bind fun _ => .pure

lemma plain_cancelActiveTask {patience : ℕ} :
    (Service.cancelActiveTask t patience).Every Plain := by
  refine Prog.Every.bind (plain_thread.bind fun row => ?_) fun tasks => ?_
  · cases row.contextId with
    | none => exact .pure
    | some contextId => exact plain_pages _ _
  · split
    · exact .pure
    · exact plain_cancelTask.bind fun _ => .pure

/-! ### Parts of the handlers -/

lemma plain_authorize : (AgentInput.authorize config teamId userId).Every Plain := by
  unfold AgentInput.authorize
  split
  · exact plain_ask
  · exact .pure

lemma plain_ownedThread {b : Option SurfaceBinding} :
    (AgentInput.ownedThread principal b).Every Plain := by
  unfold AgentInput.ownedThread
  split
  · exact plain_ask.bind fun _ => .pure
  · exact .pure

lemma plain_controlPlane {body : Program α} (h : body.Every Plain) :
    (AgentInput.controlPlane config body).Every Plain := by
  unfold AgentInput.controlPlane
  split
  · exact h
  · exact .throw

lemma plain_slack {c : Call} (hc : Plain c) : (AgentInput.slack config c).Every Plain := by
  unfold AgentInput.slack
  split
  · exact Prog.Every.bind (Prog.every_perform hc) fun _ => .pure
  · exact .throw

lemma plain_requestsFromTask {task : Task} : (AgentInput.requestsFromTask task).Every Plain := by
  unfold AgentInput.requestsFromTask
  split
  · exact .pure
  · exact .throw

lemma plain_confirm {detail : SlackToolConfirmationRequested} :
    (AgentInput.confirm detail t).Every Plain := by
  refine plain_getTask.bind fun task => plain_requestsFromTask.bind fun pending => ?_
  split
  · exact .pure
  refine .tryCatch ?_ fun e =>
    plain_getTask.bind fun current => Prog.Every.bind ?_ fun waiting => ?_
  · exact Prog.Every.bind (plain_bound.bind fun row => Prog.every_perform trivial) fun _ => .pure
  · unfold AgentInput.awaits
    split
    · exact plain_requestsFromTask.bind fun _ => .pure
    · exact .pure
  · split
    · exact .throw
    · exact .pure

lemma plain_showConfirmation {detail : SlackToolConfirmationRequested} {resolved : Bool} :
    (AgentInput.showConfirmation config detail resolved).Every Plain := by
  unfold AgentInput.showConfirmation
  split
  · exact plain_slack trivial
  · exact .pure

lemma plain_showProcessing {detail : SlackToolConfirmationRequested} {resolved : Bool} :
    (AgentInput.showProcessing config detail resolved).Every Plain := by
  unfold AgentInput.showProcessing
  split
  · exact .pure
  · exact plain_slack trivial

lemma plain_checkBinding : (AgentInput.checkBinding row p agentId).Every Plain := by
  unfold AgentInput.checkBinding
  split
  · exact .throw
  · split
    · exact .throw
    · exact .pure

lemma plain_refuses {b : Option SurfaceBinding} : (AgentInput.refuses p b).Every Plain := by
  cases b with
  | none => exact .pure
  | some b => exact plain_ownedThread.bind fun _ => .pure

lemma plain_applicationAgentId : (AgentInput.applicationAgentId config).Every Plain := by
  unfold AgentInput.applicationAgentId
  split
  · exact .pure
  · exact .throw

lemma plain_reply {channelId threadTs text : String} :
    (AgentInput.reply teamId channelId threadTs text).Every Plain := Prog.every_perform trivial

lemma plain_linkExisting {channelId threadTs : String} {threadId : Option ThreadId} :
    (AgentInput.linkExisting p teamId channelId threadTs threadId).Every Plain := by
  have htarget : (AgentInput.linkTarget p threadId).Every Plain := by
    cases threadId with
    | none => exact .pure
    | some threadId =>
      refine plain_ask.bind fun target => ?_
      cases target with
      | none => exact .pure
      | some target => exact plain_ask.bind fun _ => .pure
  refine htarget.bind fun target => ?_
  cases target with
  | none => exact plain_reply.bind fun _ => .pure
  | some target =>
    refine plain_ask.bind fun present => ?_
    split
    · exact plain_reply.bind fun _ => .pure
    · refine Prog.Every.bind (.tryCatch (plain_ask.bind fun _ => .pure) fun e => ?_)
        fun linked => ?_
      · split
        · exact .pure
        · exact .throw
      · split
        · exact plain_reply.bind fun _ => .pure
        · exact plain_reply.bind fun _ => .pure

/-! ### Claims -/

/-- The event is claimed, or it is settled. -/
lemma follows_claim : Follows (AgentInput.claim surface eventId)
    (fun o d' => match o with
      | some token => d'.Told [claimed (surface, eventId) token]
      | none => d'.Heard (.claimIngress surface eventId) .completed) d := by
  refine Lib.Follows.bind (.perform trivial) fun claim d' _ hheard => ?_
  cases claim with
  | acquired token => exact .pure (List.singleton_sublist.mpr hheard.2)
  | busy => exact .throw
  | completed => exact .pure hheard.2

/-- Under a claim, what is raised is noted; an event that is settled is left alone. -/
lemma follows_claimed {body : IngressToken → Program Unit}
    (hevent : d.job.ingress = (surface, eventId))
    (hbody : ∀ token d', d ≤ d' → d'.Told [claimed d'.job.ingress token] →
      Follows (body token) (fun _ d'' => Settled d'') d') :
    Follows (AgentInput.claim surface eventId >>= fun o =>
        match o with
        | none => pure ()
        | some token => AgentInput.guarded surface eventId token (body token))
      (fun _ d' => Settled d') d := by
  refine Lib.Follows.bind follows_claim fun o d₁ hle₁ hclaim => ?_
  have hevent₁ : d₁.job.ingress = (surface, eventId) := hle₁.1 ▸ hevent
  cases o with
  | none =>
    refine .pure (.inl ?_)
    rw [hevent₁]
    exact hclaim
  | some token =>
    have htold : d₁.Told [claimed d₁.job.ingress token] := hevent₁ ▸ hclaim
    refine .tryCatch (hbody token d₁ hle₁ htold) fun e d₂ hle₂ => .call ?_ fun _ _ _ => .throw
    exact ⟨(hle₂.1 ▸ hevent₁).symm, hle₂.1 ▸ htold.mono hle₂.2⟩

/-- The claim is settled, a message's with a task only once its projection was asked for. -/
lemma follows_complete {d₁ : File} {threadId : Option ThreadId} {o : Option TaskId} (hle : d₁ ≤ d)
    (hevent : d₁.job.ingress = (surface, eventId)) (htold : d₁.Told [claimed d₁.job.ingress token])
    (hshown : ∀ config detail x, d₁.job = .message config detail → o = some x →
      Projecting d token threadId x) :
    Follows (perform (.completeIngress surface eventId token threadId o)) (fun _ d' => Settled d')
      d := by
  have hevent' : d.job.ingress = (surface, eventId) := hle.1 ▸ hevent
  have hallowed : allowed d (.completeIngress surface eventId token threadId o) :=
    ⟨hevent'.symm, hle.1 ▸ htold.mono hle.2, fun config detail x hjob =>
      hshown config detail x (hle.1.trans hjob)⟩
  refine (Lib.Follows.perform hallowed).mono fun _ d' hle' hheard => .inr ⟨token, threadId, o, ?_⟩
  rw [← hle'.1, hevent']
  exact hheard.2

/-! ### Stops and confirmations -/

lemma follows_stop {detail : SlackThreadStopRequested} {patience : ℕ}
    (hjob : d.job = .stop config detail patience) :
    Follows (AgentInput.stop config detail patience) (fun _ d' => Settled d') d := by
  refine follows_claimed (by rw [hjob]; rfl) fun token d₁ hle₁ htold => ?_
  have hjob₁ : d₁.job = .stop config detail patience := hle₁.1.symm.trans hjob
  have hcomplete : ∀ {d' : File} {threadId o}, d₁ ≤ d' →
      Follows (perform (.completeIngress "slack-stop" detail.eventId token threadId o))
        (fun _ d'' => Settled d'') d' := by
    refine fun hle => follows_complete hle (by rw [hjob₁]; rfl) htold fun _ _ _ hmessage => ?_
    rw [hjob₁] at hmessage
    cases hmessage
  refine Lib.Follows.bind (follows_plain plain_authorize) fun principal d₂ hle₂ _ => ?_
  refine Lib.Follows.bind (follows_plain plain_ask) fun b d₃ hle₃ _ => ?_
  refine Lib.Follows.bind (follows_plain plain_ownedThread) fun threadId d₄ hle₄ _ => ?_
  have hle : d₁ ≤ d₄ := le_trans hle₂ (le_trans hle₃ hle₄)
  cases threadId with
  | none => exact hcomplete hle
  | some t =>
    refine Lib.Follows.bind (follows_plain (plain_controlPlane plain_cancelActiveTask))
      fun task d₅ hle₅ _ => ?_
    refine Lib.Follows.bind (follows_plain (plain_slack trivial)) fun _ d₆ hle₆ _ => ?_
    exact hcomplete (le_trans hle (le_trans hle₅ hle₆))

lemma follows_toolConfirmation {detail : SlackToolConfirmationRequested}
    (hjob : d.job = .toolConfirmation config detail) :
    Follows (AgentInput.toolConfirmation config detail) (fun _ d' => Settled d') d := by
  refine follows_claimed (by rw [hjob]; rfl) fun token d₁ hle₁ htold => ?_
  have hjob₁ : d₁.job = .toolConfirmation config detail := hle₁.1.symm.trans hjob
  have hcomplete : ∀ {d' : File} {threadId o}, d₁ ≤ d' →
      Follows (perform
          (.completeIngress "slack-interaction" detail.interactionId token threadId o))
        (fun _ d'' => Settled d'') d' := by
    refine fun hle => follows_complete hle (by rw [hjob₁]; rfl) htold fun _ _ _ hmessage => ?_
    rw [hjob₁] at hmessage
    cases hmessage
  refine Lib.Follows.bind (follows_plain plain_authorize) fun principal d₂ hle₂ _ => ?_
  refine Lib.Follows.bind (follows_plain plain_ask) fun b d₃ hle₃ _ => ?_
  refine Lib.Follows.bind (follows_plain plain_ownedThread) fun threadId d₄ hle₄ _ => ?_
  have hle : d₁ ≤ d₄ := le_trans hle₂ (le_trans hle₃ hle₄)
  cases threadId with
  | none => exact hcomplete hle
  | some t =>
    refine Lib.Follows.bind (follows_plain (plain_controlPlane plain_confirm))
      fun resolved d₅ hle₅ _ => ?_
    refine Lib.Follows.bind (follows_plain plain_showConfirmation) fun _ d₆ hle₆ _ => ?_
    refine Lib.Follows.bind (follows_plain plain_showProcessing) fun _ d₇ hle₇ _ => ?_
    exact hcomplete (le_trans hle (le_trans hle₅ (le_trans hle₆ hle₇)))

/-! ### Messages -/

section

variable {detail : SlackMessageReceived} {title : Option Text}

/-- The thread is the one its place was seen to be bound to. -/
lemma follows_surfaceThread :
    Follows (AgentInput.surfaceThread p agentId (placeOf detail).1 (placeOf detail).2.1
        (placeOf detail).2.2 title)
      (fun pair d' => Placed d' detail pair.2 ∧ pair.1.threadId = pair.2.threadId) d := by
  refine Lib.Follows.bind follows_ask fun o d₁ _ hheard => ?_
  rcases o with _ | ⟨joined, b⟩
  · refine Lib.Follows.bind follows_ask fun created d₂ _ hcreated => ?_
    rcases created with _ | ⟨created, b⟩
    · exact .throw
    · exact .pure ⟨⟨_, hcreated.2, .created⟩, hcreated.1⟩
  · refine Lib.Follows.bind (follows_plain plain_checkBinding) fun _ d₂ hle₂ _ => ?_
    refine Lib.Follows.bind follows_ask fun o d₃ hle₃ hread => ?_
    cases o with
    | none => exact .throw
    | some thread =>
      exact .pure ⟨⟨_, Dossier.heard_mono hheard.2 (le_trans hle₂ hle₃), .joined⟩, hread.1⟩

lemma follows_getOrCreateSurfaceThread (detail : SlackMessageReceived) {depth : ℕ} :
    Follows (AgentInput.getOrCreateSurfaceThread p agentId (placeOf detail).1 (placeOf detail).2.1
        (placeOf detail).2.2 title depth)
      (fun pair d' => Placed d' detail pair.2 ∧ pair.1.threadId = pair.2.threadId) d := by
  induction depth generalizing d with
  | zero => exact .throw
  | succ depth ih =>
    refine .tryCatch follows_surfaceThread fun e d₁ _ => ?_
    split
    · refine Lib.Follows.bind follows_ask fun o d₂ _ hheard => ?_
      cases o with
      | none => exact ih
      | some b =>
        refine Lib.Follows.bind follows_ask fun o d₃ hle₃ hread => ?_
        cases o with
        | none => exact .throw
        | some thread =>
          refine Lib.Follows.bind (follows_plain plain_checkBinding) fun _ d₄ hle₄ _ => ?_
          exact .pure ⟨⟨_, Dossier.heard_mono hheard.2 (le_trans hle₃ hle₄), .read⟩, hread.1⟩
    · exact .throw

/-- A projection is made and asked for when the turn of the message was sent, and then the message
is settled with its task. -/
lemma follows_sendMessage {d₁ : File} (hle : d₁ ≤ d) (hjob : d₁.job = .message config detail)
    (htold : d₁.Told [claimed d₁.job.ingress token]) :
    Follows (AgentInput.sendMessage config detail p token) (fun _ d' => Settled d') d := by
  refine Lib.Follows.bind (follows_plain plain_applicationAgentId) fun agentId d₂ hle₂ _ => ?_
  refine Lib.Follows.bind (follows_getOrCreateSurfaceThread detail) fun pair d₃ hle₃ hplaced => ?_
  obtain ⟨thread, b⟩ := pair
  obtain ⟨hplaced, hthread⟩ := hplaced
  refine .call trivial fun _ d₄ hle₄ => .call trivial fun _ d₅ hle₅ => ?_
  refine Lib.Follows.bind (Q := fun task d' =>
      ∃ r, d'.Heard (.query (.bindTaskId thread.threadId (sendOf detail) task.id)) r) ?_
    fun task d₆ hle₆ hbound => ?_
  · unfold AgentInput.controlPlane
    split
    · exact follows_sendTurn
    · exact .throw
  refine .call trivial fun _ d₇ hle₇ => ?_
  have hle' : d₃ ≤ d₇ := le_trans hle₄ (le_trans hle₅ (le_trans hle₆ hle₇))
  have hsince : d₁ ≤ d₇ := le_trans hle (le_trans hle₂ (le_trans hle₃ hle'))
  have hjob₇ : d₇.job = .message config detail := hsince.1.symm.trans hjob
  have hevent : d₁.job.ingress = ("slack", detail.slackEventId) := by rw [hjob]; rfl
  have hclaimed : d₇.Told [claimed ("slack", detail.slackEventId) token] :=
    hevent ▸ htold.mono hsince.2
  refine Lib.Follows.bind (.tell trivial) fun _ d₈ hle₈ hmade => ?_
  obtain ⟨-, rfl⟩ := hmade
  refine Lib.Follows.bind (.tell ?_) fun _ d₉ hle₉ hasked => ?_
  · obtain ⟨r, hheard⟩ := hbound
    refine ⟨config, detail, b, hjob₇, rfl, hthread, rfl,
      hplaced.mono (le_trans hle' hle₈), r, ?_⟩
    rw [← hthread]
    exact Dossier.heard_mono hheard (le_trans hle₇ hle₈)
  obtain ⟨-, rfl⟩ := hasked
  refine .call trivial fun _ d' hle'' => ?_
  have hend : d₁ ≤ d' := le_trans hsince (le_trans hle₈ (le_trans hle₉ hle''))
  refine follows_complete hend hevent htold fun _ _ x _ hx => ?_
  cases hx
  refine ⟨_, b.bindingId, rfl, ?_⟩
  rw [← hend.1, hevent]
  have hshown := List.Sublist.cons_cons
    (asked detail.slackEventId thread.threadId task.id b.bindingId)
    (List.Sublist.cons_cons (made detail.slackEventId task.id b.bindingId) hclaimed)
  exact Transcript.Told.mono hshown hle''.2

lemma follows_message (hjob : d.job = .message config detail) :
    Follows (AgentInput.message config detail) (fun _ d' => Settled d' ∨ Ignored d') d := by
  refine Lib.Follows.bind follows_ask fun b d₁ hle₁ hheard => ?_
  have hjob₁ : d₁.job = .message config detail := hle₁.1.symm.trans hjob
  split
  · rename_i hunbound
    obtain ⟨hmessage, hchannel, rfl⟩ := hunbound
    exact .pure (.inr ⟨config, detail, hjob₁, hmessage, hchannel, hheard.2⟩)
  refine Lib.Follows.mono (Q := fun _ d' => Settled d') ?_ fun _ _ _ => .inl
  refine follows_claimed (by rw [hjob₁]; rfl) fun token d₂ hle₂ htold => ?_
  have hjob₂ : d₂.job = .message config detail := hle₂.1.symm.trans hjob₁
  have hcomplete : ∀ {d' : File} {threadId}, d₂ ≤ d' →
      Follows (perform (.completeIngress "slack" detail.slackEventId token threadId none))
        (fun _ d'' => Settled d'') d' :=
    fun hle => follows_complete hle (by rw [hjob₂]; rfl) htold nofun
  unfold AgentInput.messageBody
  refine Lib.Follows.bind (follows_plain plain_authorize) fun principal d₃ hle₃ _ => ?_
  cases principal with
  | none =>
    refine Lib.Follows.bind (follows_plain plain_reply) fun _ d₄ hle₄ _ => ?_
    exact hcomplete (le_trans hle₃ hle₄)
  | some p =>
    dsimp only
    split
    · refine Lib.Follows.bind (follows_plain plain_linkExisting) fun _ d₄ hle₄ _ => ?_
      exact hcomplete (le_trans hle₃ hle₄)
    split
    · exact .throw
    refine Lib.Follows.bind (follows_plain plain_refuses) fun refused d₄ hle₄ _ => ?_
    have hle : d₂ ≤ d₄ := le_trans hle₃ hle₄
    split
    · refine Lib.Follows.bind (follows_plain plain_reply) fun _ d₅ hle₅ _ => ?_
      exact hcomplete (le_trans hle hle₅)
    · exact follows_sendMessage hle hjob₂ htold

end

lemma conforms_errand (l : Errand) :
    (Contract.filed possible allowed).Conforms l.program (fun _ => Done l) (fun _ => True)
      { said := [], job := l } := by
  have h : Follows l.program (fun _ d => Settled d ∨ Ignored d) { said := [], job := l } := by
    cases l with
    | message config detail => exact follows_message rfl
    | stop config detail patience =>
      exact (follows_stop rfl).mono fun _ _ _ => .inl
    | toolConfirmation config detail =>
      exact (follows_toolConfirmation rfl).mono fun _ _ _ => .inl
  exact Contract.Conforms.mono h (fun _ _ ⟨hle, hdone⟩ => ⟨hle.1.symm, hdone⟩) fun _ _ => trivial

end Events

end ManagedAgents.Threads
