import ManagedAgents.Controller.Routine
import ManagedAgents.Lib.Transcript

/-!
What the controller's programs rest on when they add a request, publish a review or a decision,
store an object, hand over an answer or pass one on: what they were told before, as they remember
it.
-/

namespace ManagedAgents.Controller

open ManagedAgents.Lib

/-- What a program said and heard. -/
abbrev Record := Transcript Call.Reply Exn

namespace Record

variable (t : Record)

/-- The request was listed. -/
def Listed (request : Request) : Prop :=
  ∃ taskId requests, t.Heard (.query (.listInputRequests taskId)) requests ∧ request ∈ requests

/-- The event was in a history that was listed. -/
def Showed (source : Event) : Prop :=
  ∃ sessionId events, t.Heard (.listEvents sessionId) events ∧ source ∈ events

/-- The event was the last one with this id in a history that was listed. -/
def Found (eventId : EventId) (source : Event) : Prop :=
  ∃ sessionId events, t.Heard (.listEvents sessionId) events ∧ byId events eventId = some source

/-- The policy engine answered this about the tool use of a listed row. -/
structure Judged (contextId : ContextId) (row : ApprovalRow) (decision : ToolPolicyDecision) :
    Prop where
  listed : t.Listed (.approval row)
  rests : ∃ source agentId request resolution, t.Found row.cmaEventId source ∧
    toolPolicyRequest contextId agentId row.cmaEventId (some source) = .ok request ∧
    t.Heard (.policyExchange request resolution) decision

/-- What each of the calls rests on. -/
def Disciplined : Call → Prop
  | .query (.addInputRequest requestId taskId eventId _ _) =>
    requestId = approvalRequestId taskId eventId ∧
      ∃ source, t.Showed source ∧ source.id = some eventId ∧ source.isToolUse = true
  | .query (.addClarificationRequest requestId taskId eventId _ _) =>
    requestId = approvalRequestId taskId eventId ∧
      ∃ source, t.Showed source ∧ source.id = some eventId ∧ source.asksUser = true
  | .query (.recordHumanReview contextId _ _ requestId offer) => offer = {} ∨
    ∃ row decision review key, t.Judged contextId row decision ∧ row.requestId = requestId ∧
      decision.decision = .humanReview ∧ decision.review = some review ∧
      t.Last (.pendingPut key review.description) () ∧
      offer = ⟨some review.fingerprint, some review.authority, some key⟩
  | .query (.recordPolicyDecision contextId _ _ requestId ruling) =>
    ∃ row decision, t.Judged contextId row decision ∧ row.requestId = requestId ∧
      decision.decision = if ruling = .allow then .allow else .deny
  | .sendCustomToolResult _ _ eventId answer _ => ∃ row key, t.Listed (.clarification row) ∧
    row.cmaEventId = eventId ∧ row.answerObjectKey = some key ∧ t.Heard (.pendingGet key) answer
  | .pendingPut key _ => t.Last .uuid4 key
  | .query (.decideClarificationRequest _ _ key) => ∃ text, t.Last (.pendingPut key text) ()
  | .policyExchange request _ => ∃ source, t.Found request.invocationId source ∧
    toolPolicyRequest request.rootId request.agentId request.invocationId (some source) =
      .ok request
  | _ => True

variable {t}

lemma Listed.mono {t' : Record} {request : Request} (h : t.Listed request) (hle : t ≤ t') :
    t'.Listed request := by
  obtain ⟨taskId, requests, hheard, hmem⟩ := h
  exact ⟨taskId, requests, hheard.mono hle, hmem⟩

lemma Showed.mono {t' : Record} {source : Event} (h : t.Showed source) (hle : t ≤ t') :
    t'.Showed source := by
  obtain ⟨sessionId, events, hheard, hmem⟩ := h
  exact ⟨sessionId, events, hheard.mono hle, hmem⟩

lemma Found.showed {eventId : EventId} {source : Event} (h : t.Found eventId source) :
    t.Showed source ∧ source.id = some eventId := by
  obtain ⟨sessionId, events, hheard, hsource⟩ := h
  exact ⟨⟨sessionId, events, hheard, List.mem_reverse.1 (List.mem_of_find?_eq_some hsource)⟩,
    by simpa using List.find?_some hsource⟩

lemma Found.mono {t' : Record} {eventId : EventId} {source : Event} (h : t.Found eventId source)
    (hle : t ≤ t') : t'.Found eventId source := by
  obtain ⟨sessionId, events, hheard, hsource⟩ := h
  exact ⟨sessionId, events, hheard.mono hle, hsource⟩

lemma Judged.mono {t' : Record} {contextId : ContextId} {row : ApprovalRow}
    {decision : ToolPolicyDecision} (h : t.Judged contextId row decision) (hle : t ≤ t') :
    t'.Judged contextId row decision := by
  obtain ⟨hlisted, source, agentId, request, resolution, hfound, hrequest, hheard⟩ := h
  exact ⟨hlisted.mono hle, source, agentId, request, resolution, hfound.mono hle, hrequest,
    hheard.mono hle⟩

end Record

def discipline : Contract Call Call.Reply Exn Record := .recorded Record.Disciplined

instance : discipline.Growing := inferInstanceAs (Contract.recorded Record.Disciplined).Growing

instance : Tolerant discipline where
  allowed {k c} h := by
    cases c with
    | query q =>
      cases q with
      | addInputRequest | addClarificationRequest | recordHumanReview | recordPolicyDecision
      | decideClarificationRequest => exact h.elim
      | _ => trivial
    | sendCustomToolResult | pendingPut | policyExchange => exact h.elim
    | _ => trivial

lemma listed_learn {t : Record} {taskId : TaskId} {requests : List Request} {request : Request}
    (h : request ∈ requests) :
    (discipline.learn t (.query (.listInputRequests taskId)) (.ok requests)).Listed request :=
  ⟨taskId, requests, Transcript.heard_learn, h⟩

/-- The program's calls rest on what it was told. -/
abbrev Grounded {α : Type} (p : Program α) (t : Record) : Prop := discipline.Abides p t

section

variable {t : Record} {contextId : ContextId} {claim : ClaimId} {cfg : Config} {task : TaskRow}
  {taskId : TaskId} {sessionId : SessionId} {events : List Event}

/-! ### The scheduler -/

lemma grounded_deletion {key : Option ObjectKey} : Grounded (pendingDelete key) t := by
  cases key with
  | none => exact .pure
  | some key => exact .last trivial

lemma grounded_pendingGet {key : Option ObjectKey} :
    discipline.Conforms (pendingGet key)
      (fun text t' => t ≤ t' ∧ ∃ k, key = some k ∧ t'.Heard (.pendingGet k) text)
      (fun t' => t ≤ t') t := by
  cases key with
  | none => exact Contract.conforms_throw (le_refl t)
  | some key =>
    exact Contract.conforms_perform trivial
      (fun v _ => ⟨Contract.Growing.le_learn, key, rfl, Transcript.heard_learn⟩)
      fun _ _ => Contract.Growing.le_learn

/-- The answer that is passed on is the one a listed row names. -/
lemma grounded_reconcileClarification {row : ClarificationRow}
    (hlisted : t.Listed (.clarification row)) :
    Grounded (reconcileClarification contextId task claim sessionId events row) t := by
  have hresolve : ∀ t', Grounded (do
      resolveInput (.clarification row) contextId claim
      pendingDelete row.answerObjectKey
      pure (none : Option Unit)) t' :=
    fun t' => .call trivial fun _ _ => grounded_deletion.bind fun _ _ _ => .pure
  unfold reconcileClarification
  split
  · exact hresolve t
  split
  · exact .bind (abides_plain plain_hold) fun _ _ _ => .pure
  refine .call trivial fun marked _ => ?_
  split
  · exact .pure
  refine .bind (.tryCatch ?_ fun e t' _ => ?_) fun sent t' _ => ?_
  · refine Contract.Conforms.bind grounded_pendingGet ?_
    rintro answer t' ⟨hle, key, hkey, hanswer⟩
    refine Contract.Abides.mono (.call ?_ fun _ _ => .pure) hle
    exact ⟨row, key, hlisted.mono (le_trans Contract.Growing.le_learn hle), rfl, hkey, hanswer⟩
  · cases e with
    | definitiveProvider => exact .bind (abides_plain plain_finishFailed) fun _ _ _ => .pure
    | _ => exact .bind (abides_plain plain_hold) fun _ _ _ => .call trivial fun _ _ => .pure
  · cases sent with
    | settled => exact hresolve t'
    | _ => exact .pure

lemma grounded_reconcileConfirmations :
    Grounded (reconcileConfirmations contextId task claim sessionId events) t := by
  refine .call trivial fun requests _ => .bind (.loop fun request hrequest t' hle => ?_) ?_
  · unfold reconcileRequest
    split
    · exact .pure
    cases request with
    | clarification row =>
      exact grounded_reconcileClarification ((listed_learn hrequest).mono hle)
    | approval row => exact abides_plain plain_reconcileApproval
  · intro result t' _
    split
    · exact .pure
    · refine abides_plain (every_ask trivial fun _ => every_ask trivial fun _ => ?_)
      split
      · exact plain_hold.bind fun _ => .pure
      · exact .pure

/-- What the engine answers, it answers about this request. -/
lemma grounded_consult {request : ToolPolicyRequest} {row : ApprovalRow} {source : Event}
    (hfound : t.Found request.invocationId source)
    (hrequest : toolPolicyRequest request.rootId request.agentId request.invocationId
      (some source) = .ok request) :
    discipline.Conforms (consult request row)
      (fun decision t' =>
        t ≤ t' ∧ ∃ resolution, t'.Heard (.policyExchange request resolution) decision)
      (fun t' => t ≤ t') t := by
  have hexchange : ∀ resolution, discipline.Conforms (perform (.policyExchange request resolution))
      (fun decision t' =>
        t ≤ t' ∧ ∃ resolution, t'.Heard (.policyExchange request resolution) decision)
      (fun t' => t ≤ t') t := fun resolution =>
    Contract.conforms_perform ⟨source, hfound, hrequest⟩
      (fun _ _ => ⟨Contract.Growing.le_learn, resolution, Transcript.heard_learn⟩)
      fun _ _ => Contract.Growing.le_learn
  unfold consult
  cases row.humanRuling with
  | none => exact hexchange none
  | some ruling =>
    refine Contract.Conforms.bind (hexchange _) fun decision t' h => ?_
    dsimp only
    split
    · exact Contract.Conforms.bind (Contract.conforms_throw (Q := fun _ _ => False) h.1)
        fun _ _ hnever => hnever.elim
    · exact Contract.conforms_pure h

/-- A review is published as the engine asked for it. -/
lemma grounded_publishReview {row : ApprovalRow} {decision : ToolPolicyDecision}
    (hjudged : t.Judged contextId row decision) (hreview : decision.decision = .humanReview) :
    Grounded (publishReview contextId taskId claim row decision.review) t := by
  unfold publishReview
  dsimp only
  split
  · exact .throw
  rename_i review hsome
  split
  · refine .call trivial fun key _ => .call Transcript.last_learn fun _ _ => ?_
    refine .call (.inr ⟨row, decision, review, key, ?_, rfl, hreview, hsome, Transcript.last_learn,
      rfl⟩) fun _ _ => abides_plain plain_hold
    exact hjudged.mono (le_trans Contract.Growing.le_learn Contract.Growing.le_learn)
  · exact abides_plain plain_hold

lemma grounded_judge {row : ApprovalRow} (hlisted : t.Listed (.approval row))
    (hevents : t.Heard (.listEvents sessionId) events) :
    Grounded (judge cfg contextId taskId claim (byId events row.cmaEventId) row) t := by
  unfold judge
  split
  · exact .throw
  split
  · exact .throw
  rename_i request hrequest
  obtain ⟨source, hsource⟩ : ∃ source, byId events row.cmaEventId = some source := by
    cases hsource : byId events row.cmaEventId with
    | none => rw [hsource] at hrequest; cases hrequest
    | some source => exact ⟨source, rfl⟩
  rw [hsource] at hrequest
  have hfound : t.Found row.cmaEventId source := ⟨sessionId, events, hevents, hsource⟩
  obtain ⟨hroot, hinvocation, hagent⟩ := toolPolicyRequest_spec hrequest
  refine Contract.Conforms.bind (grounded_consult (hinvocation ▸ hfound) ?_) ?_
  · rw [hroot, hinvocation, hagent]
    exact hrequest
  rintro decision t' ⟨hle, resolution, hanswer⟩
  refine Contract.Abides.mono ?_ hle
  have hjudged : t'.Judged contextId row decision :=
    ⟨hlisted.mono hle, source, _, request, resolution, hfound.mono hle, hrequest, hanswer⟩
  split
  · exact grounded_publishReview hjudged ‹_›
  rename_i hanswered
  split
  · exact .last (.inl rfl)
  · refine .bind (.tryCatch (.last ⟨row, decision, hjudged, rfl, ?_⟩) fun e _ _ => ?_)
      fun _ _ _ => abides_plain plain_hold
    · cases hd : decision.decision with
      | humanReview => exact absurd hd hanswered
      | _ => simp
    · cases e <;> exact .throw

lemma grounded_judgeFailed {row : ApprovalRow} {code : PolicyCode} :
    Grounded (judgeFailed contextId taskId claim row code) t := by
  unfold judgeFailed
  dsimp only
  split
  · exact .call (.inl rfl) fun _ _ => abides_plain plain_hold
  · exact abides_plain plain_hold

lemma grounded_evaluatePolicy (hevents : t.Heard (.listEvents sessionId) events) :
    Grounded (evaluatePolicy cfg contextId taskId claim events) t := by
  refine .call trivial fun rows _ => .bind (.loop fun request hrequest t' hle => ?_)
    fun _ _ _ => .pure
  unfold evaluateRow
  split
  · exact .pure
  rename_i row
  split
  · exact .pure
  refine .call trivial fun current _ => ?_
  split
  · exact .pure
  refine .call trivial fun task _ => ?_
  split
  · exact .pure
  split
  · exact .pure
  refine .call trivial fun now _ => ?_
  split
  · exact .throw
  split
  · exact .pure
  have hlisted : (discipline.learn t (.query (.listInputRequests taskId)) (.ok rows)).Listed
      (.approval row) := listed_learn (List.mem_insertionSort _ |>.1 hrequest)
  refine .tryCatch (.bind (grounded_judge (hlisted.mono ?_) (hevents.mono ?_))
    fun _ _ _ => .pure) fun e _ _ => ?_
  · exact hle.trans (le_trans Contract.Growing.le_learn
      (le_trans Contract.Growing.le_learn Contract.Growing.le_learn))
  · exact le_trans Contract.Growing.le_learn (hle.trans (le_trans Contract.Growing.le_learn
      (le_trans Contract.Growing.le_learn Contract.Growing.le_learn)))
  · cases e with
    | lostSchedulerClaim => exact .throw
    | _ => exact .bind grounded_judgeFailed fun _ _ _ => .pure

lemma grounded_reviewAndWait (hevents : t.Heard (.listEvents sessionId) events) :
    Grounded (reviewAndWait cfg contextId task claim sessionId events) t := by
  refine .bind (grounded_evaluatePolicy hevents) fun decided _ _ => ?_
  split
  · exact abides_plain plain_setWaitingState
  refine .call trivial fun refreshed _ => ?_
  dsimp only
  split
  · refine .bind grounded_reconcileConfirmations fun finished _ _ => ?_
    split
    · exact abides_plain plain_setWaitingState
    · exact .pure
  · exact .pure

lemma grounded_addRequests {ids : List EventId} {rest : List Event}
    (hshowed : ∀ e ∈ rest, t.Showed e) :
    Grounded (addRequests contextId taskId claim ids rest) t := by
  induction rest generalizing t with
  | nil => exact .pure
  | cons source rest ih =>
    have hsource := hshowed source List.mem_cons_self
    have hrest : ∀ t', t ≤ t' → Grounded (addRequests contextId taskId claim ids rest) t' :=
      fun t' hle => ih fun e he => (hshowed e (List.mem_cons_of_mem _ he)).mono hle
    unfold addRequests
    cases hid : source.id with
    | none => exact hrest t (le_refl t)
    | some eventId =>
      dsimp only
      split
      · split
        · exact .call ⟨rfl, source, hsource, hid, ‹_›⟩ fun _ _ => hrest _ Contract.Growing.le_learn
        · split
          · exact .call ⟨rfl, source, hsource, hid, ‹_›⟩ fun _ _ =>
              hrest _ Contract.Growing.le_learn
          · exact hrest t (le_refl t)
      · exact hrest t (le_refl t)

lemma grounded_reconcileStatus :
    Grounded (reconcileStatus cfg contextId task claim sessionId) t := by
  refine .call trivial fun events _ => ?_
  have hevents : ∀ t', discipline.learn t (.listEvents sessionId) (.ok events) ≤ t' →
      t'.Heard (.listEvents sessionId) events :=
    fun t' hle => Transcript.Heard.mono Transcript.heard_learn hle
  split
  · exact .pure
  refine .call trivial fun requests _ => ?_
  dsimp only
  split
  · exact grounded_reviewAndWait (hevents _ Contract.Growing.le_learn)
  split
  · exact abides_plain plain_finishFailed
  · exact abides_plain plain_finishFailed
  · split
    · refine .bind (grounded_addRequests fun e he =>
        ⟨sessionId, events, hevents _ Contract.Growing.le_learn, he⟩) fun _ t' hle => ?_
      exact grounded_reviewAndWait (hevents _ (le_trans Contract.Growing.le_learn hle))
    · exact abides_plain plain_finish
    · exact abides_plain plain_finishFailed
    · exact .pure
  · exact abides_plain (every_ask trivial fun _ => .pure)
  · exact .pure

/-- The answer of a cancelled clarification is handed over as it was stored. -/
lemma grounded_cancelRequest {request : Request} :
    Grounded (cancelRequest contextId taskId claim request) t := by
  unfold cancelRequest
  split
  · split
    · refine .call trivial fun key _ => .call Transcript.last_learn fun _ _ => ?_
      refine .call ⟨_, Transcript.last_learn⟩ fun decided _ => ?_
      dsimp only
      split
      · exact .call trivial fun _ _ => .pure
      · exact .pure
    · exact .pure
  · split
    · exact abides_plain (.bind (Prog.every_perform trivial) fun _ => .pure)
    · exact .pure

lemma grounded_reconcileCancel :
    Grounded (reconcileCancel contextId task claim sessionId events) t := by
  unfold reconcileCancel
  dsimp only
  split
  · exact abides_plain plain_sendInterrupt
  split
  · exact abides_plain plain_finish
  split
  · refine .call trivial fun requests _ => .bind (.loop fun _ _ _ _ => grounded_cancelRequest) ?_
    exact fun _ _ _ => .bind grounded_reconcileConfirmations fun _ _ _ => .pure
  · exact abides_plain plain_sendInterrupt

lemma grounded_bindInput {eventId : EventId} :
    Grounded (bindInput task contextId claim eventId) t :=
  .bind (.call trivial fun _ _ => .pure) fun _ _ _ =>
    .tryCatch grounded_deletion fun _ _ _ => .pure

lemma grounded_reconcileActive {context : ContextRow} :
    Grounded (reconcileActive cfg context task claim) t := by
  refine .bind (abides_plain ?_) fun session t₁ _ => ?_
  · unfold activeSession
    split
    · exact .pure
    refine every_call trivial fun found => ?_
    split
    · exact plain_hold.bind fun _ => .pure
    · exact plain_updateContext.bind fun _ => .pure
  split
  · exact .pure
  refine .call trivial fun events _ => .bind ?_ fun bound _ _ => ?_
  · unfold ensureBound
    split
    · exact .pure
    split
    · exact .bind (abides_plain plain_hold) fun _ _ _ => .pure
    split
    · exact .throw
    · exact grounded_bindInput.bind fun _ _ _ => abides_plain (every_ask trivial fun _ => .pure)
  split
  · exact .pure
  split
  · exact grounded_reconcileCancel
  refine .bind grounded_reconcileConfirmations fun finished _ _ => ?_
  split
  · exact grounded_reconcileStatus
  · exact .pure

lemma grounded_dispatch {context : ContextRow} :
    Grounded (dispatch cfg context task claim) t := by
  refine .bind (abides_plain plain_pendingGet) fun text _ _ => ?_
  split
  · refine .call trivial fun recovered _ => .bind (abides_plain (.tryCatch ?_ fun e => ?_)) ?_
    · split
      · exact .pure
      · exact .map (Prog.every_perform trivial)
    · cases e with
      | definitiveProvider => exact plain_finishFailed.bind fun _ => .pure
      | _ => exact plain_hold.bind fun _ => .pure
    intro session _ _
    split
    · exact .pure
    refine .bind (abides_plain plain_updateContext) fun _ _ _ => .call trivial fun found _ => ?_
    split
    · refine grounded_bindInput.bind fun _ _ _ => ?_
      exact .call trivial fun _ _ => .call trivial fun _ _ => grounded_reconcileActive
    · exact abides_plain plain_hold
  · refine .bind (abides_plain (.tryCatch (.map (Prog.every_perform trivial)) fun e => ?_)) ?_
    · cases e with
      | definitiveProvider => exact plain_finish.bind fun _ => .pure
      | _ => exact plain_hold.bind fun _ => .pure
    intro sent _ _
    split
    · exact .pure
    · exact grounded_bindInput
    · exact abides_plain plain_hold

lemma grounded_reconcileContext {context : ContextRow} :
    Grounded (reconcileContext cfg context claim) t := by
  unfold reconcileContext
  split
  · refine .call trivial fun row _ => ?_
    split
    · exact grounded_reconcileActive
    · exact .pure
  · refine .call trivial fun queued _ => ?_
    split
    · exact .pure
    split
    · exact abides_plain plain_finish
    dsimp only
    split
    · exact .call trivial fun _ _ => .call trivial fun _ _ => grounded_dispatch
    · exact .call trivial fun _ _ => grounded_dispatch

/-- A wakeup's calls rest on what it was told. -/
theorem grounded_runOnce : Grounded (runOnce cfg contextId) t := by
  refine .call trivial fun granted _ => ?_
  split
  · exact .throw
  refine .ensure (.call trivial fun context _ => ?_) fun _ _ => abides_plain plain_runOnceCleanup
  split
  · exact .pure
  · exact .bind grounded_reconcileContext fun _ _ _ => abides_plain plain_scheduleNext

lemma grounded_job {p : Program Unit} (h : Job p) : Grounded p t := by
  obtain ⟨cfg, contextId, rfl⟩ | ⟨cfg, taskId, resolution, verified, rfl⟩ := h
  · exact grounded_runOnce
  · exact abides_plain plain_resolve

end

end ManagedAgents.Controller
