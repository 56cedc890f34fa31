import ManagedAgents.Controller.Routine
import ManagedAgents.Lib.Transcript

/-!
What programs hand over.

Whatever is stored goes under a new key, and only the program that drew a key hands it over to a
row. An answer is recorded right after it was stored; a worker passes on the answer of a row it was
listed, which it fetches right after it has set the row's mark. Whose words an answer has is what
the program was started for: a client's response, or a task whose cancellation was read.
-/

namespace ManagedAgents.Controller.Handover

open ManagedAgents.Lib

/-- What a program said and heard, and what it was started for. -/
abbrev File := Dossier Errand Call.Reply Exn

/-- The task was read like this. -/
def Read (d : File) (task : TaskRow) : Prop :=
  d.Heard (.query (.getTask task.taskId)) (some task) ∨ ∃ contextId claim predecessor,
    d.Heard (.query (.activateTask contextId task.taskId claim predecessor)) task

/-- The row was listed like this. -/
def Listed (d : File) (row : ClarificationRow) : Prop :=
  ∃ requests, d.Heard (.query (.listInputRequests row.taskId)) requests ∧
    .clarification row ∈ requests

/-- The task was read when its cancellation had been requested. -/
def Stops (d : File) (taskId : TaskId) : Prop :=
  ∃ task, Read d task ∧ task.taskId = taskId ∧ task.cancelRequestedAt.isSome = true

/-- The text of an answer is a client's, or says that the task was cancelled. -/
inductive Intends (d : File) (requestId : RequestId) (taskId : TaskId) : Text → Prop
  | response {str message n options answer} (hjob : d.job = .send str message n options)
    (htask : message.taskId = some taskId)
    (hresponse : message.envelope = .response (.clarification requestId answer)) :
    Intends d requestId taskId answer
  | cancelled (hstops : Stops d taskId) : Intends d requestId taskId "Task cancelled by user."

/-- The row's mark was set, and then its answer was fetched. -/
def Fetched (d : File) (row : ClarificationRow) (answer : Text) : Prop :=
  ∃ key contextId claim rest, row.answerObjectKey = some key ∧
    d.said = ⟨.pendingGet key, .ok answer⟩ ::
      ⟨.query (.markClarificationAttempted row.requestId contextId claim), .ok true⟩ :: rest

/-- What a program may store, hand over and pass on. -/
def allowed (d : File) : Call → Prop
  | .pendingPut key _ => d.Last .uuid4 key
  | .query (.admitTurn a) => d.Heard .uuid4 a.inputObjectKey
  | .query (.recordHumanReview _ _ _ _ offer) => ∀ key ∈ offer.objectKey, d.Heard .uuid4 key
  | .query (.decideClarificationRequest requestId taskId key) => d.Heard .uuid4 key ∧
    ∃ text, d.Last (.pendingPut key text) () ∧ Intends d requestId taskId text
  | .sendCustomToolResult task _ eventId answer isError => ∃ row, Listed d row ∧
    row.key = (task, eventId) ∧ row.status = .resolving ∧ Fetched d row answer ∧
    (isError = true → Stops d task)
  | _ => True

def contract : Contract Call Call.Reply Exn File := .filed Known.possible allowed

instance : contract.Growing := inferInstanceAs (Contract.filed Known.possible allowed).Growing

instance : Tolerant contract where
  allowed {k c} h := by
    cases c with
    | query q =>
      cases q with
      | admitTurn | recordHumanReview | decideClarificationRequest => exact h.elim
      | _ => trivial
    | sendCustomToolResult | pendingPut => exact h.elim
    | _ => trivial

variable {d d' : File} {task : TaskRow} {taskId : TaskId} {row : ClarificationRow}

/-- Nothing is forgotten. -/
lemma le_learn {c : Call} {r : Except Exn c.Reply} : d ≤ contract.learn d c r :=
  Contract.Growing.le_learn

lemma Read.mono (h : Read d task) (hle : d ≤ d') : Read d' task :=
  h.imp (fun h => Dossier.heard_mono h hle)
    fun ⟨contextId, claim, predecessor, h⟩ =>
      ⟨contextId, claim, predecessor, Dossier.heard_mono h hle⟩

lemma Listed.mono (h : Listed d row) (hle : d ≤ d') : Listed d' row := by
  obtain ⟨requests, hheard, hmem⟩ := h
  exact ⟨requests, Dossier.heard_mono hheard hle, hmem⟩

lemma Read.stops (h : Read d task) (hcancel : task.cancelRequestedAt.isSome = true) :
    Stops d task.taskId := ⟨task, h, rfl, hcancel⟩

lemma heard_learn {c : Call} {v : c.Reply} : (contract.learn d c (.ok v)).Heard c v :=
  Dossier.heard_learn

lemma last_learn {c : Call} {v : c.Reply} : (contract.learn d c (.ok v)).Last c v := rfl

/-- A task that was read again is what was read last. -/
lemma read_getD {reply : Option TaskRow} (h : Read d task)
    (hpossible : Known.possible (.query (.getTask taskId)) (.ok reply)) :
    Read (contract.learn d (.query (.getTask taskId)) (.ok reply)) (reply.getD task) := by
  cases reply with
  | none => exact h.mono le_learn
  | some row =>
    have hid : row.taskId = taskId := hpossible
    subst hid
    exact .inl Dossier.heard_learn

/-! ### The scheduler -/

section

variable {contextId : ContextId} {claim : ClaimId} {cfg : Config} {sessionId : SessionId}
  {events : List Event}

lemma abides_pendingDelete {key : Option ObjectKey} : contract.Abides (pendingDelete key) d := by
  cases key with
  | none => exact .pure
  | some key => exact .last trivial

/-- The answer that is passed on was fetched right after the row's mark was set. -/
lemma abides_reconcileClarification (hlisted : Listed d row) (htask : row.taskId = task.taskId)
    (hresolving : row.status = .resolving) (hread : Read d task) :
    contract.Abides (reconcileClarification contextId task claim sessionId events row) d := by
  have hresolve : ∀ d', contract.Abides (do
      resolveInput (.clarification row) contextId claim
      pendingDelete row.answerObjectKey
      pure (none : Option Unit)) d' :=
    fun d' => .call trivial fun _ _ => abides_pendingDelete.bind fun _ _ _ => .pure
  unfold reconcileClarification
  split
  · exact hresolve d
  split
  · exact .bind (abides_plain plain_hold) fun _ _ _ => .pure
  refine .call trivial fun marked _ => ?_
  cases marked with
  | false => exact .pure
  | true =>
    refine .bind (.tryCatch ?_ fun e d' _ => ?_) fun sent d' _ => ?_
    · unfold pendingGet
      cases hkey : row.answerObjectKey with
      | none =>
        change contract.Abides (throw .other : Program Sent) _
        exact .throw
      | some key =>
        refine .call trivial fun answer _ => .call ?_ fun _ _ => .pure
        exact ⟨row, (hlisted.mono le_learn).mono le_learn, Prod.ext htask rfl, hresolving,
          ⟨key, contextId, claim, _, hkey, rfl⟩,
          fun hcancel => ((hread.mono le_learn).mono le_learn).stops hcancel⟩
    · cases e with
      | definitiveProvider => exact .bind (abides_plain plain_finishFailed) fun _ _ _ => .pure
      | _ => exact .bind (abides_plain plain_hold) fun _ _ _ => .call trivial fun _ _ => .pure
    · cases sent with
      | settled => exact hresolve d'
      | _ => exact .pure

lemma abides_reconcileConfirmations (hread : Read d task) :
    contract.Abides (reconcileConfirmations contextId task claim sessionId events) d := by
  refine .call trivial fun requests hpossible => .bind (.loop fun request hrequest d' hle => ?_) ?_
  · unfold reconcileRequest
    split
    · exact .pure
    rename_i hresolving
    cases request with
    | clarification row =>
      have htask : row.taskId = task.taskId := hpossible _ hrequest
      refine abides_reconcileClarification ⟨requests, ?_, hrequest⟩ htask ?_ ?_
      · rw [htask]
        exact Dossier.heard_mono Dossier.heard_learn hle
      · simpa [Request.status] using hresolving
      · exact hread.mono (le_trans le_learn hle)
    | approval row => exact abides_plain plain_reconcileApproval
  · intro result d' _
    split
    · exact .pure
    · refine abides_plain (every_ask trivial fun _ => every_ask trivial fun _ => ?_)
      split
      · exact plain_hold.bind fun _ => .pure
      · exact .pure

/-- A description is stored under a new key. -/
lemma abides_judge {source : Option Event} {row : ApprovalRow} :
    contract.Abides (judge cfg contextId taskId claim source row) d := by
  unfold judge
  split
  · exact .throw
  split
  · exact .throw
  refine .bind (.every (P := fun c => ∃ r x, c = .policyExchange r x)
    (every_consult fun _ => ⟨_, _, rfl⟩) ?_) fun decision _ _ => ?_
  · rintro d c ⟨r, x, rfl⟩
    trivial
  split
  · unfold publishReview
    dsimp only
    split
    · exact .throw
    split
    · refine .call trivial fun key _ => .call last_learn fun _ _ => ?_
      refine .call (fun key' hkey => ?_) fun _ _ => abides_plain plain_hold
      cases hkey
      exact Dossier.heard_mono heard_learn le_learn
    · exact abides_plain plain_hold
  split
  · exact .last fun _ hkey => by cases hkey
  · refine .bind (.tryCatch (.last trivial) fun e _ _ => ?_) fun _ _ _ => abides_plain plain_hold
    cases e <;> exact .throw

lemma abides_evaluatePolicy :
    contract.Abides (evaluatePolicy cfg contextId taskId claim events) d := by
  refine .call trivial fun rows _ => .bind (.loop fun request hrequest d' _ => ?_)
    fun _ _ _ => .pure
  unfold evaluateRow
  split
  · exact .pure
  split
  · exact .pure
  refine .call trivial fun current _ => ?_
  split
  · exact .pure
  refine .call trivial fun task _ => ?_
  split
  · exact .pure
  split
  · exact .pure
  refine .call trivial fun now _ => ?_
  split
  · exact .throw
  split
  · exact .pure
  refine .tryCatch (.bind abides_judge fun _ _ _ => .pure) fun e _ _ => ?_
  cases e with
  | lostSchedulerClaim => exact .throw
  | _ =>
    refine .bind ?_ fun _ _ _ => .pure
    unfold judgeFailed
    dsimp only
    split
    · exact .call (fun _ hkey => by cases hkey) fun _ _ => abides_plain plain_hold
    · exact abides_plain plain_hold

lemma abides_reviewAndWait (hread : Read d task) :
    contract.Abides (reviewAndWait cfg contextId task claim sessionId events) d := by
  refine .bind abides_evaluatePolicy fun decided d' hle => ?_
  split
  · exact abides_plain plain_setWaitingState
  refine .call trivial fun refreshed hpossible => ?_
  dsimp only
  split
  · refine .bind (abides_reconcileConfirmations ?_) fun finished _ _ => ?_
    · exact read_getD (hread.mono hle) hpossible
    split
    · exact abides_plain plain_setWaitingState
    · exact .pure
  · exact .pure

lemma abides_addRequests {ids : List EventId} {rest : List Event} :
    contract.Abides (addRequests contextId taskId claim ids rest) d := by
  induction rest generalizing d with
  | nil => exact .pure
  | cons source rest ih =>
    unfold addRequests
    cases source.id with
    | none => exact ih
    | some eventId =>
      dsimp only
      split
      · split
        · exact .call trivial fun _ _ => ih
        · split
          · exact .call trivial fun _ _ => ih
          · exact ih
      · exact ih

lemma abides_reconcileStatus (hread : Read d task) :
    contract.Abides (reconcileStatus cfg contextId task claim sessionId) d := by
  refine .call trivial fun events _ => ?_
  have hread₁ := hread.mono (le_learn (c := .listEvents sessionId) (r := .ok events))
  split
  · exact .pure
  refine .call trivial fun requests _ => ?_
  have hread₂ := hread₁.mono
    (le_learn (c := .query (.listInputRequests task.taskId)) (r := .ok requests))
  dsimp only
  split
  · exact abides_reviewAndWait hread₂
  split
  · exact abides_plain plain_finishFailed
  · exact abides_plain plain_finishFailed
  · split
    · refine .bind abides_addRequests fun _ d' hle => ?_
      exact abides_reviewAndWait (hread₂.mono hle)
    · exact abides_plain plain_finish
    · exact abides_plain plain_finishFailed
    · exact .pure
  · exact abides_plain (every_ask trivial fun _ => .pure)
  · exact .pure

/-- The answer of a cancelled clarification says so. -/
lemma abides_cancelRequest {request : Request} (hstops : Stops d taskId) :
    contract.Abides (cancelRequest contextId taskId claim request) d := by
  unfold cancelRequest
  split
  · split
    · refine .call trivial fun key _ => .call last_learn fun _ _ => ?_
      refine .call ⟨Dossier.heard_mono heard_learn le_learn, _, last_learn, .cancelled ?_⟩
        fun decided _ => ?_
      · obtain ⟨task, hread, hid, hcancel⟩ := hstops
        exact ⟨task, hread.mono (le_trans le_learn le_learn), hid,
          hcancel⟩
      dsimp only
      split
      · exact .call trivial fun _ _ => .pure
      · exact .pure
    · exact .pure
  · split
    · exact abides_plain (.bind (Prog.every_perform trivial) fun _ => .pure)
    · exact .pure

lemma abides_reconcileCancel (hread : Read d task)
    (hcancel : task.cancelRequestedAt.isSome = true) :
    contract.Abides (reconcileCancel contextId task claim sessionId events) d := by
  unfold reconcileCancel
  dsimp only
  split
  · exact abides_plain plain_sendInterrupt
  split
  · exact abides_plain plain_finish
  split
  · refine .call trivial fun requests _ => .bind (.loop fun _ _ d' hle => ?_) fun _ d' hle => ?_
    · exact abides_cancelRequest ((hread.mono (le_trans le_learn hle)).stops hcancel)
    · exact .bind (abides_reconcileConfirmations (hread.mono (le_trans le_learn hle)))
        fun _ _ _ => .pure
  · exact abides_plain plain_sendInterrupt

lemma abides_bindInput {eventId : EventId} :
    contract.Abides (bindInput task contextId claim eventId) d :=
  .bind (.call trivial fun _ _ => .pure) fun _ _ _ =>
    .tryCatch abides_pendingDelete fun _ _ _ => .pure

/-- A task that was bound was read, before or after. -/
lemma conforms_ensureBound (hread : Read d task) :
    contract.Conforms (ensureBound contextId task claim events)
      (fun bound d' => d ≤ d' ∧ ∀ task' ∈ bound, Read d' task') (fun d' => d ≤ d') d := by
  unfold ensureBound
  split
  · exact Contract.conforms_pure ⟨le_refl d, fun _ h => Option.some.inj h ▸ hread⟩
  split
  · exact Contract.Conforms.bind (abides_plain plain_hold)
      fun _ d' hle => Contract.conforms_pure ⟨hle, fun _ h => by cases h⟩
  split
  · exact Contract.conforms_throw (le_refl d)
  · refine Contract.Conforms.bind abides_bindInput fun _ d' hle => ?_
    refine Contract.Conforms.bind (Q := fun v d'' => d ≤ d'' ∧ Read d'' (v.getD task))
      (Contract.conforms_perform trivial (fun v hv => ?_) fun _ _ => le_trans hle le_learn) ?_
    · exact ⟨le_trans hle le_learn, read_getD (hread.mono hle) hv⟩
    · rintro v d'' ⟨hle', hread'⟩
      exact Contract.conforms_pure ⟨hle', fun _ h => Option.some.inj h ▸ hread'⟩

lemma abides_reconcileActive {context : ContextRow} (hread : Read d task) :
    contract.Abides (reconcileActive cfg context task claim) d := by
  refine .bind (abides_plain ?_) fun session d₁ hle₁ => ?_
  · unfold activeSession
    split
    · exact .pure
    refine every_call trivial fun found => ?_
    split
    · exact plain_hold.bind fun _ => .pure
    · exact plain_updateContext.bind fun _ => .pure
  split
  · exact .pure
  refine .call trivial fun events _ => ?_
  have hread₁ := (hread.mono hle₁).mono
    (le_learn (c := .listEvents _) (r := .ok events))
  refine Contract.Conforms.bind (conforms_ensureBound hread₁) ?_
  rintro bound d₂ ⟨hle₂, hbound⟩
  refine Contract.Abides.mono ?_ hle₂
  split
  · exact .pure
  rename_i task'
  have hread₂ : Read d₂ task' := hbound task' rfl
  split
  · exact abides_reconcileCancel hread₂ ‹_›
  refine .bind (abides_reconcileConfirmations hread₂) fun finished d₃ hle₃ => ?_
  split
  · exact abides_reconcileStatus (hread₂.mono hle₃)
  · exact .pure

lemma abides_dispatch {context : ContextRow} (hread : Read d task) :
    contract.Abides (dispatch cfg context task claim) d := by
  refine .bind (abides_plain plain_pendingGet) fun text d₁ hle₁ => ?_
  split
  · refine .call trivial fun recovered _ => .bind (abides_plain (.tryCatch ?_ fun e => ?_)) ?_
    · split
      · exact .pure
      · exact .map (Prog.every_perform trivial)
    · cases e with
      | definitiveProvider => exact plain_finishFailed.bind fun _ => .pure
      | _ => exact plain_hold.bind fun _ => .pure
    intro session d₂ hle₂
    split
    · exact .pure
    refine .bind (abides_plain plain_updateContext) fun _ d₃ hle₃ => .call trivial fun found _ => ?_
    split
    · refine abides_bindInput.bind fun _ d₄ hle₄ => .call trivial fun _ _ => ?_
      refine .call trivial fun reply hpossible => abides_reconcileActive (read_getD ?_ hpossible)
      have hread₂ := ((hread.mono hle₁).mono (le_trans le_learn hle₂)).mono hle₃
      exact (hread₂.mono (le_trans le_learn hle₄)).mono le_learn
    · exact abides_plain plain_hold
  · refine .bind (abides_plain (.tryCatch (.map (Prog.every_perform trivial)) fun e => ?_)) ?_
    · cases e with
      | definitiveProvider => exact plain_finish.bind fun _ => .pure
      | _ => exact plain_hold.bind fun _ => .pure
    intro sent _ _
    split
    · exact .pure
    · exact abides_bindInput
    · exact abides_plain plain_hold

/-- A task that was activated was read. -/
lemma read_activated {predecessor : Option EventId}
    (hpossible : Known.possible (.query (.activateTask contextId taskId claim predecessor))
      (.ok task)) :
    Read (contract.learn d (.query (.activateTask contextId taskId claim predecessor)) (.ok task))
      task := by
  have hid : task.taskId = taskId := congrArg TaskView.taskId hpossible
  subst hid
  exact .inr ⟨contextId, claim, predecessor, Dossier.heard_learn⟩

lemma abides_reconcileContext {context : ContextRow} :
    contract.Abides (reconcileContext cfg context claim) d := by
  unfold reconcileContext
  split
  · refine .call trivial fun row hpossible => ?_
    split
    · rename_i task
      have hid : task.taskId = _ := hpossible
      refine abides_reconcileActive (.inl ?_)
      rw [hid]
      exact Dossier.heard_learn
    · exact .pure
  · refine .call trivial fun queued _ => ?_
    split
    · exact .pure
    split
    · exact abides_plain plain_finish
    dsimp only
    split
    · exact .call trivial fun _ _ => .call trivial fun _ hpossible =>
        abides_dispatch (read_activated hpossible)
    · exact .call trivial fun _ hpossible => abides_dispatch (read_activated hpossible)

lemma abides_runOnce : contract.Abides (runOnce cfg contextId) d := by
  refine .call trivial fun granted _ => ?_
  split
  · exact .throw
  refine .ensure (.call trivial fun context _ => ?_) fun _ _ => abides_plain plain_runOnceCleanup
  split
  · exact .pure
  · exact .bind abides_reconcileContext fun _ _ _ => abides_plain plain_scheduleNext

end

/-! ### The service -/

section

variable {str : Json → CodePoints} {options : TaskViewOptions} {message : Message}

/-- Calls by which nothing is stored, handed over or passed on. -/
def Aside : Call → Prop
  | .pendingPut _ _ | .query (.admitTurn _) | .query (.recordHumanReview _ _ _ _ _)
  | .query (.decideClarificationRequest _ _ _)
  | .sendCustomToolResult _ _ _ _ _ => False
  | _ => True

lemma Aside.allowed {c : Call} (h : Aside c) : allowed d c := by
  cases c with
  | query q =>
    cases q with
    | admitTurn | recordHumanReview | decideClarificationRequest => exact h.elim
    | _ => trivial
  | sendCustomToolResult | pendingPut => exact h.elim
  | _ => trivial

lemma abides_aside {α : Type} {p : Program α} (h : p.Every Aside) : contract.Abides p d :=
  .every h fun hc => hc.allowed

lemma aside_of_viewing {c : Call} (h : Viewing c) : Aside c := by
  cases c with
  | query q => cases q <;> trivial
  | _ => trivial

lemma aside_getTask {n : Option ℤ} {options : Option TaskViewOptions} :
    (Service.getTask str taskId n options).Every Aside := viewing_getTask.mono aside_of_viewing

/-- An input is handed over by the program that drew its key. -/
lemma abides_admitInput {a : Admission} (hdrawn : d.Heard .uuid4 a.inputObjectKey) :
    contract.Abides (Service.admitInput a) d := by
  have hfind : (Service.findAdmitted a).Every Aside := by
    unfold Service.findAdmitted
    split <;> exact Prog.every_perform trivial
  have hadmitted : contract.Abides (Service.admitOrRecover a) d := by
    refine .tryCatch (.last hdrawn) fun e _ _ => ?_
    cases e with
    | uniqueViolation =>
      refine abides_aside (hfind.bind fun context => ?_)
      split
      · exact .throw
      refine every_ask trivial fun task => ?_
      split
      · exact .throw
      · exact .pure
    | _ => exact .throw
  refine .tryCatch (hadmitted.bind fun _ _ _ => .pure) fun e _ _ => ?_
  cases e with
  | keyError => exact .call trivial fun _ _ => .pure
  | _ => exact .call trivial fun _ _ => .throw

/-- The input of a turn is stored under a new key. -/
lemma abides_sendTurn {requested : Option ContextId} {messageId : MessageId} {body : Text} :
    contract.Abides (Service.sendTurn str requested messageId body options) d := by
  refine .call trivial fun key _ => .call last_learn fun _ _ => ?_
  refine .call trivial fun contextId _ => .call trivial fun taskId _ => ?_
  refine .bind (abides_admitInput ?_) fun admitted _ _ => ?_
  · exact Dossier.heard_mono (Dossier.heard_mono (Dossier.heard_mono heard_learn le_learn) le_learn)
      le_learn
  split
  · exact .pure
  · refine abides_aside ((every_discardUnless trivial).bind fun _ =>
      .bind ?_ fun _ => aside_getTask)
    unfold Service.wake
    split
    · exact .pure
    · exact Prog.every_perform trivial

/-- The answer that is recorded is the client's, stored under a new key. -/
lemma abides_continueClarification {contextId : ContextId} {requestId : RequestId} {answer : Text}
    {n : Option ℤ} {view : Option TaskViewOptions} (hjob : d.job = .send str message n view)
    (htask : message.taskId = some task.taskId)
    (hresponse : message.envelope = .response (.clarification requestId answer)) :
    contract.Abides
      (Service.continueClarification str contextId task requestId answer options) d := by
  refine .call trivial fun prior _ => ?_
  split
  · split
    · exact abides_aside aside_getTask
    split
    · exact .pure
    refine .call trivial fun key _ => .call last_learn fun _ _ => ?_
    refine .bind (.tryCatch (.last ⟨?_, answer, last_learn, .response hjob htask hresponse⟩) ?_) ?_
    · exact Dossier.heard_mono heard_learn le_learn
    · exact fun e _ _ => .call trivial fun _ _ => .throw
    · refine fun row _ _ => abides_aside ((every_discardUnless trivial).bind fun _ => ?_)
      split
      · exact .pure
      · exact every_call trivial fun _ => aside_getTask
  · exact .pure

lemma abides_continue {n : Option ℤ} {view : Option TaskViewOptions}
    (hjob : d.job = .send str message n view) (htask : message.taskId = some taskId) :
    contract.Abides (Service.continue' str message taskId options) d := by
  unfold Service.continue'
  split
  · exact .pure
  split
  · exact .pure
  refine .call trivial fun reply hpossible => ?_
  split
  · exact .pure
  rename_i task
  have hid : task.taskId = taskId := hpossible
  split
  · exact .pure
  split
  · exact .pure
  · exact .pure
  · rename_i requestId answer hresponse
    exact abides_continueClarification hjob (by rw [hid, htask]) hresponse
  · refine abides_aside (every_ask trivial fun accepted => ?_)
    split
    · exact .pure
    · exact every_call trivial fun _ => aside_getTask

lemma abides_answered {α : Type} {p : Program (Answer α)} (hp : contract.Abides p d) :
    contract.Abides (answered p) d := by
  refine hp.bind fun answer _ _ => ?_
  split
  · exact .pure
  · exact .throw

end

/-- **Handing over.** Every program stores, hands over and passes on what it may. -/
theorem abides_program (l : Errand) : contract.Abides l.program { said := [], job := l } := by
  cases l with
  | wakeup cfg contextId => exact abides_runOnce
  | resolve cfg taskId resolution verified => exact abides_plain plain_resolve
  | send str message n options =>
    refine abides_answered ?_
    unfold Service.send
    split
    · exact .pure
    split
    · split
      · exact abides_continue rfl ‹_›
      split
      · exact .pure
      · exact abides_sendTurn
    · exact .pure
  | get str taskId n options => exact abides_answered (abides_aside aside_getTask)
  | cancel str cfg taskId options =>
    exact abides_answered (abides_plain (cancelling_cancel.mono Cancelling.plain))

end ManagedAgents.Controller.Handover
