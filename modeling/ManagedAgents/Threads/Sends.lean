import ManagedAgents.Controller.Admission
import ManagedAgents.Lib.Chronicle
import ManagedAgents.Threads.Effects
import ManagedAgents.Threads.Service

/-!
Logical sends over two stores: any number of `send_turn` and of `send` run interleaved, each for one
client message of a thread, against the application's database and the controller's.

A send's message is admitted in one transaction, and its caller is told the task or an error. Ids
are whatever is drawn. Meanwhile the clocks move on, others change threads, and the controller does
anything but admit; only sends record, claim and bind.
-/

namespace ManagedAgents.Threads.Sends

open ManagedAgents.Lib
open ManagedAgents.Controller (ContextId TaskId MessageId ClaimId Text)

structure Stores where
  app : Db := {}
  controller : Controller.Db := {}

/-- What the controller makes of a message that starts a turn. -/
def Asks (a : Controller.Admission) (message : Message) : Prop :=
  message.taskId = none ∧ a.requestedContextId = message.contextId ∧ a.messageId = message.messageId

/-- The call is answered like this and leaves these stores. -/
inductive Answers (st : Stores) : (c : Call) → Except Exn c.Reply → Stores → Prop
  | done {fresh q v app} (h : q.run fresh st.app = .ok (v, app)) :
    Answers st (.query q) (.ok v) { st with app }
  | unacknowledged {fresh q v app} (h : q.run fresh st.app = .ok (v, app)) :
    Answers st (.query q) (.error .other) { st with app }
  | refused {fresh q e} (h : q.run fresh st.app = .error e) : Answers st (.query q) (.error e) st
  | unavailable {q} : Answers st (.query q) (.error .other) st
  | admitted {agentId message humanInput a c t created controller state requests}
    (ha : Asks a message)
    (h : Controller.admitTurn a st.controller = .ok ((c, t, created), controller)) :
    Answers st (.sendMessage agentId message humanInput)
      (.ok { id := t.taskId, contextId := c.contextId, state, requests }) { st with controller }
  | lost {agentId message humanInput a v controller e} (ha : Asks a message)
    (h : Controller.admitTurn a st.controller = .ok (v, controller)) :
    Answers st (.sendMessage agentId message humanInput) (.error e) { st with controller }
  | rejected {agentId message humanInput e} :
    Answers st (.sendMessage agentId message humanInput) (.error e) st
  | external {c r} (hquery : ∀ q, c ≠ .query q) (hsend : ∀ a m h, c ≠ .sendMessage a m h) :
    Answers st c r st

/-- The query is one of those that only sends make. -/
def sending : Query → Bool
  | .recordLogicalSend _ _ _ | .bindTaskId _ _ _ | .claimContextInitialization _ _
  | .bindContext _ _ _ | .releaseContextInitialization _ _ => true
  | _ => false

/-- What happens beside the sends. -/
inductive Drifts (st : Stores) : Stores → Prop
  | tick {now} (h : st.app.now ≤ now) : Drifts st { st with app := { st.app with now := now } }
  | threads {fresh q v app} (hq : sending q = false) (h : Query.run fresh q st.app = .ok (v, app)) :
    Drifts st { st with app }
  | controls {fresh q v controller} (hq : ∀ a, q ≠ .admitTurn a)
    (h : Controller.Query.run fresh q st.controller = .ok (v, controller)) :
    Drifts st { st with controller }
  | controllerTick {now} (h : st.controller.now ≤ now) :
    Drifts st { st with controller := { st.controller with now := now } }

/-- A logical send, by `send_turn` or by the web's `send`. -/
structure Job where
  threadId : ThreadId
  messageId : MessageId
  text : Text
  web : Bool := false

def Job.send (l : Job) : Program Task :=
  if l.web then Service.send l.threadId l.messageId l.text
  else Service.sendTurn l.threadId l.messageId l.text

def Job.program (l : Job) : Program Unit := do
  let _ ← l.send
  pure ()

/-- A send that failed, or that did not, is made again any number of times. -/
def works : Works Call Call.Reply Exn Job Unit := ⟨Job.program, fun _ => none, fun _ => none⟩

abbrev Entry := Deed Call.Reply Exn Stores

abbrev Senders := Crew Call Call.Reply Exn (Ledger Call.Reply Exn Stores) Job Unit

/-- The states the sends reach from empty stores. -/
abbrev Reachable : Senders → Prop :=
  Crew.Reachable works (.logged Answers Drifts) { state := {} }

/-! ### What a send does -/

abbrev File := Dossier Job Call.Reply Exn

/-- The context of a turn is the thread's, or one to be made under the claim it was granted. -/
inductive Within (d : File) : Option ContextId → Prop
  | its {row contextId} (h : d.Heard (.query (.getThread d.job.threadId)) (some row))
    (hcontext : row.contextId = some contextId) : Within d (some contextId)
  | ready {seconds contextId}
    (h : d.Heard (.query (.claimContextInitialization d.job.threadId seconds)) (.ready contextId)) :
    Within d (some contextId)
  | first {seconds claimId}
    (h : d.Heard (.query (.claimContextInitialization d.job.threadId seconds))
      (.acquired claimId)) : Within d none

/-- The controller answered with this task. -/
def Answered (d : File) (task : Task) : Prop :=
  ∃ agentId message humanInput, d.Heard (.sendMessage agentId message humanInput) task

/-- A send concerns its own thread and message, and binds what the controller answered. -/
def allowed (d : File) : Call → Prop
  | .sendMessage _ message _ =>
    message.taskId = none ∧ message.messageId = d.job.messageId ∧ Within d message.contextId
  | .query (.bindContext threadId _ contextId) =>
    threadId = d.job.threadId ∧ ∃ task, Answered d task ∧ task.contextId = contextId
  | .query (.bindTaskId threadId clientMessageId taskId) =>
    threadId = d.job.threadId ∧ clientMessageId = d.job.messageId ∧
      ∃ task, Answered d task ∧ task.id = taskId
  | _ => True

/-- Rows are what was asked for. -/
def possible : (c : Call) → Except Exn c.Reply → Prop
  | .query (.getThread threadId), .ok (some row) => row.threadId = threadId
  | _, _ => True

abbrev Follows {α : Type} (prog : Program α) (Q : α → File → Prop) (d : File) : Prop :=
  Lib.Follows possible allowed prog Q d

section

variable {d d' : File} {row : ThreadRow} {turn : Service.Turn} {task : Task} {seconds : ℕ}

lemma Within.mono {contextId : Option ContextId} (h : Within d contextId) (hle : d ≤ d') :
    Within d' contextId := by
  have hjob : d.job = d'.job := hle.1
  cases h with
  | its h hcontext => exact .its (hjob ▸ d.heard_mono h hle) hcontext
  | ready h => exact .ready (hjob ▸ d.heard_mono h hle)
  | first h => exact .first (hjob ▸ d.heard_mono h hle)

lemma Answered.mono (h : Answered d task) (hle : d ≤ d') : Answered d' task := by
  obtain ⟨agentId, message, humanInput, h⟩ := h
  exact ⟨agentId, message, humanInput, d.heard_mono h hle⟩

lemma follows_thread : Follows (Service.thread d.job.threadId)
    (fun row d' => d'.Heard (.query (.getThread d.job.threadId)) (some row) ∧
      row.threadId = d.job.threadId) d := by
  refine Lib.Follows.bind (.perform trivial) fun o d' hle hheard => ?_
  cases o with
  | none => exact .throw
  | some row => exact .pure ⟨hheard.2, hheard.1⟩

lemma follows_attempt (hrow : row.threadId = d.job.threadId) :
    Follows (Service.attempt seconds row.threadId)
      (fun turn d' => ∀ turn' : Service.Turn, turn = some turn' → Within d' turn'.contextId) d := by
  rw [hrow]
  refine Lib.Follows.bind (.perform trivial) fun claim d' hle hheard => ?_
  have hheard' := hheard.2
  rw [show d.job = d'.job from hle.1] at hheard'
  cases claim with
  | acquired claimId =>
    refine .pure fun turn' hturn => ?_
    cases hturn
    exact .first hheard'
  | ready contextId =>
    refine .pure fun turn' hturn => ?_
    cases hturn
    exact .ready hheard'
  | busy => exact .pure nofun

lemma follows_openTurn (hheard : d.Heard (.query (.getThread d.job.threadId)) (some row))
    (hrow : row.threadId = d.job.threadId) :
    Follows (Service.openTurn seconds row) (fun turn d' => Within d' turn.contextId) d := by
  unfold Service.openTurn
  cases hcontext : row.contextId with
  | some contextId => exact .pure (.its hheard hcontext)
  | none =>
    refine Lib.Follows.bind (Q := fun turn d' => ∀ turn' : Service.Turn, turn = some turn' →
        Within d' turn'.contextId) ?_ fun turn d' hle hturn => ?_
    · refine .loop nofun fun _ _ d' hle _ => follows_attempt (hrow.trans ?_)
      rw [show d.job = d'.job from hle.1]
    · cases turn with
      | none => exact .throw
      | some turn => exact .pure (hturn turn rfl)

lemma follows_submit {text : Text} (hwithin : Within d turn.contextId) :
    Follows (Service.submit row turn d.job.messageId text) (fun task d' => Answered d' task) d := by
  refine .tryCatch (.mono (.perform ⟨rfl, rfl, hwithin⟩) fun task d' _ h => ⟨_, _, _, h.2⟩)
    fun e d' _ => ?_
  split
  · exact Lib.Follows.bind (.perform trivial) fun _ _ _ _ => .throw
  · exact .throw

lemma follows_closeTurn (hrow : row.threadId = d.job.threadId) (htask : Answered d task) :
    Follows (Service.closeTurn row turn task) (fun _ _ => True) d := by
  unfold Service.closeTurn
  cases turn with
  | first claimId =>
    exact Lib.Follows.bind (.perform ⟨hrow, task, htask, rfl⟩) fun _ _ _ _ => .pure trivial
  | within contextId =>
    dsimp only
    split
    · exact .pure trivial
    · exact .throw

/-- The turn is opened, sent and bound. -/
lemma follows_turn {β : Type} {f : Task → Program β} {text : Text}
    (hheard : d.Heard (.query (.getThread d.job.threadId)) (some row))
    (hrow : row.threadId = d.job.threadId)
    (hf : ∀ task d', d ≤ d' → Follows (f task) (fun _ _ => True) d') :
    Follows (do
      let turn ← Service.openTurn Service.contextSeconds row
      let task ← Service.submit row turn d.job.messageId text
      Service.closeTurn row turn task
      let _ ← ask (.bindTaskId d.job.threadId d.job.messageId task.id)
      f task) (fun _ _ => True) d := by
  refine (follows_openTurn hheard hrow).bind fun turn d₁ hle₁ hwithin => ?_
  have hjob₁ : d.job = d₁.job := hle₁.1
  rw [hjob₁] at hrow ⊢
  refine (follows_submit hwithin).bind fun task d₂ hle₂ htask => ?_
  have hjob₂ : d₁.job = d₂.job := hle₂.1
  rw [hjob₂] at hrow ⊢
  refine (follows_closeTurn hrow htask).bind fun _ d₃ hle₃ _ => ?_
  have hjob₃ : d₂.job = d₃.job := hle₃.1
  rw [hjob₃]
  refine Lib.Follows.bind (.perform ⟨rfl, rfl, task, htask.mono hle₃, rfl⟩) fun _ d₄ hle₄ _ => ?_
  exact hf task d₄ (le_trans hle₁ (le_trans hle₂ (le_trans hle₃ hle₄)))

end

/-- **Sends keep to their thread and message.** -/
theorem conforms_job (l : Job) : (Contract.filed possible allowed).Conforms l.program
    (fun _ _ => True) (fun _ => True) { said := [], job := l } := by
  have hturn : Follows (Service.sendTurn l.threadId l.messageId l.text) (fun _ _ => True)
      { said := [], job := l } := by
    unfold Service.sendTurn
    split
    · exact .throw
    refine Lib.Follows.bind (follows_thread (d := { said := [], job := l }))
      fun row d₁ hle₁ ⟨hheard, hrow⟩ => ?_
    refine .call trivial fun _ d₂ hle₂ => .call trivial fun _ d₃ hle₃ => ?_
    have hjob : l = d₃.job := (le_trans hle₁ (le_trans hle₂ hle₃)).1
    subst hjob
    refine follows_turn (Dossier.heard_mono hheard (le_trans hle₂ hle₃)) hrow fun task d₄ _ => ?_
    exact Lib.Follows.bind (Q := fun _ _ => True) (.tryCatch (.quiet trivial) fun _ _ _ => .throw)
      fun _ _ _ _ => .pure trivial
  have hsend : Follows (Service.send l.threadId l.messageId l.text) (fun _ _ => True)
      { said := [], job := l } := by
    unfold Service.send
    refine Lib.Follows.bind (follows_thread (d := { said := [], job := l }))
      fun row d₁ hle₁ ⟨hheard, hrow⟩ => ?_
    refine .call trivial fun _ d₂ hle₂ => ?_
    have hjob : l = d₂.job := (le_trans hle₁ hle₂).1
    subst hjob
    refine follows_turn (Dossier.heard_mono hheard hle₂) hrow fun task d₄ _ => ?_
    exact .call trivial fun _ _ _ => .call trivial fun _ _ _ => .pure trivial
  have hjob : Follows l.send (fun _ _ => True) { said := [], job := l } := by
    unfold Job.send
    split
    · exact hsend
    · exact hturn
  have hprogram : Follows l.program (fun _ _ => True) { said := [], job := l } :=
    hjob.bind fun _ _ _ _ => .pure trivial
  exact Contract.Conforms.mono hprogram (fun _ _ _ => trivial) fun _ _ => trivial

end ManagedAgents.Threads.Sends
