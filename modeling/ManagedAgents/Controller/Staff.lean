import ManagedAgents.Lib.Crew
import ManagedAgents.Lib.Replay
import ManagedAgents.Controller.Clarifications
import ManagedAgents.Controller.Script
import ManagedAgents.Controller.Service

/-!
The controller with its service: wakeups and admin resolutions as before, and the clients' requests
as programs of their own.

Scheduler wakeups are the records of an at-least-once queue, as the event source maps them: one
record an invocation, deleted when the handler reports success. Only requests come from outside, so
what the store was proved to keep against arbitrary clients it keeps here.
-/

namespace ManagedAgents.Controller

open ManagedAgents.Lib

/-- What a program is started for. What Python's `str` makes of a value that is no string is the
program's own. -/
inductive Errand
  | wakeup (cfg : Config) (contextId : ContextId)
  | resolve (cfg : Config) (taskId : TaskId) (resolution : Resolution)
      (verifiedNoSideEffect : Bool)
  | send (str : Json → CodePoints) (message : Message) (historyLength : Option ℤ)
      (options : Option TaskViewOptions)
  | get (str : Json → CodePoints) (taskId : TaskId) (historyLength : Option ℤ)
      (options : Option TaskViewOptions)
  | cancel (str : Json → CodePoints) (cfg : Config) (taskId : TaskId)
      (options : Option TaskViewOptions)

/-- A request that is rejected raises, as everything else does that goes wrong. -/
def answered {α : Type} (p : Program (Answer α)) : Program Unit := do
  match ← p with
  | .ok _ => pure ()
  | .error _ => throw .valueError

def Errand.program : Errand → Program Unit
  | wakeup cfg contextId => runOnce cfg contextId
  | resolve cfg taskId resolution verified => Controller.resolve cfg taskId resolution verified
  | send str message historyLength options =>
    answered (Service.send str message historyLength options)
  | get str taskId historyLength options =>
    answered (Service.getTask str taskId historyLength options)
  | cancel str cfg taskId options => answered (Service.cancel str cfg taskId options)

/-- A wakeup's record names its context. -/
def Errand.record : Errand → Option ContextId
  | wakeup _ contextId => some contextId
  | _ => none

def Call.posts : Call → Option ContextId
  | schedule contextId _ => some contextId
  | _ => none

def works : Works Call Call.Reply Exn Errand ContextId :=
  ⟨Errand.program, Errand.record, Call.posts⟩

abbrev Staff := Crew Call Call.Reply Exn World Errand ContextId

/-- The states the controller and its service reach from an empty store. -/
abbrev Serves : Staff → Prop := Crew.Reachable works environment {}

/-! ### Courtesy -/

/-- The calls a request may make: a client's, and some that leave the store alone. -/
def Courteous : Call → Prop
  | .query q => Client (.query q) ∨ (∃ messageId, q = .findContextByCreationMessageId messageId) ∨
      ∃ contextId messageId, q = .findTaskByMessageId contextId messageId
  | .pendingPut _ _ | .pendingDelete _ | .pendingGet _ | .listEvents _ | .schedule _ _
  | .schedulePush _ | .uuid4 => True
  | _ => False

/-- A program of courteous calls. -/
abbrev Polite {α : Type} (p : Program α) : Prop := p.Every Courteous

/-- The calls that show a task. -/
def Viewing : Call → Prop
  | .query (.getTask _) | .query (.getContext _) | .query (.listInputRequests _) | .listEvents _
  | .pendingGet _ => True
  | _ => False

/-- The calls a new turn makes. -/
def Sending : Call → Prop
  | .query (.admitTurn _) | .query (.findContextByCreationMessageId _)
  | .query (.findTaskByMessageId _ _) | .uuid4 | .pendingPut _ _ | .pendingDelete _
  | .schedule _ _ => True
  | c => Viewing c

/-- The calls a response to a request makes. -/
def Continuing : Call → Prop
  | .query (.getInputRequest _ _) | .query (.decideClarificationRequest _ _ _)
  | .query (.recordHumanRuling _ _ _) | .uuid4 | .pendingPut _ _ | .pendingDelete _
  | .schedule _ _ => True
  | c => Viewing c

/-- The calls a cancellation makes. -/
def Cancelling : Call → Prop
  | .query (.cancelTask _) | .schedule _ _ | .schedulePush _ => True
  | c => Viewing c

section

variable {c : Call}

lemma Viewing.courteous (h : Viewing c) : Courteous c := by
  cases c with
  | query q =>
    cases q with
    | getTask taskId => exact .inl (.getTask _)
    | getContext contextId => exact .inl (.getContext _)
    | listInputRequests taskId => exact .inl (.listInputRequests _)
    | _ => exact h.elim
  | listEvents | pendingGet => trivial
  | _ => exact h.elim

lemma Viewing.sending (h : Viewing c) : Sending c := by
  cases c with
  | query q => cases q <;> trivial
  | _ => trivial

lemma Viewing.continuing (h : Viewing c) : Continuing c := by
  cases c with
  | query q => cases q <;> trivial
  | _ => trivial

lemma Viewing.cancelling (h : Viewing c) : Cancelling c := by
  cases c with
  | query q => cases q <;> trivial
  | _ => trivial

lemma Sending.courteous (h : Sending c) : Courteous c := by
  cases c with
  | query q =>
    cases q with
    | admitTurn a => exact .inl (.admitTurn _)
    | findContextByCreationMessageId messageId => exact .inr (.inl ⟨_, rfl⟩)
    | findTaskByMessageId contextId messageId => exact .inr (.inr ⟨_, _, rfl⟩)
    | _ => exact Viewing.courteous h
  | _ => trivial

lemma Continuing.courteous (h : Continuing c) : Courteous c := by
  cases c with
  | query q =>
    cases q with
    | getInputRequest requestId taskId => exact .inl (.getInputRequest _ _)
    | decideClarificationRequest requestId taskId key => exact .inl (.decideClarification _ _ _)
    | recordHumanRuling requestId taskId ruling => exact .inl (.recordHumanRuling _ _ _)
    | _ => exact Viewing.courteous h
  | _ => trivial

lemma Cancelling.courteous (h : Cancelling c) : Courteous c := by
  cases c with
  | query q =>
    cases q with
    | cancelTask taskId => exact .inl (.cancelTask _)
    | _ => exact Viewing.courteous h
  | _ => trivial

end

variable {α β : Type} {P : Call → Prop} {str : Json → CodePoints} {view : TaskViewOptions}
  {taskId : TaskId}

lemma every_call {c : Call} {f : c.Reply → Program β} (h : P c) (hf : ∀ v, (f v).Every P) :
    (perform c >>= f).Every P := (Prog.every_perform h).bind hf

lemma every_ask {q : Query} {f : q.Reply → Program β} (h : P (.query q))
    (hf : ∀ v, (f v).Every P) : (ask q >>= f).Every P := every_call h hf

lemma viewing_pendingText {task : TaskRow} : (Service.pendingText taskId task).Every Viewing := by
  unfold Service.pendingText
  cases task.cmaInputEventId with
  | some event => exact .pure
  | none =>
    cases task.inputObjectKey with
    | none => exact .pure
    | some key =>
      refine .tryCatch (every_call trivial fun _ => .pure) fun e =>
        every_ask trivial fun refreshed => ?_
      cases refreshed with
      | none => exact .throw
      | some row =>
        dsimp only
        split
        · exact .throw
        · exact .pure

lemma viewing_describeRows {shown : Bool} {requests : List Request} :
    (Service.describeRows shown requests).Every Viewing := by
  induction requests with
  | nil => exact .pure
  | cons request rest ih =>
    refine .bind ?_ fun _ => ih.bind fun _ => .pure
    unfold Service.describe
    cases Service.offerKey request with
    | none => exact .pure
    | some key =>
      dsimp only
      split
      · exact .map (Prog.every_perform trivial)
      · exact .pure

lemma viewing_sessionEvents {session : Option SessionId} :
    (Service.sessionEvents session).Every Viewing := by
  cases session with
  | none => exact .pure
  | some sessionId => exact Prog.every_perform trivial

lemma viewing_viewTask {task : TaskRow} {text : Option Text} :
    (Service.viewTask str task text view).Every Viewing := by
  refine every_ask trivial fun context => ?_
  cases context with
  | none => exact .pure
  | some context =>
    refine viewing_sessionEvents.bind fun events => every_ask trivial fun requests => ?_
    refine viewing_describeRows.bind fun rows => ?_
    cases buildTask str task events rows view text with
    | error e => exact .throw
    | ok object => exact .pure

lemma viewing_getTask {historyLength : Option ℤ} {options : Option TaskViewOptions} :
    (Service.getTask str taskId historyLength options).Every Viewing := by
  unfold Service.getTask
  cases viewOptions historyLength options with
  | error e => exact .pure
  | ok view =>
    refine every_ask trivial fun task => ?_
    cases task with
    | none => exact .pure
    | some task => exact viewing_pendingText.bind fun _ => viewing_viewTask

lemma sending_admitInput {a : Admission} : (Service.admitInput a).Every Sending := by
  have hfind : (Service.findAdmitted a).Every Sending := by
    unfold Service.findAdmitted
    cases a.requestedContextId <;> exact Prog.every_perform trivial
  have hrecover : (Service.recover a).Every Sending := by
    refine hfind.bind fun context => ?_
    cases context with
    | none => exact .throw
    | some context =>
      refine every_ask trivial fun task => ?_
      cases task with
      | none => exact .throw
      | some task => exact .pure
  have hadmission : (Service.admitOrRecover a).Every Sending := by
    refine .tryCatch (Prog.every_perform trivial) fun e => ?_
    cases e with
    | uniqueViolation => exact hrecover
    | _ => exact .throw
  refine .tryCatch hadmission.map fun e => ?_
  cases e with
  | keyError => exact every_call trivial fun _ => .pure
  | _ => exact every_call trivial fun _ => .throw

lemma sending_wake {contextId : ContextId} {task : TaskRow} :
    (Service.wake contextId task).Every Sending := by
  unfold Service.wake
  split
  · exact .pure
  · exact Prog.every_perform trivial

lemma every_discardUnless {needed : Bool} {key : ObjectKey} (h : P (.pendingDelete key)) :
    (Service.discardUnless needed key).Every P := by
  unfold Service.discardUnless
  split
  · exact .pure
  · exact Prog.every_perform h

lemma sending_sendTurn {requested : Option ContextId} {messageId : MessageId} {body : Text} :
    (Service.sendTurn str requested messageId body view).Every Sending := by
  refine every_call trivial fun key => every_call trivial fun _ => every_call trivial fun _ =>
    every_call trivial fun _ => ?_
  refine sending_admitInput.bind fun admitted => ?_
  cases admitted with
  | none => exact .pure
  | some admitted =>
    exact (every_discardUnless trivial).bind fun _ =>
      sending_wake.bind fun _ => viewing_getTask.mono Viewing.sending

lemma continuing_clarification {contextId : ContextId} {task : TaskRow} {requestId : RequestId}
    {answer : Text} :
    (Service.continueClarification str contextId task requestId answer view).Every Continuing := by
  refine every_ask trivial fun prior => ?_
  cases prior with
  | none => exact .pure
  | some request =>
    cases request with
    | approval row => exact .pure
    | clarification row =>
      dsimp only
      split
      · exact viewing_getTask.mono Viewing.continuing
      split
      · exact .pure
      refine every_call trivial fun key => every_call trivial fun _ => ?_
      refine .bind
        (.tryCatch (Prog.every_perform trivial) fun _ => every_call trivial fun _ => .throw)
        fun row => (every_discardUnless trivial).bind fun _ => ?_
      split
      · exact .pure
      · exact every_call trivial fun _ => viewing_getTask.mono Viewing.continuing

lemma continuing_approval {contextId : ContextId} {task : TaskRow} {requestId : RequestId}
    {decision : Ruling} :
    (Service.continueApproval str contextId task requestId decision view).Every Continuing := by
  refine every_ask trivial fun accepted => ?_
  split
  · exact .pure
  · exact every_call trivial fun _ => viewing_getTask.mono Viewing.continuing

lemma continuing_continue {message : Message} :
    (Service.continue' str message taskId view).Every Continuing := by
  unfold Service.continue'
  split
  · exact .pure
  split
  · exact .pure
  refine every_ask trivial fun task => ?_
  cases task with
  | none => exact .pure
  | some task =>
    dsimp only
    split
    · exact .pure
    cases message.envelope with
    | missing | invalid => exact .pure
    | response response =>
      cases response with
      | clarification requestId answer => exact continuing_clarification
      | toolApproval requestId decision => exact continuing_approval

/-- A message continues a task, or starts a turn, or is refused. -/
lemma every_send {message : Message} {historyLength : Option ℤ}
    {options : Option TaskViewOptions}
    (hcontinue : ∀ taskId view, (Service.continue' str message taskId view).Every P)
    (hsend : ∀ messageId body view,
      (Service.sendTurn str message.contextId messageId body view).Every P) :
    (Service.send str message historyLength options).Every P := by
  unfold Service.send
  cases viewOptions historyLength options with
  | error e => exact .pure
  | ok view =>
    cases message.role with
    | user =>
      cases message.messageId with
      | none => exact .pure
      | some messageId =>
        cases message.taskId with
        | some taskId => exact hcontinue _ _
        | none =>
          dsimp only
          cases Service.turnBody message with
          | error e => exact .pure
          | ok body => exact hsend _ _ _
    | _ => exact .pure

lemma cancelling_cancel {cfg : Config} {options : Option TaskViewOptions} :
    (Service.cancel str cfg taskId options).Every Cancelling := by
  have hwake : ∀ after, (Service.wakeOrPush cfg after).Every Cancelling := by
    intro after
    unfold Service.wakeOrPush
    split
    · exact Prog.every_perform trivial
    split
    · exact .tryCatch (Prog.every_perform trivial) fun _ => .pure
    · exact .pure
  refine every_ask trivial fun before => ?_
  cases before with
  | none => exact .pure
  | some before =>
    refine every_ask trivial fun after => ?_
    cases after with
    | none => exact .throw
    | some after => exact (hwake after).bind fun _ => viewing_getTask.mono Viewing.cancelling

lemma every_answered {p : Program (Answer α)} (hp : p.Every P) : (answered p).Every P := by
  refine hp.bind fun answer => ?_
  cases answer with
  | ok value => exact .pure
  | error e => exact .throw

/-- An errand is one of the jobs the store was proved against, or a polite program. -/
lemma Errand.job_or_polite (l : Errand) : Job l.program ∨ Polite l.program := by
  cases l with
  | wakeup cfg contextId => exact .inl (.inl ⟨cfg, contextId, rfl⟩)
  | resolve cfg taskId resolution verified =>
    exact .inl (.inr ⟨cfg, taskId, resolution, verified, rfl⟩)
  | send str message historyLength options =>
    exact .inr (every_answered
      (every_send (fun _ _ => continuing_continue.mono Continuing.courteous)
      fun _ _ _ => sending_sendTurn.mono Sending.courteous))
  | get str taskId historyLength options =>
    exact .inr (every_answered (viewing_getTask.mono Viewing.courteous))
  | cancel str cfg taskId options =>
    exact .inr (every_answered (cancelling_cancel.mono Cancelling.courteous))

/-! ### The same store -/

/-- Two worlds with the same store and objects; their sessions and logs may differ. -/
structure Mirrors (w v : World) : Prop where
  db : w.db = v.db
  uuid : w.uuid = v.uuid
  objects : w.objects = v.objects

variable {w v w' : World}

/-- Whoever makes a call, in whichever of the two worlds, is answered alike. -/
lemma Mirrors.exec {a b : Actor} {c : Call} {r : Except Exn c.Reply} (h : Mirrors w v)
    (he : environment.exec w a c r w') : ∃ v', environment.exec v b c r v' ∧ Mirrors w' v' := by
  obtain ⟨hdb, huuid, hobjects⟩ := h
  obtain ⟨committed, w₁, hw, rfl⟩ := he
  cases hw with
  | done hrun =>
    rw [hdb, huuid] at hrun
    exact ⟨_, ⟨true, _, .done hrun, rfl⟩, rfl, congrArg (· + 1) huuid, hobjects⟩
  | unacknowledged hrun =>
    rw [hdb, huuid] at hrun
    exact ⟨_, ⟨true, _, .unacknowledged hrun, rfl⟩, rfl, congrArg (· + 1) huuid, hobjects⟩
  | refused hrun =>
    rw [hdb, huuid] at hrun
    exact ⟨_, ⟨false, _, .refused hrun, rfl⟩, hdb, huuid, hobjects⟩
  | unavailable => exact ⟨_, ⟨false, _, .unavailable, rfl⟩, hdb, huuid, hobjects⟩
  | external history hc hr =>
    exact ⟨_, ⟨false, _, .external history hc hr, rfl⟩, hdb, huuid, hobjects⟩
  | put => exact ⟨_, ⟨false, _, .put, rfl⟩, hdb, huuid, by simp [World.note, hobjects]⟩
  | get hget =>
    rw [hobjects] at hget
    exact ⟨_, ⟨false, _, .get hget, rfl⟩, hdb, huuid, hobjects⟩
  | delete => exact ⟨_, ⟨false, _, .delete, rfl⟩, hdb, huuid, by simp [World.note, hobjects]⟩
  | putUnacknowledged =>
    exact ⟨_, ⟨false, _, .putUnacknowledged, rfl⟩, hdb, huuid, by simp [World.note, hobjects]⟩
  | deleteUnacknowledged =>
    exact ⟨_, ⟨false, _, .deleteUnacknowledged, rfl⟩, hdb, huuid, by simp [World.note, hobjects]⟩
  | putFailed => exact ⟨_, ⟨false, _, .putFailed, rfl⟩, hdb, huuid, hobjects⟩
  | getFailed => exact ⟨_, ⟨false, _, .getFailed, rfl⟩, hdb, huuid, hobjects⟩
  | deleteFailed => exact ⟨_, ⟨false, _, .deleteFailed, rfl⟩, hdb, huuid, hobjects⟩
  | uuid4 =>
    rw [huuid]
    exact ⟨_, ⟨false, _, .uuid4, rfl⟩, hdb, rfl, hobjects⟩

lemma Mirrors.drift (h : Mirrors w v) (hd : environment.drift w w') :
    ∃ v', environment.drift v v' ∧ Mirrors w' v' := by
  obtain ⟨hdb, huuid, hobjects⟩ := h
  obtain ⟨now, history, hnow, rfl⟩ := hd
  rw [hdb] at hnow
  exact ⟨_, ⟨now, history, hnow, rfl⟩, by simp [hdb], huuid, hobjects⟩

/-- A client that reads draws an id, and changes nothing else that matters. -/
lemma Mirrors.read (h : Mirrors w v) (hdb : w'.db = w.db) (huuid : w'.uuid = w.uuid + 1)
    (hobjects : w'.objects = w.objects) :
    ∃ c r v', Client c ∧ environment.exec v .client c r v' ∧ Mirrors w' v' := by
  have hrun : (Query.getContext 0).run v.uuid v.db = .ok (v.db.contexts.get? 0, v.db) := rfl
  exact ⟨.query (.getContext 0), _, _, .getContext 0, ⟨true, _, .done hrun, rfl⟩, hdb.trans h.db,
    by rw [huuid, h.uuid]; rfl, hobjects.trans h.objects⟩

/-- A courteous call is a client's, or matters to nobody. -/
lemma Mirrors.courteous {a : Actor} {c : Call} {r : Except Exn c.Reply} (h : Mirrors w v)
    (hc : Courteous c) (he : environment.exec w a c r w') :
    Mirrors w' v ∨ ∃ c' r' v', Client c' ∧ environment.exec v .client c' r' v' ∧ Mirrors w' v' := by
  have hclient : Client c →
      ∃ c' r' v', Client c' ∧ environment.exec v .client c' r' v' ∧ Mirrors w' v' := by
    intro hclient
    obtain ⟨v', hv, hm⟩ := h.exec (b := .client) he
    exact ⟨_, _, v', hclient, hv, hm⟩
  have hfind : ∀ {q : Query} {r : Except Exn q.Reply},
      (∀ {v db}, q.run w.uuid w.db = .ok (v, db) → db = w.db) →
      environment.exec w a (.query q) r w' →
      Mirrors w' v ∨ ∃ c' r' v', Client c' ∧ environment.exec v .client c' r' v' ∧
        Mirrors w' v' := by
    intro q r hsame he
    rcases exec_query he with ⟨x, hrun, -, hw⟩ | ⟨e, -, rfl⟩
    · have hdb := hsame hrun
      rw [hw]
      exact .inr (h.read hdb rfl rfl)
    · exact .inl ⟨h.db, h.uuid, h.objects⟩
  cases c with
  | query q =>
    rcases hc with hc | ⟨messageId, rfl⟩ | ⟨contextId, messageId, rfl⟩
    · exact .inr (hclient hc)
    · exact hfind (fun hrun => by cases hrun; rfl) he
    · exact hfind (fun hrun => by cases hrun; rfl) he
  | pendingPut key text => exact .inr (hclient (.put key text))
  | pendingDelete key => exact .inr (hclient (.delete key))
  | pendingGet | listEvents | schedule | schedulePush =>
    obtain ⟨committed, w₁, hw, rfl⟩ := he
    cases hw with
    | external history hc hr => exact .inl ⟨h.db, h.uuid, h.objects⟩
    | _ => exact .inl ⟨h.db, h.uuid, h.objects⟩
  | uuid4 =>
    obtain ⟨committed, w₁, hw, rfl⟩ := he
    cases hw with
    | external history hc hr => cases hc
    | uuid4 => exact .inr (h.read rfl rfl rfl)
  | _ => exact hc.elim

namespace Serves

variable {s : Staff} {i : ℕ} {q : Query} {next : Except Exn q.Reply → Program Unit}

/-- **The same store.** Beside a state of the controller and its service stands a run the store was
proved against, with the same store. A program is one of that run's workers or polite. -/
theorem mirrored (hs : Serves s) : ∃ v knows, Knowing environment ⟨v, knows, s.started⟩ ∧
    Mirrors s.world v ∧ ∀ i p, s.thread i = some p →
      (∃ k, knows i = some k ∧ contract.Conforms p (fun _ _ => True) (fun _ => True) k) ∨
      Polite p := by
  obtain ⟨t, ht, hm, hspawned, hthreads⟩ := Crew.mirrored Mirrors
    (.inl ⟨⟨"", false, false⟩, 0, rfl⟩) Errand.job_or_polite ⟨rfl, rfl, rfl⟩ Mirrors.exec
    Mirrors.courteous Mirrors.drift hs
  obtain ⟨knows, hknows, hconf⟩ := Parties.simulates (fun p => conforms_job)
    (fun s hs i k c r w' _ _ hexec => (Knowing.coherent .environment hs).possible hexec) ht
  refine ⟨t.world, knows, hspawned ▸ hknows, hm, fun i p hp => ?_⟩
  rcases hthreads i p hp with hi | ⟨-, hpolite⟩
  · exact .inl (hconf i p hi)
  · exact .inr hpolite

lemma wellFormed (hs : Serves s) : s.world.db.WellFormed := by
  obtain ⟨v, knows, hv, hm, -⟩ := hs.mirrored
  rw [hm.db]
  exact (Knowing.coherent .environment hv).store

lemma tidy (hs : Serves s) : Tidy s.world.uuid s.world.db := by
  obtain ⟨v, knows, hv, hm, -⟩ := hs.mirrored
  rw [hm.db, hm.uuid]
  exact Knowing.tidy .environment hv

lemma possible (hs : Serves s) {a : Actor} {c : Call} {r : Except Exn c.Reply} {w' : World}
    (he : environment.exec s.world a c r w') : Known.possible c r := by
  obtain ⟨v, knows, hv, hm, -⟩ := hs.mirrored
  obtain ⟨v', he', -⟩ := hm.exec (b := a) he
  exact (Knowing.coherent .environment hv).possible he'

/-- A committed query is one of the moves the store was proved against. -/
lemma move (hs : Serves s) (hi : s.thread i = some (.call (.query q) next)) {x : q.Reply} {db' : Db}
    (hrun : q.run s.world.uuid s.world.db = .ok (x, db')) : s.world.db.Move q := by
  obtain ⟨v, knows, hv, hm, hthreads⟩ := hs.mirrored
  rcases hthreads i _ hi with ⟨k, hk, hallow, -⟩ | ⟨hcourteous, -⟩
  · rw [hm.db, hm.uuid] at hrun
    rw [hm.db]
    exact (Knowing.coherent .environment hv).move (a := .worker i) ⟨k, hk, hallow⟩ hrun
  · rcases hcourteous with hclient | ⟨messageId, rfl⟩ | ⟨contextId, messageId, rfl⟩
    · exact hclient.move
    · trivial
    · trivial

/-- Every call of the staff is one of the moves, or leaves the store's rows alone. -/
lemma core (hs : Serves s) {c : Call} {next : Except Exn c.Reply → Program Unit}
    {r : Except Exn c.Reply} {w' : World} (hi : s.thread i = some (.call c next))
    (hc : environment.exec s.world (.worker i) c r w') :
    ∃ q, CoreEffect s.world.uuid s.world.db w'.db q ∧ ClarificationEffect s.world.db w'.db q ∧
      s.world.db.Move q ∧ (c = .query q ∨ q = .getContext 0) := by
  rcases c.query_or with ⟨q, rfl⟩ | hother
  · rcases exec_query hc with ⟨v, hrun, -, -⟩ | ⟨e, -, rfl⟩
    · exact ⟨q, Query.run_effect hrun, Query.run_clarifications hrun, hs.move hi hrun, .inl rfl⟩
    · exact ⟨.getContext 0, .same rfl rfl, .same rfl, trivial, .inr rfl⟩
  · refine ⟨.getContext 0, ?_, ?_, trivial, .inr rfl⟩
    · rw [(exec_other hc hother).1]
      exact .same rfl rfl
    · rw [(exec_other hc hother).1]
      exact .same rfl

/-- What every move and the clock keep of the store holds in every state. -/
lemma keeps {P : Db → Prop} (init : P {})
    (hquery : ∀ {s i c next r w'}, Serves s → P s.world.db → s.thread i = some (.call c next) →
      environment.exec s.world (.worker i) c r w' → P w'.db)
    (hnow : ∀ {db : Db} {now}, P db → P { db with now := now }) (hs : Serves s) :
    P s.world.db := by
  induction hs with
  | init => exact init
  | step hs h ih =>
    cases h with
    | start | deliver | settle | drop | post => exact ih
    | call hi hc hquiet => exact hquery hs ih hi hc
    | send hi hc => exact hquery hs ih hi hc
    | drift hd =>
      obtain ⟨now, history, -, rfl⟩ := hd
      exact hnow ih

lemma orderly (hs : Serves s) : Orderly s.world.db := by
  refine hs.keeps ⟨fun h => (by cases h), fun h => (by cases h), fun h => (by cases h)⟩ ?_
    fun h => ⟨h.unique, h.answered, h.attempted⟩
  intro s i c next r w' hs h hi hc
  obtain ⟨q, -, heff, -, -⟩ := hs.core hi hc
  exact h.step heff

end Serves

/-! ### Scripts -/

/-- How the lines of a script are played, with the events the provider appends meanwhile. -/
def stage : Stage environment (Said × List (SessionId × Event))
    (Time × List (SessionId × Event)) where
  answer w a c said :=
    (w.answer said.2 c said.1).map fun (r, committed, w₁) => (r, w.note a c r committed w₁)
  answer_exec h := by
    obtain ⟨⟨r, committed, w₁⟩, hanswer, heq⟩ := Option.map_eq_some_iff.mp h
    cases heq
    exact ⟨_, _, World.answer_answers hanswer, rfl⟩
  tick w t :=
    if w.db.now ≤ t.1 then
      some { w with db := { w.db with now := t.1 }, history := append w.history t.2 }
    else none
  tick_drift h := by
    split at h
    · cases h
      exact ⟨_, _, ‹_›, rfl⟩
    · cases h

abbrev Rota := List (Duty Errand ContextId (Said × List (SessionId × Event))
  (Time × List (SessionId × Event)))

/-- A program's next calls, answered in turn. -/
def turns (i : ℕ) (answers : List Said) : Rota := answers.map fun said => .send i (said, [])

/-- The request of a first turn, or of one in context 1. -/
def turn (messageId : MessageId) (contextId : Option ContextId := none) : Errand :=
  .send (fun _ => codes "None")
    { messageId := some messageId, contextId, parts := [.text "hello"] } none none

end ManagedAgents.Controller
