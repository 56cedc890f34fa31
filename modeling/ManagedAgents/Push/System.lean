import ManagedAgents.Push.Dispatcher
import ManagedAgents.Push.Effects

/-!
The push subsystem as a system: wakeups of an at-least-once queue, clients that create and delete
configurations and admins that retry them run interleaved over one store.

A task is shown in any state, a callback answers anything or fails, replies can be lost and programs
can stop anywhere. Meanwhile the controller's own rows change and its clock goes on.
-/

namespace ManagedAgents.Push

open ManagedAgents.Lib
open ManagedAgents.Controller (ContextId TaskId ClaimId Time Text A2aState TaskRow TaskObject)

/-- The call is answered like this and leaves these stores. -/
inductive Answers (st : Stores) : (c : Call) → Except Exn c.Reply → Stores → Prop
  | done {q v db} (h : q.run st.uuid st.db = .ok (v, db)) :
    Answers st (.query q) (.ok v) { db, uuid := st.uuid + 1 }
  | unacknowledged {q v db} (h : q.run st.uuid st.db = .ok (v, db)) :
    Answers st (.query q) (.error .other) { db, uuid := st.uuid + 1 }
  | refused {q e} (h : q.run st.uuid st.db = .error e) : Answers st (.query q) (.error e) st
  | unavailable {q} : Answers st (.query q) (.error .other) st
  | external {c r} (hquery : ∀ q, c ≠ .query q) : Answers st c r st

/-- What happens in between. -/
inductive Drifts (st : Stores) : Stores → Prop
  | controls {controller : Controller.Db} (h : st.db.controller.now ≤ controller.now) :
    Drifts st { st with db := { st.db with controller } }

/-- What a program is started for. -/
inductive Errand
  | wakeup (contextId : ContextId)
  | create (request : ConfigRequest) (taskId : Option TaskId)
  | delete (taskId : TaskId) (configId : ConfigId)
  | retry (taskId : TaskId) (configId : ConfigId)

namespace Errand

def program (e : Deployment) : Errand → Program Unit
  | wakeup contextId => runContext e contextId
  | create request taskId => do
    let _ ← createConfig e request taskId
    pure ()
  | delete taskId configId => deleteConfig taskId configId
  | retry taskId configId => retryPush taskId configId

def record : Errand → Option ContextId
  | wakeup contextId => some contextId
  | _ => none

end Errand

def Call.posts : Call → Option ContextId
  | sendWakeup contextId _ _ => some contextId
  | _ => none

def works (e : Deployment) : Works Call Call.Reply Exn Errand ContextId :=
  ⟨Errand.program e, Errand.record, Call.posts⟩

abbrev Entry := Deed Call.Reply Exn Stores

abbrev Pushers := Crew Call Call.Reply Exn (Ledger Call.Reply Exn Stores) Errand ContextId

/-- The states the pushers reach from an empty table. -/
abbrev Reachable (e : Deployment) (controller : Controller.Db) : Pushers → Prop :=
  Crew.Reachable (works e) (.logged Answers Drifts) { state := { db := { controller } } }

/-! ### What a program may do -/

abbrev File := Dossier Errand Call.Reply Exn

abbrev Said := Prog.Exchange Call.Reply Exn

section

variable (taskId : TaskId) (configId : ConfigId) (claimId : ClaimId)

def granted : Said := ⟨.query (.claim taskId configId claimLease), .ok (some claimId)⟩

def read (row : PushConfig) : Said := ⟨.query (.get taskId configId), .ok (some row)⟩

def shown (task : TaskObject) : Said := ⟨.getTask taskId, .ok task⟩

def checked : Said := ⟨.query (.claimed taskId configId claimId), .ok true⟩

def posted (e : Deployment) (row : PushConfig) (task : TaskObject) (status : ℕ) : Said :=
  ⟨.post row.url (e.json task) (e.deliveryId taskId configId (e.fingerprint task)), .ok status⟩

/-- Under a claim the row was read, then a task that is not as it was delivered, and the claim was
checked again. -/
def Ready (e : Deployment) (d : File) (row : PushConfig) (task : TaskObject) : Prop :=
  d.Told [checked taskId configId claimId, shown taskId task, read taskId configId row,
    granted taskId configId claimId] ∧ row.lastDeliveredFingerprint ≠ some (e.fingerprint task)

/-- Then it was posted and the callback accepted it. -/
def Accepted (e : Deployment) (d : File) (row : PushConfig) (task : TaskObject) : Prop :=
  ∃ status, 200 ≤ status ∧ status < 300 ∧
    d.Told [posted taskId configId e row task status, checked taskId configId claimId,
      shown taskId task, read taskId configId row, granted taskId configId claimId] ∧
    row.lastDeliveredFingerprint ≠ some (e.fingerprint task)

end

/-- What is posted was made ready just before; what is recorded happened. -/
def allowed (e : Deployment) (d : File) : Call → Prop
  | .post url content deliveryId =>
    ∃ taskId configId claimId row task, Ready taskId configId claimId e d row task ∧
      d.said.head? = some (checked taskId configId claimId) ∧ url = row.url ∧
      content = e.json task ∧ deliveryId = e.deliveryId taskId configId (e.fingerprint task)
  | .query (.finish taskId configId claimId (some fingerprint) _ _) =>
    ∃ row task, Accepted taskId configId claimId e d row task ∧ fingerprint = e.fingerprint task
  | .query (.finish taskId configId claimId none retrySeconds permanent) =>
    ∃ row, d.Told [read taskId configId row, granted taskId configId claimId] ∧
      (retrySeconds = none ∨ retrySeconds = backoff[row.attemptCount]?) ∧
      permanent = retrySeconds.isNone
  | .query (.create _ _ url) => url = e.allowedUrl
  | _ => True

/-- A listing has each configuration once. -/
def possible : (c : Call) → Except Exn c.Reply → Prop
  | .query (.listContext _), .ok rows => (rows.map fun r => r.1.key).Nodup
  | _, _ => True

abbrev Follows {α : Type} (e : Deployment) (prog : Program α) (Q : α → File → Prop) (d : File) :
    Prop :=
  Lib.Follows possible (allowed e) prog Q d

lemma possible_of_exec {w w' : Ledger Call.Reply Exn Stores} {a : Actor} {c : Call}
    {r : Except Exn c.Reply} (h : (Environment.logged Answers Drifts).exec w a c r w') :
    possible c r := by
  obtain ⟨st, hanswer, -⟩ := h
  unfold possible
  split
  · rename_i contextId rows
    cases hanswer with
    | done hrun => exact listContext_nodup hrun
    | external hquery => exact absurd rfl (hquery _)
  · trivial

/-! ### What a delivery leaves behind -/

/-- The call reads the row of the configuration, or writes more of it than that a claim is over. -/
def Call.sees (key : TaskId × ConfigId) : Call → Bool
  | .query (.listContext _) => true
  | .query (.create taskId configId _) | .query (.get taskId configId)
  | .query (.resetDelivery taskId configId) | .query (.delete taskId configId)
  | .query (.claim taskId configId _) | .query (.claimed taskId configId _)
  | .query (.finish taskId configId _ _ _ _) => (taskId, configId) = key
  | _ => false

abbrev Unseen (key : TaskId × ConfigId) (c : Call) : Prop := c.sees key = false

/-- The configuration needs no further wakeup for what was last seen of it. -/
inductive Rests (e : Deployment) (d : File) (taskId : TaskId) (configId : ConfigId) : Prop
  | gone (h : d.Latest (Unseen (taskId, configId)) (.query (.get taskId configId)) none)
  | failed {row : PushConfig}
    (h : d.Latest (Unseen (taskId, configId)) (.query (.get taskId configId)) (some row))
    (hfailed : row.permanentFailureAt.isSome = true)
  | read {row : PushConfig} {task : TaskObject}
    (h : d.Latest (Unseen (taskId, configId)) (.query (.get taskId configId)) (some row))
    (hshown : d.Heard (.getTask taskId) task)
    (hsame : row.lastDeliveredFingerprint = some (e.fingerprint task))
  | listed {contextId} {rows : List (PushConfig × A2aState)} {row state} {task : TaskObject}
    (h : d.Latest (Unseen (taskId, configId)) (.query (.listContext contextId)) rows)
    (hrow : (row, state) ∈ rows) (htask : row.taskId = taskId) (hconfig : row.configId = configId)
    (hshown : d.Heard (.getTask taskId) task)
    (hsame : row.lastDeliveredFingerprint = some (e.fingerprint task))
  | delivered {claimId fingerprint} (h : d.Latest (Unseen (taskId, configId))
      (.query (.finish taskId configId claimId (some fingerprint) none false)) true)
  | exhausted {claimId} (h : d.Latest (Unseen (taskId, configId))
      (.query (.finish taskId configId claimId none none true)) true)

/-- It rests, or it needs another wakeup after the delay. -/
def Handled (e : Deployment) (d : File) (taskId : TaskId) (configId : ConfigId) : Option ℕ → Prop
  | none => Rests e d taskId configId
  | some delay => 1 ≤ delay ∧ delay ≤ 900

/-- A wakeup that is done has served each configuration it was listed, or asked for another. -/
def Served (e : Deployment) (d : File) (contextId : ContextId) : Prop :=
  ∃ rows : List (PushConfig × A2aState), d.Heard (.query (.listContext contextId)) rows ∧
    ((∀ row state, (row, state) ∈ rows → Rests e d row.taskId row.configId) ∨
      ∃ delay, 1 ≤ delay ∧ delay ≤ 900 ∧ d.Heard (.sendWakeup contextId "push-retry" delay) ())

section

variable {e : Deployment} {d d' : File} {taskId : TaskId} {configId : ConfigId} {claimId : ClaimId}
  {row : PushConfig} {task : TaskObject} {contextId : ContextId}

lemma Ready.took (h : Ready taskId configId claimId e d row task) :
    d.Told [read taskId configId row, granted taskId configId claimId] :=
  List.Sublist.trans (List.IsSuffix.sublist ⟨[_, _], rfl⟩) h.1

lemma Accepted.took (h : Accepted taskId configId claimId e d row task) :
    d.Told [read taskId configId row, granted taskId configId claimId] := by
  obtain ⟨status, -, -, htold, -⟩ := h
  exact List.Sublist.trans (List.IsSuffix.sublist ⟨[_, _, _], rfl⟩) htold

lemma Rests.since (h : Rests e d taskId configId)
    (hsince : d.Since (Unseen (taskId, configId)) d'.toTranscript) :
    Rests e d' taskId configId := by
  cases h with
  | gone h => exact .gone (h.since hsince)
  | failed h hfailed => exact .failed (h.since hsince) hfailed
  | read h hshown hsame => exact .read (h.since hsince) (hshown.mono hsince.le) hsame
  | listed h hrow htask hconfig hshown hsame =>
    exact .listed (h.since hsince) hrow htask hconfig (hshown.mono hsince.le) hsame
  | delivered h => exact .delivered (h.since hsince)
  | exhausted h => exact .exhausted (h.since hsince)

lemma Handled.since {o : Option ℕ} (h : Handled e d taskId configId o)
    (hsince : d.Since (Unseen (taskId, configId)) d'.toTranscript) :
    Handled e d' taskId configId o := by
  cases o with
  | none => exact Rests.since h hsince
  | some delay => exact h

end

end ManagedAgents.Push
