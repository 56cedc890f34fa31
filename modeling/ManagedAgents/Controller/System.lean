import ManagedAgents.Controller.Scheduler
import ManagedAgents.Lib.Chronicle

/-!
The controller as a system: scheduler workers and admin resolutions run interleaved, one call at
a time, over one store, while clients admit, cancel and answer.

Every query is one transaction. Its caller gets the value, or an exception although it was
committed, or an exception because it was not. Provider and policy answers are arbitrary; what an
honest provider may answer is a condition on runs. The world logs every call, newest first; the
log is a ghost no program reads.
-/

namespace ManagedAgents.Controller

open ManagedAgents.Lib

/-- One call as it was answered, with the store before and after it. -/
structure Entry where
  actor : Actor
  call : Call
  reply : Except Exn call.Reply
  committed : Bool
  before : Db
  after : Db

/-- What its program said and heard. -/
def Entry.said (e : Entry) : Prog.Exchange Call.Reply Exn := ⟨e.call, e.reply⟩

def Entry.deed (e : Entry) : Deed Call.Reply Exn Db := ⟨e.actor, e.said, e.before, e.after⟩

/-- The query an entry committed. -/
def Entry.transaction (e : Entry) : Option Query :=
  match e.call with
  | .query q => if e.committed then some q else none
  | _ => none

structure World where
  db : Db := {}
  /-- The next fresh id. -/
  uuid : ℕ := 0
  history : SessionId → List Event := fun _ => []
  objects : ObjectKey → Option Text := fun _ => none
  log : List Entry := []

/-- The exceptions that come from outside the controller. -/
def Exn.external : Exn → Bool
  | .definitiveProvider | .policy _ | .timeout | .other => true
  | _ => false

/-- The calls that go to the provider, the policy engine, a queue or the clock. -/
def Call.external : Call → Bool
  | findSession _ _ | createSession _ _ _ _ | listEvents _ | sendMessage _ _ _
  | confirmTool _ _ _ _ _ | sendCustomToolResult _ _ _ _ _ | interrupt _ | policyExchange _ _
  | schedule _ _ | schedulePush _ | clock => true
  | _ => false

lemma Call.query_or (c : Call) : (∃ q, c = .query q) ∨ ∀ q, c ≠ .query q := by
  cases c with
  | query q => exact .inl ⟨q, rfl⟩
  | _ => exact .inr fun q h => by cases h

/-- `w` answers the call with `r` and becomes the second world, `true` when a transaction was
committed. -/
inductive Answers (w : World) : (c : Call) → Except Exn c.Reply → Bool → World → Prop
  | done {q v db} (h : q.run w.uuid w.db = .ok (v, db)) :
    Answers w (.query q) (.ok v) true { w with db := db, uuid := w.uuid + 1 }
  | unacknowledged {q v db} (h : q.run w.uuid w.db = .ok (v, db)) :
    Answers w (.query q) (.error .other) true { w with db := db, uuid := w.uuid + 1 }
  | refused {q e} (h : q.run w.uuid w.db = .error e) : Answers w (.query q) (.error e) false w
  | unavailable {q} : Answers w (.query q) (.error .other) false w
  | external {c r} (history : SessionId → List Event) (hc : c.external = true)
    (hr : ∀ e, r = .error e → e.external = true) :
    Answers w c r false { w with history := history }
  | put {key text} : Answers w (.pendingPut key text) (.ok ()) false
    { w with objects := Function.update w.objects key (some text) }
  | get {key text} (h : w.objects key = some text) :
    Answers w (.pendingGet key) (.ok text) false w
  | delete {key} : Answers w (.pendingDelete key) (.ok ()) false
    { w with objects := Function.update w.objects key none }
  | putUnacknowledged {key text} : Answers w (.pendingPut key text) (.error .other) false
    { w with objects := Function.update w.objects key (some text) }
  | deleteUnacknowledged {key} : Answers w (.pendingDelete key) (.error .other) false
    { w with objects := Function.update w.objects key none }
  | putFailed {key text} : Answers w (.pendingPut key text) (.error .other) false w
  | getFailed {key} : Answers w (.pendingGet key) (.error .other) false w
  | deleteFailed {key} : Answers w (.pendingDelete key) (.error .other) false w
  | uuid4 : Answers w .uuid4 (.ok w.uuid) false { w with uuid := w.uuid + 1 }

/-- The world with a call noted. -/
def World.note (w : World) (a : Actor) (c : Call) (r : Except Exn c.Reply) (committed : Bool)
    (w' : World) : World :=
  { w' with log := ⟨a, c, r, committed, w.db, w'.db⟩ :: w.log }

/-- Calls are answered and logged; in between the clock moves on and sessions change. -/
def environment : Environment Call Call.Reply Exn World where
  exec w a c r w' := ∃ committed w₁, Answers w c r committed w₁ ∧ w' = w.note a c r committed w₁
  drift w w' := ∃ now history, w.db.now ≤ now ∧
    w' = { w with db := { w.db with now := now }, history := history }

/-- How a query ends: committed, with its value or a lost reply, or not at all. -/
lemma exec_query {w w' : World} {a : Actor} {q : Query} {r : Except Exn q.Reply}
    (h : environment.exec w a (.query q) r w') :
    (∃ v, q.run w.uuid w.db = .ok (v, w'.db) ∧ (r = .ok v ∨ r = .error .other) ∧
      w' = { w with
        db := w'.db
        uuid := w.uuid + 1
        log := ⟨a, .query q, r, true, w.db, w'.db⟩ :: w.log }) ∨
    ∃ e, r = .error e ∧ w' = { w with log := ⟨a, .query q, r, false, w.db, w.db⟩ :: w.log } := by
  obtain ⟨committed, w₁, hw, rfl⟩ := h
  cases hw with
  | done h => exact .inl ⟨_, h, .inl rfl, rfl⟩
  | unacknowledged h => exact .inl ⟨_, h, .inr rfl, rfl⟩
  | refused h => exact .inr ⟨_, rfl, rfl⟩
  | unavailable => exact .inr ⟨_, rfl, rfl⟩
  | external history hc => cases hc

/-- Any other call leaves the store alone. -/
lemma exec_other {w w' : World} {a : Actor} {c : Call} {r : Except Exn c.Reply}
    (h : environment.exec w a c r w') (hc : ∀ q, c ≠ .query q) :
    w'.db = w.db ∧ w.uuid ≤ w'.uuid ∧ w'.log = ⟨a, c, r, false, w.db, w.db⟩ :: w.log := by
  obtain ⟨committed, w₁, hw, rfl⟩ := h
  cases hw with
  | done h => exact absurd rfl (hc _)
  | unacknowledged h => exact absurd rfl (hc _)
  | refused h => exact absurd rfl (hc _)
  | unavailable => exact absurd rfl (hc _)
  | uuid4 => exact ⟨rfl, Nat.le_succ _, rfl⟩
  | _ => exact ⟨rfl, Nat.le_refl _, rfl⟩

/-- Every call is noted. -/
lemma exec_noted {w w' : World} {a : Actor} {c : Call} {r : Except Exn c.Reply}
    (h : environment.exec w a c r w') :
    ∃ committed, w'.log = ⟨a, c, r, committed, w.db, w'.db⟩ :: w.log := by
  obtain ⟨committed, w₁, -, rfl⟩ := h
  exact ⟨committed, rfl⟩

/-- An acknowledged query was committed with that value. -/
lemma exec_ok {w w' : World} {a : Actor} {q : Query} {v : q.Reply}
    (h : environment.exec w a (.query q) (.ok v) w') :
    q.run w.uuid w.db = .ok (v, w'.db) := by
  rcases exec_query h with ⟨v', hrun, hr, -⟩ | ⟨e, hr, -⟩
  · rcases hr with hr | hr <;> cases hr
    exact hrun
  · cases hr

/-- The programs that are started: a wakeup's reconciliation and an admin's resolution. -/
def Job (p : Program Unit) : Prop :=
  (∃ cfg contextId, p = runOnce cfg contextId) ∨
  ∃ cfg taskId resolution verified, p = resolve cfg taskId resolution verified

/-- The calls clients cause directly, their inputs' storage included. -/
inductive Client : Call → Prop
  | put (key text) : Client (.pendingPut key text)
  | delete (key) : Client (.pendingDelete key)
  | admitTurn (a) : Client (.query (.admitTurn a))
  | cancelTask (taskId) : Client (.query (.cancelTask taskId))
  | recordHumanRuling (requestId taskId ruling) :
    Client (.query (.recordHumanRuling requestId taskId ruling))
  | decideClarification (requestId taskId key) :
    Client (.query (.decideClarificationRequest requestId taskId key))
  | getContext (contextId) : Client (.query (.getContext contextId))
  | getTask (taskId) : Client (.query (.getTask taskId))
  | listInputRequests (taskId) : Client (.query (.listInputRequests taskId))
  | getInputRequest (requestId taskId) : Client (.query (.getInputRequest requestId taskId))

abbrev System := Pool Call Call.Reply Exn World

/-- The states the controller reaches from an empty store. -/
abbrev Reachable : System → Prop := Pool.Reachable environment Job Client {}

/-- The states it reaches by calls and drifts that meet a condition. -/
abbrev ReachableIf (okCall : World → (c : Call) → Except Exn c.Reply → World → Prop)
    (okDrift : World → World → Prop) : System → Prop :=
  Pool.Reachable (environment.restrict okCall okDrift) Job Client {}

lemma ReachableIf.reachable {okCall okDrift} {s : System} (h : ReachableIf okCall okDrift s) :
    Reachable s :=
  Pool.Reachable.mono (E := environment.restrict okCall okDrift)
    (fun _ _ _ _ _ h => h.1) (fun _ _ h => h.1) h

end ManagedAgents.Controller
