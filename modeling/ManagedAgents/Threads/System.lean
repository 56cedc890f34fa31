import ManagedAgents.Lib.Chronicle
import ManagedAgents.Threads.AgentInput

/-!
Slack's handlers as a system: any number of them run interleaved, one call at a time, over one
database, in which others write whatever they like.

Every query is one transaction. Its caller gets the value, or an exception although it was
committed, or an exception because it was not. What is outside the database answers what it likes.
The world logs every call, newest first; the log is a ghost no program reads.
-/

namespace ManagedAgents.Threads

open ManagedAgents.Lib

abbrev Entry := Deed Call.Reply Exn Db

structure World where
  db : Db := {}
  /-- The next fresh id. -/
  uuid : ℕ := 0
  log : List Entry := []

/-- `w` answers the call with `r` and becomes the second world. -/
inductive Answers (w : World) : (c : Call) → Except Exn c.Reply → World → Prop
  | done {q v db} (h : q.run w.uuid w.db = .ok (v, db)) :
    Answers w (.query q) (.ok v) { w with db := db, uuid := w.uuid + 1 }
  | unacknowledged {q v db} (h : q.run w.uuid w.db = .ok (v, db)) :
    Answers w (.query q) (.error .other) { w with db := db, uuid := w.uuid + 1 }
  | refused {q e} (h : q.run w.uuid w.db = .error e) : Answers w (.query q) (.error e) w
  | unavailable {q} : Answers w (.query q) (.error .other) w
  | external {c r} (hc : ∀ q, c ≠ .query q) : Answers w c r w

/-- The world with a call noted. -/
def World.note (w : World) (a : Actor) (c : Call) (r : Except Exn c.Reply) (w' : World) : World :=
  { w' with log := ⟨a, ⟨c, r⟩, w.db, w'.db⟩ :: w.log }

/-- Calls are answered and logged; in between the clock moves on, and others commit transactions. -/
def environment : Environment Call Call.Reply Exn World where
  exec w a c r w' := ∃ w₁, Answers w c r w₁ ∧ w' = w.note a c r w₁
  drift w w' :=
    (∃ now, w.db.now ≤ now ∧ w' = { w with db := { w.db with now := now } }) ∨
    ∃ q v db, Query.run w.uuid q w.db = .ok (v, db) ∧
      w' = { w with db := db, uuid := w.uuid + 1 }

/-- What a handler is started for. -/
inductive Errand
  | message (config : Config) (detail : SlackMessageReceived)
  | stop (config : Config) (detail : SlackThreadStopRequested) (patience : ℕ)
  | toolConfirmation (config : Config) (detail : SlackToolConfirmationRequested)

namespace Errand

def program : Errand → Program Unit
  | message config detail => AgentInput.message config detail
  | stop config detail patience => AgentInput.stop config detail patience
  | toolConfirmation config detail => AgentInput.toolConfirmation config detail

/-- The team of the event. -/
def teamId : Errand → String
  | message _ detail => detail.teamId
  | stop _ detail _ => detail.teamId
  | toolConfirmation _ detail => detail.teamId

/-- The user of the event. -/
def userId : Errand → String
  | message _ detail => detail.userId
  | stop _ detail _ => detail.userId
  | toolConfirmation _ detail => detail.userId

end Errand

/-- Events are delivered any number of times. -/
def works : Works Call Call.Reply Exn Errand Unit := ⟨Errand.program, fun _ => none, fun _ => none⟩

abbrev Handlers := Crew Call Call.Reply Exn World Errand Unit

/-- The states the handlers reach from an empty database. -/
abbrev Reachable : Handlers → Prop := Crew.Reachable works environment {}

end ManagedAgents.Threads
