import ManagedAgents.Lib.Lease
import ManagedAgents.Lib.Pair
import ManagedAgents.Threads.Conduct

/-!
The ingress of Slack's events, from `slack_a2a_repository.py`: an event is claimed, and completed or
failed under its claim.

Each method is one transaction. A claim whose lease has expired stays until the event is claimed
again, and may still complete it until then.
-/

namespace ManagedAgents.Threads.Ingress

open ManagedAgents.Lib
open ManagedAgents.Controller (TaskId Time)

inductive Status
  | received | sending | sent | failed
  deriving DecidableEq

/-- A row of `surface_ingress_events`. -/
structure Event where
  surface : String
  externalEventId : String
  status : Status := .received
  threadId : Option ThreadId := none
  taskId : Option TaskId := none
  attempts : ℕ := 0
  claimId : Option IngressToken := none
  leaseExpiresAt : Option Time := none
  lastError : Option Exn := none

namespace Event

def key (r : Event) : String × String := (r.surface, r.externalEventId)

/-- The row an event is received with. -/
def received (event : String × String) : Event := { surface := event.1, externalEventId := event.2 }

/-- Nobody has claimed the event, its handler failed, or the lease has expired. -/
def claimable (now : Time) (r : Event) : Bool :=
  r.status = .received || r.status = .failed ||
    (r.status = .sending && r.leaseExpiresAt.any (· ≤ now))

def claim (token : IngressToken) (leaseSeconds : ℕ) (now : Time) (r : Event) : Event :=
  { r with
    status := .sending
    claimId := some token
    leaseExpiresAt := some (now + leaseSeconds)
    attempts := r.attempts + 1 }

lemma claim_key {token : IngressToken} {leaseSeconds : ℕ} {now : Time} (r : Event) :
    (r.claim token leaseSeconds now).key = r.key := rfl

def complete (threadId : Option ThreadId) (taskId : Option TaskId) (r : Event) : Event :=
  { r with
    status := .sent
    threadId
    taskId
    claimId := none
    leaseExpiresAt := none
    lastError := none }

lemma complete_key {threadId : Option ThreadId} {taskId : Option TaskId} (r : Event) :
    (r.complete threadId taskId).key = r.key := rfl

def fail (error : Exn) (r : Event) : Event :=
  { r with
    status := .failed
    claimId := none
    leaseExpiresAt := none
    lastError := some error }

lemma fail_key {token : IngressToken} {error : Exn} (r : Event) :
    (if r.claimId = some token then r.fail error else r).key = r.key := by
  split <;> rfl

end Event

structure Db where
  events : Table Event.key := .empty
  now : Time := 0

/-- The default lease of a claim. -/
def leaseSeconds : ℕ := 60

section

variable (fresh : ℕ) (surface eventId : String)

/-- `INSERT .. ON CONFLICT DO NOTHING`. -/
def receive (db : Db) : Table Event.key :=
  (db.events.insert (.received (surface, eventId))).getD db.events

/-- `claim_ingress`. -/
def claimIngress (db : Db) : IngressClaim × Db :=
  let events := receive surface eventId db
  match events.get? (surface, eventId) with
  | some row =>
    if row.claimable db.now then
      (.acquired fresh,
        { db with
          events := events.modify (surface, eventId) (·.claim fresh leaseSeconds db.now)
            Event.claim_key })
    else if row.status = .sent then (.completed, { db with events })
    else (.busy, { db with events })
  | none => (.busy, { db with events })

/-- `complete_ingress`. -/
def completeIngress (token : IngressToken) (threadId : Option ThreadId) (taskId : Option TaskId)
    (db : Db) : Except Exn (Unit × Db) :=
  match db.events.get? (surface, eventId) with
  | some row =>
    if row.claimId = some token then
      .ok ((),
        { db with
          events := db.events.modify (surface, eventId) (·.complete threadId taskId)
            Event.complete_key })
    else .error .runtimeError
  | none => .error .runtimeError

/-- `fail_ingress`. -/
def failIngress (token : IngressToken) (error : Exn) (db : Db) : Unit × Db :=
  ((),
    { db with
      events := db.events.modify (surface, eventId)
        (fun r => if r.claimId = some token then r.fail error else r) Event.fail_key })

end

/-- The transaction of a call, if it is one of the ingress. -/
def run (fresh : ℕ) : (c : Call) → Db → Option (Except Exn (c.Reply × Db))
  | .claimIngress surface eventId, db => some (.ok (claimIngress fresh surface eventId db))
  | .completeIngress surface eventId token threadId taskId, db =>
    some (completeIngress surface eventId token threadId taskId db)
  | .failIngress surface eventId token error, db =>
    some (.ok (failIngress surface eventId token error db))
  | _, _ => none

/-! ### What each method does to an event -/

/-- What a method makes of one event's row. -/
inductive EventChange (c : Call) (fresh : ℕ) (now : Time) (key : String × String) :
    Option Event → Option Event → Prop
  | same {o} : EventChange c fresh now key o o
  | claimed {o r} (hc : c = .claimIngress key.1 key.2) (ho : r = o.getD (.received key))
    (hfree : r.claimable now = true) :
    EventChange c fresh now key o (some (r.claim fresh leaseSeconds now))
  | completed {r token threadId taskId}
    (hc : c = .completeIngress key.1 key.2 token threadId taskId)
    (hheld : r.claimId = some token) :
    EventChange c fresh now key (some r) (some (r.complete threadId taskId))
  | failed {r token error} (hc : c = .failIngress key.1 key.2 token error)
    (hheld : r.claimId = some token) :
    EventChange c fresh now key (some r) (some (r.fail error))

variable {c : Call} {fresh : ℕ} {db db' : Db} {key event : String × String} {row : Event}

/-- What a claim of an event says, and what it leaves. -/
inductive Claiming (fresh : ℕ) (event : String × String) (db db' : Db) : IngressClaim → Prop
  | acquired {r} (hr : r = (db.events.get? event).getD (.received event))
    (hfree : r.claimable db.now = true)
    (hafter : ∀ key, db'.events.get? key =
      if key = event then some (r.claim fresh leaseSeconds db.now) else db.events.get? key) :
    Claiming fresh event db db' (.acquired fresh)
  | completed {r} (hr : db.events.get? event = some r) (hsent : r.status = .sent)
    (hsame : ∀ key, db'.events.get? key = db.events.get? key) :
    Claiming fresh event db db' .completed
  | busy (hsame : ∀ key, db'.events.get? key = db.events.get? key) :
    Claiming fresh event db db' .busy

lemma get?_receive : (receive event.1 event.2 db).get? key =
    if key = event then some ((db.events.get? event).getD (.received event))
    else db.events.get? key := by
  unfold receive
  cases hinsert : db.events.insert (.received event) with
  | none =>
    rw [Option.getD_none]
    split
    · rename_i heq
      subst heq
      cases hrow : db.events.get? key with
      | none =>
        obtain ⟨events, hevents, -⟩ := Table.insert_free (r := Event.received key) hrow
        rw [hinsert] at hevents
        cases hevents
      | some row => rfl
    · rfl
  | some events =>
    have hfree : db.events.get? event = none := Table.insert_fresh hinsert
    rw [Option.getD_some, Table.get?_insert hinsert, hfree]
    rfl

lemma claimIngress_claiming {v : IngressClaim}
    (h : claimIngress fresh event.1 event.2 db = (v, db')) :
    Claiming fresh event db db' v ∧ db'.now = db.now := by
  unfold claimIngress at h
  simp only [get?_receive, if_pos] at h
  generalize hrow : (db.events.get? event).getD (.received event) = row at h
  split at h
  · rename_i hfree
    cases h
    refine ⟨.acquired hrow.symm hfree fun key => ?_, rfl⟩
    dsimp only
    rw [Table.get?_modify, get?_receive]
    split
    · rw [hrow]
      rfl
    · rfl
  · rename_i hbusy
    -- an event that is there already is left as it is
    have hthere : db.events.get? event = some row := by
      cases hget : db.events.get? event with
      | none =>
        rw [hget] at hrow
        cases hrow
        exact absurd rfl hbusy
      | some r =>
        rw [hget] at hrow
        exact congrArg some hrow
    have hsame : ∀ key, (receive event.1 event.2 db).get? key = db.events.get? key := by
      intro key
      rw [get?_receive]
      split
      · rename_i heq
        rw [heq, hthere]
        rfl
      · rfl
    split at h
    · cases h
      exact ⟨.completed hthere ‹_› hsame, rfl⟩
    · cases h
      exact ⟨.busy hsame, rfl⟩

/-- One event's row changes. -/
lemma change_modify {f : Event → Event} (hf : ∀ r, (f r).key = r.key)
    (h : ∀ r, db.events.get? event = some r →
      EventChange c fresh db.now event (some r) (some (f r))) :
    EventChange c fresh db.now key (db.events.get? key)
      ((db.events.modify event f hf).get? key) := by
  rw [Table.get?_modify]
  split
  · rename_i heq
    subst heq
    cases hr : db.events.get? key with
    | none => exact .same
    | some r => exact h r hr
  · exact .same

/-- **Every method's effect.** -/
theorem run_effect {v : c.Reply} (h : run fresh c db = some (.ok (v, db'))) :
    (∀ key, EventChange c fresh db.now key (db.events.get? key) (db'.events.get? key)) ∧
      db'.now = db.now := by
  cases c with
  | claimIngress surface eventId =>
    have hclaim : claimIngress fresh (surface, eventId).1 (surface, eventId).2 db = (v, db') :=
      Except.ok.inj (Option.some.inj h)
    obtain ⟨hclaiming, hnow⟩ := claimIngress_claiming hclaim
    refine ⟨fun key => ?_, hnow⟩
    cases hclaiming with
    | acquired hr hfree hafter =>
      rw [hafter]
      split
      · rename_i heq
        subst heq
        exact .claimed rfl hr hfree
      · exact .same
    | completed hr hsent hsame =>
      rw [hsame]
      exact .same
    | busy hsame =>
      rw [hsame]
      exact .same
  | completeIngress surface eventId token threadId taskId =>
    simp only [run, Option.some.injEq, completeIngress] at h
    split at h
    · rename_i row hrow
      split at h
      · rename_i hheld
        cases h
        refine ⟨fun key => change_modify Event.complete_key fun r hr => ?_, rfl⟩
        rw [hrow] at hr
        cases hr
        exact .completed rfl hheld
      · cases h
    · cases h
  | failIngress surface eventId token error =>
    cases h
    refine ⟨fun key => change_modify Event.fail_key fun r hr => ?_, rfl⟩
    split
    · exact .failed rfl ‹_›
    · exact .same
  | _ => cases h

/-! ### The desk -/

/-- The table, with the next fresh token. -/
structure Store where
  db : Db := {}
  uuid : ℕ := 0

/-- A call of the ingress is answered like this and leaves this store; what is not of the ingress
is answered by others. -/
inductive Answers (st : Store) : (c : Call) → Except Exn c.Reply → Store → Prop
  | done {c : Call} {v db} (h : run st.uuid c st.db = some (.ok (v, db))) :
    Answers st c (.ok v) { db, uuid := st.uuid + 1 }
  | unacknowledged {c : Call} {v db} (h : run st.uuid c st.db = some (.ok (v, db))) :
    Answers st c (.error .other) { db, uuid := st.uuid + 1 }
  | refused {c : Call} {e} (h : run st.uuid c st.db = some (.error e)) : Answers st c (.error e) st
  | unavailable {c : Call} : Answers st c (.error .other) st
  | external {c : Call} {r} (h : run st.uuid c st.db = none) : Answers st c r st

/-- Meanwhile time passes. -/
def Drifts (st st' : Store) : Prop :=
  ∃ now, st.db.now ≤ now ∧ st' = { st with db := { st.db with now } }

abbrev Entry := Deed Call.Reply Exn Store

abbrev Desk := Crew Call Call.Reply Exn (World × Ledger Call.Reply Exn Store) Errand Unit

/-- The threads' database and the ingress. -/
def environment : Environment Call Call.Reply Exn (World × Ledger Call.Reply Exn Store) :=
  Threads.environment.pair (.logged Answers Drifts)

/-- The states the handlers reach from an empty database, in which nothing has come in. -/
abbrev Reachable : Desk → Prop := Crew.Reachable works environment ({}, { state := {} })

variable {st st' : Store}

/-- What an answer makes of the events. -/
lemma Answers.effect {r : Except Exn c.Reply} (h : Answers st c r st') :
    st.uuid ≤ st'.uuid ∧ ∀ key, EventChange c st.uuid st.db.now key
      (st.db.events.get? key) (st'.db.events.get? key) := by
  cases h with
  | done hrun | unacknowledged hrun => exact ⟨Nat.le_succ _, (run_effect hrun).1⟩
  | refused | unavailable | external => exact ⟨Nat.le_refl _, fun _ => .same⟩

/-! ### The claim of an event -/

/-- Whoever claimed the event last holds it; the row is what is guarded. -/
def lease (event : String × String) : Lease Store IngressToken (Option Event) where
  Holds st token := ∃ row, st.db.events.get? event = some row ∧ row.claimId = some token
  guarded st := st.db.events.get? event
  issued st token := token < st.uuid

lemma Answers.spans {r : Except Exn c.Reply} (h : Answers st c r st') :
    (lease event).Spans st st' := by
  obtain ⟨huuid, hchange⟩ := h.effect
  refine Lease.Step.spans ⟨?_, fun t ht => Nat.lt_of_lt_of_le ht huuid⟩
  have hchange := hchange event
  generalize hrow : st.db.events.get? event = row at hchange
  generalize hrow' : st'.db.events.get? event = row' at hchange
  have hholds : ∀ {t}, (lease event).Holds st' t → ∃ r, row' = some r ∧ r.claimId = some t := by
    rintro t ⟨r, hr, hheld⟩
    exact ⟨r, hrow'.symm.trans hr, hheld⟩
  cases hchange with
  | same =>
    refine .kept (fun t ht => ?_) (hrow'.trans hrow.symm)
    obtain ⟨r, hr, hheld⟩ := hholds ht
    exact ⟨r, hrow.trans hr, hheld⟩
  | claimed hc ho hfree =>
    refine .granted (Nat.lt_irrefl _) fun t ht => ?_
    obtain ⟨r, hr, hheld⟩ := hholds ht
    cases hr
    exact (Option.some.inj hheld).symm
  | completed | failed =>
    refine .ended fun t ht => ?_
    obtain ⟨r, hr, hheld⟩ := hholds ht
    cases hr
    cases hheld

lemma Drifts.spans (h : Drifts st st') : (lease event).Spans st st' := by
  obtain ⟨now, -, rfl⟩ := h
  exact Lease.Step.spans ⟨.kept (fun _ ht => ht) rfl, fun _ ht => ht⟩

end ManagedAgents.Threads.Ingress
