import Mathlib.Data.List.Sort
import ManagedAgents.Controller.Rows

/-!
The push configurations of tasks and their delivery leases, from `push_repository.py`.

Each method is one transaction; an aborted one leaves nothing behind. Timestamps that nothing reads
are left out.
-/

namespace ManagedAgents.Push

open ManagedAgents.Lib
open ManagedAgents.Controller (ContextId TaskId ClaimId Time Text A2aState TaskRow)

abbrev ConfigId := Text
abbrev Url := Text
abbrev Fingerprint := Text

/-- A row of `cma_push_configs`. -/
structure PushConfig where
  taskId : TaskId
  configId : ConfigId
  url : Url
  lastDeliveredFingerprint : Option Fingerprint := none
  attemptCount : ℕ := 0
  nextAttemptAt : Option Time := none
  lastAttemptAt : Option Time := none
  deliveryClaimId : Option ClaimId := none
  deliveryLeaseExpiresAt : Option Time := none
  permanentFailureAt : Option Time := none
  deletedAt : Option Time := none
  deriving DecidableEq

def PushConfig.key (r : PushConfig) : TaskId × ConfigId := (r.taskId, r.configId)

structure Db where
  controller : Controller.Db := {}
  configs : Table PushConfig.key := .empty

inductive Exn
  | keyError | pushConfigConflict | taskNotFound | assertion
  | invalidParams (message : Text)
  | valueError (message : Text)
  | runtimeError (message : Text)
  /-- Any other exception, such as a lost connection. -/
  | other
  deriving DecidableEq

abbrev Tx (α : Type) := Db → Except Exn (α × Db)

/-- `UPDATE .. WHERE .. RETURNING`: the row under a key changes when it meets the condition. -/
def updateConfig (taskId : TaskId) (configId : ConfigId) (p : PushConfig → Bool)
    (f : PushConfig → PushConfig) (hf : ∀ r, (f r).key = r.key) : Tx Bool := fun db =>
  match db.configs.get? (taskId, configId) with
  | some row =>
    if p row then .ok (true, { db with configs := db.configs.modify (taskId, configId) f hf })
    else .ok (false, db)
  | none => .ok (false, db)

namespace PushConfig

def live (r : PushConfig) : Bool := r.deletedAt.isNone

/-- No claim is on the row, or its lease has expired. -/
def unclaimed (now : Time) (r : PushConfig) : Bool :=
  r.deliveryClaimId.isNone || r.deliveryLeaseExpiresAt.any (· ≤ now)

/-- The claim is on the row, and its lease has not expired. -/
def claimedBy (claimId : ClaimId) (now : Time) (r : PushConfig) : Bool :=
  r.deliveryClaimId == some claimId && r.deliveryLeaseExpiresAt.any (now < ·)

def due (now : Time) (r : PushConfig) : Bool := r.nextAttemptAt.all (· ≤ now)

/-- A wakeup may claim the row. -/
def claimable (now : Time) (r : PushConfig) : Bool :=
  r.live && r.permanentFailureAt.isNone && r.due now && r.unclaimed now

end PushConfig

/-- The task's row is kept as it is when it is there with the same url. -/
def create (taskId : TaskId) (configId : ConfigId) (url : Url) : Tx PushConfig := fun db =>
  match db.controller.tasks.get? taskId with
  | none => .error .keyError
  | some _ =>
    match db.configs.insert { taskId, configId, url } with
    | some configs => .ok ({ taskId, configId, url }, { db with configs })
    | none =>
      match db.configs.get? (taskId, configId) with
      | some row => if row.url = url ∧ row.live then .ok (row, db) else .error .pushConfigConflict
      | none => .error .assertion

def get (taskId : TaskId) (configId : ConfigId) : Tx (Option PushConfig) := fun db =>
  .ok ((db.configs.get? (taskId, configId)).filter (·.live), db)

/-- `ORDER BY task_id, config_id`. -/
def PushConfig.before (a b : PushConfig) : Prop :=
  a.taskId < b.taskId ∨ a.taskId = b.taskId ∧ a.configId ≤ b.configId

instance : DecidableRel PushConfig.before := fun a b =>
  inferInstanceAs
    (Decidable (a.taskId < b.taskId ∨ a.taskId = b.taskId ∧ a.configId ≤ b.configId))

/-- The rows a condition selects, each with its task. -/
def Db.joined (db : Db) (p : PushConfig → TaskRow → Bool) : List (PushConfig × TaskRow) :=
  (db.configs.rows.insertionSort PushConfig.before).filterMap fun r =>
    (db.controller.tasks.get? r.taskId).bind fun t => if p r t then some (r, t) else none

def listPermanentlyFailed : Tx (List (PushConfig × TaskRow)) := fun db =>
  .ok (db.joined fun r _ => r.live && r.permanentFailureAt.isSome, db)

def resetDelivery (taskId : TaskId) (configId : ConfigId) : Tx Bool := fun db =>
  updateConfig taskId configId (fun r => r.live && r.unclaimed db.controller.now)
    (fun r =>
      { r with
        permanentFailureAt := none
        attemptCount := 0
        nextAttemptAt := none
        deliveryClaimId := none
        deliveryLeaseExpiresAt := none }) (fun _ => rfl) db

def listConfigs (taskId : TaskId) (after : ConfigId) (limit : ℕ) : Tx (List PushConfig) := fun db =>
  .ok
    (((db.configs.select fun r => r.taskId == taskId && decide (after < r.configId) && r.live)
      |>.insertionSort PushConfig.before).take limit, db)

def delete (taskId : TaskId) (configId : ConfigId) : Tx Bool := fun db =>
  updateConfig taskId configId (·.live)
    (fun r => { r with deletedAt := some db.controller.now }) (fun _ => rfl) db

/-- The configurations a wakeup serves, with the states of their tasks. -/
def listContext (contextId : ContextId) : Tx (List (PushConfig × A2aState)) := fun db =>
  .ok
    ((db.joined fun r t => t.contextId == contextId && r.live && r.permanentFailureAt.isNone).map
      fun (r, t) => (r, t.a2aState), db)

def claim (taskId : TaskId) (configId : ConfigId) (leaseSeconds : ℕ) (claimId : ClaimId) :
    Tx (Option ClaimId) := fun db =>
  match updateConfig taskId configId (·.claimable db.controller.now)
    (fun r =>
      { r with
        deliveryClaimId := some claimId
        deliveryLeaseExpiresAt := some (db.controller.now + leaseSeconds) }) (fun _ => rfl) db with
  | .ok (updated, db) => .ok (if updated then some claimId else none, db)
  | .error e => .error e

def claimed (taskId : TaskId) (configId : ConfigId) (claimId : ClaimId) : Tx Bool := fun db =>
  .ok ((db.configs.get? (taskId, configId)).any fun r =>
    r.claimedBy claimId db.controller.now && r.live, db)

/-- What `finish` writes beside the end of the lease. -/
def PushConfig.finished (now : Time) (fingerprint : Option Fingerprint)
    (retrySeconds : Option ℕ) (permanent : Bool) (r : PushConfig) : PushConfig :=
  match fingerprint with
  | some fingerprint =>
    { r with
      lastDeliveredFingerprint := some fingerprint
      attemptCount := 0
      nextAttemptAt := none }
  | none =>
    if permanent then
      { r with
        attemptCount := r.attemptCount + 1
        permanentFailureAt := some now }
    else
      { r with
        attemptCount := r.attemptCount + 1
        nextAttemptAt := some (now + ((retrySeconds.filter (· ≠ 0)).getD 5)) }

def PushConfig.finish (now : Time) (fingerprint : Option Fingerprint) (retrySeconds : Option ℕ)
    (permanent : Bool) (r : PushConfig) : PushConfig :=
  { r.finished now fingerprint retrySeconds permanent with
    deliveryClaimId := none
    deliveryLeaseExpiresAt := none
    lastAttemptAt := some now }

lemma PushConfig.finish_key {now : Time} {fingerprint : Option Fingerprint}
    {retrySeconds : Option ℕ} {permanent : Bool} (r : PushConfig) :
    (r.finish now fingerprint retrySeconds permanent).key = r.key := by
  unfold finish finished
  split
  · rfl
  · split <;> rfl

def finish (taskId : TaskId) (configId : ConfigId) (claimId : ClaimId)
    (fingerprint : Option Fingerprint) (retrySeconds : Option ℕ) (permanent : Bool) : Tx Bool :=
  fun db =>
  updateConfig taskId configId (·.claimedBy claimId db.controller.now)
    (·.finish db.controller.now fingerprint retrySeconds permanent) PushConfig.finish_key db

/-- A claim is given up, expired or not. -/
def release (taskId : TaskId) (configId : ConfigId) (claimId : ClaimId) : Tx Unit := fun db =>
  match updateConfig taskId configId (·.deliveryClaimId == some claimId)
    (fun r => { r with deliveryClaimId := none, deliveryLeaseExpiresAt := none })
    (fun _ => rfl) db with
  | .ok (_, db) => .ok ((), db)
  | .error e => .error e

/-- `get_task` of `runtime_repository.py`. -/
def getTask (taskId : TaskId) : Tx (Option TaskRow) := fun db =>
  .ok (db.controller.tasks.get? taskId, db)

/-! ### As queries -/

inductive Query
  | create (taskId : TaskId) (configId : ConfigId) (url : Url)
  | get (taskId : TaskId) (configId : ConfigId)
  | listPermanentlyFailed
  | resetDelivery (taskId : TaskId) (configId : ConfigId)
  | listConfigs (taskId : TaskId) (after : ConfigId) (limit : ℕ)
  | delete (taskId : TaskId) (configId : ConfigId)
  | listContext (contextId : ContextId)
  | claim (taskId : TaskId) (configId : ConfigId) (leaseSeconds : ℕ)
  | claimed (taskId : TaskId) (configId : ConfigId) (claimId : ClaimId)
  | finish (taskId : TaskId) (configId : ConfigId) (claimId : ClaimId)
      (fingerprint : Option Fingerprint) (retrySeconds : Option ℕ) (permanent : Bool)
  | release (taskId : TaskId) (configId : ConfigId) (claimId : ClaimId)
  | getTask (taskId : TaskId)
  deriving DecidableEq

namespace Query

def Reply : Query → Type
  | create _ _ _ => PushConfig
  | get _ _ => Option PushConfig
  | listPermanentlyFailed => List (PushConfig × TaskRow)
  | resetDelivery _ _ => Bool
  | listConfigs _ _ _ => List PushConfig
  | delete _ _ => Bool
  | listContext _ => List (PushConfig × A2aState)
  | claim _ _ _ => Option ClaimId
  | claimed _ _ _ => Bool
  | finish _ _ _ _ _ _ => Bool
  | release _ _ _ => Unit
  | getTask _ => Option TaskRow

/-- The query as a transaction, with the id it draws. -/
def run (fresh : ClaimId) : (q : Query) → Tx q.Reply
  | create taskId configId url => Push.create taskId configId url
  | get taskId configId => Push.get taskId configId
  | listPermanentlyFailed => Push.listPermanentlyFailed
  | resetDelivery taskId configId => Push.resetDelivery taskId configId
  | listConfigs taskId after limit => Push.listConfigs taskId after limit
  | delete taskId configId => Push.delete taskId configId
  | listContext contextId => Push.listContext contextId
  | claim taskId configId leaseSeconds => Push.claim taskId configId leaseSeconds fresh
  | claimed taskId configId claimId => Push.claimed taskId configId claimId
  | finish taskId configId claimId fingerprint retrySeconds permanent =>
    Push.finish taskId configId claimId fingerprint retrySeconds permanent
  | release taskId configId claimId => Push.release taskId configId claimId
  | getTask taskId => Push.getTask taskId

end Query

end ManagedAgents.Push
