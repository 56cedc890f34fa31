import ManagedAgents.Controller.Rows
import ManagedAgents.Lib.Pool

/-!
The Slack projector of one task into one binding, from `slack_projector.py`, over its row of
`slack_task_projections`, from `slack_a2a_repository.py`.

Every statement on the row is one transaction, whose reply may be lost. The items of the other
table, Slack itself and the control plane's tasks are outside: what they answer is arbitrary, but
that a task which the control plane has shown as terminal stays as it is. The world logs every
call, newest first; the log is a ghost no program reads.
-/

namespace ManagedAgents.Slack

open ManagedAgents.Lib
open ManagedAgents.Controller (A2aState RequestId Time Text)

abbrev Token := ℕ
abbrev MessageTs := ℕ
abbrev EventKey := ℕ
abbrev UserId := ℕ

inductive ProjectionStatus
  | pending | streaming | completed | fallback
  deriving DecidableEq

/-- The row of one binding and task. -/
structure ProjectionRow where
  requestEventId : Option EventKey := none
  sourceMessageTs : Option MessageTs := none
  initiatorUserId : Option UserId := none
  status : ProjectionStatus := .pending
  slackMessageTs : Option MessageTs := none
  lastTaskState : Option A2aState := none
  attempts : ℕ := 0
  claimId : Option Token := none
  leaseExpiresAt : Option Time := none
  lastError : Option Text := none
  createdAt : Time := 0
  updatedAt : Time := 0
  deriving DecidableEq

/-- The states a task ends in. -/
def terminal : A2aState → Bool
  | .completed | .failed | .canceled | .rejected => true
  | _ => false

/-- The states `finish_stream` and `is_settled` take for settled. -/
def settled : A2aState → Bool
  | .submitted | .working => false
  | _ => true

/-! ### Statements on the row -/

/-- The claim's condition: nobody streams, or the stream's lease is over. -/
def ProjectionRow.claimable (r : ProjectionRow) (now : Time) : Bool :=
  r.status != .streaming || r.leaseExpiresAt.any (· ≤ now)

def streamLeaseSeconds : ℕ := 90

inductive Claim
  | acquired (token : Token) (row : ProjectionRow)
  | busy
  | completed

def ensureProjection (requestEventId : Option EventKey) (sourceMessageTs : Option MessageTs)
    (initiatorUserId : Option UserId) (now : Time) (row : Option ProjectionRow) :
    Option ProjectionRow :=
  match row with
  | none => some
    { requestEventId, sourceMessageTs, initiatorUserId, createdAt := now, updatedAt := now }
  | some r => some
    { r with
      requestEventId := r.requestEventId <|> requestEventId
      sourceMessageTs := r.sourceMessageTs <|> sourceMessageTs
      initiatorUserId := r.initiatorUserId <|> initiatorUserId }

def claimTaskStream (fresh : Token) (now : Time) (row : Option ProjectionRow) :
    Claim × Option ProjectionRow :=
  match row with
  | none => (.completed, none)
  | some r =>
    if r.claimable now then
      let r :=
        { r with
          status := .streaming
          claimId := some fresh
          leaseExpiresAt := some (now + streamLeaseSeconds)
          attempts := r.attempts + 1
          updatedAt := now }
      (.acquired fresh r, some r)
    else (.busy, some r)

def updateStreamMessage (token : Token) (messageTs : MessageTs) (now : Time)
    (row : Option ProjectionRow) : Option ProjectionRow :=
  row.map fun r =>
    if r.claimId == some token then { r with slackMessageTs := messageTs, updatedAt := now } else r

/-- `error[:1000] if error else None`. -/
def errorText (error : Option Text) : Option Text :=
  (error.filter (!·.isEmpty)).map fun e => String.ofList (e.toList.take 1000)

def finishStream (token : Token) (fallback : Bool) (state : Option A2aState)
    (error : Option Text) (now : Time) (row : Option ProjectionRow) : Option ProjectionRow :=
  row.map fun r =>
    if r.claimId == some token then
      { r with
        status := if fallback then .fallback else if state.any settled then .completed else .pending
        lastTaskState := state
        slackMessageTs := if !fallback && state.any settled then none else r.slackMessageTs
        lastError := errorText error
        claimId := none
        leaseExpiresAt := none
        updatedAt := now }
    else r

def markProjection (state : A2aState) (status : ProjectionStatus) (now : Time)
    (row : Option ProjectionRow) : Option ProjectionRow :=
  row.map fun r =>
    if r.claimable now then
      { r with
        lastTaskState := some state
        status := status
        slackMessageTs := if status == .completed then none else r.slackMessageTs
        updatedAt := now }
    else r

/-! ### Calls -/

inductive Item
  | agentMessage (messageId : ℕ)
  | humanInput (requestId : RequestId)

inductive ItemClaim
  | acquired (token : Token) | busy | completed

structure AgentMessage where
  messageId : ℕ
  text : Text

structure HumanRequest where
  requestId : RequestId
  toolApproval : Bool

/-- What the projector reads of a task. -/
structure Task where
  state : A2aState
  agentMessages : List AgentMessage := []
  requests : List HumanRequest := []

inductive Call
  | ensureProjection (requestEventId : Option EventKey) (sourceMessageTs : Option MessageTs)
      (initiatorUserId : Option UserId)
  | claimTaskStream
  | getTask
  | hasHumanInputReceipt
  | startStream
  | updateStreamMessage (token : Token) (messageTs : MessageTs)
  | claimItem (item : Item)
  | finishItem (item : Item) (token : Token) (messageTs : Option MessageTs) (error : Option Text)
  | humanInputMessages
  | closeHumanInput (requestId : RequestId)
  | postReply
  /-- Any write to Slack that returns nothing the projector uses. -/
  | slackWrite
  | markProjection (state : A2aState) (status : ProjectionStatus)
  | finishStream (token : Token) (fallback : Bool) (state : Option A2aState)
      (error : Option Text)
  | previewHint

@[reducible] def Call.Reply : Call → Type
  | claimTaskStream => Claim
  | getTask => Task
  | hasHumanInputReceipt => Bool
  | startStream | postReply => MessageTs
  | claimItem _ => ItemClaim
  | humanInputMessages => List RequestId
  | _ => Unit

/-- Exceptions are told apart by their text only. -/
abbrev Program (α : Type) := Prog Call Call.Reply Text α

def perform (c : Call) : Program c.Reply := Prog.perform c

/-! ### The projector -/

/-- Post one item under its own claim. -/
def projectItem (item : Item) (busy : Text) (post : Token → Program Unit) : Program Unit := do
  match ← perform (.claimItem item) with
  | .busy => throw busy
  | .completed => pure ()
  | .acquired token => post token

/-- Post, and note in the item what came of it. -/
def postItem (item : Item) (token : Token) (post : Program MessageTs) : Program Unit :=
  tryCatch
    (do
      let messageTs ← post
      perform (.finishItem item token (some messageTs) none))
    fun e => do
      perform (.finishItem item token none (some e))
      throw e

def projectMessage (streamTs : Option MessageTs) (message : AgentMessage) : Program Unit :=
  let item := Item.agentMessage message.messageId
  projectItem item "Agent Message projection is busy" fun token =>
    if message.text.isEmpty then perform (.finishItem item token none none)
    else postItem item token do
      match streamTs with
      | some ts =>
        perform .slackWrite
        pure ts
      | none => perform .postReply

def projectHumanInput (request : HumanRequest) : Program Unit :=
  let item := Item.humanInput request.requestId
  projectItem item "Human-input projection is busy" fun token =>
    postItem item token (perform .postReply)

/-- The requests that are open. -/
def Task.pending (task : Task) : List HumanRequest :=
  if task.state == .inputRequired then task.requests else []

/-- Close the control of a request that is no longer pending. -/
def closeSettled (pending : List HumanRequest) (requestId : RequestId) :
    Program (Option Unit) :=
  if pending.any (·.requestId == requestId) then pure none
  else do
    perform .slackWrite
    perform (.closeHumanInput requestId)
    pure none

/-- Stop the stream of a settled task, and show its status. -/
def showStatus (streamTs : Option MessageTs) (task : Task) : Program Unit :=
  if streamTs.isSome && settled task.state then do
    perform .slackWrite
    perform .slackWrite
  else perform .slackWrite

/-- `_project_task`. -/
def projectTask (streamTs : Option MessageTs) (task : Task) : Program Unit := do
  let _ ← Prog.loop (fun m => do projectMessage streamTs m; pure (none : Option Unit))
    task.agentMessages
  let _ ← Prog.loop (fun r => do projectHumanInput r; pure (none : Option Unit)) task.pending
  let posted ← perform .humanInputMessages
  let _ ← Prog.loop (closeSettled task.pending) posted
  showStatus streamTs task
  perform (.markProjection task.state (if settled task.state then .completed else .pending))

/-- A task that has never settled may get a card. -/
def ProjectionRow.canStart (r : ProjectionRow) : Bool :=
  (r.lastTaskState.all (!settled ·)) && r.initiatorUserId.isSome

/-- Open a stream; when that fails there is none. -/
def startStream (token : Token) : Program (Option MessageTs × Option MessageTs) :=
  tryCatch
    (do
      let ts ← perform .startStream
      perform (.updateStreamMessage token ts)
      pure (some ts, some ts))
    fun _ => pure (none, none)

/-- The stream to write to, and the one that was opened for it. -/
def openStream (projection : ProjectionRow) (token : Token) :
    Program (Option MessageTs × Option MessageTs) :=
  if projection.canStart && projection.slackMessageTs.isNone then do
    match ← perform .hasHumanInputReceipt with
    | true => pure (projection.slackMessageTs, none)
    | false => startStream token
  else pure (projection.slackMessageTs, none)

/-- The except block: give the claim back and raise again. -/
def giveUp {α : Type} (token : Token) (state : Option A2aState) (e : Text) : Program α := do
  perform (.finishStream token true state (some e))
  throw e

/-- Preview failures must never re-enter the failure path. -/
def hintPreview (wanted : Bool) : Program Unit :=
  if wanted then tryCatch (perform .previewHint) fun _ => pure () else pure ()

/-- `_reconcile_projection`. -/
def reconcileProjection (previewEnabled : Bool) : Program Unit := do
  match ← perform .claimTaskStream with
  | .busy | .completed => throw "Slack projection is busy; retry current Task later"
  | .acquired token projection =>
    let task ← tryCatch (perform .getTask) (giveUp token projection.lastTaskState)
    let body : Program (Option MessageTs) := do
      let (streamTs, newStream) ← openStream projection token
      projectTask streamTs task
      perform (.finishStream token false (some task.state) none)
      pure newStream
    let newStream ← tryCatch body (giveUp token (some task.state))
    hintPreview (newStream.isSome && !settled task.state && previewEnabled)

/-- The programs that are started: an initial projection, or a standard update. -/
def Job (p : Program Unit) : Prop :=
  ∃ requestEventId sourceMessageTs initiatorUserId previewEnabled,
    p = do
      perform (.ensureProjection requestEventId sourceMessageTs initiatorUserId)
      reconcileProjection previewEnabled

/-- Ingress makes the row before any projector runs. -/
inductive Outside : Call → Prop
  | ensureProjection (requestEventId sourceMessageTs initiatorUserId) :
    Outside (.ensureProjection requestEventId sourceMessageTs initiatorUserId)

/-- A standard update is a job. -/
lemma update_job (_ : Unit) : Job (do
    perform (.ensureProjection none none none)
    reconcileProjection false) :=
  ⟨none, none, none, false, rfl⟩

lemma outside_of_false {c : Call} (h : false = true) : Outside c := by cases h

/-! ### The system -/

/-- One call, with the row before and after it. -/
structure Entry where
  actor : Actor
  call : Call
  committed : Bool
  now : Time
  before : Option ProjectionRow
  after : Option ProjectionRow

structure World where
  row : Option ProjectionRow := none
  now : Time := 0
  /-- The next fresh token. -/
  uuid : ℕ := 0
  /-- The state the control plane shows the task in. -/
  state : A2aState := .submitted
  log : List Entry := []

/-- What a statement answers and makes of the row; nothing for the other calls. -/
def Call.run (w : World) : (c : Call) → Option (c.Reply × Option ProjectionRow)
  | ensureProjection r s u => some ((), Slack.ensureProjection r s u w.now w.row)
  | claimTaskStream => some (Slack.claimTaskStream w.uuid w.now w.row)
  | updateStreamMessage token ts => some ((), Slack.updateStreamMessage token ts w.now w.row)
  | markProjection state status => some ((), Slack.markProjection state status w.now w.row)
  | finishStream token fallback state error =>
    some ((), Slack.finishStream token fallback state error w.now w.row)
  | _ => none

/-- The world with a call noted and the row it left. -/
def World.note (w : World) (a : Actor) (c : Call) (committed : Bool)
    (row : Option ProjectionRow) : World :=
  { w with
    row := row
    uuid := w.uuid + 1
    log := ⟨a, c, committed, w.now, w.row, row⟩ :: w.log }

/-- A statement is answered, committed with its reply lost, or not done; a task that is read is
in the state the control plane shows; anything else is answered at will. -/
inductive Answers (w : World) : (c : Call) → Except Text c.Reply → Bool →
    Option ProjectionRow → Prop
  | done {c v row} (h : c.run w = some (v, row)) : Answers w c (.ok v) true row
  | unacknowledged {c v row} (h : c.run w = some (v, row)) (e : Text) :
    Answers w c (.error e) true row
  | failed {c} (e : Text) : Answers w c (.error e) false w.row
  | task {t : Task} (h : t.state = w.state) : Answers w .getTask (.ok t) false w.row
  | other {c v} (h : c.run w = none) (hc : c ≠ .getTask) : Answers w c (.ok v) false w.row

/-- In between the clock moves on, and so does the task until it ends. -/
def environment : Environment Call Call.Reply Text World where
  exec w a c r w' := ∃ committed row, Answers w c r committed row ∧
    w' = w.note a c committed row
  drift w w' := ∃ now state, w.now ≤ now ∧ (terminal w.state = true → state = w.state) ∧
    w' = { w with now := now, state := state }

abbrev System := Pool Call Call.Reply Text World

/-- The call acquired the stream's claim. -/
def Entry.acquires (e : Entry) : Bool :=
  match e.call with
  | .claimTaskStream => e.committed && e.before.any (·.claimable e.now)
  | _ => false

/-- Who acquired the claim last. -/
def holder (log : List Entry) : Option Actor := (log.find? (·.acquires)).map (·.actor)

/-- The projector acquired the claim, and another one after it. -/
def superseded (a : Actor) (log : List Entry) : Bool :=
  log.any (fun e => e.acquires && e.actor == a) && holder log != some a

end ManagedAgents.Slack
