import ManagedAgents.Preview.Contract
import ManagedAgents.Web.Mapper

/-!
A run as the web function streams it, from `stream.ts`.

Clocks, timers and the queue of preview frames are inputs: an iteration of the loop says whether the
deadline has passed, whether a canonical read is due and how its reads end, and which frames it
finds. What was read and written is logged in order.
-/

namespace ManagedAgents.Web

open ManagedAgents.Lib ManagedAgents.Preview

structure StreamOptions where
  threadId : String
  taskId : String
  runId : String
  resumedIds : List CodePoints := []

/-- How a call fails: by itself, or because the signal was aborted, by expiry or from outside. -/
inductive Failure
  | transient
  | aborted (expired : Bool)

/-- What the calls of a canonical read return. -/
structure Reads where
  task : Except Failure Task
  history : Except Failure (List Task) := .error .transient
  /-- A resumed run has waited for more than 20 seconds. -/
  late : Bool := false

/-- What one pass through the loop meets. -/
structure Iteration where
  /-- The signal was aborted, by expiry or from outside. -/
  aborted : Option Bool := none
  deadline : Bool := false
  reads : Option Reads := none
  frames : List Frame := []
  heartbeat : Bool := false

inductive Entry
  | got (task : Task)
  | listed (tasks : List Task)
  | took (frame : Frame)
  | wrote (event : BaseEvent)

/-- `JSON.stringify` of the messages, the state and the requests of a task. -/
structure CanonicalKey where
  messages : List (String × Units)
  state : Option TaskState
  pendingIds : List CodePoints
  deriving DecidableEq

def canonicalKey (task : Task) (pendingIds : List CodePoints) : CanonicalKey :=
  { messages := task.history.map fun m => (m.messageId, text m)
    state := task.state?
    pendingIds }

/-- The variables of `streamTask`. -/
structure Stream where
  log : List Entry := []
  failures : ℕ := 0
  provisional : Bool := false
  canonicalKey : Option CanonicalKey := none
  acceptedResume : Bool := false
  lastCanonical : List Message := []
  seen : List MessageId := []
  accumulator : PreviewAccumulator := {}
  returned : Bool := false

namespace Stream

def note (s : Stream) (entry : Entry) : Stream := { s with log := s.log ++ [entry] }

def write (s : Stream) (event : BaseEvent) : Stream := s.note (.wrote event)

def writeAll (s : Stream) (events : List BaseEvent) : Stream := events.foldl write s

def snapshot (s : Stream) (messages : List Message) : Stream :=
  { s with lastCanonical := messages }.write (.messagesSnapshot messages)

def done (s : Stream) : Stream := { s with returned := true }

def reconnect (s : Stream) : Stream :=
  ((s.snapshot s.lastCanonical).write (.runError (some "STREAM_RECONNECT_REQUIRED")
    "Reconnect to continue following this task.")).done

/-- What follows the loop once the signal was aborted. -/
def leave (s : Stream) (expired : Bool) : Stream := if expired then s.reconnect else s.done

/-- How the try block of a canonical read ended. -/
inductive Outcome
  | completed
  | returned
  | threw (e : Failure)

/-- The canonical messages that were not sent yet. -/
def emit (s : Stream) (m : A2AMessage) : Stream :=
  if m.role == .agent && !s.seen.contains (.canonical m.messageId) && text m != [] then
    s.writeAll
      [.textMessageStart (.canonical m.messageId),
        .textMessageContent (.canonical m.messageId) (text m),
        .textMessageEnd (.canonical m.messageId)]
  else s

def see (s : Stream) (task : Task) : Stream :=
  { s with seen := s.seen ++ task.history.map fun m => .canonical m.messageId }

/-- The messages of a snapshot, without the request that was just answered. -/
def replacement (o : StreamOptions) (waitingResume : Bool) (messages : List Message) :
    List Message :=
  messages.filter fun m => !waitingResume || m.id != .pending o.taskId

/-- Replace what was sent by a snapshot of the thread. -/
def replace (o : StreamOptions) (s : Stream) (waitingResume : Bool)
    (read : Except Failure (List Task)) : Stream × Outcome :=
  match read with
  | .error e => (s, .threw e)
  | .ok tasks =>
    let s := s.note (.listed tasks)
    match history tasks with
    | none => (s, .threw .transient)
    | some messages => (s.snapshot (replacement o waitingResume messages), .completed)

/-- Bring the client up to date with a task that changed or is over. -/
def present (o : StreamOptions) (s : Stream) (task : Task) (key : CanonicalKey)
    (waitingResume ended : Bool) (read : Except Failure (List Task)) : Stream × Outcome :=
  if s.canonicalKey != some key || ended then
    let s := { s with canonicalKey := some key }
    if s.provisional || ended then
      match replace o { s with provisional := false } waitingResume read with
      | (s, .completed) => (s.see task, .completed)
      | (s, outcome) => (s, outcome)
    else ((task.history.foldl emit s).see task, .completed)
  else (s, .completed)

/-- A resumed run still sees the task wait for what was just answered. -/
def waitsForResume (o : StreamOptions) (s : Stream) (task : Task) (pendingIds : List CodePoints) :
    Bool :=
  !o.resumedIds.isEmpty && !s.acceptedResume && task.state? == some .inputRequired
    && pendingIds.all (o.resumedIds.contains ·)

/-- The end of the try block: the events of a task that is over, or a resumed run that waited too
long. -/
def conclude (terminal : Option (List BaseEvent)) (late : Bool) :
    Stream × Outcome → Stream × Outcome
  | (s, .completed) =>
    match terminal with
    | some events => ((s.writeAll events).done, .returned)
    | none => if late then (s.reconnect, .returned) else (s, .completed)
  | (s, outcome) => (s, outcome)

/-- The try block of a canonical read, from the task that was read. -/
def follow (o : StreamOptions) (s : Stream) (task : Task) (r : Reads) : Stream × Outcome :=
  match interrupts task with
  | none => (s, .threw .transient)
  | some pending =>
    let pendingIds := pending.map (·.id)
    let waitingResume := s.waitsForResume o task pendingIds
    let s := if waitingResume then s else { s with acceptedResume := true }
    match if waitingResume then some none else finish task o.threadId o.runId with
    | none => (s, .threw .transient)
    | some terminal =>
      conclude terminal (waitingResume && r.late)
        (s.present o task (Web.canonicalKey task pendingIds) waitingResume terminal.isSome
          r.history)

def canonicalRead (o : StreamOptions) (s : Stream) (r : Reads) : Stream × Outcome :=
  match r.task with
  | .error e => (s, .threw e)
  | .ok task => follow o ({ s with failures := 0 }.note (.got task)) task r

/-- The catch block. -/
def failed (s : Stream) : Failure → Stream
  | .aborted expired => s.leave expired
  | .transient =>
    let s := { s with failures := s.failures + 1 }
    if s.failures ≥ 5 then s.reconnect else s

/-- The events of an accepted frame. -/
def drawn (p : Frame) (update : Update) : List BaseEvent :=
  (if update.start then [.textMessageStart (.preview update.id)] else []) ++
  (if p.type == .delta then [.textMessageContent (.preview update.id) (p.text.getD [])] else []) ++
  if update.end then [.textMessageEnd (.preview update.id)] else []

/-- Draw what the accumulator makes of a frame. -/
def preview (s : Stream) (p : Frame) : Stream :=
  let s := s.note (.took p)
  match s.accumulator.accept p with
  | (accumulator, none) => { s with accumulator }
  | (accumulator, some update) =>
    writeAll { s with accumulator, provisional := true } (drawn p update)

/-- What a pass does after the canonical read: the frames, and a heartbeat. -/
def pass (s : Stream) (i : Iteration) : Stream :=
  if s.returned then s
  else
    let s := i.frames.foldl preview s
    if i.heartbeat then s.write .heartbeat else s

/-- The try statement of a canonical read. -/
def readStep (o : StreamOptions) (s : Stream) (r : Reads) : Stream :=
  match canonicalRead o s r with
  | (s, .threw e) => s.failed e
  | (s, _) => s

def iterate (o : StreamOptions) (s : Stream) (i : Iteration) : Stream :=
  if s.returned then s
  else
    match i.aborted with
    | some expired => s.leave expired
    | none =>
      if i.deadline then s.reconnect
      else
        match i.reads with
        | none => s.pass i
        | some r => (s.readStep o r).pass i

/-- The run up to its loop; without an initial history it is over. -/
def begin (o : StreamOptions) (initial : Except Failure (List Task)) : Stream :=
  let s : Stream := ({} : Stream).write (.runStarted o.threadId o.runId)
  match initial with
  | .error _ => s.done
  | .ok tasks =>
    let s := s.note (.listed tasks)
    match history tasks with
    | none => s.done
    | some messages =>
      let messages := replacement o (!o.resumedIds.isEmpty) messages
      { s.snapshot messages with
        seen := (messages.filter (·.role == .assistant)).map (·.id) }

/-- `streamTask`. -/
def run (o : StreamOptions) (initial : Except Failure (List Task)) (its : List Iteration) :
    Stream :=
  its.foldl (iterate o) (begin o initial)

end Stream

end ManagedAgents.Web
