import Mathlib.Data.Int.Notation
import ManagedAgents.Lib.JsString
import ManagedAgents.Preview.Contract

/-!
The observer of a provider session, from `observer.ts` of the CMA preview: it makes frames of the
session's text and publishes them in batches, while the session is read. `parsePreview` is the
consumers' check, from `contract.ts`.

The counters of the final metric are left out, and so is what only the ports read of a hint.
-/

namespace ManagedAgents.CmaPreview

open ManagedAgents.Lib
open ManagedAgents.Preview (FrameType maxPreviewBytes)

/-! ### Frames -/

/-- Ephemeral assistant text only. -/
structure Preview where
  v : ℕ
  taskId : Units
  previewId : Units
  offset : ℕ
  type : FrameType
  text : Option Units := none
  deriving DecidableEq

def maxFrameBytes : ℕ := 8192

def maxSafeInteger : ℕ := 2 ^ 53 - 1

def typeName : FrameType → Units
  | .start => ascii "start"
  | .delta => ascii "delta"
  | .end => ascii "end"

/-- `JSON.stringify`, with the fields in the order they are set. -/
def Preview.stringify (p : Preview) : Units :=
  ascii "\x7b\"v\":" ++ decimal p.v ++ ascii ",\"taskId\":" ++ quote p.taskId ++
    ascii ",\"previewId\":" ++ quote p.previewId ++ ascii ",\"offset\":" ++ decimal p.offset ++
    ascii ",\"type\":" ++ quote (typeName p.type) ++
    (match p.text with
      | some text => ascii ",\"text\":" ++ quote text
      | none => []) ++ ascii "\x7d"

def isHex (u : UInt16) : Bool := (97 ≤ u && u ≤ 102) || (48 ≤ u && u ≤ 57)

/-- A delta has a text, and no other frame has one. -/
def Preview.textFits (p : Preview) : Bool :=
  match p.type, p.text with
  | .delta, some text => text ≠ []
  | .delta, none => false
  | _, text => text.isNone

def parsePreview (p : Preview) (taskId : Units) : Option Preview :=
  if p.v ≠ 1 || p.taskId ≠ taskId || !(p.previewId.length == 64 && p.previewId.all isHex)
      || maxSafeInteger < p.offset then none
  else if !p.textFits then none
  else if maxFrameBytes < byteLength p.stringify then none
  else some p

/-! ### The observer's state -/

/-- What the observer is asked to preview; `parseHint` checks the length of the names. -/
structure Hint where
  taskId : Units
  phaseId : Units
  short : taskId.length < 256

/-- A digest in hexadecimal. -/
abbrev HexDigest := { t : Units // t.length = 64 ∧ t.all isHex = true }

structure Message where
  eventId : Units
  id : HexDigest
  offset : ℕ
  pending : Units
  index : ℤ
  ended : Bool

/-- The messages in the order they began. -/
abbrev Messages := Table Message.eventId

/-- Whether the session's events are read, or the loop over them was left. -/
inductive Reader
  | reading | leaving | left
  deriving DecidableEq

structure Observer where
  messages : Messages := .empty
  queue : List Preview := []
  bytes : ℕ := 0
  aborted : Bool := false
  reader : Reader := .reading
  publishing : Bool := false

/-- The index of a delta, which can be anything. -/
inductive Index
  | omitted
  | integer (n : ℤ)
  | other

/-- A provider event: the parts of it that are read. -/
inductive Event
  | eventStart (id : Units)
  | eventDelta (eventId : Units) (index : Index) (text : Option Units)
  | message (id : Units)
  | modelRequestEnd
  | stop
  | other

/-- The index a delta is for, unless it ends the message. -/
def Index.follows (index : Index) (last : ℤ) : Option ℤ :=
  match index with
  | .omitted => if 0 < last then none else some 0
  | .integer n => if n < last || 31 < n then none else some n
  | .other => none

namespace Observer

def enqueue (o : Observer) (p : Preview) : Observer :=
  if 32 ≤ o.queue.length then { o with aborted := true } else { o with queue := o.queue ++ [p] }

/-- Change the state of a message. -/
def put (o : Observer) (m : Message) : Observer :=
  let change (r : Message) : Message := { m with eventId := r.eventId }
  { o with messages := o.messages.modify m.eventId change fun _ => rfl }

end Observer

variable (hint : Hint)

def startFrame (id : HexDigest) : Preview :=
  { v := 1
    taskId := hint.taskId
    previewId := id.1
    offset := 0
    type := .start }

def deltaFrame (m : Message) : Preview :=
  { v := 1
    taskId := hint.taskId
    previewId := m.id.1
    offset := m.offset
    type := .delta
    text := some m.pending }

def endFrame (m : Message) : Preview :=
  { v := 1
    taskId := hint.taskId
    previewId := m.id.1
    offset := m.offset
    type := .end }

namespace Observer

/-- The body of `flush`'s loop. -/
def flushMessage (o : Observer) (eventId : Units) : Observer :=
  match o.messages.get? eventId with
  | none => o
  | some m =>
    if m.pending = [] then o
    else (o.enqueue (deltaFrame hint m)).put { m with offset := m.offset + 1, pending := [] }

def eventIds (o : Observer) : List Units := o.messages.rows.map Message.eventId

def flush (o : Observer) : Observer := o.eventIds.foldl (flushMessage hint) o

/-- `end`. -/
def finishMessage (o : Observer) (eventId : Units) : Observer :=
  match o.messages.get? eventId with
  | none => o
  | some m =>
    if m.ended then o
    else
      let o := o.flush hint
      match o.messages.get? eventId with
      | none => o
      | some m =>
        (o.enqueue (endFrame hint m)).put { m with ended := true, offset := m.offset + 1 }

def finishAll (o : Observer) : Observer := o.eventIds.foldl (finishMessage hint) o

/-- A code point is pending; a text that is long enough is sent. -/
def append (o : Observer) (eventId char : Units) : Observer :=
  match o.messages.get? eventId with
  | none => o
  | some m =>
    let m := { m with pending := m.pending ++ char }
    let o := o.put m
    if 4000 ≤ byteLength m.pending then o.flush hint else o

/-- The loop over a delta's text. -/
def appendAll (eventId : Units) : List Units → Observer → Observer
  | [], o => o
  | char :: chars, o =>
    let o := { o with bytes := o.bytes + byteLength char }
    if maxPreviewBytes < o.bytes then { o with aborted := true }
    else appendAll eventId chars (o.append hint eventId char)

variable (digest : Units → HexDigest)

/-- The digest names the message within its task's phase. -/
def previewId (eventId : Units) : HexDigest :=
  digest (hint.taskId ++ [0] ++ hint.phaseId ++ [0] ++ eventId)

def newMessage (eventId : Units) : Message :=
  { eventId
    id := previewId hint digest eventId
    offset := 1
    pending := []
    index := 0
    ended := false }

/-- A message begins. -/
def begin (o : Observer) (eventId : Units) : Observer :=
  match o.messages.insert (newMessage hint digest eventId) with
  | none => o
  | some messages => { o with messages }.enqueue (startFrame hint (previewId hint digest eventId))

/-- The message and the text of a delta that is accepted. -/
def accepted (o : Observer) : Event → Option (Message × Units)
  | .eventDelta eventId index (some text) =>
    match o.messages.get? eventId with
    | none => none
    | some m =>
      if m.ended then none
      else (index.follows m.index).map fun n => ({ m with index := n }, text)
  | _ => none

def onEventStart (o : Observer) (id : Units) : Observer :=
  if (o.messages.get? id).isSome then o
  else if 32 ≤ o.messages.rows.length then { o with reader := .leaving }
  else o.begin hint digest id

def onEventDelta (o : Observer) (eventId : Units) (index : Index) (text : Option Units) :
    Observer :=
  match o.messages.get? eventId, text with
  | some m, some text =>
    if m.ended then o
    else
      match index.follows m.index with
      | none => o.finishMessage hint eventId
      | some n => (o.put { m with index := n }).appendAll hint eventId (codePoints text)
  | _, _ => o

/-- The body of the loop over the session's events; one that breaks leaves it. -/
def handle (o : Observer) : Event → Observer
  | .eventStart id => o.onEventStart hint digest id
  | .eventDelta eventId index text => o.onEventDelta hint eventId index text
  | .message id => o.finishMessage hint id
  | .modelRequestEnd => o.finishAll hint
  | .stop => { o with reader := .leaving }
  | .other => o

/-- The publisher's inner loop: the next batch is handed to `publish`, or it sleeps again. -/
def drain (o : Observer) : Observer × Option (List Preview) :=
  if o.queue ≠ [] ∧ o.aborted = false then
    ({ o with queue := o.queue.drop 5, publishing := true }, some (o.queue.take 5))
  else ({ o with publishing := false }, none)

/-! ### Steps

What runs between two awaits is one step. -/

inductive Action
  /-- The session has an event. -/
  | event (e : Event)
  /-- The session's events end, or their iteration fails. -/
  | close
  /-- The messages are ended, unless the observer was aborted. -/
  | finish
  /-- The caller, the deadline, the monitor, a failed publication, or the observer's own end. -/
  | abort
  /-- The publisher's timer. It can have fired just before the signal was aborted. -/
  | wake
  /-- `publish` returns. -/
  | published

def act (o : Observer) : Action → Option (Observer × Option (List Preview))
  | .event e =>
    if o.reader = .reading ∧ o.aborted = false then some (o.handle hint digest e, none) else none
  | .close => if o.reader = .reading then some ({ o with reader := .leaving }, none) else none
  | .finish =>
    if o.reader = .leaving then
      let o := if o.aborted then o else o.finishAll hint
      some ({ o with reader := .left }, none)
    else none
  | .abort => some ({ o with aborted := true }, none)
  | .wake => if o.publishing then none else some (o.flush hint).drain
  | .published => if o.publishing then some o.drain else none

end Observer

/-- The observer, the batches it handed to `publish` and the deltas it accepted, each with the event
it is for. -/
structure Run where
  observer : Observer := {}
  batches : List (List Preview) := []
  deltas : List (Units × Units) := []

def Run.published (r : Run) : List Preview := r.batches.flatten

/-- The text of the accepted deltas of a message. -/
def Run.acceptedText (r : Run) (eventId : Units) : Units :=
  (r.deltas.filter fun d => d.1 = eventId).flatMap (·.2)

variable (digest : Units → HexDigest)

def Run.step (r : Run) (a : Observer.Action) : Option Run :=
  (r.observer.act hint digest a).map fun (o, batch) =>
    { observer := o
      batches := r.batches ++ batch.toList
      deltas := r.deltas ++
        match a with
        | .event e => ((r.observer.accepted e).map fun (m, text) => (m.eventId, text)).toList
        | _ => [] }

/-- The runs whose steps all meet a condition on the observer before them. -/
inductive Runs (C : Observer → Observer.Action → Prop) : Run → Prop
  | init : Runs C {}
  | step {r r' a} (h : Runs C r) (hc : C r.observer a) (hstep : r.step hint digest a = some r') :
    Runs C r'

end ManagedAgents.CmaPreview
