import Mathlib.Data.List.Chain
import Mathlib.Data.List.Induction
import Mathlib.Data.Rat.Defs
import Mathlib.Tactic.NormNum
import ManagedAgents.Controller.TaskView
import ManagedAgents.Lib.Fresh

/-!
The live view of a task, `_watch` of `request_handler.py`.

A watch polls a cheap marker and reads the whole task when the marker moved or the last read is old.
A turn of its loop is given by what the clock and the service answer in it. The serialised form of a
status is a parameter: two statuses are compared by it, and it determines the state.
-/

namespace ManagedAgents.Controller

open ManagedAgents.Lib

/-- The status of a task as its clients see it. -/
structure TaskStatus where
  state : A2aState
  message : Option ViewMessage

def TaskObject.status (t : TaskObject) : TaskStatus := ⟨t.state, t.statusMessage⟩

/-- The agent's messages in a task's history. -/
def TaskObject.agentMessages (t : TaskObject) : List ViewMessage :=
  t.history.filter (·.role == .agent)

/-- `_WATCH_BOUNDARY`. -/
def A2aState.isWatchBoundary : A2aState → Bool
  | completed | failed | canceled | rejected | inputRequired => true
  | submitted | working => false

/-- What `watch_marker` reads. -/
structure Marker where
  updatedAt : Time
  a2aState : A2aState
  cmaInputEventId : Option EventId
  cmaSessionId : Option SessionId
  deriving DecidableEq

inductive WatchEvent
  | task (task : TaskObject)
  | message (message : ViewMessage)
  | statusUpdate (taskId : TaskId) (contextId : ContextId) (status : TaskStatus)

/-- A step of a watch that a reader can tell: a snapshot it read or an event it yielded. -/
inductive WatchEntry
  | read (task : TaskObject)
  | yielded (event : WatchEvent)

namespace WatchEntry

def read? : WatchEntry → Option TaskObject
  | read t => some t
  | yielded _ => none

def message? : WatchEntry → Option ViewMessage
  | yielded (.message m) => some m
  | _ => none

/-- The status an event carries, a whole task's or an update's. -/
def status? : WatchEntry → Option TaskStatus
  | yielded (.task t) => some t.status
  | yielded (.statusUpdate _ _ status) => some status
  | _ => none

end WatchEntry

/-- A turn of the loop: the readings of the clock, and the answers of the service, `none` where it
raised. -/
structure WatchTurn where
  testedAt : ℚ
  marker : Option Marker
  skippedAt : ℚ
  task : Option TaskObject
  doneAt : ℚ

structure Watcher (β : Type) where
  going : Bool
  emitted : List ViewMessageId
  lastStatus : β
  marker : Option Marker := none
  nextSnapshotAt : ℚ
  log : List WatchEntry

def watchSeconds : ℚ := 800
def snapshotSeconds : ℚ := 5

namespace Watcher

section

variable {β : Type} [DecidableEq β] (serialize : TaskStatus → β)

/-- The agent messages whose id was not emitted yet, with the ids that are emitted after them. -/
def deliver (emitted : List ViewMessageId) :
    List ViewMessage → List ViewMessageId × List ViewMessage
  | [] => (emitted, [])
  | message :: rest =>
    if message.role = .agent ∧ message.messageId ∉ emitted then
      let (after, later) := deliver (message.messageId :: emitted) rest
      (after, message :: later)
    else deliver emitted rest

/-- A full snapshot: its new messages, then its status when it changed. -/
def snapshot (w : Watcher β) (marker : Marker) (current : TaskObject) (doneAt : ℚ) : Watcher β :=
  let (emitted, news) := deliver w.emitted current.history
  let status := serialize current.status
  { going := !current.state.isWatchBoundary
    emitted
    lastStatus := status
    marker := some marker
    nextSnapshotAt := doneAt + snapshotSeconds
    log := w.log ++ .read current :: news.map (.yielded <| .message ·) ++
      if status ≠ w.lastStatus then
        [.yielded (.statusUpdate current.id current.contextId current.status)]
      else [] }

/-- A turn of the loop, until the deadline. -/
def step (deadline : ℚ) (w : Watcher β) (turn : WatchTurn) : Watcher β :=
  if !w.going || deadline ≤ turn.testedAt then { w with going := false }
  else
    match turn.marker with
    | none => { w with going := false }
    | some marker =>
      if some marker = w.marker ∧ turn.skippedAt < w.nextSnapshotAt then w
      else
        match turn.task with
        | none => { w with going := false }
        | some current => w.snapshot serialize marker current turn.doneAt

/-- The watch up to its loop. -/
def start (initial baseline : TaskObject) (now : ℚ) : Watcher β :=
  { going := !initial.state.isWatchBoundary
    emitted := baseline.agentMessages.map (·.messageId)
    lastStatus := serialize initial.status
    nextSnapshotAt := now + snapshotSeconds
    log := [.yielded (.task initial)] }

/-- `_watch`, with the two readings of the clock before its loop. -/
def run (initial baseline : TaskObject) (startedAt now : ℚ) (turns : List WatchTurn) : Watcher β :=
  turns.foldl (step serialize (startedAt + watchSeconds)) (start serialize initial baseline now)

end

/-! ### What a reader of a watch sees -/

/-- The snapshots a watch read. -/
def reads (log : List WatchEntry) : List TaskObject := log.filterMap (·.read?)

/-- The messages a watch yielded. -/
def messages (log : List WatchEntry) : List ViewMessage := log.filterMap (·.message?)

/-- The statuses a watch yielded, the first of them with the whole task. -/
def statuses (log : List WatchEntry) : List TaskStatus := log.filterMap (·.status?)

/-- The last snapshot, or the baseline before there is one. -/
def lastRead (baseline : TaskObject) (log : List WatchEntry) : TaskObject :=
  (reads log).getLastD baseline

/-- The agent's history only grows from one snapshot to the next. -/
def Grows (baseline : TaskObject) (log : List WatchEntry) : Prop :=
  (baseline :: reads log).IsChain fun earlier later => earlier.agentMessages <+: later.agentMessages

/-- A snapshot at a boundary is followed by its new messages and then its status, and by nothing
else. -/
def EndsAtBoundary (log : List WatchEntry) : Prop :=
  ∀ before t after, log = before ++ .read t :: after → t.state.isWatchBoundary →
    ∃ news : List ViewMessage, after = news.map (.yielded <| .message ·) ++
      [.yielded (.statusUpdate t.id t.contextId t.status)]

section

variable {β : Type} [DecidableEq β] {serialize : TaskStatus → β} {w : Watcher β}
  {initial baseline current : TaskObject} {deadline doneAt : ℚ} {turn : WatchTurn}
  {turns : List WatchTurn} {marker : Marker} {log : List WatchEntry}
  {emitted : List ViewMessageId} {history : List ViewMessage}

lemma deliver_eq : (deliver emitted history).2 =
    fresh (·.messageId) emitted (history.filter (·.role == .agent)) := by
  induction history generalizing emitted with
  | nil => rfl
  | cons m rest ih =>
    by_cases hrole : m.role = .agent
    · by_cases hseen : m.messageId ∈ emitted <;> simp [deliver, fresh, hrole, hseen, ih]
    · simp [deliver, hrole, ih]

lemma mem_deliver {id : ViewMessageId} : id ∈ (deliver emitted history).1 ↔
    id ∈ emitted ∨ id ∈ (history.filter (·.role == .agent)).map (·.messageId) := by
  induction history generalizing emitted with
  | nil => simp [deliver]
  | cons m rest ih =>
    by_cases hrole : m.role = .agent
    · by_cases hseen : m.messageId ∈ emitted
      · simp only [deliver, hseen, not_true_eq_false, and_false, if_false, ih]
        simp only [hrole, List.filter_cons, beq_self_eq_true, if_true, List.map_cons,
          List.mem_cons]
        constructor
        · tauto
        · rintro (h | rfl | h)
          exacts [.inl h, .inl hseen, .inr h]
      · simp only [deliver, hrole, hseen, not_false_eq_true, and_self, if_true, ih]
        simp [hrole]
        tauto
    · simp [deliver, hrole, ih]

variable (serialize w deadline turn) in
/-- A turn reads and yields nothing, or it adds a snapshot. -/
lemma step_cases : (∃ going, step serialize deadline w turn = { w with going } ∧
      (going = true → w.going = true)) ∨
    ∃ marker current, w.going = true ∧
      step serialize deadline w turn = w.snapshot serialize marker current turn.doneAt := by
  unfold step
  by_cases hstop : (!w.going || deadline ≤ turn.testedAt) = true
  · exact .inl ⟨false, by rw [if_pos hstop], by simp⟩
  rw [if_neg hstop]
  have hgoing : w.going = true := by
    cases hw : w.going
    · simp [hw] at hstop
    · rfl
  rcases hmarker : turn.marker with _ | marker
  · exact .inl ⟨false, rfl, by simp⟩
  by_cases hskip : some marker = w.marker ∧ turn.skippedAt < w.nextSnapshotAt
  · exact .inl ⟨w.going, if_pos hskip, id⟩
  rcases htask : turn.task with _ | current
  · exact .inl ⟨false, if_neg hskip, by simp⟩
  · exact .inr ⟨marker, current, hgoing, if_neg hskip⟩

variable (serialize baseline) in
/-- What a watch has told its reader, and what it remembers of it. -/
structure Good (w : Watcher β) : Prop where
  kept : baseline.agentMessages <+: (lastRead baseline w.log).agentMessages
  emitted : ∀ id, id ∈ w.emitted ↔
    id ∈ (lastRead baseline w.log).agentMessages.map (·.messageId)
  delivered : firsts (·.messageId) baseline.agentMessages ++ messages w.log =
    firsts (·.messageId) (lastRead baseline w.log).agentMessages
  status : ∃ last ∈ (statuses w.log).getLast?, w.lastStatus = serialize last ∧
    (w.going = true → last.state.isWatchBoundary = false)
  changes : (statuses w.log).IsChain (· ≠ ·)
  inside : w.going = true → ∀ t ∈ reads w.log, t.state.isWatchBoundary = false
  boundary : EndsAtBoundary w.log

omit [DecidableEq β] in
lemma good_start {now : ℚ} : Good serialize baseline (start serialize initial baseline now) where
  kept := List.prefix_rfl
  emitted := by simp [start, lastRead, reads, WatchEntry.read?]
  delivered := by simp [start, lastRead, reads, messages, WatchEntry.read?, WatchEntry.message?]
  status := by
    refine ⟨initial.status, by simp [start, statuses, WatchEntry.status?], rfl, fun h => ?_⟩
    simpa [start, TaskObject.status] using h
  changes := by simp [start, statuses, WatchEntry.status?]
  inside := by simp [start, reads, WatchEntry.read?]
  boundary := by
    intro before t after h
    rcases before with _ | ⟨e, before⟩ <;> simp [start] at h

omit [DecidableEq β] in
/-- The end of a watch, whatever ended it. -/
lemma Good.stop (h : Good serialize baseline w) {going : Bool}
    (hgoing : going = true → w.going = true) : Good serialize baseline { w with going } where
  kept := h.kept
  emitted := h.emitted
  delivered := h.delivered
  status := by
    obtain ⟨last, hlast, hsame, hstate⟩ := h.status
    exact ⟨last, hlast, hsame, fun hg => hstate (hgoing hg)⟩
  changes := h.changes
  inside := fun hg => h.inside (hgoing hg)
  boundary := h.boundary

section

variable {news : List ViewMessage} {status : TaskStatus} {t : TaskObject}

/-- A snapshot as it is told: read, then its new messages, then perhaps its status. -/
def told (t : TaskObject) (news : List ViewMessage) (changed : Prop) [Decidable changed] :
    List WatchEntry :=
  .read t :: news.map (.yielded <| .message ·) ++
    if changed then [.yielded (.statusUpdate t.id t.contextId t.status)] else []

variable {changed : Prop} [Decidable changed]

@[simp] lemma reads_told : reads (log ++ told t news changed) = reads log ++ [t] := by
  by_cases hc : changed <;>
    simp [reads, told, hc, WatchEntry.read?, List.filterMap_append, List.filterMap_map]

@[simp] lemma messages_told : messages (log ++ told t news changed) = messages log ++ news := by
  by_cases hc : changed <;>
    simp [messages, told, hc, WatchEntry.message?, List.filterMap_append, List.filterMap_map]

@[simp] lemma statuses_told : statuses (log ++ told t news changed) =
    statuses log ++ if changed then [t.status] else [] := by
  by_cases hc : changed <;>
    simp [statuses, told, hc, WatchEntry.status?, List.filterMap_append, List.filterMap_map]

/-- A boundary is told completely, and what was told before it stays as it was. -/
lemma endsAtBoundary_told (hbefore : ∀ t ∈ reads log, t.state.isWatchBoundary = false)
    (hchanged : t.state.isWatchBoundary = true → changed) :
    EndsAtBoundary (log ++ told t news changed) := by
  intro before t' after h hstate
  have hlog : WatchEntry.read t' ∉ log := by
    intro hmem
    have hread : t' ∈ reads log := List.mem_filterMap.2 ⟨_, hmem, rfl⟩
    simp [hbefore t' hread] at hstate
  have htail : WatchEntry.read t' ∉ news.map (.yielded <| .message ·) ++
      if changed then [.yielded (.statusUpdate t.id t.contextId t.status)] else [] := by
    by_cases hc : changed <;> simp [hc]
  obtain ⟨-, ht, rfl⟩ := (List.append_cons_inj_of_notMem hlog htail).1 h
  obtain rfl := WatchEntry.read.inj ht
  exact ⟨news, by simp [hchanged hstate]⟩

end

variable (serialize w marker current doneAt) in
lemma snapshot_log : (w.snapshot serialize marker current doneAt).log = w.log ++ told current
    (deliver w.emitted current.history).2 (serialize current.status ≠ w.lastStatus) := by
  simp [snapshot, told]

lemma Good.snapshot (h : Good serialize baseline w) (hgoing : w.going = true)
    (hstate : ∀ s t, serialize s = serialize t → s.state = t.state)
    (hgrows : (lastRead baseline w.log).agentMessages <+: current.agentMessages) :
    Good serialize baseline (w.snapshot serialize marker current doneAt) := by
  obtain ⟨last, hlast, hsame, hopen⟩ := h.status
  have hlog := snapshot_log serialize w current doneAt marker
  have hlastRead : ∀ news (changed : Prop) [Decidable changed],
      lastRead baseline (w.log ++ told current news changed) = current := by
    intro news changed _
    simp [lastRead]
  constructor
  · rw [hlog, hlastRead]
    exact h.kept.trans hgrows
  · intro id
    rw [hlog, hlastRead]
    simp only [Watcher.snapshot, mem_deliver, h.emitted]
    change _ ∨ id ∈ current.agentMessages.map _ ↔ _
    constructor
    · rintro (hold | hnew)
      · exact (hgrows.map _).mem hold
      · exact hnew
    · exact Or.inr
  · rw [hlog, hlastRead, messages_told, ← List.append_assoc, h.delivered, deliver_eq,
      Fresh.congr h.emitted]
    exact Fresh.grown hgrows
  · rw [hlog, statuses_told]
    by_cases hchanged : serialize current.status = w.lastStatus
    · refine ⟨last, by simpa [hchanged] using hlast, hchanged.trans hsame, fun _ => hopen hgoing⟩
    · refine ⟨current.status, by simp [hchanged], rfl, fun hg => ?_⟩
      simpa [Watcher.snapshot, TaskObject.status] using hg
  · rw [hlog, statuses_told, List.isChain_append]
    refine ⟨h.changes, by split <;> simp, fun s hs s' hs' => ?_⟩
    by_cases hchanged : serialize current.status = w.lastStatus
    · simp [hchanged] at hs'
    · obtain rfl : last = s := by simpa [Option.mem_def.1 hlast] using hs
      obtain rfl : current.status = s' := by simpa [hchanged] using hs'
      rintro rfl
      exact hchanged hsame.symm
  · intro hg t ht
    rw [hlog, reads_told] at ht
    rcases List.mem_append.1 ht with ht | ht
    · exact h.inside hgoing t ht
    · obtain rfl := List.mem_singleton.1 ht
      simpa [Watcher.snapshot] using hg
  · rw [hlog]
    refine endsAtBoundary_told (h.inside hgoing) fun hboundary hunchanged => ?_
    have := hstate _ _ (hunchanged.trans hsame)
    have := hopen hgoing
    simp_all [TaskObject.status]

lemma grows_append {more : List WatchEntry} (h : Grows baseline (log ++ more)) :
    Grows baseline log := by
  rw [Grows, reads, List.filterMap_append, ← List.cons_append, List.isChain_append] at h
  exact h.1

lemma grows_told {news : List ViewMessage} {changed : Prop} [Decidable changed]
    (h : Grows baseline (log ++ told current news changed)) :
    (lastRead baseline log).agentMessages <+: current.agentMessages := by
  rw [Grows, reads_told, ← List.cons_append, List.isChain_append] at h
  refine h.2.2 _ ?_ current rfl
  simp [lastRead, List.getLast?_cons]

lemma good_step (h : Good serialize baseline w)
    (hstate : ∀ s t, serialize s = serialize t → s.state = t.state)
    (hgrows : Grows baseline (step serialize deadline w turn).log) :
    Good serialize baseline (step serialize deadline w turn) := by
  rcases step_cases serialize w deadline turn with
    ⟨going, hstep, hgoing⟩ | ⟨marker, current, hgoing, hstep⟩
  · rw [hstep]
    exact h.stop hgoing
  · rw [hstep] at hgrows ⊢
    exact h.snapshot hgoing hstate (grows_told (snapshot_log serialize w current _ marker ▸ hgrows))

variable (serialize w deadline turn) in
lemma log_step : w.log <+: (step serialize deadline w turn).log := by
  rcases step_cases serialize w deadline turn with
    ⟨going, hstep, -⟩ | ⟨marker, current, -, hstep⟩
  · simp [hstep]
  · rw [hstep, snapshot_log]
    exact List.prefix_append _ _

lemma good_run {startedAt now : ℚ}
    (hstate : ∀ s t, serialize s = serialize t → s.state = t.state)
    (hgrows : Grows baseline (run serialize initial baseline startedAt now turns).log) :
    Good serialize baseline (run serialize initial baseline startedAt now turns) := by
  induction turns using List.reverseRecOn with
  | nil => exact good_start
  | append_singleton turns turn ih =>
    simp only [run, List.foldl_append, List.foldl_cons, List.foldl_nil] at hgrows ih ⊢
    obtain ⟨more, hmore⟩ := log_step serialize
      (turns.foldl (step serialize _) (start serialize initial baseline now))
      (startedAt + watchSeconds) turn
    exact good_step (ih (grows_append (hmore ▸ hgrows))) hstate hgrows

end

/-! ### The main result -/

variable {β : Type} [DecidableEq β] {serialize : TaskStatus → β} {initial baseline : TaskObject}
  {startedAt now : ℚ} {turns : List WatchTurn}

/-- **A watch delivers each message of the agent once.** The messages of the baseline with the ones
that are yielded are those of the last snapshot, each id once and in order; a status is yielded only
when it differs from the one before; and a boundary is told completely, and ends the watch. -/
theorem delivers_exactly_once (hstate : ∀ s t, serialize s = serialize t → s.state = t.state)
    (hgrows : Grows baseline (run serialize initial baseline startedAt now turns).log) :
    let log := (run serialize initial baseline startedAt now turns).log
    firsts (·.messageId) baseline.agentMessages ++ messages log =
        firsts (·.messageId) (lastRead baseline log).agentMessages ∧
      (((lastRead baseline log).agentMessages.map (·.messageId)).Nodup →
        baseline.agentMessages ++ messages log = (lastRead baseline log).agentMessages) ∧
      (statuses log).IsChain (· ≠ ·) ∧
      EndsAtBoundary log := by
  have hgood := good_run hstate hgrows
  refine ⟨hgood.delivered, fun hnodup => ?_, hgood.changes, hgood.boundary⟩
  have hdelivered := hgood.delivered
  have hbase := hnodup.sublist (hgood.kept.sublist.map _)
  rwa [Fresh.firsts_eq_self hnodup, Fresh.firsts_eq_self hbase] at hdelivered

/-- A task of the agent that has written some messages. -/
def written (state : A2aState) (n : ℕ) : TaskObject :=
  { id := 0
    contextId := 0
    state
    history := (List.range n).map fun i =>
      { messageId := .cma i
        contextId := 0
        taskId := 0
        role := .agent
        text := "" } }

/-- The agent writes a message, then another one as it completes. -/
def twoTurns : List WatchTurn :=
  [{ testedAt := 0
     marker := some ⟨0, .working, some 0, some 0⟩
     skippedAt := 0
     task := some (written .working 2)
     doneAt := 0 },
    { testedAt := 1
      marker := some ⟨1, .completed, some 0, some 0⟩
      skippedAt := 1
      task := some (written .completed 3)
      doneAt := 1 }]

lemma log_two_turns :
    (run TaskStatus.state (written .working 1) (written .working 1) 0 0 twoTurns).log =
      [.yielded (.task (written .working 1)), .read (written .working 2),
        .yielded (.message (written .working 2).history[1]), .read (written .completed 3),
        .yielded (.message (written .completed 3).history[2]),
        .yielded (.statusUpdate 0 0 (written .completed 3).status)] := by
  have hfirst : ¬ (800 : ℚ) ≤ 0 := by norm_num
  have hsecond : ¬ (800 : ℚ) ≤ 1 := by norm_num
  simp [run, start, step, snapshot, deliver, twoTurns, written, List.range, List.range.loop,
    TaskObject.agentMessages, TaskObject.status, A2aState.isWatchBoundary, watchSeconds, hfirst,
    hsecond]

/-- Two messages and a status are yielded after the first. -/
theorem delivers_exactly_once_two_turns :
    let log := (run TaskStatus.state (written .working 1) (written .working 1) 0 0 twoTurns).log
    (statuses log).IsChain (· ≠ ·) ∧
      (written .working 1).agentMessages ++ messages log =
        (written .completed 3).agentMessages := by
  have hgrows : Grows (written .working 1)
      (run TaskStatus.state (written .working 1) (written .working 1) 0 0 twoTurns).log := by
    rw [log_two_turns]
    change List.IsChain _ [written .working 1, written .working 2, written .completed 3]
    simp [TaskObject.agentMessages, written, List.range, List.range.loop]
  obtain ⟨-, hdelivered, hchanges, -⟩ := delivers_exactly_once (fun _ _ h => h) hgrows
  refine ⟨hchanges, ?_⟩
  have hlast : lastRead (written .working 1)
      (run TaskStatus.state (written .working 1) (written .working 1) 0 0 twoTurns).log =
      written .completed 3 := by
    rw [log_two_turns]
    rfl
  rw [hlast] at hdelivered
  exact hdelivered (by decide)

end Watcher

end ManagedAgents.Controller
