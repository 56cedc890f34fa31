import Mathlib.Data.Finset.Basic
import ManagedAgents.Controller.Rows
import ManagedAgents.Lib.EventLoop
import ManagedAgents.Lib.Machine

/-!
The push worker of the local controller, `AsyncLocalPushTrigger` of `push_trigger.py`, until it is
stopped.

Any thread may ask for a wakeup of a context at any time, but none while `start` runs, which the
controller's lifespan calls before there are requests. The worker takes one context after the other
from its queue. Times are those of the event loop, which counts `u` of them to a second.
-/

namespace ManagedAgents.Push

open ManagedAgents.Lib
open ManagedAgents.Controller (ContextId Text)

/-! ### The trigger -/

/-- A call of `_enqueue` that the loop will make, for a caller or when a timer is due. -/
inductive Callback
  | enqueue (contextId : ContextId) (delaySeconds : ℕ)
  | timer (contextId : ContextId)

structure AsyncLocalPushTrigger where
  pending : List (ContextId × Text × ℕ) := []
  /-- There is a loop, a queue and a worker. -/
  started : Bool := false
  loop : EventLoop Callback := .new
  queue : List ContextId := []
  queued : Finset ContextId := ∅
  timers : ContextId → Option (Handle Callback) := fun _ => none
  /-- What the worker runs. -/
  running : Option ContextId := none

namespace AsyncLocalPushTrigger

variable (u : ℕ)

def setTimer (s : AsyncLocalPushTrigger) (contextId : ContextId) (delaySeconds : ℕ) :
    AsyncLocalPushTrigger :=
  { s with
    loop := s.loop.callLater (u * delaySeconds) (.timer contextId)
    timers := Function.update s.timers contextId
      (some (s.loop.handle (u * delaySeconds) (.timer contextId))) }

def dropTimer (s : AsyncLocalPushTrigger) (contextId : ContextId) : AsyncLocalPushTrigger :=
  match s.timers contextId with
  | some timer =>
    { s with
      loop := s.loop.cancel timer.id
      timers := Function.update s.timers contextId none }
  | none => s

def put (s : AsyncLocalPushTrigger) (contextId : ContextId) : AsyncLocalPushTrigger :=
  if contextId ∈ s.queued then s
  else { s with queued := insert contextId s.queued, queue := s.queue ++ [contextId] }

/-- `_enqueue`. -/
def enqueue (s : AsyncLocalPushTrigger) (contextId : ContextId) (delaySeconds : ℕ) :
    AsyncLocalPushTrigger :=
  if s.started = false then s
  else if delaySeconds = 0 then (s.dropTimer contextId).put contextId
  else
    match s.timers contextId with
    | some timer =>
      if timer.due ≤ s.loop.now + u * delaySeconds then s
      else { s with loop := s.loop.cancel timer.id }.setTimer u contextId delaySeconds
    | none => s.setTimer u contextId delaySeconds

def scheduleContext (s : AsyncLocalPushTrigger) (contextId : ContextId) (reason : Text)
    (delaySeconds : ℕ) : Option AsyncLocalPushTrigger :=
  if reason = "" ∨ 900 < delaySeconds then none
  else if s.started then
    some { s with loop := s.loop.callSoon (.enqueue contextId delaySeconds) }
  else some { s with pending := s.pending ++ [(contextId, reason, delaySeconds)] }

/-- `_run` gets a context from the queue. -/
def get (s : AsyncLocalPushTrigger) : Option (ContextId × AsyncLocalPushTrigger) :=
  match s.queue, s.started, s.running with
  | contextId :: rest, true, none =>
    some (contextId,
      { s with queue := rest, queued := s.queued.erase contextId, running := some contextId })
  | _, _, _ => none

end AsyncLocalPushTrigger

/-! ### Its runs -/

/-- What a log of the trigger says, newest first. -/
inductive Note
  /-- A wakeup was asked for. -/
  | asked (contextId : ContextId) (delaySeconds : ℕ)
  /-- `_enqueue` was called at this time. -/
  | called (contextId : ContextId) (time delaySeconds : ℕ)
  /-- The worker began to run this context. -/
  | began (contextId : ContextId)
  deriving DecidableEq

structure Worker where
  trigger : AsyncLocalPushTrigger := {}
  log : List Note := []

namespace Worker

variable (u : ℕ)

def enqueue (w : Worker) (contextId : ContextId) (delaySeconds : ℕ) : Worker where
  trigger := w.trigger.enqueue u contextId delaySeconds
  log := .called contextId w.trigger.loop.now delaySeconds :: w.log

/-- The calls that `start` makes for what was asked before. -/
def enqueueAll (w : Worker) : List (ContextId × Text × ℕ) → Worker
  | [] => w
  | (contextId, _, delaySeconds) :: rest =>
    (w.enqueue u contextId delaySeconds).enqueueAll rest

def start (w : Worker) : Worker :=
  let w := { w with trigger.started := true }.enqueueAll u w.trigger.pending
  { w with trigger.pending := [] }

inductive Event
  | scheduleContext (contextId : ContextId) (reason : Text) (delaySeconds : ℕ)
  | start
  /-- The loop runs a callback. -/
  | run (id : ℕ)
  /-- The worker takes the next context. -/
  | get
  /-- What the worker runs is over, however it ended. -/
  | done
  | pass (t : ℕ)

def act (w : Worker) : Event → Option Worker
  | .scheduleContext contextId reason delaySeconds =>
    (w.trigger.scheduleContext contextId reason delaySeconds).map fun trigger =>
      ⟨trigger, .asked contextId delaySeconds :: w.log⟩
  | .start => if w.trigger.started then none else some (w.start u)
  | .run id =>
    (w.trigger.loop.take id).map fun (callback, loop) =>
      let w := { w with trigger.loop := loop }
      match callback with
      | .enqueue contextId delaySeconds => w.enqueue u contextId delaySeconds
      | .timer contextId => w.enqueue u contextId 0
  | .get => w.trigger.get.map fun (contextId, trigger) => ⟨trigger, .began contextId :: w.log⟩
  | .done => if w.trigger.running.isSome then some { w with trigger.running := none } else none
  | .pass t => some { w with trigger.loop := w.trigger.loop.advance t }

abbrev Reachable : Worker → Prop := Machine.Reached (act u) {}

end Worker

/-! ### What a call of `_enqueue` does -/

namespace AsyncLocalPushTrigger

variable {u : ℕ} {s : AsyncLocalPushTrigger} {c c' : ContextId} {d d' due : ℕ}
  {h timer : Handle Callback}

/-- The set names what is queued, once each, and the timers those that wait in the loop. -/
structure Tidy (s : AsyncLocalPushTrigger) : Prop where
  queued : ∀ {c}, c ∈ s.queued ↔ c ∈ s.queue
  nodup : s.queue.Nodup
  timer : ∀ {c h}, s.timers c = some h ↔ h ∈ s.loop.handles ∧ h.callback = .timer c

lemma Tidy.mem_cancel (ht : Tidy s) (htimer : s.timers c = some timer) :
    h ∈ (s.loop.cancel timer.id).handles ↔ h ∈ s.loop.handles ∧ h.callback ≠ .timer c := by
  obtain ⟨hmem, hcallback⟩ := ht.timer.mp htimer
  rw [EventLoop.mem_cancel]
  refine and_congr_right fun hh => not_congr ⟨fun hid => ?_, fun hcall => ?_⟩
  · rw [EventLoop.eq_of_id hh hmem hid]
    exact hcallback
  · have heq := htimer.symm.trans (ht.timer.mpr ⟨hh, hcall⟩)
    rw [Option.some.inj heq]

/-- Dropping a timer takes the one callback of it from the loop. -/
lemma Tidy.mem_dropTimer (ht : Tidy s) :
    h ∈ (s.dropTimer c).loop.handles ↔ h ∈ s.loop.handles ∧ h.callback ≠ .timer c := by
  unfold dropTimer
  split
  · rename_i timer htimer
    exact ht.mem_cancel htimer
  · rename_i hnone
    refine ⟨fun hh => ⟨hh, fun hcall => ?_⟩, And.left⟩
    rw [ht.timer.mpr ⟨hh, hcall⟩] at hnone
    cases hnone

@[simp] lemma dropTimer_queue : (s.dropTimer c).queue = s.queue := by
  unfold dropTimer
  split <;> rfl

@[simp] lemma dropTimer_queued : (s.dropTimer c).queued = s.queued := by
  unfold dropTimer
  split <;> rfl

@[simp] lemma dropTimer_pending : (s.dropTimer c).pending = s.pending := by
  unfold dropTimer
  split <;> rfl

@[simp] lemma dropTimer_started : (s.dropTimer c).started = s.started := by
  unfold dropTimer
  split <;> rfl

@[simp] lemma dropTimer_now : (s.dropTimer c).loop.now = s.loop.now := by
  unfold dropTimer
  split <;> rfl

lemma dropTimer_timers :
    (s.dropTimer c).timers c' = if c' = c then none else s.timers c' := by
  unfold dropTimer
  split
  · simp [Function.update_apply]
  · rename_i hnone
    split
    · rename_i heq
      rw [heq, hnone]
    · rfl

lemma Tidy.dropTimer (ht : Tidy s) : Tidy (s.dropTimer c) := by
  refine ⟨fun {c'} => by rw [dropTimer_queued, dropTimer_queue, ht.queued],
    by simpa using ht.nodup, fun {c' h} => ?_⟩
  rw [dropTimer_timers, ht.mem_dropTimer]
  by_cases hc : c' = c
  · subst hc
    simp
  · rw [if_neg hc, ht.timer]
    refine ⟨fun ⟨hh, hcall⟩ => ⟨⟨hh, ?_⟩, hcall⟩, fun ⟨⟨hh, _⟩, hcall⟩ => ⟨hh, hcall⟩⟩
    rw [hcall]
    intro heq
    exact hc (Callback.timer.inj heq)

lemma Tidy.setTimer (ht : Tidy s) (hnone : s.timers c = none) :
    Tidy (s.setTimer u c d) := by
  refine ⟨ht.queued, ht.nodup, fun {c' h} => ?_⟩
  simp only [AsyncLocalPushTrigger.setTimer, EventLoop.mem_callLater, Function.update_apply]
  by_cases hc : c' = c
  · subst hc
    rw [if_pos rfl]
    constructor
    · intro heq
      rw [← Option.some.inj heq]
      exact ⟨.inl rfl, rfl⟩
    · rintro ⟨rfl | hh, hcall⟩
      · rfl
      · rw [ht.timer.mpr ⟨hh, hcall⟩] at hnone
        cases hnone
  · rw [if_neg hc, ht.timer]
    constructor
    · rintro ⟨hh, hcall⟩
      exact ⟨.inr hh, hcall⟩
    · rintro ⟨rfl | hh, hcall⟩
      · exact absurd (Callback.timer.inj hcall).symm hc
      · exact ⟨hh, hcall⟩

@[simp] lemma put_started : (s.put c).started = s.started := by
  unfold put
  split <;> rfl

@[simp] lemma put_pending : (s.put c).pending = s.pending := by
  unfold put
  split <;> rfl

@[simp] lemma put_loop : (s.put c).loop = s.loop := by
  unfold put
  split <;> rfl

lemma mem_put : c' ∈ (s.put c).queue ↔ c' ∈ s.queue ∨ (c' = c ∧ c ∉ s.queued) := by
  unfold put
  split
  · rename_i hin
    simp [hin]
  · rename_i hout
    simp [hout]

lemma Tidy.put (ht : Tidy s) : Tidy (s.put c) := by
  refine ⟨fun {c'} => ?_, ?_, ?_⟩
  · rw [mem_put]
    unfold AsyncLocalPushTrigger.put
    split
    · rename_i hin
      simp [hin, ht.queued]
    · rename_i hout
      simp [hout, ht.queued, or_comm]
  · unfold AsyncLocalPushTrigger.put
    split
    · exact ht.nodup
    · rename_i hout
      have hfree : c ∉ s.queue := fun hin => hout (ht.queued.mpr hin)
      refine List.nodup_append.mpr ⟨ht.nodup, List.nodup_singleton c, fun a ha b hb heq => ?_⟩
      rw [heq, List.mem_singleton.mp hb] at ha
      exact hfree ha
  · unfold AsyncLocalPushTrigger.put
    split <;> exact ht.timer

/-- With a delay, a timer that is due in time is left alone and a later one replaced. -/
lemma enqueue_later (hstarted : s.started = true) (hd : d ≠ 0) :
    (∃ timer, s.timers c = some timer ∧ timer.due ≤ s.loop.now + u * d ∧
      s.enqueue u c d = s) ∨
    ((∀ timer, s.timers c = some timer → s.loop.now + u * d < timer.due) ∧
      s.enqueue u c d = (s.dropTimer c).setTimer u c d) := by
  rw [enqueue, if_neg (by simp [hstarted]), if_neg hd]
  cases htimer : s.timers c with
  | none =>
    right
    refine ⟨nofun, ?_⟩
    simp only [dropTimer, htimer]
  | some timer =>
    dsimp only
    split
    · rename_i hle
      exact .inl ⟨timer, rfl, hle, rfl⟩
    · rename_i hlt
      right
      refine ⟨fun t ht => ?_, ?_⟩
      · rw [← Option.some.inj ht]
        omega
      · simp only [dropTimer, htimer, setTimer, Function.update_idem]

lemma enqueue_now (hstarted : s.started = true) :
    s.enqueue u c 0 = (s.dropTimer c).put c := by
  simp [enqueue, hstarted]

lemma enqueue_started : (s.enqueue u c d).started = s.started := by
  unfold enqueue
  split
  · rfl
  · split
    · simp
    · split
      · split <;> rfl
      · rfl

lemma enqueue_pending : (s.enqueue u c d).pending = s.pending := by
  unfold enqueue
  split
  · rfl
  · split
    · simp
    · split
      · split <;> rfl
      · rfl

lemma Tidy.enqueue (ht : Tidy s) : Tidy (s.enqueue u c d) := by
  by_cases hstarted : s.started = true
  · by_cases hd : d = 0
    · subst hd
      rw [enqueue_now hstarted]
      exact ht.dropTimer.put
    · rcases enqueue_later hstarted hd with ⟨timer, -, -, heq⟩ | ⟨-, heq⟩
      · rw [heq]
        exact ht
      · rw [heq]
        exact ht.dropTimer.setTimer (by simp [dropTimer_timers])
  · rw [AsyncLocalPushTrigger.enqueue, if_pos (by simpa using hstarted)]
    exact ht

/-! ### What is awaited -/

/-- A run of this context will begin: it is queued, or its timer is due by then. -/
def Served (s : AsyncLocalPushTrigger) (contextId : ContextId) (due : ℕ) : Prop :=
  contextId ∈ s.queue ∨ ∃ h ∈ s.loop.handles, h.callback = .timer contextId ∧ h.due ≤ due

/-- The loop has not yet called `_enqueue` for this. -/
def Waits (s : AsyncLocalPushTrigger) (contextId : ContextId) (delaySeconds : ℕ) : Prop :=
  (∃ reason, (contextId, reason, delaySeconds) ∈ s.pending) ∨
    ∃ h ∈ s.loop.handles, h.callback = .enqueue contextId delaySeconds

lemma served_enqueue (ht : Tidy s) (hstarted : s.started = true) :
    Served (s.enqueue u c d) c (s.loop.now + u * d) := by
  by_cases hd : d = 0
  · subst hd
    rw [enqueue_now hstarted]
    refine .inl (mem_put.mpr ?_)
    simp only [dropTimer_queue, dropTimer_queued, ht.queued, true_and]
    exact em _
  · rcases enqueue_later (u := u) (c := c) hstarted hd with
      ⟨timer, htimer, hle, heq⟩ | ⟨-, heq⟩
    · rw [heq]
      obtain ⟨hmem, hcall⟩ := ht.timer.mp htimer
      exact .inr ⟨timer, hmem, hcall, hle⟩
    · rw [heq]
      refine .inr ⟨_, List.mem_cons_self, rfl, ?_⟩
      simp

/-- A call keeps what was awaited: a timer goes only for a run that is queued, or for a timer that
is due before it. -/
lemma Served.enqueue (ht : Tidy s) (hstarted : s.started = true) (h : Served s c' due) :
    Served (s.enqueue u c d) c' due := by
  by_cases hd : d = 0
  · subst hd
    rw [enqueue_now hstarted]
    by_cases hc : c' = c
    · have hself := served_enqueue (u := u) (d := 0) (c := c) ht hstarted
      rw [enqueue_now hstarted] at hself
      rcases hself with hqueue | ⟨x, hx, hcall, -⟩
      · exact .inl (hc ▸ hqueue)
      · have hdropped : x ∈ (s.dropTimer c).loop.handles := by
          unfold put at hx
          split at hx <;> exact hx
        exact absurd hcall (ht.mem_dropTimer.mp hdropped).2
    · rcases h with hqueue | ⟨x, hx, hcall, hle⟩
      · exact .inl (mem_put.mpr (.inl (by simpa using hqueue)))
      · refine .inr ⟨x, ?_, hcall, hle⟩
        rw [put_loop, ht.mem_dropTimer, hcall]
        exact ⟨hx, fun heq => hc (Callback.timer.inj heq)⟩
  · rcases enqueue_later (u := u) (c := c) hstarted hd with
      ⟨timer, -, -, heq⟩ | ⟨hlt, heq⟩
    · rw [heq]
      exact h
    · rw [heq]
      rcases h with hqueue | ⟨x, hx, hcall, hle⟩
      · exact .inl (by simpa [setTimer] using hqueue)
      · by_cases hc : c' = c
        · subst hc
          have hbefore := hlt x (ht.timer.mpr ⟨hx, hcall⟩)
          refine .inr ⟨_, List.mem_cons_self, rfl, ?_⟩
          simp only [EventLoop.handle_due, dropTimer_now]
          omega
        · refine .inr ⟨x, List.mem_cons_of_mem _ (ht.mem_dropTimer.mpr ⟨hx, ?_⟩), hcall, hle⟩
          rw [hcall]
          exact fun heq => hc (Callback.timer.inj heq)

lemma Waits.enqueue (ht : Tidy s) (h : Waits s c' d') : Waits (s.enqueue u c d) c' d' := by
  rcases h with ⟨reason, hpending⟩ | ⟨x, hx, hcall⟩
  · left
    rw [enqueue_pending]
    exact ⟨reason, hpending⟩
  · refine .inr ⟨x, ?_, hcall⟩
    have hdropped : x ∈ (s.dropTimer c).loop.handles :=
      ht.mem_dropTimer.mpr ⟨hx, by rw [hcall]; nofun⟩
    by_cases hstarted : s.started = true
    · by_cases hd : d = 0
      · subst hd
        rw [enqueue_now hstarted]
        rw [put_loop]
        exact hdropped
      · rcases enqueue_later (u := u) (c := c) hstarted hd with
          ⟨timer, -, -, heq⟩ | ⟨-, heq⟩
        · rw [heq]
          exact hx
        · rw [heq]
          exact List.mem_cons_of_mem _ hdropped
    · rw [AsyncLocalPushTrigger.enqueue, if_pos (by simpa using hstarted)]
      exact hx

/-- When a timer has fired, its callback does what it would do if it were still waiting. -/
lemma Tidy.fired (ht : Tidy s) (hstarted : s.started = true) (hh : h ∈ s.loop.handles)
    (hcall : h.callback = .timer c) :
    { s with loop := s.loop.cancel h.id }.enqueue u c 0 = s.enqueue u c 0 := by
  have htimer := ht.timer.mpr ⟨hh, hcall⟩
  rw [enqueue_now (s := s) hstarted,
    enqueue_now (s := { s with loop := s.loop.cancel h.id }) hstarted]
  simp only [AsyncLocalPushTrigger.dropTimer, htimer, EventLoop.cancel_cancel]

lemma Tidy.called (ht : Tidy s) (hh : h ∈ s.loop.handles) (hcall : h.callback = .enqueue c d) :
    Tidy { s with loop := s.loop.cancel h.id } := by
  refine ⟨ht.queued, ht.nodup, fun {c' x} => ?_⟩
  rw [ht.timer, EventLoop.mem_cancel, and_assoc]
  refine and_congr_right fun hx => ⟨fun hxcall => ⟨fun hid => ?_, hxcall⟩, And.right⟩
  rw [EventLoop.eq_of_id hx hh hid, hcall] at hxcall
  cases hxcall

end AsyncLocalPushTrigger

end ManagedAgents.Push
