import ManagedAgents.Controller.Rows
import ManagedAgents.Lib.EventLoop
import ManagedAgents.Lib.Machine

/-!
The wakeups of the local controller, `AsyncLocalSchedulerTrigger` of `trigger.py`, until it is
stopped.

A wakeup is a job of its own: it sleeps, runs the scheduler once and, when that fails, asks for
another wakeup. Times are those of the event loop, which counts `u` of them to a second.
-/

namespace ManagedAgents.Controller

open ManagedAgents.Lib

/-! ### The trigger -/

namespace AsyncLocalSchedulerTrigger

/-- What the loop will call: `launch`, or the code of a job before or after its sleep. -/
inductive Callback
  | launch (contextId : ContextId) (delaySeconds : ℕ)
  | job (contextId : ContextId) (delaySeconds : ℕ)
  | awake (contextId : ContextId)

def Callback.contextId : Callback → ContextId
  | launch contextId _ | job contextId _ | awake contextId => contextId

end AsyncLocalSchedulerTrigger

open AsyncLocalSchedulerTrigger

structure AsyncLocalSchedulerTrigger where
  /-- There is a loop and a scheduler. -/
  started : Bool := false
  loop : EventLoop Callback := .new
  /-- The calls of `run_once` that are not over, each under a number of its own. -/
  running : List (ℕ × ContextId) := []
  runs : ℕ := 0

namespace AsyncLocalSchedulerTrigger

/-- How a call of `run_once` ends. -/
inductive Outcome
  | done | busy | failed
  deriving DecidableEq

/-- What a log of the trigger says, newest first. -/
inductive Note
  | asked (contextId : ContextId) (delaySeconds : ℕ)
  | began (run : ℕ) (contextId : ContextId)
  | ended (run : ℕ) (contextId : ContextId) (outcome : Outcome)
  deriving DecidableEq

structure Process where
  trigger : AsyncLocalSchedulerTrigger := {}
  log : List Note := []

namespace Process

variable (u : ℕ)

def schedule (w : Process) (contextId : ContextId) (reason : Text) (delaySeconds : ℕ) :
    Option Process :=
  if reason = "" ∨ 900 < delaySeconds then none
  else if w.trigger.started = false then none
  else
    some
      { w with
        trigger.loop := w.trigger.loop.callSoon (.launch contextId delaySeconds)
        log := .asked contextId delaySeconds :: w.log }

def runOnce (w : Process) (contextId : ContextId) : Process :=
  { w with
    trigger.running := (w.trigger.runs, contextId) :: w.trigger.running
    trigger.runs := w.trigger.runs + 1
    log := .began w.trigger.runs contextId :: w.log }

/-- The loop calls this: a job is made, goes to sleep or runs. -/
def call (w : Process) : Callback → Process
  | .launch contextId delaySeconds =>
    { w with trigger.loop := w.trigger.loop.callSoon (.job contextId delaySeconds) }
  | .job contextId delaySeconds =>
    if delaySeconds = 0 then w.runOnce contextId
    else { w with trigger.loop := w.trigger.loop.callLater (u * delaySeconds) (.awake contextId) }
  | .awake contextId => w.runOnce contextId

/-- The rest of `_run`, when `run_once` is over. -/
def finish (w : Process) (run : ℕ) (outcome : Outcome) : Option Process :=
  match w.trigger.running.find? (·.1 = run) with
  | none => none
  | some (_, contextId) =>
    let w :=
      { w with
        trigger.running := w.trigger.running.filter (·.1 ≠ run)
        log := .ended run contextId outcome :: w.log }
    match outcome with
    | .done => some w
    | .busy => w.schedule contextId "lease-busy" 1
    | .failed => w.schedule contextId "retry-after-error" 5

inductive Event
  | start
  | schedule (contextId : ContextId) (reason : Text) (delaySeconds : ℕ)
  /-- The loop runs a callback. -/
  | run (id : ℕ)
  | finish (run : ℕ) (outcome : Outcome)
  | pass (t : ℕ)

def act (w : Process) : Event → Option Process
  | .start => if w.trigger.started then none else some { w with trigger.started := true }
  | .schedule contextId reason delaySeconds => w.schedule contextId reason delaySeconds
  | .run id =>
    (w.trigger.loop.take id).map fun (callback, loop) =>
      { w with trigger.loop := loop }.call u callback
  | .finish run outcome => w.finish run outcome
  | .pass t => some { w with trigger.loop := w.trigger.loop.advance t }

abbrev Reachable : Process → Prop := Machine.Reached (act u) {}

/-! ### Nothing is lost -/

variable {u : ℕ} {w w' : Process} {c : ContextId} {d run : ℕ} {outcome : Outcome}
  {later : List Note}

/-- A run of this context will begin. -/
def Due (w : Process) (c : ContextId) : Prop :=
  ∃ h ∈ w.trigger.loop.handles, h.callback.contextId = c

/-- Since then, a run of this context has begun and was not in vain, or one will be tried: it is
due, or began and is not over. -/
def Answered (w : Process) (c : ContextId) (later : List Note) : Prop :=
  w.Due c ∨ (∃ run, (run, c) ∈ w.trigger.running ∧ .began run c ∈ later) ∨
    ∃ run after before, later = after ++ .ended run c .done :: before ∧ .began run c ∈ before

structure Good (w : Process) : Prop where
  /-- The numbers of the runs are their own. -/
  old : ∀ p ∈ w.trigger.running, p.1 < w.trigger.runs
  apart : ∀ p ∈ w.trigger.running, ∀ q ∈ w.trigger.running, p.1 = q.1 → p = q
  answered : ∀ {later c d earlier}, w.log = later ++ .asked c d :: earlier → w.Answered c later

lemma Answered.mono (h : w.Answered c later) (hdue : w.Due c → w'.Due c)
    (hrunning : ∀ p ∈ w.trigger.running, p ∈ w'.trigger.running) : w'.Answered c later := by
  rcases h with h | ⟨run, hrun, hbegan⟩ | hdone
  · exact .inl (hdue h)
  · exact .inr (.inl ⟨run, hrunning _ hrun, hbegan⟩)
  · exact .inr (.inr hdone)

lemma Answered.cons {n : Note} (h : w.Answered c later) : w.Answered c (n :: later) := by
  rcases h with h | ⟨run, hrun, hbegan⟩ | ⟨run, after, before, rfl, hbegan⟩
  · exact .inl h
  · exact .inr (.inl ⟨run, hrun, List.mem_cons_of_mem _ hbegan⟩)
  · exact .inr (.inr ⟨run, n :: after, before, rfl, hbegan⟩)

/-- A wakeup of a context is an answer to all who asked for one. -/
lemma good_of_schedule {reason : Text} (hold : ∀ p ∈ w.trigger.running, p.1 < w.trigger.runs)
    (hapart : ∀ p ∈ w.trigger.running, ∀ q ∈ w.trigger.running, p.1 = q.1 → p = q)
    (hanswered : ∀ {later c' d' earlier}, w.log = later ++ .asked c' d' :: earlier →
      c' = c ∨ w.Answered c' later)
    (hs : w.schedule c reason d = some w') : Good w' := by
  unfold Process.schedule at hs
  split at hs
  · cases hs
  · split at hs
    · cases hs
    · cases hs
      refine ⟨hold, hapart, fun {later c' d' earlier} hlog => ?_⟩
      rcases List.cons_eq_append_iff.mp hlog with ⟨rfl, heq⟩ | ⟨later, rfl, hbefore⟩
      · cases heq
        exact .inl ⟨_, List.mem_cons_self, rfl⟩
      · rcases hanswered hbefore with rfl | hanswer
        · exact .inl ⟨_, List.mem_cons_self, rfl⟩
        · refine hanswer.cons.mono ?_ fun _ hp => hp
          rintro ⟨x, hx, hcall⟩
          exact ⟨x, List.mem_cons_of_mem _ hx, hcall⟩

/-- Those whose wakeup was taken from the loop are answered by the run that begins. -/
lemma Good.runOnce {l : EventLoop Callback} (h : Good w)
    (hrest : ∀ c', c' ≠ c → w.Due c' → ({ w with trigger.loop := l } : Process).Due c') :
    Good ({ w with trigger.loop := l }.runOnce c) := by
  refine ⟨?_, ?_, fun {later c' d' earlier} hlog => ?_⟩
  · intro p hp
    rcases List.mem_cons.mp hp with rfl | hp
    · exact Nat.lt_succ_self _
    · exact Nat.lt_succ_of_lt (h.old p hp)
  · intro p hp q hq heq
    rcases List.mem_cons.mp hp with rfl | hp
    · rcases List.mem_cons.mp hq with rfl | hq
      · rfl
      · have hlt := h.old q hq
        dsimp only at heq
        omega
    · rcases List.mem_cons.mp hq with rfl | hq
      · have hlt := h.old p hp
        dsimp only at heq
        omega
      · exact h.apart p hp q hq heq
  · rcases List.cons_eq_append_iff.mp hlog with ⟨-, heq⟩ | ⟨later, rfl, hbefore⟩
    · cases heq
    · by_cases hc : c' = c
      · subst hc
        exact .inr (.inl ⟨_, List.mem_cons_self, List.mem_cons_self⟩)
      · exact (h.answered hbefore).cons.mono (hrest c' hc) fun _ hp => List.mem_cons_of_mem _ hp

lemma Good.take {id : ℕ} (h : Good w) (hact : w.act u (.run id) = some w') : Good w' := by
  obtain ⟨⟨callback, loop⟩, htake, rfl⟩ := Option.map_eq_some_iff.mp hact
  obtain ⟨x, hx, rfl, -, rfl⟩ := EventLoop.take_spec htake
  have hrest : ∀ c', c' ≠ x.callback.contextId → w.Due c' →
      ({ w with trigger.loop := w.trigger.loop.cancel x.id } : Process).Due c' := by
    rintro c' hc ⟨y, hy, rfl⟩
    refine ⟨y, EventLoop.mem_cancel.mpr ⟨hy, fun hid => hc ?_⟩, rfl⟩
    rw [EventLoop.eq_of_id hy hx hid]
  have hlater : ∀ {delay : ℕ} {k : Callback}, k.contextId = x.callback.contextId →
      Good { w with trigger.loop := (w.trigger.loop.cancel x.id).callLater delay k } := by
    intro delay k hk
    refine ⟨h.old, h.apart, fun {later c' d' earlier} hlog => ?_⟩
    refine (h.answered hlog).mono (fun hdue => ?_) fun _ hp => hp
    by_cases hc : c' = x.callback.contextId
    · exact ⟨_, List.mem_cons_self, hk.trans hc.symm⟩
    · obtain ⟨y, hy, hcall⟩ := hrest c' hc hdue
      exact ⟨y, List.mem_cons_of_mem _ hy, hcall⟩
  generalize hcallback : x.callback = callback at hrest hlater
  cases callback with
  | launch c d => exact hlater rfl
  | job c d =>
    simp only [call]
    split
    · exact h.runOnce hrest
    · exact hlater rfl
  | awake c => exact h.runOnce hrest

/-- A run that was in vain is followed by another wakeup. -/
lemma Good.finish (h : Good w) (hfinish : w.finish run outcome = some w') : Good w' := by
  unfold Process.finish at hfinish
  split at hfinish
  · cases hfinish
  · rename_i found c hfind
    have hmem := List.mem_of_find?_eq_some hfind
    have hfound : found = run := by simpa using List.find?_some hfind
    subst hfound
    have hold : ∀ p ∈ w.trigger.running.filter (·.1 ≠ found), p.1 < w.trigger.runs :=
      fun p hp => h.old p (List.mem_of_mem_filter hp)
    have hapart : ∀ p ∈ w.trigger.running.filter (·.1 ≠ found),
        ∀ q ∈ w.trigger.running.filter (·.1 ≠ found), p.1 = q.1 → p = q :=
      fun p hp q hq => h.apart p (List.mem_of_mem_filter hp) q (List.mem_of_mem_filter hq)
    let left : Process :=
      { w with
        trigger.running := w.trigger.running.filter (·.1 ≠ found)
        log := .ended found c outcome :: w.log }
    -- all are answered as before, but for those whom this run was to answer
    have hover : ∀ {later c' d' earlier}, left.log = later ++ .asked c' d' :: earlier →
        (c' = c ∧ ∃ before, later = .ended found c outcome :: before ∧ .began found c ∈ before) ∨
          left.Answered c' later := by
      intro later c' d' earlier hlog
      rcases List.cons_eq_append_iff.mp hlog with ⟨-, heq⟩ | ⟨later, rfl, hbefore⟩
      · cases heq
      · rcases h.answered hbefore with hdue | ⟨other, hother, hbegan⟩ | hdone
        · exact .inr (.inl hdue)
        · by_cases heq : other = found
          · subst heq
            have hsame := h.apart _ hother _ hmem rfl
            cases hsame
            exact .inl ⟨rfl, later, rfl, hbegan⟩
          · refine .inr (.inr (.inl ⟨other, ?_, List.mem_cons_of_mem _ hbegan⟩))
            exact List.mem_filter.mpr ⟨hother, by simpa using heq⟩
        · exact .inr (Answered.cons (w := left) (.inr (.inr hdone)))
    cases outcome with
    | done =>
      cases hfinish
      refine ⟨hold, hapart, fun hlog => ?_⟩
      rcases hover hlog with ⟨rfl, before, rfl, hbegan⟩ | hanswered
      · exact .inr (.inr ⟨found, [], before, rfl, hbegan⟩)
      · exact hanswered
    | busy =>
      exact good_of_schedule (w := left) hold hapart (fun hlog => (hover hlog).imp_left And.left)
        hfinish
    | failed =>
      exact good_of_schedule (w := left) hold hapart (fun hlog => (hover hlog).imp_left And.left)
        hfinish

lemma Good.act {e : Event} (h : Good w) (hact : w.act u e = some w') : Good w' := by
  cases e with
  | start =>
    simp only [Process.act] at hact
    split at hact
    · cases hact
    · cases hact
      exact ⟨h.old, h.apart, fun hlog => (h.answered hlog).mono (fun hdue => hdue) fun _ hp => hp⟩
  | schedule c reason d =>
    exact good_of_schedule h.old h.apart (fun hlog => .inr (h.answered hlog)) hact
  | run id => exact h.take hact
  | finish run outcome => exact h.finish hact
  | pass t =>
    cases hact
    exact ⟨h.old, h.apart, fun hlog => (h.answered hlog).mono (fun hdue => hdue) fun _ hp => hp⟩

/-- **A wakeup is tried until it succeeds.** Whatever any thread asks and however the loop and the
runs of the scheduler go on, every wakeup that was asked for has been followed by a run of its
context that began since and succeeded, or a run of it is due, or one that began since is not
over. -/
theorem wakeups_tried (hw : Reachable u w) {earlier : List Note}
    (hlog : w.log = later ++ .asked c d :: earlier) : w.Answered c later := by
  have hgood : Good w := hw.invariant ⟨nofun, nofun, fun hlog => by simp at hlog⟩ Good.act
  exact hgood.answered hlog

/-- A run that found its context busy, and the wakeup that it asked for. -/
theorem wakeups_tried_again : ∃ w : Process, Reachable 2 w ∧ w.log.head? = some (.began 1 7) ∧
    w.Answered 7 [.began 1 7, .asked 7 1, .ended 0 7 .busy, .began 0 7] := by
  have hplay : (Machine.play (act 2) [.start, .schedule 7 "send" 0, .run 0, .run 1, .finish 0 .busy,
      .run 2, .run 3, .pass 2, .run 4] {}).map (·.log) =
      some [.began 1 7, .asked 7 1, .ended 0 7 .busy, .began 0 7, .asked 7 0] := by decide +kernel
  obtain ⟨w, hw, hlog⟩ := Machine.reached_of_play hplay
  have hsplit : w.log = [.began 1 7, .asked 7 1, .ended 0 7 .busy, .began 0 7] ++
      .asked 7 0 :: [] := hlog
  exact ⟨w, hw, by rw [hlog]; rfl, wakeups_tried hw hsplit⟩

end Process

end AsyncLocalSchedulerTrigger

end ManagedAgents.Controller
