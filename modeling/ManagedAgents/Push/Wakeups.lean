import ManagedAgents.Push.LocalTrigger

/-!
What the local push worker owes to those who ask for wakeups: none is lost, and none comes unasked.
-/

namespace ManagedAgents.Push

open ManagedAgents.Lib
open ManagedAgents.Controller (ContextId Text)

/-! ### Nothing is lost -/

namespace Worker

open AsyncLocalPushTrigger

variable {u : ℕ} {w w' : Worker} {c : ContextId} {d : ℕ}

/-- Every call of `_enqueue` was followed by a run, or will be in time. -/
structure Kept (u : ℕ) (w : Worker) : Prop where
  tidy : Tidy w.trigger
  served : ∀ {later c time d earlier}, w.log = later ++ .called c time d :: earlier →
    .began c ∈ later ∨ w.trigger.Served c (time + u * d)

/-- Moreover, every wakeup was followed by a call, or will be. -/
structure Good (u : ℕ) (w : Worker) : Prop extends Kept u w where
  idle : w.trigger.started = false → w.trigger.loop.handles = []
  empty : w.trigger.started = true → w.trigger.pending = []
  taken : ∀ {later c d earlier}, w.log = later ++ .asked c d :: earlier →
    Waits w.trigger c d ∨ ∃ time, .called c time d ∈ later

lemma Kept.enqueue (h : Kept u w) (hstarted : w.trigger.started = true) :
    Kept u (w.enqueue u c d) := by
  refine ⟨h.tidy.enqueue, fun hlog => ?_⟩
  rcases List.cons_eq_append_iff.mp hlog with ⟨rfl, heq⟩ | ⟨later, rfl, hbefore⟩
  · cases heq
    exact .inr (served_enqueue h.tidy hstarted)
  · refine (h.served hbefore).imp (List.mem_cons_of_mem _) fun hserved => ?_
    exact hserved.enqueue h.tidy hstarted

/-- What `start` does with what was asked before. -/
lemma Kept.enqueueAll (h : Kept u w) (hstarted : w.trigger.started = true)
    (asks : List (ContextId × Text × ℕ)) :
    Kept u (w.enqueueAll u asks) ∧ (w.enqueueAll u asks).trigger.started = true ∧
      ∃ notes, (w.enqueueAll u asks).log = notes ++ w.log ∧
        (∀ n ∈ notes, ∃ c time d, n = .called c time d) ∧
        ∀ p ∈ asks, ∃ time, .called p.1 time p.2.2 ∈ notes := by
  induction asks generalizing w with
  | nil => exact ⟨h, hstarted, [], rfl, nofun, nofun⟩
  | cons p rest ih =>
    obtain ⟨c, reason, d⟩ := p
    obtain ⟨hkept, hon, notes, hlog, hcalls, hall⟩ :=
      ih (h.enqueue (c := c) (d := d) hstarted) (enqueue_started.trans hstarted)
    refine ⟨hkept, hon, notes ++ [.called c w.trigger.loop.now d], ?_, ?_, ?_⟩
    · rw [List.append_assoc]
      exact hlog
    · intro n hn
      rcases List.mem_append.mp hn with hn | hn
      · exact hcalls n hn
      · exact ⟨_, _, _, List.mem_singleton.mp hn⟩
    · intro p hp
      rcases List.mem_cons.mp hp with rfl | hp
      · exact ⟨_, List.mem_append_right _ (List.mem_singleton.mpr rfl)⟩
      · obtain ⟨time, htime⟩ := hall p hp
        exact ⟨time, List.mem_append_left _ htime⟩

lemma Good.start (h : Good u w) (hstarted : w.trigger.started = false) :
    Good u (w.start u) := by
  obtain ⟨hkept, hon, notes, hlog, hcalls, hall⟩ :=
    Kept.enqueueAll (u := u) (w := { w with trigger.started := true })
      ⟨⟨h.tidy.queued, h.tidy.nodup, h.tidy.timer⟩, h.served⟩ rfl w.trigger.pending
  refine ⟨⟨⟨hkept.tidy.queued, hkept.tidy.nodup, hkept.tidy.timer⟩, hkept.served⟩, ?_,
    fun _ => rfl, ?_⟩
  · intro hoff
    cases hon.symm.trans hoff
  · intro later c d earlier heq
    right
    have hbefore : ∀ later', later = notes ++ later' →
        w.log = later' ++ .asked c d :: earlier → ∃ time, .called c time d ∈ later := by
      rintro later' rfl hold
      rcases h.taken hold with (⟨reason, hpending⟩ | ⟨x, hx, -⟩) | ⟨time, htime⟩
      · obtain ⟨time, htime⟩ := hall _ hpending
        exact ⟨time, List.mem_append_left _ htime⟩
      · rw [h.idle hstarted] at hx
        cases hx
      · exact ⟨time, List.mem_append_right _ htime⟩
    rw [show (w.start u).log = notes ++ w.log from hlog] at heq
    rcases List.append_eq_append_iff.mp heq with ⟨later', hlater, hold⟩ | ⟨between, hnotes, hafter⟩
    · exact hbefore later' hlater hold
    · cases between with
      | nil => exact hbefore [] (by simpa using hnotes.symm) hafter.symm
      | cons n rest =>
        obtain rfl := (List.cons.inj hafter).1
        obtain ⟨c', time, d', hcall⟩ := hcalls (.asked c d) (by simp [hnotes])
        cases hcall

lemma Good.scheduleContext {s : AsyncLocalPushTrigger} {reason : Text} (h : Good u w)
    (hs : w.trigger.scheduleContext c reason d = some s) :
    Good u ⟨s, .asked c d :: w.log⟩ := by
  have hkept : ∀ {later c' time d' earlier},
      .asked c d :: w.log = later ++ .called c' time d' :: earlier →
      .began c' ∈ later ∨ w.trigger.Served c' (time + u * d') := by
    intro later c' time d' earlier hlog
    rcases List.cons_eq_append_iff.mp hlog with ⟨-, heq⟩ | ⟨later, rfl, hbefore⟩
    · cases heq
    · exact (h.served hbefore).imp_left (List.mem_cons_of_mem _)
  have htaken : ∀ {later c' d' earlier},
      .asked c d :: w.log = later ++ .asked c' d' :: earlier →
      (c' = c ∧ d' = d) ∨ Waits w.trigger c' d' ∨ ∃ time, .called c' time d' ∈ later := by
    intro later c' d' earlier hlog
    rcases List.cons_eq_append_iff.mp hlog with ⟨-, heq⟩ | ⟨later, rfl, hbefore⟩
    · cases heq
      exact .inl ⟨rfl, rfl⟩
    · refine .inr ((h.taken hbefore).imp_right ?_)
      rintro ⟨time, htime⟩
      exact ⟨time, List.mem_cons_of_mem _ htime⟩
  unfold AsyncLocalPushTrigger.scheduleContext at hs
  split at hs
  · cases hs
  · split at hs
    · rename_i hstarted
      cases hs
      have htidy := h.tidy
      refine ⟨⟨⟨htidy.queued, htidy.nodup, fun {c' x} => ?_⟩, fun hlog => ?_⟩, ?_, h.empty,
        fun hlog => ?_⟩
      · rw [EventLoop.mem_callSoon, htidy.timer]
        refine ⟨fun ⟨hx, hcall⟩ => ⟨.inr hx, hcall⟩, ?_⟩
        rintro ⟨rfl | hx, hcall⟩
        · cases hcall
        · exact ⟨hx, hcall⟩
      · refine (hkept hlog).imp_right fun hserved => hserved.imp_right ?_
        rintro ⟨x, hx, hcall⟩
        exact ⟨x, List.mem_cons_of_mem _ hx, hcall⟩
      · intro hoff
        cases hstarted.symm.trans hoff
      · rcases htaken hlog with ⟨rfl, rfl⟩ | (hpending | ⟨x, hx, hcall⟩) | hcalled
        · exact .inl (.inr ⟨_, List.mem_cons_self, rfl⟩)
        · exact .inl (.inl hpending)
        · exact .inl (.inr ⟨x, List.mem_cons_of_mem _ hx, hcall⟩)
        · exact .inr hcalled
    · rename_i hstopped
      cases hs
      refine ⟨⟨⟨h.tidy.queued, h.tidy.nodup, h.tidy.timer⟩, hkept⟩, h.idle,
        fun hon => absurd hon hstopped, fun hlog => ?_⟩
      rcases htaken hlog with ⟨rfl, rfl⟩ | (⟨reason', hpending⟩ | hwaits) | hcalled
      · exact .inl (.inl ⟨reason, by simp⟩)
      · exact .inl (.inl ⟨reason', List.mem_append_left _ hpending⟩)
      · exact .inl (.inr hwaits)
      · exact .inr hcalled

/-- A call is made for what it was asked for, and keeps all else. -/
lemma Kept.good (h : Kept u w) (hstarted : w.trigger.started = true)
    (hempty : w.trigger.pending = [])
    (htaken : ∀ {later c' d' earlier}, w.log = later ++ .asked c' d' :: earlier →
      (c' = c ∧ d' = d) ∨ Waits w.trigger c' d' ∨ ∃ time, .called c' time d' ∈ later) :
    Good u (w.enqueue u c d) := by
  refine ⟨h.enqueue hstarted, fun hoff => ?_, fun _ => enqueue_pending.trans hempty,
    fun hlog => ?_⟩
  · cases (enqueue_started.trans hstarted).symm.trans hoff
  · rcases List.cons_eq_append_iff.mp hlog with ⟨-, heq⟩ | ⟨later, rfl, hbefore⟩
    · cases heq
    · rcases htaken hbefore with ⟨rfl, rfl⟩ | hwaits | ⟨time, htime⟩
      · exact .inr ⟨_, List.mem_cons_self⟩
      · exact .inl (hwaits.enqueue h.tidy)
      · exact .inr ⟨time, List.mem_cons_of_mem _ htime⟩

lemma Good.run {id : ℕ} (h : Good u w) (hact : w.act u (.run id) = some w') :
    Good u w' := by
  obtain ⟨⟨callback, loop⟩, htake, rfl⟩ := Option.map_eq_some_iff.mp hact
  obtain ⟨x, hx, hcall, -, rfl⟩ := EventLoop.take_spec htake
  have hstarted : w.trigger.started = true := by
    rw [← Bool.not_eq_false]
    intro hoff
    rw [h.idle hoff] at hx
    cases hx
  cases callback with
  | enqueue c d =>
    have hkept : Kept u { w with trigger.loop := w.trigger.loop.cancel x.id } := by
      refine ⟨h.tidy.called hx hcall, fun hlog => (h.served hlog).imp_right ?_⟩
      refine fun hserved => hserved.imp_right fun ⟨y, hy, hycall, hdue⟩ => ⟨y, ?_, hycall, hdue⟩
      refine EventLoop.mem_cancel.mpr ⟨hy, fun hid => ?_⟩
      rw [EventLoop.eq_of_id hy hx hid, hcall] at hycall
      cases hycall
    refine hkept.good hstarted (h.empty hstarted) fun {later c' d' earlier} hlog => ?_
    rcases h.taken hlog with (hpending | ⟨y, hy, hycall⟩) | hcalled
    · exact .inr (.inl (.inl hpending))
    · by_cases hid : y.id = x.id
      · rw [EventLoop.eq_of_id hy hx hid, hcall] at hycall
        cases hycall
        exact .inl ⟨rfl, rfl⟩
      · exact .inr (.inl (.inr ⟨y, EventLoop.mem_cancel.mpr ⟨hy, hid⟩, hycall⟩))
    · exact .inr (.inr hcalled)
  | timer c =>
    have heq : ({ w with trigger.loop := w.trigger.loop.cancel x.id } : Worker).enqueue u c 0 =
        w.enqueue u c 0 := by
      simp only [Worker.enqueue, h.tidy.fired hstarted hx hcall, EventLoop.cancel_now]
    show Good u (({ w with trigger.loop := _ } : Worker).enqueue u c 0)
    rw [heq]
    exact h.toKept.good hstarted (h.empty hstarted) fun hlog => .inr (h.taken hlog)

lemma Good.get {s : AsyncLocalPushTrigger} (h : Good u w)
    (hget : w.trigger.get = some (c, s)) : Good u ⟨s, .began c :: w.log⟩ := by
  unfold AsyncLocalPushTrigger.get at hget
  split at hget
  · rename_i c' rest hqueue hstarted hrunning
    cases hget
    have htidy := h.tidy
    have hnodup := htidy.nodup
    rw [hqueue, List.nodup_cons] at hnodup
    refine ⟨⟨⟨fun {c'} => ?_, hnodup.2, htidy.timer⟩, fun hlog => ?_⟩, h.idle, h.empty,
      fun hlog => ?_⟩
    · rw [Finset.mem_erase, htidy.queued, hqueue, List.mem_cons]
      refine ⟨fun ⟨hne, hin⟩ => hin.resolve_left hne, fun hin => ⟨?_, .inr hin⟩⟩
      rintro rfl
      exact hnodup.1 hin
    · rcases List.cons_eq_append_iff.mp hlog with ⟨-, heq⟩ | ⟨later, rfl, hbefore⟩
      · cases heq
      · rcases h.served hbefore with hbegan | hin | htimer
        · exact .inl (List.mem_cons_of_mem _ hbegan)
        · rw [hqueue] at hin
          rcases List.mem_cons.mp hin with rfl | hin
          · exact .inl List.mem_cons_self
          · exact .inr (.inl hin)
        · exact .inr (.inr htimer)
    · rcases List.cons_eq_append_iff.mp hlog with ⟨-, heq⟩ | ⟨later, rfl, hbefore⟩
      · cases heq
      · refine (h.taken hbefore).imp_right fun ⟨time, htime⟩ => ?_
        exact ⟨time, List.mem_cons_of_mem _ htime⟩
  · cases hget

lemma Good.act {e : Event} (h : Good u w) (hact : w.act u e = some w') :
    Good u w' := by
  cases e with
  | scheduleContext c reason d =>
    obtain ⟨s, hs, rfl⟩ := Option.map_eq_some_iff.mp hact
    exact h.scheduleContext hs
  | start =>
    simp only [Worker.act] at hact
    split at hact
    · cases hact
    · rename_i hoff
      cases hact
      exact h.start (by simpa using hoff)
  | run id => exact h.run hact
  | get =>
    obtain ⟨⟨c, s⟩, hget, rfl⟩ := Option.map_eq_some_iff.mp hact
    exact h.get hget
  | done =>
    simp only [Worker.act] at hact
    split at hact
    · cases hact
      exact ⟨⟨⟨h.tidy.queued, h.tidy.nodup, h.tidy.timer⟩, h.served⟩, h.idle, h.empty, h.taken⟩
    · cases hact
  | pass t =>
    cases hact
    exact ⟨⟨⟨h.tidy.queued, h.tidy.nodup, h.tidy.timer⟩, h.served⟩, h.idle, h.empty, h.taken⟩

lemma Reachable.good (hw : Reachable u w) : Good u w := by
  refine hw.invariant ?_ Good.act
  exact ⟨⟨⟨by simp, List.nodup_nil, by simp⟩, fun hlog => by simp at hlog⟩, fun _ => rfl,
    fun _ => rfl, fun hlog => by simp at hlog⟩

/-- **No wakeup is lost.** Whatever any thread asks, before `start` or after it but not while it
runs, and however the loop and the worker go on, a wakeup that was asked for still waits for the
loop, or the loop has made its call since; and since that call a run of the context has begun, or
the context is queued, or its timer is due no later than was asked. -/
theorem wakeups_kept (hw : Reachable u w) {later earlier : List Note}
    (hlog : w.log = later ++ .asked c d :: earlier) :
    Waits w.trigger c d ∨ ∃ after time before, later = after ++ .called c time d :: before ∧
      (.began c ∈ after ∨ w.trigger.Served c (time + u * d)) := by
  refine hw.good.taken hlog |>.imp_right ?_
  rintro ⟨time, hcalled⟩
  obtain ⟨after, before, rfl⟩ := List.append_of_mem hcalled
  rw [List.append_assoc] at hlog
  exact ⟨after, time, before, rfl, hw.good.served hlog⟩

/-- Asked for before the trigger was started, and again while its context runs. -/
theorem wakeups_kept_again : ∃ w : Worker, Reachable 2 w ∧ w.log.head? = some (.called 7 3 5) ∧
    (Waits w.trigger 7 5 ∨ ∃ after time before,
      [Note.called 7 3 5] = after ++ .called 7 time 5 :: before ∧
        (.began 7 ∈ after ∨ w.trigger.Served 7 (time + 2 * 5))) := by
  have hplay : (Machine.play (act 2) [.scheduleContext 7 "created" 0, .start, .get, .pass 3,
      .scheduleContext 7 "push-retry" 5, .run 0] {}).map (·.log) =
      some [.called 7 3 5, .asked 7 5, .began 7, .called 7 0 0, .asked 7 0] := by decide +kernel
  obtain ⟨w, hw, hlog⟩ := Machine.reached_of_play hplay
  have hsplit : w.log = [.called 7 3 5] ++ .asked 7 5 ::
      [.began 7, .called 7 0 0, .asked 7 0] := hlog
  exact ⟨w, hw, by rw [hlog]; rfl, wakeups_kept hw hsplit⟩

/-! ### Nothing comes unasked -/

end Worker

namespace AsyncLocalPushTrigger

variable {u : ℕ} {s s' : AsyncLocalPushTrigger} {c c' : ContextId} {d : ℕ}

def Callback.isFor (c : ContextId) : Callback → Bool
  | .enqueue contextId _ | .timer contextId => contextId = c

/-- How many runs of this context may still come of what was asked. -/
def owing (s : AsyncLocalPushTrigger) (c : ContextId) : ℕ :=
  s.pending.countP (·.1 = c) + s.loop.handles.countP (Callback.isFor c ·.callback) +
    s.queue.count c

lemma owing_dropTimer : (s.dropTimer c).owing c' ≤ s.owing c' := by
  unfold owing
  rw [dropTimer_pending, dropTimer_queue]
  have hhandles : (s.dropTimer c).loop.handles.countP (Callback.isFor c' ·.callback) ≤
      s.loop.handles.countP (Callback.isFor c' ·.callback) := by
    unfold dropTimer
    split
    · exact EventLoop.countP_cancel_le
    · exact le_rfl
  omega

lemma owing_put : (s.put c).owing c' ≤ s.owing c' + if c' = c then 1 else 0 := by
  unfold owing
  rw [put_pending, put_loop]
  have hqueue : (s.put c).queue.count c' ≤ s.queue.count c' + if c' = c then 1 else 0 := by
    unfold put
    split
    · exact Nat.le_add_right _ _
    · rw [List.count_append, List.count_singleton]
      by_cases hc : c' = c <;> simp [hc, Ne.symm]
  omega

lemma owing_setTimer :
    (s.setTimer u c d).owing c' ≤ s.owing c' + if c' = c then 1 else 0 := by
  have hhandles : (s.setTimer u c d).loop.handles.countP (Callback.isFor c' ·.callback) ≤
      s.loop.handles.countP (Callback.isFor c' ·.callback) + if c' = c then 1 else 0 := by
    simp only [setTimer, EventLoop.callLater, List.countP_cons, EventLoop.handle_callback]
    by_cases hc : c' = c <;> simp [Callback.isFor, hc, Ne.symm]
  have hpending : (s.setTimer u c d).pending = s.pending := rfl
  have hqueue : (s.setTimer u c d).queue = s.queue := rfl
  simp only [owing, hpending, hqueue]
  omega

/-- A call may lead to one more run of its context. -/
lemma owing_enqueue :
    (s.enqueue u c d).owing c' ≤ s.owing c' + if c' = c then 1 else 0 := by
  by_cases hstarted : s.started = true
  · by_cases hd : d = 0
    · subst hd
      rw [enqueue_now hstarted]
      exact owing_put.trans (Nat.add_le_add_right owing_dropTimer _)
    · rcases enqueue_later (u := u) (c := c) hstarted hd with
        ⟨timer, -, -, heq⟩ | ⟨-, heq⟩
      · rw [heq]
        exact Nat.le_add_right _ _
      · rw [heq]
        exact owing_setTimer.trans (Nat.add_le_add_right owing_dropTimer _)
  · rw [enqueue, if_pos (by simpa using hstarted)]
    exact Nat.le_add_right _ _

end AsyncLocalPushTrigger

namespace Worker

open AsyncLocalPushTrigger

variable {u : ℕ} {w w' : Worker} {c : ContextId} {d : ℕ}

def Note.asks (c : ContextId) : Note → Bool
  | .asked contextId _ => contextId = c
  | _ => false

lemma counts_called {log : List Note} {c' : ContextId} {time : ℕ} :
    (Note.called c' time d :: log).count (.began c) = log.count (.began c) ∧
      (Note.called c' time d :: log).countP (Note.asks c) = log.countP (Note.asks c) := by
  simp [Note.asks]

lemma counts_asked {log : List Note} {c' : ContextId} :
    (Note.asked c' d :: log).count (.began c) = log.count (.began c) ∧
      (Note.asked c' d :: log).countP (Note.asks c) =
        log.countP (Note.asks c) + if c' = c then 1 else 0 := by
  simp [List.countP_cons, Note.asks]

lemma counts_began {log : List Note} {c' : ContextId} :
    (Note.began c' :: log).count (.began c) =
        log.count (.began c) + (if c' = c then 1 else 0) ∧
      (Note.began c' :: log).countP (Note.asks c) = log.countP (Note.asks c) := by
  simp [List.count_cons, Note.asks]

/-- The runs that began and those that may come are no more than were asked for. -/
def Owed (w : Worker) : Prop :=
  ∀ c, w.log.count (.began c) + w.trigger.owing c ≤ w.log.countP (Note.asks c)

lemma enqueueAll_owing (asks : List (ContextId × Text × ℕ)) :
    (w.enqueueAll u asks).log.count (.began c) = w.log.count (.began c) ∧
    (w.enqueueAll u asks).log.countP (Note.asks c) = w.log.countP (Note.asks c) ∧
    (w.enqueueAll u asks).trigger.pending = w.trigger.pending ∧
    (w.enqueueAll u asks).trigger.owing c ≤
      w.trigger.owing c + asks.countP (·.1 = c) := by
  induction asks generalizing w with
  | nil => exact ⟨rfl, rfl, rfl, le_rfl⟩
  | cons p rest ih =>
    obtain ⟨c', reason, d⟩ := p
    obtain ⟨hbegan, hasks, hpending, howing⟩ := ih (w := w.enqueue u c' d)
    refine ⟨hbegan.trans counts_called.1, hasks.trans counts_called.2,
      hpending.trans enqueue_pending, ?_⟩
    · have hone : (w.enqueue u c' d).trigger.owing c ≤
          w.trigger.owing c + if c = c' then 1 else 0 := owing_enqueue
      show ((w.enqueue u c' d).enqueueAll u rest).trigger.owing c ≤ _
      rw [List.countP_cons]
      by_cases hc : c = c'
      · simp only [hc, if_true, decide_true] at hone howing ⊢
        omega
      · simp only [if_neg hc, decide_eq_true_eq, if_neg (Ne.symm hc)] at hone ⊢
        omega

lemma Owed.act {e : Event} (h : Owed w) (hact : w.act u e = some w') : Owed w' := by
  intro c
  have hbefore := h c
  cases e with
  | scheduleContext c' reason d =>
    obtain ⟨s, hs, rfl⟩ := Option.map_eq_some_iff.mp hact
    have howing : s.owing c = w.trigger.owing c + if c' = c then 1 else 0 := by
      unfold AsyncLocalPushTrigger.scheduleContext at hs
      split at hs
      · cases hs
      · split at hs
        · cases hs
          simp only [owing, EventLoop.callSoon, EventLoop.callLater, List.countP_cons,
            EventLoop.handle_callback, Callback.isFor, decide_eq_true_eq]
          omega
        · cases hs
          simp only [owing, List.countP_append, List.countP_singleton, decide_eq_true_eq]
          omega
    show List.count _ (_ :: w.log) + s.owing c ≤ List.countP _ (_ :: w.log)
    rw [counts_asked.1, counts_asked.2, howing]
    omega
  | start =>
    simp only [Worker.act] at hact
    split at hact
    · cases hact
    · cases hact
      have hcalls := enqueueAll_owing (u := u) (c := c) (w := { w with trigger.started := true })
        w.trigger.pending
      rw [Worker.start]
      generalize ({ w with trigger.started := true } : Worker).enqueueAll u
        w.trigger.pending = after at hcalls ⊢
      obtain ⟨hbegan, hasks, hpending, howing⟩ := hcalls
      have hcleared : ({ after with trigger.pending := [] } : Worker).trigger.owing c +
          w.trigger.pending.countP (·.1 = c) = after.trigger.owing c := by
        simp only [owing, hpending, List.countP_nil]
        omega
      have hsame : ({ w with trigger.started := true } : Worker).trigger.owing c =
          w.trigger.owing c := rfl
      rw [hsame] at howing
      dsimp only at hbegan hasks hcleared ⊢
      rw [hbegan, hasks]
      omega
  | run id =>
    obtain ⟨⟨callback, loop⟩, htake, rfl⟩ := Option.map_eq_some_iff.mp hact
    obtain ⟨x, hx, hcall, -, rfl⟩ := EventLoop.take_spec htake
    have hone : ∀ c' d, Callback.isFor c' callback = true →
        (({ w.trigger with loop := w.trigger.loop.cancel x.id }).enqueue u c' d).owing c ≤
          w.trigger.owing c := by
      intro c' d hfor
      refine owing_enqueue.trans ?_
      by_cases hc : c = c'
      · subst hc
        have hfewer := EventLoop.countP_cancel (p := (Callback.isFor c ·.callback)) hx
          (by rw [hcall]; exact hfor)
        simp only [owing, if_true]
        omega
      · have hle : (w.trigger.loop.cancel x.id).handles.countP (Callback.isFor c ·.callback) ≤
            w.trigger.loop.handles.countP (Callback.isFor c ·.callback) :=
          EventLoop.countP_cancel_le
        simp only [owing, if_neg hc]
        omega
    cases callback with
    | enqueue c' d =>
      have howing := hone c' d (by simp [Callback.isFor])
      show List.count _ (_ :: w.log) + _ ≤ List.countP _ (_ :: w.log)
      rw [counts_called.1, counts_called.2]
      exact (Nat.add_le_add_left howing _).trans hbefore
    | timer c' =>
      have howing := hone c' 0 (by simp [Callback.isFor])
      show List.count _ (_ :: w.log) + _ ≤ List.countP _ (_ :: w.log)
      rw [counts_called.1, counts_called.2]
      exact (Nat.add_le_add_left howing _).trans hbefore
  | get =>
    obtain ⟨⟨c', s⟩, hget, rfl⟩ := Option.map_eq_some_iff.mp hact
    unfold AsyncLocalPushTrigger.get at hget
    split at hget
    · rename_i c'' rest hqueue hstarted hrunning
      cases hget
      show List.count _ (_ :: w.log) + _ ≤ List.countP _ (_ :: w.log)
      rw [counts_began.1, counts_began.2]
      simp only [owing, hqueue, List.count_cons, beq_iff_eq] at hbefore ⊢
      omega
    · cases hget
  | done =>
    simp only [Worker.act] at hact
    split at hact
    · cases hact
      exact hbefore
    · cases hact
  | pass t =>
    cases hact
    exact hbefore

lemma Reachable.owed (hw : Reachable u w) : Owed w :=
  hw.invariant (fun _ => Nat.le_refl 0) Owed.act

/-- **Wakeups are coalesced.** At any time a context is queued at most once and has at most one
timer, and its runs so far are no more than the wakeups that were asked for. -/
theorem wakeups_coalesced (hw : Reachable u w) :
    w.trigger.queue.Nodup ∧
      (∀ h ∈ w.trigger.loop.handles, ∀ h' ∈ w.trigger.loop.handles,
        h.callback = .timer c → h'.callback = .timer c → h = h') ∧
      w.log.count (.began c) ≤ w.log.countP (Note.asks c) := by
  have htidy := hw.good.tidy
  refine ⟨htidy.nodup, fun h hh h' hh' hcall hcall' => ?_, ?_⟩
  · have heq := (htidy.timer.mpr ⟨hh, hcall⟩).symm.trans (htidy.timer.mpr ⟨hh', hcall'⟩)
    exact Option.some.inj heq
  · have howed := hw.owed c
    omega

/-- Asked for twice and run once. -/
theorem wakeups_coalesced_twice : ∃ w : Worker, Reachable 2 w ∧
    w.log.countP (Note.asks 7) = 2 ∧ w.trigger.queue.Nodup ∧ w.log.count (.began 7) ≤ 2 := by
  have hplay : (Machine.play (act 2) [.start, .scheduleContext 7 "task" 0,
      .scheduleContext 7 "task" 0, .run 0, .run 1, .get] {}).map
      (·.log.countP (Note.asks 7)) = some 2 := by decide +kernel
  obtain ⟨w, hw, hasks⟩ := Machine.reached_of_play hplay
  obtain ⟨hqueue, -, hruns⟩ := wakeups_coalesced (c := 7) hw
  exact ⟨w, hw, hasks, hqueue, hasks ▸ hruns⟩

end Worker

end ManagedAgents.Push
