import ManagedAgents.Push.Delivery

/-!
Outcomes are recorded one after the other.

Nobody else touches a configuration between the grant of a claim and the outcome recorded under it.
So no delivery is recorded twice in a row, and failures are counted as the backoff has them.
-/

namespace ManagedAgents.Push

open ManagedAgents.Lib
open ManagedAgents.Controller (ContextId TaskId ClaimId Time Text A2aState TaskRow TaskObject)

variable {e : Deployment} {controller : Controller.Db} {st st' : Stores} {job : ℕ → Option Errand}
  {log : List Entry} {key : TaskId × ConfigId} {taskId : TaskId} {configId : ConfigId}
  {claimId : ClaimId} {row : PushConfig} {i : ℕ} {l : Errand} {fingerprint : Option Fingerprint}
  {retrySeconds : Option ℕ} {permanent : Bool}

/-- What is recorded is of the row that was read. -/
lemma took_of_finish {d : File}
    (h : allowed e d
      (.query (.finish taskId configId claimId fingerprint retrySeconds permanent))) :
    ∃ row, d.Told [read taskId configId row, granted taskId configId claimId] := by
  cases fingerprint with
  | none =>
    obtain ⟨row, htook, -⟩ := h
    exact ⟨row, htook⟩
  | some f =>
    obtain ⟨row, task, haccepted, -⟩ := h
    exact ⟨row, haccepted.took⟩

/-- **Outcomes are serialised.** When a worker records an outcome under a claim that holds, it was
granted this claim before, and at no call in between did the claim not hold or anything change that
a delivery of the configuration reads or writes. -/
theorem finish_serialised {s : Pushers} (hs : Reachable e controller s) {later earlier : List Entry}
    {d : Entry} (hlog : s.world.log = later ++ d :: earlier)
    (hfinish : d.said.1 =
      .query (.finish taskId configId claimId fingerprint retrySeconds permanent))
    (hheld : (lease (taskId, configId)).Holds d.before claimId) :
    ∃ mid g rest, earlier = mid ++ g :: rest ∧ g.actor = d.actor ∧
      g.said = granted taskId configId claimId ∧
      (∀ m ∈ mid, (lease (taskId, configId)).Holds m.before claimId ∧
        (lease (taskId, configId)).Holds m.after claimId ∧
        (lease (taskId, configId)).guarded m.after = (lease (taskId, configId)).guarded m.before) ∧
      (lease (taskId, configId)).guarded d.before = (lease (taskId, configId)).guarded g.after := by
  obtain ⟨i, l, hactor, -, hallowed, -, hpast⟩ := hs.past.split hlog
  rw [hfinish] at hallowed
  obtain ⟨row, htook⟩ := took_of_finish hallowed
  obtain ⟨g, hg, hgactor, hsaid⟩ := Chronicle.mem_of.mp
    (htook.subset (show granted taskId configId claimId ∈ _ by simp))
  obtain ⟨mid, rest, hsplit⟩ := List.append_of_mem hg
  obtain ⟨hissued, -⟩ := answers_granted (hpast.answered g hg) hsaid
  obtain ⟨hmid, hsame⟩ := hpast.held Answers.spans Drifts.spans hsplit hissued hheld
  exact ⟨mid, g, rest, hsplit, hgactor.trans hactor.symm, hsaid, hmid, hsame⟩

/-- The entry of a run's first delivery. -/
lemma first_finish : ∃ s : Pushers, Reachable plain oneTask s ∧ ∃ d row,
    s.world.log = s.world.log.take 1 ++ d :: s.world.log.drop 2 ∧
      d.said.1 = .query (.finish 1 "c" 3 (some "xx") none false) ∧
      d.before.db.configs.get? (1, "c") = some row ∧
      row.claimedBy 3 d.before.db.controller.now = true := by
  have hplay : ((stage.play (works plain) { state := { db := { controller := oneTask } } }
      (firstDelivery .completed (.status 204))).map fun s : Pushers =>
        (s.world.log[1]?).map fun d => (d.said.1, (d.before.db.configs.get? (1, "c")).map
          fun row => row.claimedBy 3 d.before.db.controller.now)) =
      some (some (.query (.finish 1 "c" 3 (some "xx") none false), some true)) := by
    decide +kernel
  obtain ⟨s, -, hs, hval⟩ := stage.played _ hplay
  obtain ⟨d, hd, hval⟩ := Option.map_eq_some_iff.mp hval
  obtain ⟨hfinish, hval⟩ := Prod.mk.inj hval
  obtain ⟨row, hrow, hheld⟩ := Option.map_eq_some_iff.mp hval
  exact ⟨s, hs, d, row, split_at hd, hfinish, hrow, hheld⟩

/-- The first delivery of a configuration. -/
theorem finish_serialised_first : ∃ s : Pushers, Reachable plain oneTask s ∧
    ∃ mid g rest, s.world.log.drop 2 = mid ++ g :: rest ∧ g.said = granted 1 "c" 3 ∧
      ∀ m ∈ mid, (lease (1, "c")).Holds m.before 3 := by
  obtain ⟨s, hs, d, row, hlog, hfinish, hrow, hheld⟩ := first_finish
  obtain ⟨mid, g, rest, hsplit, -, hsaid, hmid, -⟩ :=
    finish_serialised hs hlog hfinish ⟨row, hrow, hheld⟩
  exact ⟨s, hs, mid, g, rest, hsplit, hsaid, fun m hm => (hmid m hm).1⟩

/-- **Nothing is delivered twice in a row.** A delivery that is recorded while its claim holds is of
a task that differs from the one recorded before. -/
theorem delivery_differs {s : Pushers} (hs : Reachable e controller s) {f : Fingerprint} {d : Entry}
    (hd : d ∈ s.world.log)
    (hfinish : d.said.1 =
      .query (.finish taskId configId claimId (some f) retrySeconds permanent))
    (hrow : d.before.db.configs.get? (taskId, configId) = some row)
    (hheld : row.claimedBy claimId d.before.db.controller.now = true) :
    row.lastDeliveredFingerprint ≠ some f := by
  obtain ⟨later, earlier, hlog⟩ := List.append_of_mem hd
  obtain ⟨i, l, -, -, hallowed, -, hpast⟩ := hs.past.split hlog
  rw [hfinish] at hallowed
  obtain ⟨taken, task, haccepted, rfl⟩ := hallowed
  obtain ⟨current, hcurrent, hwork, -⟩ :=
    row_of_taken hpast haccepted.took ⟨row, hrow, hheld⟩
  rw [hrow] at hcurrent
  cases hcurrent
  obtain ⟨status, -, -, -, hdiffers⟩ := haccepted
  rw [PushConfig.work_lastDelivered hwork]
  exact hdiffers

/-- The first delivery of a configuration differs from none. -/
theorem delivery_differs_first : ∃ s : Pushers, Reachable plain oneTask s ∧ ∃ d row,
    d ∈ s.world.log ∧ d.before.db.configs.get? (1, "c") = some row ∧
      row.lastDeliveredFingerprint ≠ some "xx" := by
  obtain ⟨s, hs, d, row, hlog, hfinish, hrow, hheld⟩ := first_finish
  have hd : d ∈ s.world.log := by
    rw [hlog]
    simp
  exact ⟨s, hs, d, row, hd, hrow, delivery_differs hs hd hfinish hrow hheld⟩

/-! ### The retry schedule -/

/-- Failures are counted, and one that is not for good is retried after its turn of the backoff. -/
structure PushConfig.Scheduled (r : PushConfig) : Prop where
  count : r.attemptCount ≤ 7
  retry : r.permanentFailureAt = none →
    (r.attemptCount = 0 ∧ r.nextAttemptAt = none) ∨
      ∃ last delay, r.lastAttemptAt = some last ∧ 0 < r.attemptCount ∧
        backoff[r.attemptCount - 1]? = some delay ∧ r.nextAttemptAt = some (last + delay)

lemma PushConfig.Scheduled.spent {r : PushConfig} (h : r.Scheduled)
    (hnever : r.permanentFailureAt = none) : r.attemptCount ≤ 6 := by
  rcases h.retry hnever with ⟨hzero, -⟩ | ⟨last, delay, -, hpos, hdelay, -⟩
  · omega
  · have hlt := (List.getElem?_eq_some_iff.mp hdelay).1
    simp only [backoff, List.length_cons, List.length_nil] at hlt
    omega

/-- A failure is recorded: the next one in the schedule, or the last. -/
lemma PushConfig.Scheduled.fails {r : PushConfig} {now : Time} (h : r.Scheduled)
    (hnever : r.permanentFailureAt = none)
    (hretry : retrySeconds = none ∨ retrySeconds = backoff[r.attemptCount]?)
    (hpermanent : permanent = retrySeconds.isNone) :
    (r.finish now none retrySeconds permanent).Scheduled := by
  have hspent := h.spent hnever
  cases retrySeconds with
  | none =>
    subst hpermanent
    exact ⟨Nat.succ_le_succ hspent, nofun⟩
  | some delay =>
    subst hpermanent
    rcases hretry with hnone | hdelay
    · cases hnone
    have hpositive : delay ≠ 0 := by
      have hbounds := backoff_bounds hdelay.symm
      omega
    refine ⟨Nat.succ_le_succ hspent, fun _ => .inr ⟨now, delay, rfl, Nat.succ_pos _,
      hdelay.symm, ?_⟩⟩
    simp [PushConfig.finish, PushConfig.finished, Option.filter, hpositive]

lemma Past.scheduled (h : Past e controller job log st) :
    ∀ key row, st.db.configs.get? key = some row → row.Scheduled := by
  induction h with
  | init => exact nofun
  | @call log st i l c r st' h hjob hallowed hanswer ih =>
    intro key row' hrow'
    rcases hanswer.effect with rfl | ⟨q, db, rfl, heffect, rfl⟩
    · exact ih key row' hrow'
    have hchange := heffect.config key
    dsimp only at hrow'
    rw [hrow'] at hchange
    generalize hrow : st.db.configs.get? key = before at hchange
    cases hchange with
    | same => exact ih key row' hrow
    | created | reset => exact ⟨by simp, fun _ => .inl ⟨rfl, rfl⟩⟩
    | deleted | claimed | released => exact ⟨(ih key _ hrow).count, (ih key _ hrow).retry⟩
    | @finished current claimId fingerprint retrySeconds permanent hq hheld =>
      subst hq
      cases fingerprint with
      | some f => exact ⟨by simp [PushConfig.finish, PushConfig.finished], fun _ => .inl ⟨rfl, rfl⟩⟩
      | none =>
        obtain ⟨taken, htook, hretry, hpermanent⟩ := hallowed
        obtain ⟨current', hcurrent, hwork, hnever⟩ :=
          row_of_taken h htook ⟨current, hrow, hheld⟩
        rw [hrow] at hcurrent
        cases hcurrent
        rw [← PushConfig.work_attemptCount hwork] at hretry
        exact (ih key current hrow).fails hnever hretry hpermanent
  | drift _ hd ih =>
    cases hd with
    | controls => exact ih

/-- **The retry schedule.** In every reachable state at most seven attempts failed since a
configuration was last delivered or reset, at most six while it has not failed for good, and then it
is due its turn of the backoff after its last attempt. -/
theorem retries_scheduled {s : Pushers} (hs : Reachable e controller s)
    (hrow : s.world.state.db.configs.get? key = some row) :
    row.attemptCount ≤ 7 ∧ (row.permanentFailureAt = none → row.attemptCount ≤ 6 ∧
      ((row.attemptCount = 0 ∧ row.nextAttemptAt = none) ∨
        ∃ last delay, row.lastAttemptAt = some last ∧ 0 < row.attemptCount ∧
          backoff[row.attemptCount - 1]? = some delay ∧
          row.nextAttemptAt = some (last + delay))) := by
  have h := hs.past.scheduled key row hrow
  exact ⟨h.count, fun hnever => ⟨h.spent hnever, h.retry hnever⟩⟩

/-- A callback that is down. -/
theorem retries_scheduled_first : ∃ s : Pushers, Reachable plain oneTask s ∧
    ∃ row, s.world.state.db.configs.get? (1, "c") = some row ∧ row.attemptCount = 1 ∧
      row.attemptCount ≤ 7 := by
  have hplay : ((stage.play (works plain) { state := { db := { controller := oneTask } } }
      (firstDelivery .completed .fail)).map fun s : Pushers =>
        (s.world.state.db.configs.get? (1, "c")).map (·.attemptCount)) = some (some 1) := by
    decide +kernel
  obtain ⟨s, -, hs, hval⟩ := stage.played _ hplay
  obtain ⟨row, hrow, hcount⟩ := Option.map_eq_some_iff.mp hval
  exact ⟨s, hs, row, hrow, hcount, (retries_scheduled hs hrow).1⟩

end ManagedAgents.Push
