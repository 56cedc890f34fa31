import ManagedAgents.Lib.Replay
import ManagedAgents.Push.Conform

/-!
What the deliveries of a configuration come to, whoever makes them.

While a claim holds, nobody else writes what a delivery reads and writes. So the row a worker read
under its claim is the row whose outcome it records.
-/

namespace ManagedAgents.Push

open ManagedAgents.Lib
open ManagedAgents.Controller (ContextId TaskId ClaimId Time Text A2aState TaskRow TaskObject)

variable {e : Deployment} {controller : Controller.Db} {st st' : Stores} {job : ℕ → Option Errand}
  {log : List Entry} {key : TaskId × ConfigId} {taskId : TaskId} {configId : ConfigId}
  {claimId : ClaimId} {row : PushConfig} {i : ℕ} {l : Errand}

/-- The calls so far, and the stores they left. -/
abbrev Past (e : Deployment) (controller : Controller.Db) (job : ℕ → Option Errand)
    (log : List Entry) (st : Stores) : Prop :=
  History Answers Drifts (allowed e) { db := { controller } } job log st

lemma Reachable.past {s : Pushers} (hs : Reachable e controller s) :
    Past e controller s.job s.world.log s.world.state := by
  obtain ⟨knows, htracked, -⟩ :=
    Crew.tracks (conforms_errand e) (fun _ => possible_of_exec) hs
  exact htracked.history

/-! ### Runs that are written down -/

/-- What is said to a call: that its transaction runs, a task, a status, a time, that all is well or
that it fails. -/
inductive Told
  | run
  | show (task : TaskObject)
  | status (status : ℕ)
  | time (now : Time)
  | fine
  | fail

def reply (st : Stores) : (c : Call) → Told → Option (Except Exn c.Reply × Stores)
  | .query q, .run =>
    match q.run st.uuid st.db with
    | .ok (v, db) => some (.ok v, { db, uuid := st.uuid + 1 })
    | .error error => some (.error error, st)
  | .getTask _, .show task => some (.ok task, st)
  | .post _ _ _, .status status => some (.ok status, st)
  | .clock, .time now => some (.ok now, st)
  | .sendWakeup _ _ _, .fine => some (.ok (), st)
  | .post _ _ _, .fail => some (.error .other, st)
  | _, _ => none

lemma reply_answers {c : Call} {told : Told} {r : Except Exn c.Reply}
    (h : reply st c told = some (r, st')) : Answers st c r st' := by
  unfold reply at h
  split at h
  · split at h
    · cases h
      exact .done ‹_›
    · cases h
      exact .refused ‹_›
  · cases h
    exact .external nofun
  · cases h
    exact .external nofun
  · cases h
    exact .external nofun
  · cases h
    exact .external nofun
  · cases h
    exact .external nofun
  · cases h

/-- Lines are answered like this; meanwhile the clock is set. -/
def stage : Stage (.logged Answers Drifts) Told Time where
  answer w a c told := (reply w.state c told).map fun (r, st) =>
    (r, { state := st, log := ⟨a, ⟨c, r⟩, w.state, st⟩ :: w.log })
  answer_exec h := by
    obtain ⟨⟨r, st⟩, hreply, heq⟩ := Option.map_eq_some_iff.mp h
    cases heq
    exact ⟨st, reply_answers hreply, rfl⟩
  tick w now :=
    if w.state.db.controller.now ≤ now then
      some
        { w with
          state :=
            { w.state with
              db := { w.state.db with controller := { w.state.db.controller with now } } } }
    else none
  tick_drift h := by
    split at h
    · cases h
      exact ⟨_, .controls ‹_›, rfl⟩
    · cases h

/-- A deployment whose digest is the length. -/
def plain : Deployment where
  allowedUrl := "https://sink/events"
  normalizedUrl := some
  serialize task := List.replicate (if task.state = .completed then 2 else 1) 0
  json _ := "\x7b\x7d"
  sha256 bytes := String.ofList (bytes.map fun _ => 'x')
  taskName taskId := String.ofList (List.replicate taskId 't')

/-- A controller with one task. -/
def oneTask : Controller.Db where
  tasks :=
    ⟨[{ taskId := 1
        contextId := 5
        messageId := 9
        sequence := 1
        a2aState := .working
        internalState := .waiting }], by decide⟩

/-- The task as it is shown. -/
def asShown (state : A2aState) : TaskObject :=
  { id := 1
    contextId := 5
    state }

/-- A configuration is created, and a wakeup posts the task it is shown. -/
def firstDelivery (state : A2aState) (answer : Told) :
    List (Duty Errand ContextId Told Time) :=
  [.start (.create { id := "c", taskId := some 1, url := "https://sink/events" } none),
    .call 0 .run, .call 0 .run, .send 0 .fine, .deliver (.wakeup 5), .call 1 .run, .call 1 .run,
    .call 1 .run, .call 1 (.show (asShown state)), .call 1 .run, .call 1 answer, .call 1 .run,
    .call 1 .run]

/-- An entry of a log, with what came after and before it. -/
lemma split_at {n : ℕ} {d : Entry} (h : log[n]? = some d) :
    log = log.take n ++ d :: log.drop (n + 1) := by
  obtain ⟨hlt, rfl⟩ := List.getElem?_eq_some_iff.mp h
  rw [← List.drop_eq_getElem_cons hlt, List.take_append_drop]

/-! ### What every step keeps -/

lemma Answers.spans {c : Call} {r : Except Exn c.Reply} (h : Answers st c r st') :
    (lease key).Spans st st' := by
  cases h with
  | done hrun | unacknowledged hrun =>
    exact (Query.run_effect hrun).lease (Nat.le_succ _) |>.spans
  | refused | unavailable | external => exact .refl _

lemma Drifts.spans (h : Drifts st st') : (lease key).Spans st st' := by
  cases h with
  | controls h =>
    refine Lease.Step.spans ⟨.kept (fun t ht => ?_) rfl, fun _ ht => ht⟩
    obtain ⟨row, hrow, hheld⟩ := ht
    exact ⟨row, hrow, row.claimedBy_earlier h hheld⟩

/-- A configuration is never taken away, keeps its url and stays deleted. -/
def Lasts (st st' : Stores) : Prop :=
  ∀ key row, st.db.configs.get? key = some row →
    ∃ row', st'.db.configs.get? key = some row' ∧ row'.url = row.url ∧
      (row.live = false → row'.live = false)

lemma Lasts.refl (st : Stores) : Lasts st st := fun _ row hrow => ⟨row, hrow, rfl, id⟩

lemma Lasts.trans {st'' : Stores} (h : Lasts st st') (h' : Lasts st' st'') : Lasts st st'' := by
  intro key row hrow
  obtain ⟨row', hrow', hurl, hlive⟩ := h key row hrow
  obtain ⟨row'', hrow'', hurl', hlive'⟩ := h' key row' hrow'
  exact ⟨row'', hrow'', hurl'.trans hurl, fun hgone => hlive' (hlive hgone)⟩

@[simp] lemma PushConfig.finish_url {now : Time} {fingerprint : Option Fingerprint}
    {retrySeconds : Option ℕ} {permanent : Bool} (r : PushConfig) :
    (r.finish now fingerprint retrySeconds permanent).url = r.url := by
  unfold finish finished
  split
  · rfl
  · split <;> rfl

@[simp] lemma PushConfig.finish_live {now : Time} {fingerprint : Option Fingerprint}
    {retrySeconds : Option ℕ} {permanent : Bool} (r : PushConfig) :
    (r.finish now fingerprint retrySeconds permanent).live = r.live := by
  unfold finish finished live
  split
  · rfl
  · split <;> rfl

lemma Effect.lasts {q : Query} {fresh : ClaimId} {db db' : Db} {uuid uuid' : ℕ}
    (h : Effect q fresh db db') : Lasts { db, uuid } { db := db', uuid := uuid' } := by
  intro key row hrow
  have hchange := h.config key
  dsimp only at hrow ⊢
  rw [hrow] at hchange
  generalize db'.configs.get? key = row' at hchange
  cases hchange with
  | same => exact ⟨row, rfl, rfl, id⟩
  | deleted => exact ⟨_, rfl, rfl, fun _ => rfl⟩
  | reset | claimed | released => exact ⟨_, rfl, rfl, id⟩
  | finished => exact ⟨_, rfl, by simp, by simp⟩

lemma Answers.lasts {c : Call} {r : Except Exn c.Reply} (h : Answers st c r st') :
    Lasts st st' := by
  cases h with
  | done hrun | unacknowledged hrun => exact (Query.run_effect hrun).lasts
  | refused | unavailable | external => exact .refl _

lemma Drifts.lasts (h : Drifts st st') : Lasts st st' := by
  cases h with
  | controls => exact .refl _

/-! ### The row that was taken -/

namespace PushConfig

variable {r r' : PushConfig}

lemma work_url (h : r.work = r'.work) : r.url = r'.url := by
  have hurl := congrArg url h
  exact hurl

lemma work_lastDelivered (h : r.work = r'.work) :
    r.lastDeliveredFingerprint = r'.lastDeliveredFingerprint := by
  have hlast := congrArg lastDeliveredFingerprint h
  exact hlast

lemma work_attemptCount (h : r.work = r'.work) : r.attemptCount = r'.attemptCount := by
  have hcount := congrArg attemptCount h
  exact hcount

lemma work_permanentFailureAt (h : r.work = r'.work) :
    r.permanentFailureAt = r'.permanentFailureAt := by
  have hfailure := congrArg permanentFailureAt h
  exact hfailure

end PushConfig

/-- The claim was granted this row. -/
lemma answers_granted {m : Entry} (h : Answers m.before m.said.1 m.said.2 m.after)
    (hsaid : m.said = granted taskId configId claimId) :
    (lease (taskId, configId)).issued m.after claimId ∧
      ∃ row, m.after.db.configs.get? (taskId, configId) = some row ∧
        row.permanentFailureAt = none := by
  rw [hsaid] at h
  generalize m.before = before, m.after = after at h
  cases h with
  | done hrun =>
    obtain ⟨rfl, row, hrow, hfree, hafter⟩ := run_claim hrun
    refine ⟨Nat.lt_succ_self _, _, hafter, ?_⟩
    simp only [PushConfig.claimable, Bool.and_eq_true, Option.isNone_iff_eq_none] at hfree
    exact hfree.1.1.2
  | external hquery => exact absurd rfl (hquery _)

/-- The row was read as it was. -/
lemma answers_read {m : Entry} (h : Answers m.before m.said.1 m.said.2 m.after)
    (hsaid : m.said = read taskId configId row) :
    m.after.db.configs.get? (taskId, configId) = some row ∧ row.live = true := by
  rw [hsaid] at h
  generalize m.before = before, m.after = after at h
  cases h with
  | done hrun =>
    obtain ⟨hrow, hlive, rfl⟩ := run_get hrun
    exact ⟨hrow, hlive⟩
  | external hquery => exact absurd rfl (hquery _)

/-- **Fencing.** The row a worker read under its claim is, but for its lease and its deletion, the
row as long as the claim holds, and it had not failed for good. -/
theorem row_of_taken (h : Past e controller job log st)
    (htook : (⟨⟨Chronicle.of i log⟩, l⟩ : File).Told
      [read taskId configId row, granted taskId configId claimId])
    (hheld : (lease (taskId, configId)).Holds st claimId) :
    ∃ current, st.db.configs.get? (taskId, configId) = some current ∧ current.work = row.work ∧
      current.permanentFailureAt = none := by
  obtain ⟨es, hes, -, hsaid⟩ := Chronicle.sublist_of htook
  obtain ⟨m, rest, rfl, hm₁, hrest⟩ := List.map_eq_cons_iff.mp hsaid
  obtain ⟨g, rest, rfl, hg₁, hnil⟩ := List.map_eq_cons_iff.mp hrest
  obtain rfl := List.map_eq_nil_iff.mp hnil
  have hm : m ∈ log := hes.subset (by simp)
  have hg : g ∈ log := hes.subset (by simp)
  obtain ⟨-, hsince⟩ := h.since (R := (lease (taskId, configId)).Spans) .refl .trans
    Answers.spans Drifts.spans
  have hordered := (h.ordered (R := (lease (taskId, configId)).Spans) .refl .trans
    Answers.spans Drifts.spans).sublist hes
  obtain ⟨hissued, granted, hgranted, hnever⟩ := answers_granted (h.answered g hg) hg₁
  obtain ⟨hread, -⟩ := answers_read (h.answered m hm) hm₁
  -- the claim holds at the end, so nothing has changed since the row was read and since the grant
  have hspan : (lease (taskId, configId)).Spans g.after m.before :=
    (List.pairwise_cons.mp hordered).1 g (by simp)
  have hstep : (lease (taskId, configId)).Spans m.before m.after := (h.answered m hm).spans
  have hissued' := hstep.issued _ (hspan.issued _ hissued)
  have hsame := (hsince m hm).2.guarded _ hissued' hheld
  have hgrant := (hsince g hg).2.guarded _ hissued hheld
  simp only [lease, hread, hgranted, Option.map_some] at hsame hgrant
  obtain ⟨current, hcurrent, hwork⟩ := Option.map_eq_some_iff.mp hsame
  rw [hcurrent, Option.map_some, Option.some.injEq] at hgrant
  exact ⟨current, hcurrent, hwork, (PushConfig.work_permanentFailureAt hgrant).trans hnever⟩

/-! ### What an answer does to a row -/

lemma Answers.effect {c : Call} {r : Except Exn c.Reply} (h : Answers st c r st') :
    st' = st ∨ ∃ q db, c = .query q ∧ Effect q st.uuid st.db db ∧
      st' = { db, uuid := st.uuid + 1 } := by
  cases h with
  | done hrun | unacknowledged hrun => exact .inr ⟨_, _, rfl, Query.run_effect hrun, rfl⟩
  | refused | unavailable | external => exact .inl rfl

section

variable {q : Query} {fresh : ClaimId} {now : Time} {o : Option PushConfig} {row' : PushConfig}

/-- A url is the row's own, or what it was created with. -/
lemma ConfigChange.url (h : ConfigChange q fresh now key o (some row')) :
    (∃ row, o = some row ∧ row'.url = row.url) ∨ q = .create key.1 key.2 row'.url := by
  cases h with
  | same | deleted | reset | claimed | released => exact .inl ⟨_, rfl, rfl⟩
  | created hq => exact .inr hq
  | finished => exact .inl ⟨_, rfl, by simp⟩

/-- A recorded fingerprint was recorded before, or is by this call, under a claim that holds. -/
lemma ConfigChange.delivered {f : Fingerprint} (h : ConfigChange q fresh now key o (some row'))
    (hf : row'.lastDeliveredFingerprint = some f) :
    ∃ row, o = some row ∧ row'.url = row.url ∧ (row.lastDeliveredFingerprint = some f ∨
      ∃ claimId retrySeconds permanent, row.claimedBy claimId now = true ∧
        q = .finish key.1 key.2 claimId (some f) retrySeconds permanent) := by
  cases h with
  | same | deleted | reset | claimed | released => exact ⟨_, rfl, rfl, .inl hf⟩
  | created => cases hf
  | @finished row claimId fingerprint retrySeconds permanent hq hheld =>
    refine ⟨row, rfl, by simp, ?_⟩
    cases fingerprint with
    | none =>
      refine .inl (hf ▸ ?_)
      unfold PushConfig.finish PushConfig.finished
      dsimp only
      split <;> rfl
    | some fingerprint =>
      cases hf
      exact .inr ⟨claimId, retrySeconds, permanent, hheld, hq⟩

end

/-! ### Deliveries are true -/

lemma posted_congr {row' : PushConfig} (h : row'.url = row.url) :
    posted taskId configId e row' = posted taskId configId e row := by
  unfold posted
  rw [h]

/-- The recorded fingerprint is of a task that was posted to the row's url, and accepted. -/
def Truthful (e : Deployment) (log : List Entry) (st : Stores) : Prop :=
  ∀ taskId configId row f, st.db.configs.get? (taskId, configId) = some row →
    row.lastDeliveredFingerprint = some f →
    ∃ p ∈ log, ∃ task status, p.said = posted taskId configId e row task status ∧
      f = e.fingerprint task ∧ 200 ≤ status ∧ status < 300

lemma Past.truthful (h : Past e controller job log st) : Truthful e log st := by
  induction h with
  | init => exact nofun
  | @call log st i l c r st' h hjob hallowed hanswer ih =>
    intro taskId configId row' f hrow' hf
    have hold : ∀ row, st.db.configs.get? (taskId, configId) = some row → row'.url = row.url →
        row.lastDeliveredFingerprint = some f → ∃ p ∈ ⟨.worker i, ⟨c, r⟩, st, st'⟩ :: log,
          ∃ task status, p.said = posted taskId configId e row' task status ∧
            f = e.fingerprint task ∧ 200 ≤ status ∧ status < 300 := by
      intro row hrow hurl hf
      obtain ⟨p, hp, task, status, hsaid, hrest⟩ := ih taskId configId row f hrow hf
      exact ⟨p, List.mem_cons_of_mem _ hp, task, status, posted_congr hurl ▸ hsaid, hrest⟩
    rcases hanswer.effect with rfl | ⟨q, db, rfl, heffect, rfl⟩
    · exact hold row' hrow' rfl hf
    have hchange := heffect.config (taskId, configId)
    dsimp only at hrow'
    rw [hrow'] at hchange
    obtain ⟨row, hrow, hurl, hbefore | ⟨claimId, retrySeconds, permanent, hheld, rfl⟩⟩ :=
      hchange.delivered hf
    · exact hold row hrow hurl hbefore
    · obtain ⟨taken, task, haccepted, rfl⟩ := hallowed
      obtain ⟨current, hcurrent, hwork, -⟩ :=
        row_of_taken h haccepted.took ⟨row, hrow, hheld⟩
      obtain ⟨status, hlow, hhigh, htold, -⟩ := haccepted
      rw [hrow] at hcurrent
      cases hcurrent
      obtain ⟨p, hp, -, hsaid⟩ := Chronicle.mem_of.mp
        (htold.subset (List.mem_cons_self (a := posted taskId configId e taken task status)))
      have hurl' : row'.url = taken.url := hurl.trans (PushConfig.work_url hwork)
      exact ⟨p, List.mem_cons_of_mem _ hp, task, status, posted_congr hurl' ▸ hsaid, rfl, hlow,
        hhigh⟩
  | drift _ hd ih =>
    cases hd with
    | controls => exact ih

/-- **Deliveries are true.** In every reachable state the fingerprint recorded as last delivered for
a configuration is that of a task which a worker posted to its url under its delivery id and which
the callback accepted. -/
theorem delivered_posted {s : Pushers} (hs : Reachable e controller s) {f : Fingerprint}
    (hrow : s.world.state.db.configs.get? (taskId, configId) = some row)
    (hf : row.lastDeliveredFingerprint = some f) :
    ∃ p ∈ s.world.log, ∃ task, ∃ status : ℕ,
      p.said = ⟨.post row.url (e.json task) (e.deliveryId taskId configId f), .ok status⟩ ∧
        f = e.fingerprint task ∧ 200 ≤ status ∧ status < 300 := by
  obtain ⟨p, hp, task, status, hsaid, rfl, hstatus⟩ :=
    hs.past.truthful taskId configId row f hrow hf
  exact ⟨p, hp, task, status, hsaid, rfl, hstatus⟩

/-- A task is delivered. -/
theorem delivered_posted_first : ∃ s : Pushers, Reachable plain oneTask s ∧
    ∃ p ∈ s.world.log, ∃ task, ∃ status : ℕ,
      p.said = ⟨.post "https://sink/events" (plain.json task) (plain.deliveryId 1 "c" "xx"),
        .ok status⟩ ∧
        "xx" = plain.fingerprint task ∧ 200 ≤ status ∧ status < 300 := by
  have hplay : ((stage.play (works plain) { state := { db := { controller := oneTask } } }
      (firstDelivery .completed (.status 204))).map fun s : Pushers =>
        (s.world.state.db.configs.get? (1, "c")).map fun row =>
          (row.url, row.lastDeliveredFingerprint)) =
      some (some ("https://sink/events", some "xx")) := by
    decide +kernel
  obtain ⟨s, -, hs, hval⟩ := stage.played _ hplay
  obtain ⟨row, hrow, hval⟩ := Option.map_eq_some_iff.mp hval
  obtain ⟨hurl, hlast⟩ := Prod.mk.inj hval
  have hposted := delivered_posted hs hrow hlast
  rw [hurl] at hposted
  exact ⟨s, hs, hposted⟩

end ManagedAgents.Push
