import ManagedAgents.Push.Outcomes

/-!
What is posted, and what a wakeup that is done leaves behind.

A post follows a check that found the configuration there, not failed and held by the claim, and it
goes to the one url the deployment allows. A wakeup that returns has left no configuration behind
that needs another one.
-/

namespace ManagedAgents.Push

open ManagedAgents.Lib
open ManagedAgents.Controller (ContextId TaskId ClaimId Time Text A2aState TaskRow TaskObject)

variable {e : Deployment} {controller : Controller.Db} {st st' : Stores} {job : ℕ → Option Errand}
  {log : List Entry} {key : TaskId × ConfigId} {taskId : TaskId} {configId : ConfigId}
  {claimId : ClaimId} {row : PushConfig} {i : ℕ} {l : Errand} {contextId : ContextId}

/-! ### Posts -/

lemma answers_checked {m : Entry} (h : Answers m.before m.said.1 m.said.2 m.after)
    (hsaid : m.said = checked taskId configId claimId) :
    ∃ row, m.before.db.configs.get? (taskId, configId) = some row ∧
      row.claimedBy claimId m.before.db.controller.now = true ∧ row.live = true := by
  rw [hsaid] at h
  generalize m.before = before, m.after = after at h
  cases h with
  | done hrun => exact (run_claimed hrun).1
  | external hquery => exact absurd rfl (hquery _)

/-- **Posts are checked.** Whenever a worker posts, its last call before was a check of its claim,
and there the configuration was neither deleted nor failed for good, the claim held, and the task
that is posted, to the url and under the delivery id of the configuration, was not the one recorded
as delivered. -/
theorem posts_checked {s : Pushers} (hs : Reachable e controller s) {later earlier : List Entry}
    {p : Entry} {url : Url} {content deliveryId : Text}
    (hlog : s.world.log = later ++ p :: earlier)
    (hpost : p.said.1 = .post url content deliveryId) :
    ∃ mid m rest, earlier = mid ++ m :: rest ∧ m.actor = p.actor ∧ (∀ x ∈ mid, x.actor ≠ p.actor) ∧
      ∃ taskId configId claimId current task, m.said = checked taskId configId claimId ∧
        m.before.db.configs.get? (taskId, configId) = some current ∧ current.live = true ∧
        current.claimedBy claimId m.before.db.controller.now = true ∧
        current.permanentFailureAt = none ∧
        current.lastDeliveredFingerprint ≠ some (e.fingerprint task) ∧ url = current.url ∧
        content = e.json task ∧ deliveryId = e.deliveryId taskId configId (e.fingerprint task) := by
  obtain ⟨i, l, hactor, -, hallowed, -, hpast⟩ := hs.past.split hlog
  rw [hpost] at hallowed
  obtain ⟨taskId, configId, claimId, row, task, ⟨htold, hdiffers⟩, hlast, hurl, hcontent, hid⟩ :=
    hallowed
  obtain ⟨mid, m, rest, rfl, hmactor, hsaid, hmid⟩ := Chronicle.head_of hlast
  obtain ⟨i', l', hmactor', -, -, hanswer, hbefore⟩ := hpast.split rfl
  rw [hmactor] at hmactor'
  cases hmactor'
  obtain ⟨current, hcurrent, hheld, hlive⟩ := answers_checked hanswer hsaid
  -- what was told before the check was told by the log before it
  have hfile : Chronicle.of i (mid ++ m :: rest) =
      checked taskId configId claimId :: Chronicle.of i rest := by
    have hnone : mid.filter (fun x => x.actor = .worker i) = [] := by
      simpa [List.filter_eq_nil_iff] using hmid
    rw [Chronicle.of, List.filter_append, hnone, List.nil_append, ← Chronicle.of,
      Chronicle.of_cons_self hmactor, hsaid]
  rw [Transcript.Told, hfile] at htold
  have htook : (⟨⟨Chronicle.of i rest⟩, l⟩ : File).Told
      [read taskId configId row, granted taskId configId claimId] :=
    List.Sublist.trans (List.IsSuffix.sublist ⟨[_], rfl⟩) (List.cons_sublist_cons.mp htold)
  obtain ⟨current', hcurrent', hwork, hnever⟩ :=
    row_of_taken hbefore htook ⟨current, hcurrent, hheld⟩
  rw [hcurrent] at hcurrent'
  cases hcurrent'
  refine ⟨mid, m, rest, rfl, hmactor.trans hactor.symm, fun x hx => hactor ▸ hmid x hx, taskId,
    configId, claimId, current, task, hsaid, hcurrent, hlive, hheld, hnever, ?_,
    hurl.trans (PushConfig.work_url hwork).symm, hcontent, hid⟩
  rw [PushConfig.work_lastDelivered hwork]
  exact hdiffers

/-- The post of a run's first delivery. -/
lemma first_post : ∃ s : Pushers, Reachable plain oneTask s ∧ ∃ p,
    s.world.log = s.world.log.take 2 ++ p :: s.world.log.drop 3 ∧
      p.said.1 = .post "https://sink/events" "\x7b\x7d" "xxxxxx" := by
  have hplay : ((stage.play (works plain) { state := { db := { controller := oneTask } } }
      (firstDelivery .completed (.status 204))).map fun s : Pushers =>
        (s.world.log[2]?).map fun p => p.said.1) =
      some (some (.post "https://sink/events" "\x7b\x7d" "xxxxxx")) := by
    decide +kernel
  obtain ⟨s, -, hs, hval⟩ := stage.played _ hplay
  obtain ⟨p, hp, hpost⟩ := Option.map_eq_some_iff.mp hval
  exact ⟨s, hs, p, split_at hp, hpost⟩

/-- The first post of a configuration. -/
theorem posts_checked_first : ∃ s : Pushers, Reachable plain oneTask s ∧
    ∃ mid m rest, s.world.log.drop 3 = mid ++ m :: rest ∧
      ∃ taskId configId claimId, m.said = checked taskId configId claimId := by
  obtain ⟨s, hs, p, hlog, hpost⟩ := first_post
  obtain ⟨mid, m, rest, hsplit, -, -, taskId, configId, claimId, current, task, hsaid, -⟩ :=
    posts_checked hs hlog hpost
  exact ⟨s, hs, mid, m, rest, hsplit, taskId, configId, claimId, hsaid⟩

/-- Every configuration is for the allowed url. -/
lemma Past.url (h : Past e controller job log st) :
    ∀ key row, st.db.configs.get? key = some row → row.url = e.allowedUrl := by
  induction h with
  | init => exact nofun
  | @call log st i l c r st' h hjob hallowed hanswer ih =>
    intro key row' hrow'
    rcases hanswer.effect with rfl | ⟨q, db, rfl, heffect, rfl⟩
    · exact ih key row' hrow'
    have hchange := heffect.config key
    dsimp only at hrow'
    rw [hrow'] at hchange
    rcases hchange.url with ⟨row, hrow, hurl⟩ | rfl
    · exact hurl.trans (ih key row hrow)
    · exact hallowed
  | drift _ hd ih =>
    cases hd with
    | controls => exact ih

/-- **Posts go where they may.** Whatever clients ask for, nothing is ever posted to another url
than the one the deployment allows. -/
theorem posts_allowed {s : Pushers} (hs : Reachable e controller s) {p : Entry} {url : Url}
    {content deliveryId : Text} (hp : p ∈ s.world.log)
    (hpost : p.said.1 = .post url content deliveryId) : url = e.allowedUrl := by
  obtain ⟨later, earlier, hlog⟩ := List.append_of_mem hp
  obtain ⟨i, l, -, -, hallowed, -, hpast⟩ := hs.past.split hlog
  rw [hpost] at hallowed
  obtain ⟨taskId, configId, claimId, row, task, hready, -, rfl, -⟩ := hallowed
  obtain ⟨m, hm, -, hsaid⟩ := Chronicle.mem_of.mp
    (hready.took.subset (show read taskId configId row ∈ _ by simp))
  obtain ⟨hread, -⟩ := answers_read (hpast.answered m hm) hsaid
  obtain ⟨-, hsince⟩ := hpast.since (R := Lasts) .refl .trans Answers.lasts Drifts.lasts
  obtain ⟨row', hrow', hurl, -⟩ := (hsince m hm).2 _ row hread
  exact hurl.symm.trans (Past.url hpast _ row' hrow')

/-- The first post of a configuration. -/
theorem posts_allowed_first : ∃ s : Pushers, Reachable plain oneTask s ∧ ∃ p ∈ s.world.log,
    ∃ url content deliveryId, p.said.1 = .post url content deliveryId ∧ url = plain.allowedUrl := by
  obtain ⟨s, hs, p, hlog, hpost⟩ := first_post
  have hp : p ∈ s.world.log := by
    rw [hlog]
    simp
  exact ⟨s, hs, p, hp, _, _, _, hpost, posts_allowed hs hp hpost⟩

/-! ### Wakeups -/

/-- The configuration needs no delivery that the worker knows of: it is deleted, it failed for good,
or what is recorded of it is a task that the worker was shown. -/
def Quiet (e : Deployment) (log : List Entry) (i : ℕ) (st : Stores) (taskId : TaskId)
    (configId : ConfigId) : Prop :=
  ∀ row, st.db.configs.get? (taskId, configId) = some row → row.live = true →
    row.permanentFailureAt.isSome = true ∨
      ∃ task, shown taskId task ∈ Chronicle.of i log ∧
        row.lastDeliveredFingerprint = some (e.fingerprint task)

lemma run_listContext {fresh : ClaimId} {db db' : Db} {rows : List (PushConfig × A2aState)}
    {state : A2aState} (h : Query.run fresh (.listContext contextId) db = .ok (rows, db'))
    (hrow : (row, state) ∈ rows) :
    db.configs.get? (row.taskId, row.configId) = some row ∧ db' = db := by
  obtain ⟨rfl, rfl⟩ := Prod.mk.inj (Except.ok.inj h)
  obtain ⟨⟨r, t⟩, hjoined, heq⟩ := List.mem_map.mp hrow
  cases heq
  obtain ⟨r, hr, hbind⟩ := List.mem_filterMap.mp hjoined
  obtain ⟨t, -, hif⟩ := Option.bind_eq_some_iff.mp hbind
  split at hif
  · cases hif
    exact ⟨Table.get?_of_mem ((List.mem_insertionSort _).mp hr), rfl⟩
  · cases hif

lemma run_get_none {fresh : ClaimId} {db db' : Db}
    (h : Query.run fresh (.get taskId configId) db = .ok (none, db')) :
    ∀ row, db.configs.get? (taskId, configId) = some row → row.live ≠ true := by
  obtain ⟨hval, -⟩ := Prod.mk.inj (Except.ok.inj h)
  intro row hrow hlive
  rw [hrow, Option.filter_some, if_pos hlive] at hval
  cases hval

/-- The worker's last call that tells it of the configuration. -/
def LastSight (log : List Entry) (i : ℕ) (key : TaskId × ConfigId) (m : Entry) : Prop :=
  ∃ later earlier, log = later ++ m :: earlier ∧ m.actor = .worker i ∧ m.said.1.sees key = true ∧
    ∀ x ∈ later, x.actor = .worker i → x.said.1.sees key = false

/-- What a program was told last, the database answered. -/
lemma latest_query {q : Query} {v : q.Reply} (h : Past e controller job log st)
    (hlatest : (⟨⟨Chronicle.of i log⟩, l⟩ : File).Latest (Unseen key) (.query q) v)
    (hsees : (Call.query q).sees key = true) :
    ∃ m, LastSight log i key m ∧ m.said = ⟨.query q, .ok v⟩ ∧
      ∃ fresh, q.run fresh m.before.db = .ok (v, m.after.db) := by
  obtain ⟨⟨said⟩, hlast, since, hsince, hunseen⟩ := hlatest
  obtain ⟨before, rfl⟩ := List.head?_eq_some_iff.mp hlast
  obtain ⟨later, m, earlier, hlog, hactor, hsaid, hlater⟩ := Chronicle.split_of hsince
  have hseen : LastSight log i key m := by
    refine ⟨later, earlier, hlog, hactor, hsaid ▸ hsees, fun x hx hown => ?_⟩
    exact hunseen _ (hlater ▸ Chronicle.mem_of.mpr ⟨x, hx, hown, rfl⟩)
  have hanswer := h.answered m (by simp [hlog])
  refine ⟨m, hseen, hsaid, ?_⟩
  rw [hsaid] at hanswer
  generalize m.before = before, m.after = after at hanswer
  cases hanswer with
  | done hrun => exact ⟨_, hrun⟩
  | external hquery => exact absurd rfl (hquery _)

/-- A configuration is quiet by the row it has. -/
lemma Quiet.of_row {st : Stores}
    (hrow : st.db.configs.get? (taskId, configId) = some row)
    (h : row.permanentFailureAt.isSome = true ∨
      ∃ task, shown taskId task ∈ Chronicle.of i log ∧
        row.lastDeliveredFingerprint = some (e.fingerprint task)) :
    Quiet e log i st taskId configId := by
  intro row' hrow' _
  rw [hrow] at hrow'
  cases hrow'
  exact h

/-- What a worker records as delivered is a task it was shown. -/
lemma finish_shown (h : Past e controller job log st) {later earlier : List Entry} {m : Entry}
    {fingerprint : Fingerprint} {v : Bool} (hlog : log = later ++ m :: earlier)
    (hactor : m.actor = .worker i)
    (hsaid : m.said =
      ⟨.query (.finish taskId configId claimId (some fingerprint) none false), .ok v⟩) :
    ∃ task, shown taskId task ∈ Chronicle.of i log ∧ fingerprint = e.fingerprint task := by
  obtain ⟨i', l', hactor', -, hallowed, -, -⟩ := h.split hlog
  rw [hactor] at hactor'
  cases hactor'
  rw [hsaid] at hallowed
  obtain ⟨row, task, ⟨status, -, -, htold, -⟩, rfl⟩ := hallowed
  have hmem := htold.subset (show shown taskId task ∈ _ by simp)
  have hsub : earlier <:+ log := ⟨later ++ [m], by simp [hlog]⟩
  exact ⟨task, (Chronicle.of_suffix hsub).subset hmem, rfl⟩

/-- A configuration at rest was quiet when the worker last saw it. -/
lemma quiet_of_rests (h : Past e controller job log st)
    (hrests : Rests e ⟨⟨Chronicle.of i log⟩, l⟩ taskId configId) :
    ∃ m, LastSight log i (taskId, configId) m ∧ Quiet e log i m.after taskId configId := by
  have hself : ((taskId, configId) = (taskId, configId) : Bool) = true := decide_eq_true rfl
  cases hrests with
  | gone hlatest =>
    obtain ⟨m, hm, -, fresh, hrun⟩ := latest_query h hlatest hself
    have hsame : m.after.db = m.before.db := (Prod.mk.inj (Except.ok.inj hrun)).2.symm
    refine ⟨m, hm, fun row hrow hlive => ?_⟩
    rw [hsame] at hrow
    exact absurd hlive (run_get_none hrun row hrow)
  | failed hlatest hfailed =>
    obtain ⟨m, hm, -, fresh, hrun⟩ := latest_query h hlatest hself
    obtain ⟨hfound, -, hsame⟩ := run_get hrun
    exact ⟨m, hm, .of_row (hsame ▸ hfound) (.inl hfailed)⟩
  | read hlatest hshown hrecorded =>
    obtain ⟨m, hm, -, fresh, hrun⟩ := latest_query h hlatest hself
    obtain ⟨hfound, -, hsame⟩ := run_get hrun
    exact ⟨m, hm, .of_row (hsame ▸ hfound) (.inr ⟨_, hshown, hrecorded⟩)⟩
  | listed hlatest hlisted htask hconfig hshown hrecorded =>
    obtain ⟨m, hm, -, fresh, hrun⟩ := latest_query h hlatest rfl
    obtain ⟨hfound, hsame⟩ := run_listContext hrun hlisted
    rw [← hsame, htask, hconfig] at hfound
    exact ⟨m, hm, .of_row hfound (.inr ⟨_, hshown, hrecorded⟩)⟩
  | delivered hlatest =>
    obtain ⟨m, hm, hsaid, fresh, hrun⟩ := latest_query h hlatest hself
    have ⟨later, earlier, hlog, hactor, _⟩ := hm
    obtain ⟨task, hshown, rfl⟩ := finish_shown h hlog hactor hsaid
    obtain ⟨before, -, -, hafter⟩ := updateConfig_true hrun
    exact ⟨m, hm, .of_row hafter (.inr ⟨task, hshown, rfl⟩)⟩
  | exhausted hlatest =>
    obtain ⟨m, hm, -, fresh, hrun⟩ := latest_query h hlatest hself
    obtain ⟨before, -, -, hafter⟩ := updateConfig_true hrun
    exact ⟨m, hm, .of_row hafter (.inl rfl)⟩

/-- **A wakeup that is done forgets nothing.** When the program of a wakeup has returned, each
configuration it was listed was, at the program's last call that read it or wrote more of it than
that a claim is over, deleted, failed for good or recorded as delivered with a task it was shown; or
else the program has asked for another wakeup of the context, due within one to nine hundred
seconds. -/
theorem wakeup_serves {s : Pushers} (hs : Reachable e controller s)
    (hreturned : s.thread i = some (.ret ())) (hjob : s.job i = some (.wakeup contextId)) :
    ∃ rows : List (PushConfig × A2aState),
      (⟨.query (.listContext contextId), .ok rows⟩ : Said) ∈ Chronicle.of i s.world.log ∧
      ((∀ row state, (row, state) ∈ rows → ∃ m, LastSight s.world.log i row.key m ∧
          Quiet e s.world.log i m.after row.taskId row.configId) ∨
        ∃ delay, 1 ≤ delay ∧ delay ≤ 900 ∧
          (⟨.sendWakeup contextId "push-retry" delay, .ok ()⟩ : Said) ∈
            Chronicle.of i s.world.log) := by
  obtain ⟨knows, htracked, hkeeps⟩ :=
    Crew.tracks (Q := Done e) (conforms_errand e) (fun _ => possible_of_exec) hs
  obtain ⟨l, d, hl, hknows, hd, hserved⟩ := hkeeps i _ hreturned
  rw [hjob] at hl
  cases hl
  obtain ⟨-, hsaid⟩ := htracked.filed hknows
  have hfile : d = ⟨⟨Chronicle.of i s.world.log⟩, .wakeup contextId⟩ := by
    rw [← hd, ← hsaid]
  subst hfile
  obtain ⟨rows, hlisted, hrests | ⟨delay, hlow, hhigh, hsent⟩⟩ := hserved contextId rfl
  · exact ⟨rows, hlisted, .inl fun row state hrow => quiet_of_rests hs.past (hrests row state hrow)⟩
  · exact ⟨rows, hlisted, .inr ⟨delay, hlow, hhigh, hsent⟩⟩

/-- A wakeup that delivers. -/
theorem wakeup_serves_first : ∃ s : Pushers, Reachable plain oneTask s ∧
    ∃ rows : List (PushConfig × A2aState),
      (⟨.query (.listContext 5), .ok rows⟩ : Said) ∈ Chronicle.of 1 s.world.log ∧
      ((∀ row state, (row, state) ∈ rows → ∃ m, LastSight s.world.log 1 row.key m ∧
          Quiet plain s.world.log 1 m.after row.taskId row.configId) ∨
        ∃ delay, 1 ≤ delay ∧ delay ≤ 900 ∧
          (⟨.sendWakeup 5 "push-retry" delay, .ok ()⟩ : Said) ∈ Chronicle.of 1 s.world.log) := by
  have hplay : ((stage.play (works plain) { state := { db := { controller := oneTask } } }
      (firstDelivery .completed (.status 204))).map fun s : Pushers =>
        (s.returned 1, (s.job 1).bind Errand.record)) = some (true, some 5) := by
    decide +kernel
  obtain ⟨s, -, hs, hval⟩ := stage.played _ hplay
  obtain ⟨hreturned, hjob⟩ := Prod.mk.inj hval
  obtain ⟨l, hl, hrecord⟩ := Option.bind_eq_some_iff.mp hjob
  cases l with
  | wakeup contextId =>
    cases hrecord
    exact ⟨s, hs, wakeup_serves hs (Crew.of_returned hreturned) hl⟩
  | create | delete | retry => cases hrecord

end ManagedAgents.Push
