import ManagedAgents.Push.System

/-!
What the programs of the push subsystem do, whoever answers them.

A delivery posts what it has just made ready, and records what happened. A wakeup that is done has
served every configuration it was listed, or asked for another wakeup.
-/

namespace ManagedAgents.Push

open ManagedAgents.Lib
open ManagedAgents.Controller (ContextId TaskId ClaimId Time Text A2aState TaskRow TaskObject)

variable {e : Deployment} {d : File} {taskId : TaskId} {configId : ConfigId} {claimId : ClaimId}
  {row : PushConfig} {contextId : ContextId}

/-! ### One delivery -/

/-- What is known of a delivery that came this far. -/
def Came (e : Deployment) (d : File) (taskId : TaskId) (configId : ConfigId) (claimId : ClaimId)
    (row : PushConfig) : Progress → Prop
  | .unchanged => Rests e d taskId configId
  | .answered fingerprint status =>
    ∃ task, fingerprint = e.fingerprint task ∧
      row.lastDeliveredFingerprint ≠ some (e.fingerprint task) ∧
      d.Told [posted taskId configId e row task status, checked taskId configId claimId,
        shown taskId task, read taskId configId row, granted taskId configId claimId]
  | _ => True

/-! ### Calls about one configuration -/

/-- The call is about no other configuration. -/
abbrev Confined (key : TaskId × ConfigId) (c : Call) : Prop := ∀ other, other ≠ key → Unseen other c

lemma confined_key {key : TaskId × ConfigId} {c : Call}
    (h : ∀ other, c.sees other = decide (key = other)) :
    Confined key c := fun other hother => (h other).trans (decide_eq_false hother.symm)

lemma confined_send :
    (send e row taskId configId claimId).Every (Confined (taskId, configId)) := by
  refine .bind (Prog.every_perform fun _ _ => rfl) fun task => ?_
  dsimp only
  split
  · exact .pure
  · refine .bind (Prog.every_perform (confined_key fun _ => rfl)) fun current => ?_
    split
    · exact .bind (Prog.every_perform fun _ _ => rfl) fun _ => .pure
    · exact .pure

lemma confined_conclude {transient : Bool} :
    (conclude row taskId configId claimId transient).Every (Confined (taskId, configId)) :=
  .bind (Prog.every_perform (confined_key fun _ => rfl)) fun _ => .pure

lemma confined_attempt :
    (attempt e taskId configId claimId).Every (Confined (taskId, configId)) := by
  refine .bind (Prog.every_perform (confined_key fun _ => rfl)) fun found => ?_
  cases found with
  | none => exact .pure
  | some row =>
    refine .bind (.tryCatch confined_send fun _ => .pure) fun progress => ?_
    cases progress with
    | unchanged | superseded => exact .pure
    | failed => exact confined_conclude
    | answered fingerprint status =>
      dsimp only
      split
      · exact .bind (Prog.every_perform (confined_key fun _ => rfl)) fun _ => .pure
      · exact confined_conclude

lemma confined_postpone : (postpone taskId configId).Every (Confined (taskId, configId)) := by
  refine .bind (Prog.every_perform (confined_key fun _ => rfl)) fun found => ?_
  cases found with
  | none => exact .pure
  | some row =>
    dsimp only
    split
    · exact .pure
    · split
      · exact .pure
      · exact .bind (Prog.every_perform fun _ _ => rfl) fun _ => .pure

lemma confined_serve {state : A2aState} : (serve e row state).Every (Confined row.key) := by
  refine .bind ?_ fun skip => ?_
  · unfold settled
    split
    · exact .tryCatch (.bind (Prog.every_perform fun _ _ => rfl) fun _ => .pure) fun _ => .pure
    · exact .pure
  · split
    · exact .pure
    · refine .bind (Prog.every_perform (confined_key fun _ => rfl)) fun claim => ?_
      cases claim with
      | none => exact confined_postpone
      | some claimId => exact .ensure confined_attempt (Prog.every_perform fun _ _ => rfl)

/-- A wakeup turns to the configurations it has left. -/
lemma unseen_deliverAll {key : TaskId × ConfigId} {rows : List (PushConfig × A2aState)}
    (h : key ∉ rows.map fun r => r.1.key) : (deliverAll e rows).Every (Unseen key) := by
  induction rows with
  | nil => exact .pure
  | cons r rest ih =>
    obtain ⟨row, state⟩ := r
    simp only [List.map_cons, List.mem_cons, not_or] at h
    refine .bind (confined_serve.mono fun hc => hc key h.1) fun delay => ?_
    exact .bind (ih h.2) fun _ => .pure

/-! ### What comes of it -/

lemma follows_send (htook : d.Told [read taskId configId row, granted taskId configId claimId])
    (hread : d.Latest (Unseen (taskId, configId)) (.query (.get taskId configId)) (some row)) :
    Follows e (send e row taskId configId claimId)
      (fun progress d' => Came e d' taskId configId claimId row progress) d := by
  refine Lib.Follows.bind (.tell trivial) fun task d₁ hle₁ hsaid₁ => ?_
  obtain ⟨-, rfl⟩ := hsaid₁
  dsimp only
  split
  · rename_i hsame
    exact .pure (.read (hread.since (Dossier.since_learn rfl)) Dossier.heard_learn hsame)
  · rename_i hdiffers
    have hshown := List.Sublist.cons_cons (shown taskId task) htook
    refine Lib.Follows.bind (.tell trivial) fun current d₂ hle₂ hsaid₂ => ?_
    obtain ⟨-, rfl⟩ := hsaid₂
    cases current with
    | false => exact .pure trivial
    | true =>
      have hchecked := List.Sublist.cons_cons (checked taskId configId claimId) hshown
      refine Lib.Follows.bind (.tell ⟨taskId, configId, claimId, row, task, ⟨hchecked, hdiffers⟩,
        rfl, rfl, rfl, rfl⟩) fun status d₃ hle₃ hsaid₃ => ?_
      obtain ⟨-, rfl⟩ := hsaid₃
      exact .pure ⟨task, rfl, hdiffers,
        List.Sublist.cons_cons (posted taskId configId e row task status) hchecked⟩

lemma backoff_bounds {attempts delay : ℕ} (h : backoff[attempts]? = some delay) :
    1 ≤ delay ∧ delay ≤ 900 := by
  have hmem := List.mem_of_getElem? h
  simp only [backoff, List.mem_cons, List.not_mem_nil, or_false] at hmem
  omega

lemma follows_conclude {transient : Bool}
    (htook : d.Told [read taskId configId row, granted taskId configId claimId]) :
    Follows e (conclude row taskId configId claimId transient)
      (fun o d' => Handled e d' taskId configId o) d := by
  unfold conclude
  dsimp only
  generalize hdelay : (if transient = true then backoff[row.attemptCount]? else none) = delay
  have hvalue : delay = none ∨ delay = backoff[row.attemptCount]? := by
    rw [← hdelay]
    split
    · exact .inr rfl
    · exact .inl rfl
  refine Lib.Follows.bind (.tell ⟨row, htook, hvalue, rfl⟩) fun finished d' hle hsaid => .pure ?_
  obtain ⟨-, rfl⟩ := hsaid
  cases finished with
  | false => exact ⟨by omega, by omega⟩
  | true =>
    cases delay with
    | none => exact .exhausted Dossier.latest_learn
    | some delay =>
      rcases hvalue with hnone | hbackoff
      · cases hnone
      · exact backoff_bounds hbackoff.symm

lemma follows_attempt (hgranted : d.Told [granted taskId configId claimId]) :
    Follows e (attempt e taskId configId claimId)
      (fun o d' => Handled e d' taskId configId o) d := by
  refine Lib.Follows.bind (.tell trivial) fun found d₁ hle₁ hsaid₁ => ?_
  obtain ⟨-, rfl⟩ := hsaid₁
  cases found with
  | none => exact .pure (.gone Dossier.latest_learn)
  | some row =>
    have htook := List.Sublist.cons_cons (read taskId configId row) hgranted
    refine Lib.Follows.bind
      (Q := fun progress d' => Came e d' taskId configId claimId row progress)
      (.tryCatch (follows_send htook Dossier.latest_learn) fun _ _ _ => .pure trivial)
      fun progress d₂ hle₂ hcame => ?_
    have htook' := Transcript.Told.mono htook hle₂.2
    cases progress with
    | unchanged => exact .pure hcame
    | superseded => exact .pure ⟨by omega, by omega⟩
    | failed => exact follows_conclude htook'
    | answered fingerprint status =>
      obtain ⟨task, rfl, hdiffers, htold⟩ := hcame
      dsimp only
      split
      · rename_i hok
        refine Lib.Follows.bind (.tell ⟨row, task, ⟨status, hok.1, hok.2, htold, hdiffers⟩, rfl⟩)
          fun finished d₃ hle₃ hsaid₃ => .pure ?_
        obtain ⟨-, rfl⟩ := hsaid₃
        cases finished with
        | false => exact ⟨by omega, by omega⟩
        | true => exact .delivered Dossier.latest_learn
      · exact follows_conclude htook'

lemma remaining_bounds (due : List Time) (now : Time) :
    1 ≤ remaining due now ∧ remaining due now ≤ 900 := by
  unfold remaining
  split <;> omega

lemma follows_postpone :
    Follows e (postpone taskId configId) (fun o d' => Handled e d' taskId configId o) d := by
  refine Lib.Follows.bind (.tell trivial) fun found d₁ hle₁ hsaid₁ => ?_
  obtain ⟨-, rfl⟩ := hsaid₁
  cases found with
  | none => exact .pure (.gone Dossier.latest_learn)
  | some row =>
    dsimp only
    split
    · rename_i hfailed
      exact .pure (.failed Dossier.latest_learn hfailed)
    · split
      · exact .pure ⟨by omega, by omega⟩
      · exact .call trivial fun now _ _ => .pure (remaining_bounds _ now)

lemma follows_deliver :
    Follows e (deliver e taskId configId) (fun o d' => Handled e d' taskId configId o) d := by
  refine Lib.Follows.bind (.tell trivial) fun claim d₁ hle₁ hsaid₁ => ?_
  obtain ⟨-, rfl⟩ := hsaid₁
  cases claim with
  | none => exact follows_postpone
  | some claimId =>
    refine .ensure (follows_attempt ?_) (fun o d' d'' hsince h => h.since hsince) fun d' _ => ?_
    · exact List.Sublist.cons_cons (granted taskId configId claimId) (List.nil_sublist _)
    · refine Lib.Follows.mono (.tell trivial) fun _ d'' _ hsaid => ?_
      obtain ⟨-, rfl⟩ := hsaid
      exact Dossier.since_learn rfl

/-! ### A wakeup -/

lemma follows_settled {rows : List (PushConfig × A2aState)} {state : A2aState}
    (hlisted : d.Latest (Unseen row.key) (.query (.listContext contextId)) rows)
    (hrow : (row, state) ∈ rows) : Follows e (settled e row state)
      (fun skip d' => skip = true → Rests e d' row.taskId row.configId) d := by
  unfold settled
  split
  · refine .tryCatch ?_ fun _ _ _ => .pure nofun
    refine Lib.Follows.bind (.tell trivial) fun task d' hle hsaid => .pure fun hskip => ?_
    obtain ⟨-, rfl⟩ := hsaid
    exact .listed (hlisted.since (Dossier.since_learn rfl)) hrow rfl rfl Dossier.heard_learn
      (of_decide_eq_true hskip)
  · exact .pure nofun

lemma follows_serve {rows : List (PushConfig × A2aState)} {state : A2aState}
    (hlisted : d.Latest (Unseen row.key) (.query (.listContext contextId)) rows)
    (hrow : (row, state) ∈ rows) :
    Follows e (serve e row state) (fun o d' => Handled e d' row.taskId row.configId o) d := by
  refine Lib.Follows.bind (follows_settled hlisted hrow) fun skip d₁ hle₁ hskip => ?_
  split
  · rename_i htrue
    exact .pure (hskip htrue)
  · exact follows_deliver

lemma follows_deliverAll {listed : List (PushConfig × A2aState)}
    {rows : List (PushConfig × A2aState)} (hsub : ∀ r ∈ rows, r ∈ listed)
    (hkeys : (rows.map fun r => r.1.key).Nodup)
    (hlisted : ∀ r ∈ rows, d.Latest (Unseen r.1.key) (.query (.listContext contextId)) listed) :
    Follows e (deliverAll e rows)
      (fun delays d' => (∀ delay ∈ delays, 1 ≤ delay ∧ delay ≤ 900) ∧ (delays = [] →
        ∀ row state, (row, state) ∈ rows → Rests e d' row.taskId row.configId)) d := by
  induction rows generalizing d with
  | nil => exact .pure ⟨nofun, fun _ => nofun⟩
  | cons r rest ih =>
    obtain ⟨row, state⟩ := r
    have hrow := hsub (row, state) (by simp)
    simp only [List.map_cons, List.nodup_cons] at hkeys
    obtain ⟨hfirst, hkeys⟩ := hkeys
    have hothers : ∀ r ∈ rest, r.1.key ≠ row.key := fun r hr heq =>
      hfirst (heq ▸ List.mem_map_of_mem hr)
    unfold deliverAll
    refine Lib.Follows.bind ((follows_serve (hlisted _ List.mem_cons_self) hrow).since
      confined_serve) fun delay d₁ hle₁ ⟨hdelay, hserved⟩ => ?_
    refine Lib.Follows.bind ((ih (fun r hr => hsub r (List.mem_cons_of_mem _ hr)) hkeys
      fun r hr => (hlisted r (List.mem_cons_of_mem _ hr)).since
        (hserved.mono fun c hc => hc _ (hothers r hr))).since (unseen_deliverAll hfirst))
      fun delays d₂ hle₂ ⟨hdelays, hunseen⟩ => ?_
    obtain ⟨hbounds, hrests⟩ := hdelays
    refine .pure ⟨fun x hx => ?_, fun hnil row' state' hmem => ?_⟩
    · rcases List.mem_append.mp hx with hx | hx
      · rw [Option.mem_toList] at hx
        cases hx
        exact hdelay
      · exact hbounds x hx
    · obtain ⟨hnone, hrest⟩ := List.append_eq_nil_iff.mp hnil
      cases delay with
      | some delay => cases hnone
      | none =>
        rcases List.mem_cons.mp hmem with heq | hmem
        · cases heq
          exact Rests.since hdelay hunseen
        · exact hrests hrest row' state' hmem

lemma follows_runContext :
    Follows e (runContext e contextId) (fun _ d' => Served e d' contextId) d := by
  refine Lib.Follows.bind (.tell trivial) fun rows d₁ hle₁ ⟨hkeys, hsaid⟩ => ?_
  subst hsaid
  refine Lib.Follows.bind (follows_deliverAll (fun _ h => h) hkeys fun _ _ => Dossier.latest_learn)
    fun delays d₂ hle₂ hdelays => ?_
  obtain ⟨hbounds, hrests⟩ := hdelays
  have hlisted' := Dossier.heard_mono Dossier.heard_learn hle₂
  cases hmin : delays.min? with
  | none =>
    rw [List.min?_eq_none_iff] at hmin
    exact .pure ⟨rows, hlisted', .inl (hrests hmin)⟩
  | some delay =>
    obtain ⟨hlow, hhigh⟩ := hbounds delay (List.min?_mem hmin)
    dsimp only
    unfold scheduleContext
    rw [if_neg (by simp; omega)]
    refine Lib.Follows.bind (.perform trivial) fun _ d₃ hle₃ hheard => .pure ?_
    exact ⟨rows, d₂.heard_mono hlisted' hle₃, .inr ⟨delay, hlow, hhigh, hheard.2⟩⟩

/-! ### The other programs -/

lemma follows_scheduleContext {reason : Text} {delay : ℕ} :
    Follows e (scheduleContext contextId reason delay) (fun _ _ => True) d := by
  unfold scheduleContext
  split
  · exact .throw
  · exact .call trivial fun _ _ _ => .pure trivial

lemma follows_createConfig {request : ConfigRequest} {named : Option TaskId} :
    Follows e (createConfig e request named) (fun _ _ => True) d := by
  unfold createConfig
  split
  · exact .throw
  · refine Lib.Follows.bind (Q := fun _ _ => True) (.tryCatch (.quiet rfl) fun refusal _ _ => ?_)
      fun row d₁ _ _ => ?_
    · cases refusal <;> exact .throw
    · refine .call trivial fun found _ _ => ?_
      cases found with
      | none => exact .throw
      | some task =>
        exact Lib.Follows.bind follows_scheduleContext fun _ _ _ _ => .pure trivial

lemma follows_deleteConfig :
    Follows e (deleteConfig taskId configId) (fun _ _ => True) d := by
  refine .call trivial fun found _ _ => ?_
  cases found with
  | none => exact .throw
  | some task => exact .call trivial fun _ _ _ => .pure trivial

lemma follows_retryPush : Follows e (retryPush taskId configId) (fun _ _ => True) d := by
  refine .call trivial fun found _ _ => ?_
  cases found with
  | none => exact .throw
  | some task =>
    refine .call trivial fun reset _ _ => ?_
    cases reset with
    | false => exact .throw
    | true =>
      rw [if_pos rfl]
      exact follows_scheduleContext

/-- What is so when a job's program returns. -/
def Done (e : Deployment) (l : Errand) (d : File) : Prop :=
  d.job = l ∧ ∀ contextId, l.record = some contextId → Served e d contextId

/-- **Every program of the push subsystem keeps to its file.** -/
theorem conforms_errand (e : Deployment) (l : Errand) :
    (Contract.filed possible (allowed e)).Conforms ((works e).program l) (fun _ => Done e l)
      (fun _ => True) { said := [], job := l } := by
  have hprogram : Follows e (l.program e)
      (fun _ d => ∀ contextId, l.record = some contextId → Served e d contextId)
      { said := [], job := l } := by
    cases l with
    | wakeup contextId =>
      refine Lib.Follows.mono follows_runContext fun _ d _ hserved contextId' hrecord => ?_
      cases hrecord
      exact hserved
    | create request named =>
      exact Lib.Follows.bind follows_createConfig fun _ _ _ _ => .pure nofun
    | delete taskId configId => exact follows_deleteConfig.mono fun _ _ _ _ => nofun
    | retry taskId configId => exact follows_retryPush.mono fun _ _ _ _ => nofun
  exact Contract.Conforms.mono hprogram (fun _ _ h => ⟨h.1.1.symm, h.2⟩) fun _ _ => trivial

end ManagedAgents.Push
