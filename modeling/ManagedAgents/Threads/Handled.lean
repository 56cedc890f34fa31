import ManagedAgents.Threads.Events
import ManagedAgents.Threads.Ingress

/-!
A Slack event is handled once.

Whoever completes an event had claimed it, and nobody else touched it in between; and an event that
is completed stays as it is. So a delivery that comes to its end leaves its event behind for good,
and a message with what was asked for it.
-/

namespace ManagedAgents.Threads.Ingress

open ManagedAgents.Lib
open ManagedAgents.Controller (TaskId)
open Events (Said claimed asked made)

variable {st st' : Store} {job : ℕ → Option Errand} {log : List Entry} {event : String × String}
  {row : Event} {c : Call} {token : IngressToken}

/-! ### The history of an event -/

/-- The handlers' calls so far, and the store they left. -/
abbrev Past (job : ℕ → Option Errand) (log : List Entry) (st : Store) : Prop :=
  History Answers Drifts Events.allowed {} job log st

/-- An event that is completed has no claim. -/
lemma Past.unclaimed (h : Past job log st) :
    ∀ event row, st.db.events.get? event = some row → row.status = .sent → row.claimId = none := by
  induction h with
  | init => exact nofun
  | @call log st i l c r st' _ _ _ hanswer ih =>
    intro event row' hrow' hsent
    have hchange := hanswer.effect.2 event
    rw [hrow'] at hchange
    generalize hrow : st.db.events.get? event = o at hchange
    cases hchange with
    | same => exact ih event row' hrow hsent
    | claimed => cases hsent
    | completed => rfl
    | failed => cases hsent
  | drift _ hd ih =>
    obtain ⟨now, -, rfl⟩ := hd
    exact ih

/-- What is completed at the first state stays as it is. -/
def Final (st st' : Store) : Prop :=
  ∀ event row, st.db.events.get? event = some row → row.status = .sent → row.claimId = none →
    st'.db.events.get? event = some row

lemma Final.refl (st : Store) : Final st st := fun _ _ hrow _ _ => hrow

lemma Final.trans {st'' : Store} (h : Final st st') (h' : Final st' st'') : Final st st'' :=
  fun event row hrow hsent hfree => h' event row (h event row hrow hsent hfree) hsent hfree

lemma Answers.final {r : Except Exn c.Reply} (h : Answers st c r st') : Final st st' := by
  intro event row hrow hsent hfree
  have hchange := h.effect.2 event
  rw [hrow] at hchange
  generalize st'.db.events.get? event = o at hchange
  cases hchange with
  | same => rfl
  | claimed hc ho hclaimable =>
    cases ho
    simp [Event.claimable, hsent] at hclaimable
  | completed hc hheld | failed hc hheld =>
    rw [hfree] at hheld
    cases hheld

lemma Drifts.final (h : Drifts st st') : Final st st' := by
  obtain ⟨now, -, rfl⟩ := h
  exact fun _ _ hrow _ _ => hrow

/-- The entry completes the event, whose row is then this one. -/
def Completes (e : Entry) (event : String × String) (row : Event) (token : IngressToken) : Prop :=
  e.said.1 = .completeIngress event.1 event.2 token row.threadId row.taskId ∧
    (lease event).Holds e.before token ∧ e.after.db.events.get? event = some row

/-- The entry leaves the event alone. -/
def Leaves (e : Entry) (event : String × String) : Prop :=
  e.after.db.events.get? event = e.before.db.events.get? event

/-- An event that is completed was completed by one call, and was left alone since. -/
lemma Past.completed (h : Past job log st) (hrow : st.db.events.get? event = some row)
    (hsent : row.status = .sent) :
    ∃ later e earlier token, log = later ++ e :: earlier ∧ Completes e event row token ∧
      ∀ m ∈ later, Leaves m event ∧ m.after.db.events.get? event = some row := by
  induction h generalizing row with
  | init => cases hrow
  | @call log st i l c r st' h _ _ hanswer ih =>
    have hchange := hanswer.effect.2 event
    generalize hbefore : st.db.events.get? event = o at hchange
    generalize hafter : st'.db.events.get? event = o' at hchange
    rw [hrow] at hafter
    cases hchange with
    | same =>
      obtain ⟨later, e, earlier, token, rfl, hcompletes, hlater⟩ :=
        ih (hbefore.trans hafter.symm) hsent
      refine ⟨_ :: later, e, earlier, token, rfl, hcompletes, List.forall_mem_cons.mpr ⟨?_, hlater⟩⟩
      exact ⟨hrow.trans (hafter.trans hbefore.symm), hrow⟩
    | claimed | failed =>
      cases hafter
      cases hsent
    | completed hc hheld =>
      cases hafter
      exact ⟨[], _, log, _, rfl, ⟨hc, ⟨_, hbefore, hheld⟩, hrow⟩, by simp⟩
  | drift _ hd ih =>
    obtain ⟨now, -, rfl⟩ := hd
    exact ih hrow hsent

/-- What a claim is granted is a fresh token, and the event changes. -/
lemma answers_claimed {m : Entry} (h : Answers m.before m.said.1 m.said.2 m.after)
    (hsaid : m.said = claimed event token) :
    (lease event).issued m.after token ∧ ¬ Leaves m event := by
  rw [hsaid] at h
  unfold Leaves
  generalize m.before = before, m.after = after at h ⊢
  cases h with
  | done hrun =>
    obtain ⟨hclaiming, -⟩ := claimIngress_claiming (Except.ok.inj (Option.some.inj hrun))
    cases hclaiming with
    | acquired hr hfree hafter =>
      refine ⟨Nat.lt_succ_self _, fun hsame => ?_⟩
      rw [hafter, if_pos rfl] at hsame
      rw [← hsame] at hr
      have hattempts := congrArg Event.attempts hr
      simp [Event.claim] at hattempts
  | external hnone => cases hnone

/-- An event that a claim found completed is. -/
lemma answers_completed {m : Entry} (h : Answers m.before m.said.1 m.said.2 m.after)
    (hsaid : m.said = ⟨.claimIngress event.1 event.2, .ok .completed⟩) :
    ∃ row, m.before.db.events.get? event = some row ∧ row.status = .sent := by
  rw [hsaid] at h
  generalize m.before = before, m.after = after at h
  cases h with
  | done hrun =>
    obtain ⟨hclaiming, -⟩ := claimIngress_claiming (Except.ok.inj (Option.some.inj hrun))
    cases hclaiming with
    | completed hr hsent hsame => exact ⟨_, hr, hsent⟩
  | external hnone => cases hnone

/-- An event whose completion was acknowledged is completed. -/
lemma answers_complete {m : Entry} {threadId : Option ThreadId} {taskId : Option TaskId}
    (h : Answers m.before m.said.1 m.said.2 m.after)
    (hsaid : m.said = ⟨.completeIngress event.1 event.2 token threadId taskId, .ok ()⟩) :
    ∃ row, m.after.db.events.get? event = some row ∧ row.status = .sent ∧ row.claimId = none := by
  rw [hsaid] at h
  generalize m.before = before, m.after = after at h
  cases h with
  | done hrun =>
    simp only [run, Option.some.injEq, completeIngress] at hrun
    split at hrun
    · rename_i row hrow
      split at hrun
      · cases hrun
        refine ⟨row.complete threadId taskId, ?_, rfl, rfl⟩
        dsimp only
        rw [Table.get?_modify, if_pos rfl, hrow]
        rfl
      · cases hrun
    · cases hrun
  | external hnone => cases hnone

/-! ### A run that is written down -/

/-- The ingress answers its own calls; the others are answered as before. -/
def reply (w : World × Ledger Call.Reply Exn Store) (a : Actor) (c : Call) :
    Option (Except Exn c.Reply × (World × Ledger Call.Reply Exn Store)) :=
  match run w.2.state.uuid c w.2.state.db with
  | some (.ok (v, db)) =>
    let st : Store := { db, uuid := w.2.state.uuid + 1 }
    some (.ok v, w.1.note a c (.ok v) w.1,
      { state := st, log := ⟨a, ⟨c, .ok v⟩, w.2.state, st⟩ :: w.2.log })
  | some (.error _) => none
  | none =>
    (Events.reply w.1 c).map fun (r, w₁) =>
      (r, w.1.note a c r w₁, { w.2 with log := ⟨a, ⟨c, r⟩, w.2.state, w.2.state⟩ :: w.2.log })

def stage : Stage environment Unit Query where
  answer w a c _ := reply w a c
  answer_exec {w a c _ r w'} h := by
    unfold reply at h
    split at h
    · rename_i v db hrun
      cases h
      refine ⟨⟨w.1, .external ?_, rfl⟩, _, .done hrun, rfl⟩
      rintro q rfl
      cases hrun
    · cases h
    · rename_i hrun
      obtain ⟨⟨r, w₁⟩, hreply, heq⟩ := Option.map_eq_some_iff.mp h
      cases heq
      exact ⟨⟨w₁, Events.reply_answers hreply, rfl⟩, _, .external hrun, rfl⟩
  tick w q := (Events.stage.tick w.1 q).map fun w₁ => (w₁, w.2)
  tick_drift h := by
    obtain ⟨w₁, hw, rfl⟩ := Option.map_eq_some_iff.mp h
    exact .inl ⟨Events.stage.tick_drift hw, rfl⟩

/-- A mention is delivered and handled, and then delivered again. -/
def mentioned : List (Duty Errand Unit Unit Query) :=
  [.tick (.mapExternalIdentity 7 "slack" "T" "U"),
    .start (.message { agentId := some 1 } Events.mention)] ++ List.replicate 20 (.call 0 ()) ++
    [.start (.message { agentId := some 1 } Events.mention)] ++ List.replicate 2 (.call 1 ())

/-- What comes of the mention, and whether its second delivery is done. -/
lemma mentioned_handled : ∃ s : Desk, Reachable s ∧ s.thread 1 = some (.ret ()) ∧
    (∃ config, s.job 1 = some (.message config Events.mention)) ∧
    ∃ row, s.world.2.state.db.events.get? ("slack", "event-1") = some row ∧ row.status = .sent ∧
      row.threadId = some 4 ∧ row.taskId = some 3 := by
  have hplay : (stage.play works ({}, { state := {} }) mentioned).map
      (fun s : Desk => (s.returned 1 && Events.isMention (s.job 1),
        (s.world.2.state.db.events.get? ("slack", "event-1")).map
          fun r => (r.status, r.threadId, r.taskId))) =
      some (true, some (.sent, some 4, some 3)) := by
    decide +kernel
  obtain ⟨s, -, hs, hval⟩ := stage.played _ hplay
  obtain ⟨hboth, hval⟩ := Prod.mk.inj hval
  obtain ⟨hreturned, hmention⟩ := Bool.and_eq_true_iff.mp hboth
  obtain ⟨row, hrow, hval⟩ := Option.map_eq_some_iff.mp hval
  obtain ⟨hsent, hval⟩ := Prod.mk.inj hval
  obtain ⟨hthread, htask⟩ := Prod.mk.inj hval
  refine ⟨s, hs, Crew.of_returned hreturned, ?_, row, hrow, hsent, hthread, htask⟩
  unfold Events.isMention at hmention
  split at hmention
  · rename_i config detail hjob
    rw [decide_eq_true_eq] at hmention
    exact ⟨config, hmention ▸ hjob⟩
  · cases hmention

/-! ### A run of the handlers -/

/-- The run is a history, and a handler knows what the log has of it. -/
lemma Reachable.tracked {s : Desk} (hs : Reachable s) :
    Past s.job s.world.2.log s.world.2.state ∧
      ∃ knows, Crew.Keeps (Contract.filed Events.possible Events.allowed) Events.Done s knows ∧
        ∀ i d, knows i = some d → s.job i = some d.job ∧ d.said = Chronicle.of i s.world.2.log := by
  have hpossible : ∀ {w a c r w'}, environment.exec w a c r w' → Events.possible c r :=
    fun hexec => Events.exec_possible hexec.1
  obtain ⟨knows, htracked, hkeeps⟩ := Crew.tracks Events.conforms_errand
    (fun _ hexec => hpossible hexec) hs
  have hseen := htracked.view Environment.Part.snd
  exact ⟨hseen.history, knows, hkeeps, fun i d hd => hseen.filed hd⟩

/-- The database and the ingress have the same calls in their logs. -/
lemma Reachable.same_log {s : Desk} (hs : Reachable s) :
    s.world.1.log.map (fun e => (e.actor, e.said)) =
      s.world.2.log.map (fun e => (e.actor, e.said)) := by
  refine Crew.Reachable.world (P := fun w : World × Ledger Call.Reply Exn Store =>
    w.1.log.map (fun e => (e.actor, e.said)) = w.2.log.map (fun e => (e.actor, e.said)))
    rfl ?_ ?_ hs
  · rintro ⟨w₁, w₂⟩ a c r ⟨w₁', w₂'⟩ h ⟨⟨w, -, rfl⟩, st, -, rfl⟩
    exact congrArg (List.cons (a, ⟨c, r⟩)) h
  · rintro ⟨w₁, w₂⟩ ⟨w₁', w₂'⟩ h (⟨hd, hsame⟩ | ⟨hsame, st, -, hst⟩)
    · have hlog : w₁'.log = w₁.log := by
        rcases hd with ⟨now, -, rfl⟩ | ⟨q, v, db, -, rfl⟩ <;> rfl
      cases hsame
      exact (congrArg (List.map _) hlog).trans h
    · cases hsame
      cases hst
      exact h

/-- What is in the ingress's log is in the database's. -/
lemma Reachable.counterpart {s : Desk} (hs : Reachable s) {e : Entry} (he : e ∈ s.world.2.log) :
    ∃ e' ∈ s.world.1.log, e'.actor = e.actor ∧ e'.said = e.said := by
  have hpair : (e.actor, e.said) ∈ s.world.1.log.map fun e => (e.actor, e.said) := by
    rw [hs.same_log]
    exact List.mem_map.mpr ⟨e, he, rfl⟩
  obtain ⟨e', he', heq⟩ := List.mem_map.mp hpair
  obtain ⟨hactor, hsaid⟩ := Prod.mk.inj heq
  exact ⟨e', he', hactor, hsaid⟩

/-- The run of the handlers, as the database sees it. -/
lemma Reachable.threads {s : Desk} (hs : Reachable s) : Threads.Reachable (s.view Prod.fst) :=
  Crew.Reachable.view Environment.Part.fst hs

/-- Whatever happens, a completed event stays as it is. -/
lemma Reachable.final {s s' : Desk} (hs : Reachable s)
    (hlater : Relation.ReflTransGen (Crew.Step works environment) s s')
    (hrow : s.world.2.state.db.events.get? event = some row) (hsent : row.status = .sent) :
    s'.world.2.state.db.events.get? event = some row := by
  induction hlater with
  | refl => exact hrow
  | @tail s₁ _ hpath hstep ih =>
    have hfree := (Reachable.tracked (Crew.Reachable.path hs hpath)).1.unclaimed event row ih hsent
    cases hstep with
    | start | deliver | settle | drop | post => exact ih
    | call _ hexec _ | send _ hexec =>
      obtain ⟨-, st, hanswer, hst⟩ := hexec
      dsimp only [Crew.proceed]
      rw [hst]
      exact hanswer.final event row ih hsent hfree
    | drift hd =>
      rcases hd with ⟨-, hsame⟩ | ⟨-, st, ⟨now, -, rfl⟩, hst⟩
      · dsimp only
        rw [hsame]
        exact ih
      · dsimp only
        rw [hst]
        exact ih

/-- **An event is handled once.** An event that is completed was completed by a handler that had
claimed it; between the two, and since, every call of any handler left the event alone, no claim of
it was granted, and so it stays. -/
theorem handled_once {s : Desk} (hs : Reachable s)
    (hrow : s.world.2.state.db.events.get? event = some row) (hsent : row.status = .sent) :
    ∃ later e mid g rest token, s.world.2.log = later ++ e :: (mid ++ g :: rest) ∧
      g.actor = e.actor ∧ g.said = claimed event token ∧
      e.said.1 = .completeIngress event.1 event.2 token row.threadId row.taskId ∧
      e.after.db.events.get? event = some row ∧
      (∀ m ∈ later ++ mid, Leaves m event ∧ ∀ t, m.said ≠ claimed event t) ∧
      ∀ s', Relation.ReflTransGen (Crew.Step works environment) s s' →
        s'.world.2.state.db.events.get? event = some row := by
  obtain ⟨hpast, -⟩ := hs.tracked
  obtain ⟨later, e, earlier, token, hlog, ⟨hcall, hheld, hafter⟩, hlater⟩ :=
    hpast.completed hrow hsent
  obtain ⟨i, l, hactor, -, hallowed, -, hbefore⟩ := hpast.split hlog
  rw [hcall] at hallowed
  obtain ⟨hevent, htold, -⟩ := hallowed
  -- the handler had claimed the event under the token that still holds
  rw [← hevent] at htold
  obtain ⟨g, hg, hgactor, hsaid⟩ := Chronicle.mem_of.mp (List.singleton_sublist.mp htold)
  obtain ⟨mid, rest, rfl⟩ := List.append_of_mem hg
  obtain ⟨hissued, -⟩ := answers_claimed (hbefore.answered g hg) hsaid
  obtain ⟨hmid, -⟩ := hbefore.held Answers.spans Drifts.spans rfl hissued hheld
  refine ⟨later, e, mid, g, rest, token, hlog, hgactor.trans hactor.symm, hsaid, hcall, hafter,
    fun m hm => ?_, fun s' hpath => hs.final hpath hrow hsent⟩
  have hleaves : Leaves m event := by
    rcases List.mem_append.mp hm with hm | hm
    · exact (hlater m hm).1
    · exact (hmid m hm).2.2
  have hin : m ∈ s.world.2.log := by
    rw [hlog]
    rcases List.mem_append.mp hm with hm | hm <;> simp [hm]
  exact ⟨hleaves, fun t hclaimed => (answers_claimed (hpast.answered m hin) hclaimed).2 hleaves⟩

/-- The mention is handled once, though it is delivered twice. -/
theorem handled_once_mention : ∃ s : Desk, Reachable s ∧
    ∃ later e mid g rest token, s.world.2.log = later ++ e :: (mid ++ g :: rest) ∧
      g.actor = e.actor ∧ g.said = claimed ("slack", "event-1") token ∧
      e.said.1 = .completeIngress "slack" "event-1" token (some 4) (some 3) := by
  obtain ⟨s, hs, -, -, row, hrow, hsent, hthread, htask⟩ := mentioned_handled
  obtain ⟨later, e, mid, g, rest, token, hlog, hactor, hsaid, hcall, -, -, -⟩ :=
    handled_once hs hrow hsent
  rw [hthread, htask] at hcall
  exact ⟨s, hs, later, e, mid, g, rest, token, hlog, hactor, hsaid, hcall⟩

/-- In this order a handler claimed the message, made a projection of the task, asked for it and
completed the message with the task. -/
def ShownBy (log : List Entry) (i : ℕ) (eventId : String) (t : ThreadId) (x : TaskId)
    (b : BindingId) : Prop :=
  ∃ (es : List Entry) (token : IngressToken) (r : Except Exn Unit), es.Sublist log ∧
    (∀ e ∈ es, e.actor = .worker i) ∧
    es.map Deed.said = [⟨.completeIngress "slack" eventId token (some t) (some x), r⟩,
      asked eventId t x b, made eventId x b, claimed ("slack", eventId) token]

/-- **A message that is handled is shown.** A message completed with a task was completed by a
handler of it that had claimed it, then made a projection of the task, and then asked for it; its
place is bound to the thread and its logical send to the task. -/
theorem handled_projected {s : Desk} (hs : Reachable s) {eventId : String} {x : TaskId}
    (hrow : s.world.2.state.db.events.get? ("slack", eventId) = some row)
    (hsent : row.status = .sent) (htask : row.taskId = some x) :
    ∃ i config detail t b, s.job i = some (.message config detail) ∧
      detail.slackEventId = eventId ∧ row.threadId = some t ∧
      ShownBy s.world.2.log i eventId t x b ∧ Events.Projected s.world.1.db detail t x b := by
  obtain ⟨hpast, -⟩ := hs.tracked
  obtain ⟨later, e, earlier, token, hlog, ⟨hcall, -, -⟩, -⟩ := hpast.completed hrow hsent
  obtain ⟨i, l, hactor, hl, hallowed, -, -⟩ := hpast.split hlog
  rw [hcall] at hallowed
  obtain ⟨hevent, -, hshown⟩ := hallowed
  cases l with
  | stop config detail patience => simp [Errand.ingress] at hevent
  | toolConfirmation config detail => simp [Errand.ingress] at hevent
  | message config detail =>
    cases hevent
    obtain ⟨t, b, hthread, htold⟩ := hshown config detail x rfl htask
    obtain ⟨es, hes, hactors, hsaid⟩ := Chronicle.sublist_of htold
    have hin : (e :: es).Sublist s.world.2.log := by
      rw [hlog]
      exact List.Sublist.trans (List.Sublist.cons_cons e hes) (List.sublist_append_right later _)
    refine ⟨i, config, detail, t, b, hl, rfl, hthread, ⟨e :: es, token, ?_⟩, ?_⟩
    · rw [hthread, htask] at hcall
      obtain ⟨actor, ⟨call, r⟩, before, after⟩ := e
      cases hcall
      exact ⟨r, hin, List.forall_mem_cons.mpr ⟨hactor, hactors⟩, congrArg (List.cons _) hsaid⟩
    · -- the projection was asked for in the database's log as well
      obtain ⟨p, rest, rfl, hp, -⟩ := List.map_eq_cons_iff.mp hsaid
      obtain ⟨p', hp', hpactor, hpsaid⟩ := hs.counterpart (hin.subset (by simp : p ∈ _))
      have hprojects : Events.Projects (s.view Prod.fst) p' detail t x b :=
        ⟨hp', i, config, hpactor.trans (hactors p (by simp)), hl,
          congrArg Sigma.fst (hpsaid.trans hp)⟩
      exact Events.projected hs.threads hprojects

/-- The mention is shown. -/
theorem handled_projected_mention : ∃ s : Desk, Reachable s ∧
    ∃ i detail b, ShownBy s.world.2.log i "event-1" 4 3 b ∧
      Events.Projected s.world.1.db detail 4 3 b := by
  obtain ⟨s, hs, -, -, row, hrow, hsent, hthread, htask⟩ := mentioned_handled
  obtain ⟨i, config, detail, t, b, -, -, ht, hshown, hprojected⟩ :=
    handled_projected hs hrow hsent htask
  rw [hthread] at ht
  cases ht
  exact ⟨s, hs, i, detail, b, hshown, hprojected⟩

/-- **A handler that is done has settled its event.** Once a handler has returned, its event is
completed, or it is a channel's message whose place the handler saw to be bound to no thread. -/
theorem returned_settled {s : Desk} (hs : Reachable s) {i : ℕ} {l : Errand}
    (hreturned : s.thread i = some (.ret ())) (hjob : s.job i = some l) :
    (∃ row, s.world.2.state.db.events.get? l.ingress = some row ∧ row.status = .sent) ∨
      ∃ config detail, l = .message config detail ∧ detail.eventType = "message" ∧
        detail.channelType ≠ some "im" ∧ ∃ e ∈ s.world.1.log, e.actor = .worker i ∧
          e.after.bindings.get? (Events.placeOf detail) = none := by
  obtain ⟨hpast, knows, hkeeps, hfiled⟩ := hs.tracked
  obtain ⟨l', d, hl', hd, hdone⟩ := hkeeps i _ hreturned
  rw [hjob] at hl'
  cases hl'
  obtain ⟨rfl, hdone⟩ := hdone
  obtain ⟨-, hsaid⟩ := hfiled i d hd
  obtain ⟨-, hsince⟩ := hpast.since (R := Final) .refl .trans Answers.final Drifts.final
  rcases hdone with (hcompleted | ⟨token, threadId, taskId, hcomplete⟩) | hignored
  · rw [Transcript.Heard, hsaid] at hcompleted
    obtain ⟨m, hm, -, hm'⟩ := Chronicle.mem_of.mp hcompleted
    obtain ⟨row, hrow, hsent⟩ := answers_completed (hpast.answered m hm) hm'
    obtain ⟨later, earlier, hlog⟩ := List.append_of_mem hm
    obtain ⟨-, -, -, -, -, hanswer, hbefore⟩ := hpast.split hlog
    have hfree := Past.unclaimed hbefore _ row hrow hsent
    have hafter := hanswer.final _ row hrow hsent hfree
    exact .inl ⟨row, (hsince m hm).2 _ row hafter hsent hfree, hsent⟩
  · rw [Transcript.Heard, hsaid] at hcomplete
    obtain ⟨m, hm, -, hm'⟩ := Chronicle.mem_of.mp hcomplete
    obtain ⟨row, hrow, hsent, hfree⟩ := answers_complete (hpast.answered m hm) hm'
    exact .inl ⟨row, (hsince m hm).2 _ row hrow hsent hfree, hsent⟩
  · obtain ⟨config, detail, hmessage, htype, hchannel, hunbound⟩ := hignored
    refine .inr ⟨config, detail, hmessage, htype, hchannel, ?_⟩
    rw [Transcript.Heard, hsaid] at hunbound
    obtain ⟨m, hm, hactor, hm'⟩ := Chronicle.mem_of.mp hunbound
    obtain ⟨m', hin, hactor', hsaid'⟩ := hs.counterpart hm
    obtain ⟨fresh, hrun⟩ := hs.threads.chained.honest m' hin _ _ (hsaid'.trans hm')
    obtain ⟨hfound, hdb⟩ := Prod.mk.inj (Except.ok.inj hrun)
    refine ⟨m', hin, hactor'.trans hactor, ?_⟩
    rw [← hdb]
    exact hfound

/-- The mention's second delivery finds it completed. -/
theorem returned_settled_mention : ∃ s : Desk, Reachable s ∧ s.thread 1 = some (.ret ()) ∧
    ∃ row, s.world.2.state.db.events.get? ("slack", "event-1") = some row ∧
      row.status = .sent := by
  obtain ⟨s, hs, hreturned, ⟨config, hjob⟩, -⟩ := mentioned_handled
  refine ⟨s, hs, hreturned, ?_⟩
  rcases returned_settled hs hreturned hjob with hsettled | ⟨_, detail, hmessage, htype, -⟩
  · exact hsettled
  · cases hmessage
    exact absurd htype (by decide)

end ManagedAgents.Threads.Ingress
