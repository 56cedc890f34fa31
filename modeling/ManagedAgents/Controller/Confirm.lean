import ManagedAgents.Controller.Approvals
import ManagedAgents.Controller.Dispatch

/-!
A tool use is confirmed at most once, with the decision that was stored when its mark was set.

The mark in the store is the permit: it is set once for a row, and after it the row's decision and
its id stay as they are.
-/

namespace ManagedAgents.Controller

open ManagedAgents.Lib

/-- The row a confirmation is sent for. -/
def Call.confirms? : Call → Option (TaskId × EventId)
  | confirmTool task _ toolUseId _ _ => some (task, toolUseId)
  | _ => none

def confirmed (key : TaskId × EventId) (log : List Entry) : ℕ :=
  occurrences (·.call.confirms?) key log

/-- The row's confirmation was attempted. -/
def Db.attempted (db : Db) (key : TaskId × EventId) : Prop :=
  ∃ r, db.approval key = some r ∧ r.confirmationAttemptedAt.isSome = true

/-- The permit is for the row. -/
def Db.permits (db : Db) (key : TaskId × EventId) (permit : Option Permit) : Prop :=
  ∃ r, db.approval key = some r ∧ permit = some (.confirm r.requestId)

variable {db db' : Db} {fresh uuid : ℕ} {q : Query} {k : Known} {key : TaskId × EventId}
  {r r' : ApprovalRow}

/-! ### What queries change -/

lemma ApprovalEffect.attempted (heff : ApprovalEffect uuid db db' q) (htidy : Tidy uuid db)
    (h : db.attempted key) : db'.attempted key := by
  obtain ⟨r, hr, hattempted⟩ := h
  obtain ⟨r', hr', hchange⟩ := heff.row htidy hr
  exact ⟨r', hr', (hchange.attempted hattempted).2.2⟩

/-- A permit that was out before a query is for the row it was for. -/
lemma Copies.permits_back (h : Copies k uuid db) (htidy : Tidy uuid db)
    (heff : ApprovalEffect uuid db db' q) (htidy' : Tidy (uuid + 1) db')
    (hp : db'.permits key k.permit) : db.permits key k.permit := by
  obtain ⟨r', hr', hpermit⟩ := hp
  obtain ⟨key₀, r₀, hr₀, hid₀, hattempted, -⟩ := h.permit hpermit
  obtain ⟨r₀', hr₀', hchange⟩ := heff.row htidy hr₀
  have hkept := (hchange.attempted hattempted).1
  have hkey := htidy'.unique hr₀' hr' (hkept.trans hid₀)
  exact ⟨r₀, hkey ▸ hr₀, by rw [hpermit, hid₀]⟩

/-- A copy that is being carried out is of the row the permit is for. -/
lemma Copies.permit_of_copy (h : Copies k uuid db) {row : ApprovalRow} (hrow : row ∈ k.rows)
    (hresolving : row.status = .resolving) (hpermit : k.permit = some (.confirm row.requestId)) :
    db.permits row.key k.permit := by
  obtain ⟨r, hr, hversion⟩ := h.version hrow
  have hid := (hversion.settled (by rw [hresolving]; nofun)).1
  exact ⟨r, hr, by rw [hpermit, hid]⟩

/-- What a mark that was set found, and what it left. -/
lemma markConfirmationAttempted_ok {requestId : RequestId} {contextId : ContextId}
    {claim : ClaimId} (h : markConfirmationAttempted requestId contextId claim db =
      .ok (true, db')) :
    ∃ r, db.approval r.key = some r ∧ db.confirmable requestId contextId claim r = true ∧
      db'.approval r.key = some { r with confirmationAttemptedAt := some db.now } := by
  simp only [markConfirmationAttempted, Except.ok.injEq, Prod.mk.injEq, Bool.not_eq_true'] at h
  obtain ⟨hsome, rfl⟩ := h
  exact Db.setApprovals_ok (by simpa using hsome)

/-- A row whose confirmation may be sent: which row it is, and that it is decided. -/
lemma Db.confirmable_row {requestId : RequestId} {contextId : ContextId} {claim : ClaimId}
    (h : db.confirmable requestId contextId claim r = true) :
    r.requestId = requestId ∧ r.confirmationAttemptedAt = none ∧
      (r.decision = some .allow → db.cancelRequested r.taskId = false) := by
  simp only [Db.confirmable, Bool.and_eq_true, Bool.or_eq_true, beq_iff_eq,
    Option.isNone_iff_eq_none, Bool.not_eq_true'] at h
  obtain ⟨⟨⟨⟨⟨hid, -⟩, hnone⟩, hcancel⟩, -⟩, -⟩ := h
  refine ⟨hid, hnone, fun hallow => ?_⟩
  rcases hcancel with hdeny | hcancel
  · rw [hallow] at hdeny
    cases hdeny
  · exact hcancel

/-! ### Counting confirmations -/

section
variable {s : Parties Known World}

open Classical in
/-- A tool use is confirmed at most once, and only once that was marked. -/
lemma confirmed_le (hs : Knowing environment s) (key : TaskId × EventId) :
    confirmed key s.world.log ≤ if s.world.db.attempted key then 1 else 0 := by
  have heff : ∀ {s : Parties Known World} {q : Query} {v : q.Reply} {db' : Db},
      q.run s.world.uuid s.world.db = .ok (v, db') →
      ApprovalEffect s.world.uuid s.world.db db' q := fun hrun => Query.run_approvals hrun
  refine within_budget (fun db p => db.permits key p) Call.confirms?
    (fun db => if db.attempted key then 1 else 0) (fun _ => rfl) ?_ ?_ ?_ ?_ ?_ ?_
    (fun _ _ => ⟨rfl, rfl⟩) hs
  · intro c hc
    cases hc <;> rfl
  · rintro db ⟨r, -, hpermit⟩
    cases hpermit
  · intro s i k c r hs hk hkind hallow
    have hcopies := Knowing.copies .environment hs hk
    cases c with
    | confirmTool task session toolUseId approved reason =>
      obtain ⟨row, hrow, hpermit, rfl, rfl, hresolving, -⟩ := hallow
      cases hkind
      exact ⟨hcopies.permit_of_copy hrow hresolving hpermit, by cases r <;> rfl⟩
    | _ => cases hkind
  · intro s q a v db' hs hask hrun
    by_cases hattempted : s.world.db.attempted key
    · rw [if_pos hattempted,
        if_pos ((heff hrun).attempted (Knowing.tidy .environment hs) hattempted)]
    · rw [if_neg hattempted]
      exact Nat.zero_le _
  · intro s i k q v r db' hs hk hallow hrun hr hnew
    have htidy := Knowing.tidy .environment hs
    have hask : Asked s.knows q (.worker i) := ⟨k, hk, hallow⟩
    have htidy' := htidy.step (heff hrun) hask.names
    rcases Known.learnQuery_permit hrun hr with hsame | ⟨_, _, _, _, w, -, -, hpermit⟩ |
      ⟨requestId, contextId, claim, rfl, hpermit, rfl⟩
    · rw [hsame] at hnew
      exact .inl ((Knowing.copies .environment hs hk).permits_back htidy (heff hrun) htidy' hnew)
    · obtain ⟨r, -, hnew⟩ := hnew
      rw [hpermit, Known.dispatchPermit] at hnew
      split at hnew <;> cases hnew
    · cases v with
      | false =>
        exact .inl ((Knowing.copies .environment hs hk).permits_back htidy (heff hrun) htidy' hnew)
      | true =>
        right
        obtain ⟨r', hr', hnew⟩ := hnew
        -- the row was not marked before, and it is the one the permit names
        obtain ⟨r, hr, hguard, hmarked⟩ := markConfirmationAttempted_ok hrun
        obtain ⟨hid, hnone, -⟩ := Db.confirmable_row hguard
        rw [hpermit] at hnew
        have hid' : r'.requestId = requestId := by cases hnew; rfl
        have hkey := htidy'.unique hmarked hr' (hid.trans hid'.symm)
        subst hkey
        have hbefore : ¬ s.world.db.attempted r.key := by
          rintro ⟨r₀, hr₀, hattempted⟩
          rw [hr, Option.some.injEq] at hr₀
          rw [← hr₀, hnone] at hattempted
          cases hattempted
        have hafter : db'.attempted r.key := ⟨_, hmarked, rfl⟩
        rw [if_neg hbefore, if_pos hafter]
  · intro s j k q a v db' hs hk hask hrun hp
    have htidy := Knowing.tidy .environment hs
    exact (Knowing.copies .environment hs hk).permits_back htidy (heff hrun)
      (htidy.step (heff hrun) hask.names) hp

end

/-! ### Marks and decisions -/

/-- The entry committed `allow` for the row while it was undecided. -/
def Entry.Allows (e : Entry) (key : TaskId × EventId) : Prop :=
  ∃ contextId claim requestId r,
    e.transaction = some (.recordPolicyDecision contextId key.1 claim requestId .allow) ∧
    e.before.approval key = some r ∧
    e.before.undecided contextId key.1 claim requestId r = true

/-- The entry set the row's mark, as the row's decision stood in `r`. -/
def Entry.Marks (e : Entry) (actor : Actor) (r : ApprovalRow) : Prop :=
  ∃ contextId claim before after,
    e = ⟨actor, .query (.markConfirmationAttempted r.requestId contextId claim), .ok true, true,
      before, after⟩ ∧
    before.approval r.key = some r ∧
    before.confirmable r.requestId contextId claim r = true

/-- A cancellation stays requested. -/
lemma CoreEffect.cancelRequested_stays {taskId : TaskId} (heff : CoreEffect fresh db db' q)
    (h : db.cancelRequested taskId = true) : db'.cancelRequested taskId = true := by
  obtain ⟨t, ht, hcancel⟩ := (Option.any_eq_true _ _).mp h
  -- a change of one task that keeps the column
  have hset : ∀ {taskId' t₀ t₀'}, db.task taskId' = some t₀ →
      db'.task = Function.update db.task taskId' (some t₀') →
      (t₀.cancelRequestedAt.isSome = true → t₀'.cancelRequestedAt.isSome = true) →
      ∃ t', db'.task taskId = some t' ∧ t'.cancelRequestedAt.isSome = true := by
    intro taskId' t₀ t₀' ht₀ htask hkeep
    rw [htask, Function.update_apply]
    split
    · rename_i hsame
      have ht' : db.task taskId' = some t := hsame ▸ ht
      rw [ht₀, Option.some.injEq] at ht'
      subst ht'
      exact ⟨t₀', rfl, hkeep hcancel⟩
    · exact ⟨t, ht, hcancel⟩
  refine (Option.any_eq_true _ _).mpr ?_
  change ∃ t', db'.task taskId = some t' ∧ t'.cancelRequestedAt.isSome = true
  cases heff with
  | same _ htask | opened _ _ _ htask | claimed _ _ _ htask | released _ _ _ htask
  | wroteContext _ _ _ _ htask => exact ⟨t, by rw [htask]; exact ht, hcancel⟩
  | @admitted a c t₀ hctx hfresh hmessage hrow hc htask =>
    refine ⟨t, ?_, hcancel⟩
    rw [htask, Function.update_of_ne]
    · exact ht
    · rintro rfl
      have hthere : db.task a.proposedTaskId = some t := ht
      rw [hfresh] at hthere
      cases hthere
  | wroteTask _ _ ht₀ _ htask => exact hset ht₀ htask id
  | retried ht₀ _ _ _ _ _ _ _ _ htask => exact hset ht₀ htask id
  | failed ht₀ _ _ _ _ _ htask => exact hset ht₀ htask id
  | activated _ _ _ ht₀ _ _ _ htask => exact hset ht₀ htask id
  | canceled ht₀ _ _ htask => exact hset ht₀ htask id
  | cancelRequested ht₀ _ _ _ htask => exact hset ht₀ htask fun _ => rfl

section
variable {s : Parties Known World}

/-- What was committed for a task's cancellation is there to be seen. -/
lemma cancel_seen (hs : Knowing environment s) {e : Entry} (he : e ∈ s.world.log)
    {taskId : TaskId} (h : e.after.cancelRequested taskId = true) :
    s.world.db.cancelRequested taskId = true := by
  refine Knowing.history (P := fun log _ db => ∀ e ∈ log,
    e.after.cancelRequested taskId = true → db.cancelRequested taskId = true)
    .environment (by simp) (fun _ h => h) ?_ ?_ hs e he h
  · intro log uuid db a c r uuid' h _
    exact List.forall_mem_cons.mpr ⟨id, h⟩
  · intro s a q v r db' hs h hask hrun hr
    exact List.forall_mem_cons.mpr
      ⟨id, fun e he hcancel => (Query.run_effect hrun).cancelRequested_stays (h e he hcancel)⟩

/-- A row that says `allow` was decided by a committed policy decision. -/
lemma allowed_before (hs : Knowing environment s) {r : ApprovalRow}
    (hr : s.world.db.approval key = some r) (hallow : r.decision = some .allow) :
    ∃ e ∈ s.world.log, e.Allows key := by
  have hmore : ∀ {e : Entry} {log : List Entry}, (∃ e ∈ log, e.Allows key) →
      ∃ e' ∈ e :: log, e'.Allows key := by
    rintro e log ⟨e', he', hallows⟩
    exact ⟨e', List.mem_cons_of_mem _ he', hallows⟩
  refine Knowing.history (P := fun log _ db => ∀ r, db.approval key = some r →
    r.decision = some .allow → ∃ e ∈ log, e.Allows key) .environment
    (fun r hr => by cases hr) (fun _ h => h) ?_ ?_ hs r hr hallow
  · exact fun h _ r hr hallow => hmore (h r hr hallow)
  · intro s a q v r₁ db' hs h hask hrun hr₁ r' hr' hallow
    have heff := Query.run_approvals hrun
    cases hr : s.world.db.approval key with
    | none =>
      obtain ⟨requestId, contextId, claim, -, rfl, -⟩ := heff.new hr hr'
      cases hallow
    | some r =>
      obtain ⟨r'', hr'', hchange⟩ := heff.row (Knowing.tidy .environment hs) hr
      have hsame : r'' = r' := Option.some.inj (hr''.symm.trans hr')
      subst hsame
      cases hchange with
      | same | ruled | resolved | marked | rotated => exact hmore (h _ hr hallow)
      | denied => cases hallow
      | @decided contextId taskId claim requestId decision hguard =>
        cases hallow
        have htask : r.taskId = taskId := (Db.undecided_row hguard).2.1
        have hkey : r.taskId = key.1 := congrArg Prod.fst (Db.approval_key hr)
        subst htask
        rw [hkey] at hguard
        refine ⟨_, List.mem_cons_self, contextId, claim, requestId, r, ?_, hr, hguard⟩
        rw [← hkey]
        rfl

/-- The mark a worker's permit comes from, and the row it was set on as it is now. -/
def Marked (i : ℕ) (requestId : RequestId) (log : List Entry) (db : Db) : Prop :=
  ∃ between mark old r r', log = between ++ mark :: old ∧ mark.Marks (.worker i) r ∧
    r.requestId = requestId ∧ db.approval r.key = some r' ∧
    r'.requestId = requestId ∧ r'.decision = r.decision ∧
    r'.confirmationAttemptedAt.isSome = true

/-- Later entries leave a mark as it was set. -/
lemma Marked.keep {i : ℕ} {requestId : RequestId} {log : List Entry}
    (h : Marked i requestId log db) (e : Entry)
    (hrow : ∀ {key r}, db.approval key = some r → r.confirmationAttemptedAt.isSome = true →
      ∃ r', db'.approval key = some r' ∧ r'.requestId = r.requestId ∧
        r'.decision = r.decision ∧ r'.confirmationAttemptedAt.isSome = true) :
    Marked i requestId (e :: log) db' := by
  obtain ⟨between, mark, old, r, r', hsplit, hmark, hid, hr', hid', hdecision, hattempted⟩ := h
  obtain ⟨r'', hr'', hid'', hdecision', hattempted'⟩ := hrow hr' hattempted
  refine ⟨e :: between, mark, old, r, r'', ?_, hmark, hid, hr'', hid''.trans hid',
    hdecision'.trans hdecision, hattempted'⟩
  rw [hsplit, List.cons_append]

/-- An entry that leaves the store alone leaves a mark as it was set. -/
lemma Marked.idle {i : ℕ} {requestId : RequestId} {log : List Entry}
    (h : Marked i requestId log db) (e : Entry) : Marked i requestId (e :: log) db :=
  h.keep e fun hr hattempted => ⟨_, hr, rfl, rfl, hattempted⟩

/-- A query leaves a mark as it was set. -/
lemma Marked.step {i : ℕ} {requestId : RequestId} {log : List Entry}
    (h : Marked i requestId log db) (e : Entry) (htidy : Tidy uuid db)
    (heff : ApprovalEffect uuid db db' q) : Marked i requestId (e :: log) db' := by
  refine h.keep e fun hr hattempted => ?_
  obtain ⟨r', hr', hchange⟩ := heff.row htidy hr
  exact ⟨r', hr', hchange.attempted hattempted⟩

/-- **Every permit to confirm comes from a mark its worker set.** -/
theorem marked (hs : Knowing environment s) {i : ℕ} {k : Known} {requestId : RequestId}
    (hk : s.knows i = some k) (hpermit : k.permit = some (.confirm requestId)) :
    Marked i requestId s.world.log s.world.db := by
  refine Knowing.worker (Q := fun i k log _ db => ∀ requestId,
    k.permit = some (.confirm requestId) → Marked i requestId log db) .environment
    (fun _ _ _ _ _ hp => by cases hp) (fun _ h => h) ?_ ?_ ?_ ?_ ?_ hs hk requestId hpermit
  · exact fun _ h _ requestId hp => (h requestId hp).idle _
  · intro s i k a q v r db' hs hk ha h hask hrun hr requestId hp
    exact (h requestId hp).step _ (Knowing.tidy .environment hs) (Query.run_approvals hrun)
  · intro s i k q v r db' hs hk h hallow hrun hr requestId hp
    have hkeep : k.permit = some (.confirm requestId) → Marked i requestId _ db' :=
      fun hp => (h requestId hp).step ⟨.worker i, .query q, r, true, s.world.db, db'⟩
        (Knowing.tidy .environment hs) (Query.run_approvals hrun)
    rcases Known.learnQuery_permit hrun hr with hkept | ⟨_, _, _, _, w, -, -, hnew⟩ |
      ⟨rid, contextId, claim, rfl, hnew, rfl⟩
    · exact hkeep (hkept ▸ hp)
    · rw [hnew, Known.dispatchPermit] at hp
      split at hp <;> cases hp
    · have hid : rid = requestId := by rw [hnew] at hp; cases hp; rfl
      subst hid
      cases v with
      | false => exact hkeep hp
      | true =>
        obtain ⟨r, hrow, hguard, hmarked⟩ := markConfirmationAttempted_ok hrun
        have hid := (Db.confirmable_row hguard).1
        subst hid
        exact ⟨[], _, s.world.log, r, _, rfl, ⟨contextId, claim, _, _, rfl, hrow, hguard⟩, rfl,
          hmarked, rfl, rfl, rfl⟩
  · intro i k log uuid db q e h hallow requestId hp
    rw [Known.learnQuery_permit_error] at hp
    exact (h requestId hp).idle _
  · intro i k log uuid db c r uuid' h hc hallow huuid requestId hp
    rcases k.learn_permit hc r with hsame | hnone
    · exact (h requestId (hsame ▸ hp)).idle _
    · rw [hnone] at hp
      cases hp

end

/-- **At most one confirmation, and an authorised one.** A tool use is confirmed at most once.
Before a worker confirms it, that worker set the row's mark, and what it sends is the decision
the row had then. `allow` is sent only if a policy decision committed it for the row before the
mark, and no cancellation of the task was committed before the mark. -/
theorem at_most_one_confirmation {s : System} (hs : Reachable s) :
    (∀ key, confirmed key s.world.log ≤ 1) ∧
    ∀ later e earlier task session toolUseId approved reason, s.world.log = later ++ e :: earlier →
      e.call = .confirmTool task session toolUseId approved reason →
      ∃ between mark old r decision, earlier = between ++ mark :: old ∧ mark.Marks e.actor r ∧
        r.key = (task, toolUseId) ∧ r.decision = some decision ∧
        approved = (decision == .allow) ∧
        (approved = true → (∃ e ∈ old, e.Allows (task, toolUseId)) ∧
          mark.before.cancelRequested task = false ∧
          ∀ e ∈ old, e.after.cancelRequested task = false) := by
  obtain ⟨knows, hknows⟩ := parties .environment hs
  refine ⟨fun key => (confirmed_le hknows key).trans ?_, ?_⟩
  · split <;> omega
  · rintro later ⟨actor, call, reply, committed, before, after⟩ earlier task session toolUseId
      approved reason hlog rfl
    obtain ⟨s₁, i, k, hs₁, hlog₁, -, rfl, hk, hallow⟩ :=
      Knowing.moment_call .environment hknows (fun _ h => by cases h) (fun h => by cases h) hlog
    obtain ⟨row, hrow, hpermit, rfl, rfl, hresolving, decision, hdecision, rfl⟩ := hallow
    obtain ⟨between, mark, old, r, r', hsplit, hmark, hid, hr', hid', hsame, -⟩ :=
      marked hs₁ hk hpermit
    -- the copy, the row the permit is for and the row that was marked are one row
    have htidy := Knowing.tidy .environment hs₁
    have hcopies := Knowing.copies .environment hs₁ hk
    obtain ⟨key₂, r₂, hr₂, hid₂, -, hcopy⟩ := hcopies.permit hpermit
    obtain ⟨r₃, hr₃, hversion⟩ := hcopies.version hrow
    have hid₃ := (hversion.settled (by rw [hresolving]; nofun)).1
    have hkey₂ := htidy.unique hr₂ hr' (hid₂.trans hid'.symm)
    have hkey₃ := htidy.unique hr₃ hr' (hid₃.trans hid'.symm)
    rw [hkey₂, hr', Option.some.injEq] at hr₂
    subst hr₂
    have hstored : r.decision = some decision := by
      rw [← hsame, ← hcopy row hrow rfl hresolving, hdecision]
    refine ⟨between, mark, old, r, decision, by rw [← hlog₁, hsplit], hmark, hkey₃.symm, hstored,
      rfl, fun happroved => ?_⟩
    obtain ⟨contextId, claim, before₀, after₀, rfl, hr, hguard⟩ := hmark
    have hallow : decision = .allow := beq_iff_eq.mp happroved
    subst hallow
    obtain ⟨s₀, hs₀, hlog₀, hdb₀, -, -⟩ := Knowing.moment_commit .environment hs₁ hsplit
    rw [← hdb₀] at hr hguard
    have hcancel := (Db.confirmable_row hguard).2.2 hstored
    have htask : r.taskId = row.taskId := congrArg Prod.fst hkey₃.symm
    rw [htask] at hcancel
    refine ⟨?_, by rw [← hdb₀]; exact hcancel, fun e he => ?_⟩
    · rw [← hlog₀, ← show r.key = (row.taskId, row.cmaEventId) from hkey₃.symm]
      exact allowed_before hs₀ hr hstored
    · rw [← hlog₀] at he
      rw [← Bool.not_eq_true]
      intro hseen
      rw [cancel_seen hs₀ he hseen] at hcancel
      cases hcancel

/-- The tool use is allowed, marked and confirmed. -/
def approvedTool : List Act :=
  firstTurnAsks 0 ++ calls 0
    [.decided { decision := .allow }, .run, .run, .run, .run, .run, .done, .run]

/-- An allowed tool use is confirmed once, by the worker that marked it. -/
theorem at_most_one_confirmation_approved :
    ∃ s, play unchecked approvedTool = some s ∧ confirmed (100, 52) s.world.log = 1 ∧
      confirmed (100, 52) s.world.log ≤ 1 ∧
      ∃ e ∈ s.world.log, ∃ mark ∈ s.world.log, ∃ r, mark.Marks e.actor r ∧ r.key = (100, 52) := by
  obtain ⟨s, hs, hreach, hval⟩ := played (fun s => confirmed (100, 52) s.world.log)
    (show (play unchecked approvedTool).map _ = some 1 by decide +kernel)
  obtain ⟨honce, hauthorised⟩ := at_most_one_confirmation hreach
  refine ⟨s, hs, hval, honce _, ?_⟩
  obtain ⟨e, he, hkind⟩ := exists_of_occurrences (Nat.lt_of_lt_of_eq Nat.one_pos hval.symm)
  obtain ⟨later, earlier, hlog⟩ := List.append_of_mem he
  cases hcall : e.call with
  | confirmTool task session toolUseId approved reason =>
    rw [hcall] at hkind
    cases hkind
    obtain ⟨between, mark, old, r, -, hsplit, hmark, hkey, -⟩ :=
      hauthorised later e earlier _ session _ approved reason hlog hcall
    refine ⟨e, he, mark, ?_, r, hmark, hkey⟩
    rw [hlog, hsplit]
    simp
  | _ =>
    rw [hcall] at hkind
    cases hkind

end ManagedAgents.Controller
