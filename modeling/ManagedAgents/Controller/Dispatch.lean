import ManagedAgents.Controller.Queue

/-!
A context's session is created at most once, and a task's message is sent at most once for each
activation.

The permit an activation gives its worker is what ties the marker in the store to the call at the
provider: permits that are out and calls that were made together stay within the activations.
-/

namespace ManagedAgents.Controller

open ManagedAgents.Lib

/-- The context a call creates a session for. -/
def Call.creates? : Call → Option ContextId
  | createSession _ contextId _ _ => some contextId
  | _ => none

/-- The task whose input a call delivers. -/
def Call.dispatches? : Call → Option TaskId
  | createSession task _ _ _ | sendMessage task _ _ => some task
  | _ => none

def Permit.creates? : Permit → Option ContextId
  | create _ contextId => some contextId
  | _ => none

def Permit.dispatches? : Permit → Option TaskId
  | create task _ | send task _ => some task
  | confirm _ => none

/-- How often the log has an entry of some kind. -/
def occurrences {α : Type} [DecidableEq α] (kind : Entry → Option α) (a : α)
    (log : List Entry) : ℕ :=
  log.countP fun e => kind e == some a

def created (contextId : ContextId) (log : List Entry) : ℕ :=
  occurrences (·.call.creates?) contextId log

def dispatched (taskId : TaskId) (log : List Entry) : ℕ :=
  occurrences (·.call.dispatches?) taskId log

def putBackOf (taskId : TaskId) (log : List Entry) : ℕ := occurrences Entry.retries taskId log

/-- The column `dispatch_attempts`. -/
def Db.attempts (db : Db) (taskId : TaskId) : ℕ :=
  (db.task taskId).elim 0 (·.dispatchAttempts.getD 0)

/-- A first turn was activated: the context has an active task, a session, or has failed. -/
def ContextRow.started (c : ContextRow) : Prop :=
  c.activeTaskId.isSome = true ∨ c.cmaSessionId.isSome = true ∨ c.lifecycleState = .failed

def Db.started (db : Db) (contextId : ContextId) : Prop :=
  ∃ c, db.context contextId = some c ∧ c.started

variable {db db' : Db} {fresh : ℕ} {q : Query} {k : Known} {contextId : ContextId}
  {taskId : TaskId}

/-! ### What queries change -/

/-- A context that was started stays so. -/
lemma CoreEffect.started (heff : CoreEffect fresh db db' q) (hmove : db.Move q)
    (h : db.started contextId) : db'.started contextId := by
  obtain ⟨c₀, hc₀, hstarted⟩ := h
  -- a change of some context's row that keeps it started
  have hset : ∀ {contextId' c c'}, db.context contextId' = some c →
      db'.context = Function.update db.context contextId' (some c') →
      (c.started → c'.started) → db'.started contextId := by
    intro contextId' c c' hctx hc hkeep
    by_cases hid : contextId = contextId'
    · subst hid
      rw [hctx] at hc₀
      cases hc₀
      exact ⟨c', by rw [hc, Function.update_self], hkeep hstarted⟩
    · exact ⟨c₀, by rw [hc, Function.update_of_ne hid]; exact hc₀, hstarted⟩
  cases heff with
  | same hc ht | wroteTask _ _ _ hc _ | canceled _ _ hc _ | cancelRequested _ _ _ hc _ =>
    exact ⟨c₀, by rw [hc]; exact hc₀, hstarted⟩
  | @opened a c hnew hrow hc ht =>
    have hid : contextId ≠ a.proposedContextId := by
      rintro rfl
      rw [hnew] at hc₀
      cases hc₀
    exact ⟨c₀, by rw [hc, Function.update_of_ne hid]; exact hc₀, hstarted⟩
  | @admitted a c t hctx hfresh hmessage hrow hc ht =>
    rcases hctx with hctx | ⟨hnone, -⟩
    · exact hset hctx hc id
    · have hid : contextId ≠ c.contextId := by
        rintro rfl
        rw [hnone] at hc₀
        cases hc₀
      exact ⟨c₀, by rw [hc, Function.update_of_ne hid]; exact hc₀, hstarted⟩
  | claimed hctx hfree hc ht => exact hset hctx hc id
  | released hctx hheld hc ht => exact hset hctx hc id
  | wroteContext hctx hheld hcheck hc ht =>
    refine hset hctx hc fun hs => ?_
    cases hmove _ hctx with
    | session => exact .inr (.inl rfl)
    | failed => exact .inr (.inr rfl)
    | clear hdone hafter => exact .inr hafter
  | retried htask hctx hheld hactive hlive hunbound hsession hcancel hc ht =>
    exact hset hctx hc fun _ => .inr (.inl hsession)
  | @failed taskId claim c t htask hctx hheld hactive hlive hc ht =>
    refine hset hctx hc fun _ => ?_
    cases hsession : c.cmaSessionId with
    | none => exact .inr (.inr (by simp))
    | some sessionId => exact .inr (.inl rfl)
  | activated hctx hheld hfree htask hof hqueued hc ht => exact hset hctx hc fun _ => .inl rfl

/-- Only an activation counts an attempt. -/
lemma CoreEffect.attempts (heff : CoreEffect fresh db db' q) (taskId : TaskId) :
    db'.attempts taskId = db.attempts taskId ∨
      db'.attempts taskId = db.attempts taskId + 1 ∧ ∃ contextId,
        q.activates? = some (contextId, taskId) := by
  -- a change of one task
  have hset : ∀ {taskId' t t'}, db.task taskId' = some t →
      db'.task = Function.update db.task taskId' (some t') →
      t'.dispatchAttempts = t.dispatchAttempts → db'.attempts taskId = db.attempts taskId := by
    intro taskId' t t' htask ht hsame
    unfold Db.attempts
    rw [ht, Function.update_apply]
    split
    · rename_i hid
      rw [hid, htask, Option.elim_some, Option.elim_some, hsame]
    · rfl
  cases heff with
  | same hc ht | opened _ _ _ ht | claimed _ _ _ ht | released _ _ _ ht
  | wroteContext _ _ _ _ ht =>
    left
    unfold Db.attempts
    rw [ht]
  | @admitted a c t hctx hfresh hmessage hrow hc ht =>
    left
    unfold Db.attempts
    rw [ht, Function.update_apply]
    split
    · rename_i hid
      rw [hid, hfresh, hrow]
      rfl
    · rfl
  | wroteTask hctx hheld htask hc ht => exact .inl (hset htask ht rfl)
  | retried htask hctx hheld hactive hlive hunbound hsession hcancel hc ht =>
    exact .inl (hset htask ht rfl)
  | failed htask hctx hheld hactive hlive hc ht => exact .inl (hset htask ht rfl)
  | canceled htask hqueued hc ht => exact .inl (hset htask ht rfl)
  | cancelRequested htask hqueued hlive hc ht => exact .inl (hset htask ht rfl)
  | @activated contextId' taskId' claim predecessor c t hctx hheld hfree htask hof hqueued hc ht =>
    by_cases hid : taskId = taskId'
    · subst hid
      right
      unfold Db.attempts
      rw [ht, Function.update_self, htask]
      exact ⟨rfl, contextId', rfl⟩
    · left
      unfold Db.attempts
      rw [ht, Function.update_of_ne hid]

/-! ### Permits -/

lemma occurrences_cons {α : Type} [DecidableEq α] (kind : Entry → Option α) (a : α) (e : Entry)
    (log : List Entry) : occurrences kind a (e :: log) =
      occurrences kind a log + if kind e = some a then 1 else 0 := by
  simp [occurrences, List.countP_cons]

lemma exists_of_occurrences {α : Type} [DecidableEq α] {kind : Entry → Option α} {a : α}
    {log : List Entry} (h : 0 < occurrences kind a log) : ∃ e ∈ log, kind e = some a := by
  obtain ⟨e, he, hkind⟩ := List.countP_pos_iff.mp h
  exact ⟨e, he, beq_iff_eq.mp hkind⟩

open Classical in
/-- **Permits in balance.** Calls of one kind need a permit of that kind and use it up; when the
budget grows by every permit that is given, and queries of others give a worker none, the calls
made stay within it. -/
theorem within_budget {α : Type} [DecidableEq α] {a : α} (holds : Db → Option Permit → Prop)
    (kind : Call → Option α) (budget : Db → ℕ) (hquery : ∀ q, kind (.query q) = none)
    (hclient : ∀ c, Client c → kind c = none) (hnone : ∀ db, ¬ holds db none)
    (huse : ∀ {s i k c} (r : Except Exn c.Reply), Knowing environment s → s.knows i = some k →
      kind c = some a → k.allowed c → holds s.world.db k.permit ∧ (k.learn c r).permit = none)
    (hgrow : ∀ {s q c v db'}, Knowing environment s → Asked s.knows q c →
      q.run s.world.uuid s.world.db = .ok (v, db') → budget s.world.db ≤ budget db')
    (hgive : ∀ {s i k q v r db'}, Knowing environment s → s.knows i = some k →
      k.allowedQuery q → q.run s.world.uuid s.world.db = .ok (v, db') →
      (r = .ok v ∨ r = .error .other) → holds db' (k.learnQuery q r).permit →
        holds s.world.db k.permit ∨ budget s.world.db + 1 ≤ budget db')
    (hkeep : ∀ {s j k q c v db'}, Knowing environment s → s.knows j = some k →
      Asked s.knows q c → q.run s.world.uuid s.world.db = .ok (v, db') → holds db' k.permit →
        holds s.world.db k.permit)
    (hnow : ∀ db now, budget { db with now := now } = budget db ∧
      holds { db with now := now } = holds db)
    {s : Parties Known World} (hs : Knowing environment s) :
    occurrences (fun e => kind e.call) a s.world.log ≤ budget s.world.db := by
  let held : World → Known → ℕ := fun w k => if holds w.db k.permit then 1 else 0
  have hbalance := Parties.balance held (fun w => occurrences (fun e => kind e.call) a w.log)
    (fun w => budget w.db) rfl (fun w => if_neg (hnone w.db)) ?_ ?_ ?_ ?_ hs
  · exact Nat.le_trans (Nat.le_add_right _ _) hbalance
  · intro s i k c r w' hs hk hallow hexec
    dsimp only [held]
    rcases c.query_or with ⟨q, rfl⟩ | hc
    · change _ + (if holds w'.db (k.learnQuery q r).permit then 1 else 0) + _ ≤ _
      rcases exec_query hexec with ⟨v, hrun, hr, hw⟩ | ⟨e, rfl, hw⟩
      · have hlog : w'.log = ⟨.worker i, .query q, r, true, s.world.db, w'.db⟩ :: s.world.log := by
          rw [hw]
        rw [hlog, occurrences_cons, hquery]
        simp only [reduceCtorEq, if_false]
        have hmono := hgrow (c := .worker i) hs ⟨k, hk, hallow⟩ hrun
        by_cases hnew : holds w'.db (k.learnQuery q r).permit
        · rw [if_pos hnew]
          rcases hgive hs hk hallow hrun hr hnew with hsame | hgrown
          · rw [if_pos hsame]
            omega
          · omega
        · rw [if_neg hnew]
          omega
      · rw [hw, Known.learnQuery_permit_error]
        dsimp only
        rw [occurrences_cons, hquery]
        simp only [reduceCtorEq, if_false]
        omega
    · obtain ⟨hdb, -, hlog⟩ := exec_other hexec hc
      rw [hlog, hdb, occurrences_cons]
      change _ + (if holds s.world.db (k.learn c r).permit then 1 else 0) + _ ≤ _
      by_cases hkind : kind c = some a
      · obtain ⟨hheld, hused⟩ := huse r hs hk hkind hallow
        rw [hused, if_neg (hnone _), if_pos hheld, if_pos hkind]
      · rw [if_neg hkind]
        rcases k.learn_permit hc r with hsame | hused
        · rw [hsame]
          omega
        · rw [hused, if_neg (hnone _)]
          omega
  · intro s c r w' hs hclient' hexec
    rcases c.query_or with ⟨q, rfl⟩ | hc
    · rcases exec_query hexec with ⟨v, hrun, hr, hw⟩ | ⟨e, rfl, hw⟩
      · have hlog : w'.log = ⟨.client, .query q, r, true, s.world.db, w'.db⟩ :: s.world.log := by
          rw [hw]
        have hmono := hgrow (c := .client) hs hclient' hrun
        rw [hlog, occurrences_cons, hquery]
        simp only [reduceCtorEq, if_false]
        omega
      · rw [hw]
        dsimp only
        rw [occurrences_cons, hquery]
        simp only [reduceCtorEq, if_false]
        omega
    · obtain ⟨hdb, -, hlog⟩ := exec_other hexec hc
      rw [hlog, hdb, occurrences_cons, hclient c hclient']
      simp only [reduceCtorEq, if_false]
      omega
  · intro s actor c r w' hs hmade hexec j k hj hk
    dsimp only [held]
    rcases c.query_or with ⟨q, rfl⟩ | hc
    · have hask : Asked s.knows q actor := by
        cases actor with
        | worker i => exact hmade
        | client => exact hmade
      rcases exec_query hexec with ⟨v, hrun, -, -⟩ | ⟨e, -, hw⟩
      · by_cases hheld : holds w'.db k.permit
        · rw [if_pos hheld, if_pos (hkeep hs hk hask hrun hheld)]
        · rw [if_neg hheld]
          exact Nat.zero_le _
      · rw [hw]
    · rw [(exec_other hexec hc).1]
  · intro w w' hdrift
    obtain ⟨now, history, -, rfl⟩ := hdrift
    refine ⟨rfl, (hnow _ _).1, ?_⟩
    funext k
    dsimp only [held]
    rw [(hnow _ _).2]

/-! ### Sessions and messages -/

section
variable {s : Parties Known World}

/-- A call that a worker makes with a permit of its own kind. -/
lemma Known.create_permitted {c : Call} (h : k.allowed c) (hc : c.creates? = some contextId)
    (r : Except Exn c.Reply) :
    k.permit.bind Permit.creates? = some contextId ∧ (k.learn c r).permit = none := by
  cases c with
  | createSession task contextId' messageId text =>
    have hpermit : k.permit = some (.create task contextId') := h
    rw [hpermit]
    exact ⟨hc, by cases r <;> rfl⟩
  | _ => cases hc

lemma Known.dispatch_permitted {c : Call} (h : k.allowed c) (hc : c.dispatches? = some taskId)
    (r : Except Exn c.Reply) :
    k.permit.bind Permit.dispatches? = some taskId ∧ (k.learn c r).permit = none := by
  cases c with
  | createSession task contextId messageId text =>
    have hpermit : k.permit = some (.create task contextId) := h
    rw [hpermit]
    exact ⟨hc, by cases r <;> rfl⟩
  | sendMessage task sessionId text =>
    rw [h.1]
    exact ⟨hc, by cases r <;> rfl⟩
  | _ => cases hc

open Classical in
/-- A session is created at most once for a context, and only once its first turn is active. -/
lemma created_le (hs : Knowing environment s) (contextId : ContextId) :
    created contextId s.world.log ≤ if s.world.db.started contextId then 1 else 0 := by
  refine within_budget (fun _ p => p.bind Permit.creates? = some contextId) Call.creates?
    (fun db => if db.started contextId then 1 else 0) (fun _ => rfl) ?_ (fun _ => nofun) ?_ ?_ ?_
    (fun _ _ _ _ => id) (fun _ _ => ⟨rfl, rfl⟩) hs
  · intro c hc
    cases hc <;> rfl
  · intro s i k c r _ _ hkind hallow
    exact Known.create_permitted hallow hkind r
  · intro s q a v db' hs hask hrun
    by_cases hstarted : s.world.db.started contextId
    · have hmove := (Knowing.coherent .environment hs).move hask hrun
      rw [if_pos hstarted, if_pos ((Query.run_effect hrun).started hmove hstarted)]
    · rw [if_neg hstarted]
      exact Nat.zero_le _
  · intro s i k q v r db' hs hk hallow hrun hr hnew
    rcases Known.learnQuery_permit hrun hr with hsame | ⟨contextId', taskId, claim, p, w, rfl,
      hview, hpermit⟩ | ⟨requestId, contextId', claim, rfl, hpermit, -⟩
    · exact .inl (hsame ▸ hnew)
    · right
      rw [hpermit, Option.bind_some, Known.dispatchPermit] at hnew
      obtain ⟨hl, -, w', hview', hfree', hlive, -⟩ := hallow
      rw [hview] at hview'
      cases hview'
      obtain ⟨c, t, hctx, hheld, hfree, htask, -, -, -, hc, -⟩ := activateTask_ok hrun
      -- the context was not started when its first turn was activated
      have hw := (((Knowing.coherent .environment hs).agrees hk).held hl hctx hheld).view hview
      cases hsession : w.cmaSessionId with
      | some sessionId =>
        rw [hsession] at hnew
        cases hnew
      | none =>
        rw [hsession] at hnew
        cases hnew
        subst hw
        have hbefore : ¬ s.world.db.started contextId := by
          rintro ⟨c', hc', hstarted⟩
          rw [hctx] at hc'
          cases hc'
          have hnone : c.cmaSessionId = none := hsession
          have halive : c.lifecycleState ≠ .failed := hlive
          rcases hstarted with h | h | h
          · rw [hfree] at h
            cases h
          · rw [hnone] at h
            cases h
          · exact halive h
        have hafter : db'.started contextId :=
          ⟨_, by rw [hc, Function.update_self], .inl rfl⟩
        rw [if_neg hbefore, if_pos hafter]
    · rw [hpermit] at hnew
      cases hnew

/-- A task's input is delivered at most once for each attempt that was counted. -/
lemma dispatched_le (hs : Knowing environment s) (taskId : TaskId) :
    dispatched taskId s.world.log ≤ s.world.db.attempts taskId := by
  refine within_budget (fun _ p => p.bind Permit.dispatches? = some taskId) Call.dispatches?
    (fun db => db.attempts taskId) (fun _ => rfl) ?_ (fun _ => nofun) ?_ ?_ ?_
    (fun _ _ _ _ => id) (fun _ _ => ⟨rfl, rfl⟩) hs
  · intro c hc
    cases hc <;> rfl
  · intro s i k c r _ _ hkind hallow
    exact Known.dispatch_permitted hallow hkind r
  · intro s q a v db' hs hask hrun
    rcases (Query.run_effect hrun).attempts taskId with hsame | ⟨hmore, -⟩
    · exact Nat.le_of_eq hsame.symm
    · exact Nat.le_of_lt (by omega)
  · intro s i k q v r db' hs hk hallow hrun hr hnew
    rcases Known.learnQuery_permit hrun hr with hsame | ⟨contextId', taskId', claim, p, w, rfl,
      hview, hpermit⟩ | ⟨requestId, contextId', claim, rfl, hpermit, -⟩
    · exact .inl (hsame ▸ hnew)
    · right
      have hid : taskId' = taskId := by
        rw [hpermit, Option.bind_some, Known.dispatchPermit] at hnew
        cases hsession : w.cmaSessionId with
        | none => rw [hsession] at hnew; cases hnew; rfl
        | some sessionId => rw [hsession] at hnew; cases hnew; rfl
      subst hid
      obtain ⟨c, t, -, -, -, htask, -, -, hv, -, ht⟩ := activateTask_ok hrun
      have hafter : db'.attempts taskId' = t.dispatchAttempts.getD 0 + 1 := by
        unfold Db.attempts
        rw [ht, Function.update_self, hv]
        rfl
      have hbefore : s.world.db.attempts taskId' = t.dispatchAttempts.getD 0 := by
        unfold Db.attempts
        rw [htask]
        rfl
      omega
    · rw [hpermit] at hnew
      cases hnew

/-- The attempts counted up to a task's next activation. -/
def TaskRow.due (t : TaskRow) : ℕ :=
  t.dispatchAttempts.getD 0 + if t.internalState = .queued then 1 else 0

def Db.due (db : Db) (taskId : TaskId) : ℕ := (db.task taskId).elim 0 TaskRow.due

lemma Db.attempts_le_due (db : Db) (taskId : TaskId) : db.attempts taskId ≤ db.due taskId := by
  unfold Db.attempts Db.due
  cases db.task taskId with
  | none => exact Nat.le_refl _
  | some t => exact Nat.le_add_right _ _

/-- One attempt is due when a task is admitted, and one more each time it is put back. -/
lemma CoreEffect.due (heff : CoreEffect fresh db db' q) (hmove : db.Move q) (taskId : TaskId) :
    db'.due taskId ≤ db.due taskId ∨ db'.due taskId ≤ 1 ∨
      db'.due taskId ≤ db.due taskId + 1 ∧ q.retries? = some taskId := by
  -- a change of one task that does not queue it
  have hset : ∀ {taskId' t t'}, db.task taskId' = some t →
      db'.task = Function.update db.task taskId' (some t') → t'.due ≤ t.due →
      db'.due taskId ≤ db.due taskId := by
    intro taskId' t t' htask ht hle
    unfold Db.due
    rw [ht, Function.update_apply]
    split
    · rename_i hid
      rw [hid, htask]
      exact hle
    · exact Nat.le_refl _
  have hkeep : ∀ {t t' : TaskRow}, t'.dispatchAttempts = t.dispatchAttempts →
      (t'.internalState = .queued → t.internalState = .queued) → t'.due ≤ t.due := by
    intro t t' hsame hqueued
    unfold TaskRow.due
    rw [hsame]
    by_cases hq : t'.internalState = .queued
    · rw [if_pos hq, if_pos (hqueued hq)]
    · rw [if_neg hq]
      omega
  cases heff with
  | same hc ht | opened _ _ _ ht | claimed _ _ _ ht | released _ _ _ ht
  | wroteContext _ _ _ _ ht =>
    left
    unfold Db.due
    rw [ht]
  | @admitted a c t hctx hfresh hmessage hrow hc ht =>
    by_cases hid : taskId = a.proposedTaskId
    · right; left
      unfold Db.due
      rw [ht, hid, Function.update_self, hrow]
      simp only [Option.elim_some, TaskRow.due, admittedTask, Option.getD_some]
      split <;> simp
    · left
      unfold Db.due
      rw [ht, Function.update_of_ne hid]
  | wroteTask hctx hheld htask hc ht =>
    exact .inl (hset htask ht (hkeep rfl (hmove _ _ hctx htask).unqueued))
  | @retried taskId' claim c t htask hctx hheld hactive hlive hunbound hsession hcancel hc ht =>
    by_cases hid : taskId = taskId'
    · subst hid
      refine .inr (.inr ⟨?_, rfl⟩)
      unfold Db.due
      rw [ht, Function.update_self, htask]
      simp only [Option.elim_some, TaskRow.due, if_true]
      omega
    · left
      unfold Db.due
      rw [ht, Function.update_of_ne hid]
  | failed htask hctx hheld hactive hlive hc ht =>
    exact .inl (hset htask ht (hkeep rfl (by rintro ⟨⟩)))
  | canceled htask hqueued hc ht => exact .inl (hset htask ht (hkeep rfl (by rintro ⟨⟩)))
  | cancelRequested htask hqueued hlive hc ht => exact .inl (hset htask ht (hkeep rfl id))
  | @activated contextId' taskId' claim predecessor c t hctx hheld hfree htask hof hqueued hc ht =>
    refine .inl (hset htask ht ?_)
    simp only [TaskRow.due, hqueued, reduceCtorEq, if_true, if_false, Option.getD_some]
    omega

lemma due_le (hs : Knowing environment s) (taskId : TaskId) :
    s.world.db.due taskId ≤ 1 + putBackOf taskId s.world.log := by
  refine Knowing.invariant
    (P := fun s => s.world.db.due taskId ≤ 1 + putBackOf taskId s.world.log)
    .environment (Nat.zero_le _) ?_ hs
  intro s s' hs h turn
  -- an entry of the log counts at least nothing
  have hlog : ∀ {w : World} {e : Entry}, w.db = s.world.db → w.log = e :: s.world.log →
      w.db.due taskId ≤ 1 + putBackOf taskId w.log := by
    intro w e hdb hlog
    rw [hdb, hlog, putBackOf, occurrences_cons]
    exact Nat.le_trans h (Nat.add_le_add_left (Nat.le_add_right _ _) _)
  cases turn with
  | join | leave | drift => exact h
  | refuse hask hexec => exact hlog rfl rfl
  | other hc hk hallow hexec hdb huuid hlog' => exact hlog hdb hlog'
  | client hc hclient hexec hdb huuid hlog' => exact hlog hdb hlog'
  | @commit a q v r db' hask hrun hr hexec =>
    have hmove := (Knowing.coherent .environment hs).move hask hrun
    change db'.due taskId ≤ 1 + occurrences Entry.retries taskId (_ :: s.world.log)
    rw [occurrences_cons]
    change s.world.db.due taskId ≤ 1 + occurrences Entry.retries taskId s.world.log at h
    rcases (Query.run_effect hrun).due hmove taskId with hle | hle | ⟨hle, hretried⟩
    · omega
    · omega
    · have hentry : Entry.retries ⟨a, .query q, r, true, s.world.db, db'⟩ = some taskId := hretried
      rw [if_pos hentry]
      omega

/-- Every entry of the log: attempts are counted by activations only. -/
lemma attempts_counted (hs : Knowing environment s) {e : Entry} (he : e ∈ s.world.log)
    (taskId : TaskId) : e.after.attempts taskId = e.before.attempts taskId ∨
      e.after.attempts taskId = e.before.attempts taskId + 1 ∧ ∃ contextId,
        e.activates = some (contextId, taskId) := by
  refine Knowing.invariant (P := fun s => ∀ e ∈ s.world.log,
    e.after.attempts taskId = e.before.attempts taskId ∨
      e.after.attempts taskId = e.before.attempts taskId + 1 ∧ ∃ contextId,
        e.activates = some (contextId, taskId)) .environment (by simp) ?_ hs e he
  intro s s' hs h turn
  cases turn with
  | join | leave | drift => exact h
  | refuse hask hexec => exact List.forall_mem_cons.mpr ⟨.inl rfl, h⟩
  | other hc hk hallow hexec hdb huuid hlog | client hc hclient hexec hdb huuid hlog =>
    rw [hlog]
    exact List.forall_mem_cons.mpr ⟨.inl rfl, h⟩
  | commit hask hrun hr hexec =>
    exact List.forall_mem_cons.mpr ⟨(Query.run_effect hrun).attempts taskId, h⟩

end

/-- **At most one dispatch.** A context's session is created at most once; a task's input is
delivered, by creating the session or by a message, at most once for each of its
`dispatch_attempts`; these are counted by activations only; and every delivery after the first
follows another resolution that put the task back. -/
theorem at_most_one_dispatch {s : System} (hs : Reachable s) :
    (∀ contextId, created contextId s.world.log ≤ 1) ∧
    (∀ taskId, dispatched taskId s.world.log ≤ s.world.db.attempts taskId) ∧
    (∀ e ∈ s.world.log, ∀ taskId, e.after.attempts taskId = e.before.attempts taskId ∨
      e.after.attempts taskId = e.before.attempts taskId + 1 ∧ ∃ contextId,
        e.activates = some (contextId, taskId)) ∧
    ∀ later earlier taskId, s.world.log = later ++ earlier →
      dispatched taskId earlier ≤ 1 + putBackOf taskId earlier := by
  obtain ⟨knows, hknows⟩ := parties .environment hs
  refine ⟨fun contextId => ?_, dispatched_le hknows, fun e he => attempts_counted hknows he, ?_⟩
  · refine (created_le hknows contextId).trans ?_
    split <;> omega
  · intro later earlier taskId hlog
    obtain ⟨s₀, hs₀, hlog₀⟩ := Knowing.earlier .environment hknows hlog
    have hattempts := dispatched_le hs₀ taskId
    have hdue := due_le hs₀ taskId
    have hle := s₀.world.db.attempts_le_due taskId
    rw [hlog₀] at hattempts hdue
    omega

/-- Put back once, task 101 may be sent a second time, and no more. -/
theorem at_most_one_dispatch_put_back :
    ∃ s, play unchecked (putBack ++ calls 3 [.sent (some 60)]) = some s ∧
      dispatched 101 s.world.log = 2 ∧ s.world.db.attempts 101 = 2 ∧
      dispatched 101 s.world.log ≤ 1 + putBackOf 101 s.world.log ∧
      created 1 s.world.log ≤ 1 := by
  obtain ⟨s, hs, hreach, hval⟩ := played
    (fun s => (dispatched 101 s.world.log, s.world.db.attempts 101))
    (show (play unchecked (putBack ++ calls 3 [.sent (some 60)])).map _ = some (2, 2) by
      decide +kernel)
  obtain ⟨hsent, hattempts⟩ := Prod.mk.inj hval
  obtain ⟨hcreated, -, -, hretried⟩ := at_most_one_dispatch hreach
  exact ⟨s, hs, hsent, hattempts, hretried [] _ 101 rfl, hcreated 1⟩

end ManagedAgents.Controller
