import ManagedAgents.Controller.Runs
import ManagedAgents.Controller.Script

/-!
One active task at a time, served in the order of admission.

The store's invariant says so for every state. For runs, the activations of a context in the log
have increasing sequence numbers, unless the same task is activated again after it was put back.
-/

namespace ManagedAgents.Controller

open ManagedAgents.Lib

/-- The context and the task an activation is for. -/
def Query.activates? : Query → Option (ContextId × TaskId)
  | .activateTask contextId taskId _ _ => some (contextId, taskId)
  | _ => none

/-- The task that is put back into the queue. -/
def Query.retries? : Query → Option TaskId
  | .resolveHeldTask taskId _ .retry => some taskId
  | _ => none

def Entry.activates (e : Entry) : Option (ContextId × TaskId) := e.transaction.bind (·.activates?)
def Entry.retries (e : Entry) : Option TaskId := e.transaction.bind (·.retries?)

/-- The task was the last one activated: nothing before it is queued, but for itself. -/
structure Served (context : ContextId → Option ContextRow) (task : TaskId → Option TaskRow)
    (contextId : ContextId) (taskId : TaskId) (sequence : ℕ) (retried : Prop) : Prop where
  row : ∃ t, task taskId = some t ∧ t.sequence = sequence ∧ t.contextId = contextId
  alone : ∀ {c taskId'}, context contextId = some c → c.activeTaskId = some taskId' →
    taskId' = taskId
  behind : ∀ {taskId' u}, task taskId' = some u → u.contextId = contextId →
    u.internalState = .queued → sequence < u.sequence ∨ taskId' = taskId ∧ retried

variable {context : ContextId → Option ContextRow} {task : TaskId → Option TaskRow}
  {db db' : Db} {fresh : ℕ} {q : Query} {contextId contextId' : ContextId}
  {taskId taskId' : TaskId} {c c' : ContextRow} {t t' : TaskRow} {sequence : ℕ}
  {retried retried' : Prop}

namespace Served

lemma mono (h : Served context task contextId taskId sequence retried) (hr : retried → retried') :
    Served context task contextId taskId sequence retried' :=
  ⟨h.row, h.alone, fun hu hof hq => (h.behind hu hof hq).imp_right fun h => ⟨h.1, hr h.2⟩⟩

/-- A change of a context's row that activates nothing there. -/
lemma setContext (h : Served context task contextId taskId sequence retried)
    (halone : contextId' = contextId → ∀ taskId', c'.activeTaskId = some taskId' →
      taskId' = taskId) :
    Served (Function.update context contextId' (some c')) task contextId taskId sequence
      retried := by
  refine ⟨h.row, fun {c₁ taskId₁} hc₁ ha => ?_, h.behind⟩
  rw [Function.update_apply] at hc₁
  split at hc₁
  · rename_i hid
    cases hc₁
    exact halone hid.symm _ ha
  · exact h.alone hc₁ ha

/-- A change of a task that queues at most the last one activated. -/
lemma setTask (h : Served context task contextId taskId sequence retried)
    (htask : task taskId' = some t) (hid : t'.contextId = t.contextId)
    (hseq : t'.sequence = t.sequence)
    (hqueued : t'.internalState = .queued → t.internalState = .queued ∨
      (t.contextId = contextId → taskId' = taskId ∧ retried)) :
    Served context (Function.update task taskId' (some t')) contextId taskId sequence
      retried := by
  obtain ⟨⟨t₀, ht₀, hseq₀, hof₀⟩, halone, hbehind⟩ := h
  refine ⟨?_, halone, fun {taskId₁ u} hu hof hq => ?_⟩
  · rw [Function.update_apply]
    split
    · rename_i hsame
      rw [hsame, htask, Option.some.injEq] at ht₀
      subst ht₀
      exact ⟨t', rfl, hseq.trans hseq₀, hid.trans hof₀⟩
    · exact ⟨t₀, ht₀, hseq₀, hof₀⟩
  · rw [Function.update_apply] at hu
    split at hu
    · rename_i hsame
      cases hu
      rw [hseq, hsame]
      rcases hqueued hq with hq | hretried
      · exact hbehind htask (hid ▸ hof) hq
      · exact .inr (hretried (hid ▸ hof))
    · exact hbehind hu hof hq

/-- A task is added behind those there are. -/
lemma addTask (h : Served context task contextId taskId sequence retried)
    (hnone : task taskId' = none)
    (hlast : t.contextId = contextId → sequence < t.sequence) :
    Served context (Function.update task taskId' (some t)) contextId taskId sequence retried := by
  obtain ⟨⟨t₀, ht₀, hseq₀, hof₀⟩, halone, hbehind⟩ := h
  have hne : taskId ≠ taskId' := by
    rintro rfl
    rw [hnone] at ht₀
    cases ht₀
  refine ⟨⟨t₀, by rw [Function.update_of_ne hne]; exact ht₀, hseq₀, hof₀⟩, halone,
    fun {taskId₁ u} hu hof hq => ?_⟩
  rw [Function.update_apply] at hu
  split at hu
  · cases hu
    exact .inl (hlast hof)
  · exact hbehind hu hof hq

/-- **A move that activates nothing in the context** leaves the last one activated. -/
lemma step (h : Served db.context db.task contextId taskId sequence retried)
    (hwf : db.WellFormed) (heff : CoreEffect fresh db db' q) (hmove : db.Move q)
    (hq : ∀ taskId', q.activates? ≠ some (contextId, taskId')) :
    Served db'.context db'.task contextId taskId sequence
      (retried ∨ q.retries? = some taskId) := by
  have hkeep : Served db.context db.task contextId taskId sequence
      (retried ∨ q.retries? = some taskId) := h.mono .inl
  cases heff with
  | same hc ht => rw [hc, ht]; exact hkeep
  | opened hnew hrow hc ht =>
    rw [hc, ht, hrow]
    exact hkeep.setContext fun _ _ ha => by cases ha
  | @admitted a c t hctx hfresh hmessage hrow hc ht =>
    obtain ⟨t₀, ht₀, hseq₀, hof₀⟩ := h.row
    rw [hc, ht]
    refine (hkeep.addTask hfresh fun hof => ?_).setContext fun hid taskId₁ ha => ?_
    · -- the new task comes after every task of its context
      subst hrow
      obtain ⟨c₀, hc₀, hlt⟩ := hwf.home ht₀
      have hof' : c.contextId = contextId := hof
      rw [hof₀, ← hof'] at hc₀
      rcases hctx with hctx | ⟨hctx, -⟩ <;> rw [hctx] at hc₀ <;> cases hc₀
      change _ < c.nextSequence + 1 - 1
      omega
    · rcases hctx with hctx | ⟨-, hrow'⟩
      · exact h.alone (c := c) (hid ▸ hctx) ha
      · rw [hrow'] at ha
        cases ha
  | @claimed _ c hctx hfree hc ht =>
    rw [hc, ht]
    exact hkeep.setContext fun hid _ ha => h.alone (c := c) (hid ▸ hctx) ha
  | @released _ _ c hctx hheld hc ht =>
    rw [hc, ht]
    exact hkeep.setContext fun hid _ ha => h.alone (c := c) (hid ▸ hctx) ha
  | @wroteContext _ _ _ c hctx hheld hcheck hc ht =>
    rw [hc, ht]
    refine hkeep.setContext fun hid _ ha => ?_
    cases hmove _ hctx with
    | session | failed => exact h.alone (c := c) (hid ▸ hctx) ha
    | clear => cases ha
  | @wroteTask _ _ _ f c t hctx hheld htask hc ht =>
    rw [hc, ht]
    exact hkeep.setTask htask rfl rfl fun hqueued => .inl ((hmove _ _ hctx htask).unqueued hqueued)
  | @retried taskId' claim c t htask hctx hheld hactive hlive hunbound hsession hcancel hc ht =>
    rw [hc, ht]
    refine .setContext (.setTask hkeep htask rfl rfl fun _ => .inr fun hof => ?_) fun _ _ ha => by
      cases ha
    -- only the last one activated can be put back
    have hsame := h.alone (hof ▸ hctx) hactive
    exact ⟨hsame, .inr (hsame ▸ rfl)⟩
  | failed htask hctx hheld hactive hlive hc ht =>
    rw [hc, ht]
    refine .setContext (.setTask hkeep htask rfl rfl fun hq => ?_) fun _ _ ha => ?_
    · cases hq
    · cases ha
  | @activated contextId' taskId' claim predecessor c t hctx hheld hfree htask hof hqueued hc ht =>
    rw [hc, ht]
    refine .setContext (.setTask hkeep htask rfl rfl fun hq => ?_)
      fun hid _ _ => absurd (hid ▸ rfl) (hq taskId')
    cases hq
  | canceled htask hqueued hc ht =>
    rw [hc, ht]
    exact hkeep.setTask htask rfl rfl fun hq => by cases hq
  | cancelRequested htask hqueued hlive hc ht =>
    rw [hc, ht]
    exact hkeep.setTask htask rfl rfl .inl

/-- An activation makes its task the last one activated. -/
lemma start {claim : ClaimId} {predecessor : Option EventId} {v : TaskRow} (hwf : db.WellFormed)
    (hmove : db.Move (.activateTask contextId taskId claim predecessor))
    (hrun : activateTask contextId taskId claim predecessor db = .ok (v, db')) :
    ∃ t, db.task taskId = some t ∧ t.contextId = contextId ∧ t.internalState = .queued ∧
      Served db'.context db'.task contextId taskId t.sequence False := by
  obtain ⟨c, t, hctx, hheld, hfree, htask, hof, hqueued, rfl, hc, ht⟩ := activateTask_ok hrun
  obtain ⟨-, -, hmin⟩ := hmove _ _ hctx htask
  rw [hc, ht]
  refine ⟨t, htask, hof, hqueued, ⟨_, Function.update_self _ _ _, rfl, hof⟩,
    fun {c₁ taskId₁} hc₁ ha => ?_, fun {taskId₁ u} hu hofu hqu => ?_⟩
  · rw [Function.update_self] at hc₁
    cases hc₁
    exact (Option.some.inj ha).symm
  · rw [Function.update_apply] at hu
    split at hu
    · cases hu
      cases hqu
    · rename_i hne
      have hle := hmin taskId₁ u hu hofu hqu
      have hne' : t.sequence ≠ u.sequence := fun he =>
        hne (hwf.order htask hu (hof.trans hofu.symm) he).symm
      exact .inl (by omega)

end Served

/-- Of two successive activations the second is of a later task, or of the same one put back. -/
def InOrder (taskId₁ taskId₂ : TaskId) (e₁ e₂ : Entry) (between : List Entry) : Prop :=
  (∃ t₁ t₂, e₁.before.task taskId₁ = some t₁ ∧ e₂.before.task taskId₂ = some t₂ ∧
    t₁.sequence < t₂.sequence) ∨
  taskId₂ = taskId₁ ∧ ∃ e ∈ between, e.retries = some taskId₁

/-- The invariant of the log: what each context's last activation leaves, and the order of the
earlier ones. -/
structure Ordered (w : World) : Prop where
  last : ∀ {between e earlier contextId taskId}, w.log = between ++ e :: earlier →
    e.activates = some (contextId, taskId) →
    (∀ e ∈ between, ∀ taskId', e.activates ≠ some (contextId, taskId')) →
    ∃ t, e.before.task taskId = some t ∧ Served w.db.context w.db.task contextId taskId
      t.sequence (∃ e ∈ between, e.retries = some taskId)
  order : ∀ {later e₂ between e₁ earlier contextId taskId₁ taskId₂},
    w.log = later ++ e₂ :: between ++ e₁ :: earlier →
    e₁.activates = some (contextId, taskId₁) → e₂.activates = some (contextId, taskId₂) →
    (∀ e ∈ between, ∀ taskId', e.activates ≠ some (contextId, taskId')) →
    InOrder taskId₁ taskId₂ e₁ e₂ between

namespace Ordered

variable {w w' : World} {e : Entry}

lemma frame (h : Ordered w) (hlog : w'.log = w.log) (hc : w'.db.context = w.db.context)
    (ht : w'.db.task = w.db.task) : Ordered w' := by
  obtain ⟨hlast, horder⟩ := h
  rw [← hlog, ← hc, ← ht] at hlast
  rw [← hlog] at horder
  exact ⟨hlast, horder⟩

/-- One more entry: it leaves the last activation what it was, or is the next one. -/
lemma push (h : Ordered w) (hlog : w'.log = e :: w.log) (hbefore : e.before = w.db)
    (hserved : ∀ {contextId taskId sequence retried},
      (∀ taskId', e.activates ≠ some (contextId, taskId')) →
      Served w.db.context w.db.task contextId taskId sequence retried →
      Served w'.db.context w'.db.task contextId taskId sequence
        (retried ∨ e.retries = some taskId))
    (hstart : ∀ {contextId taskId}, e.activates = some (contextId, taskId) →
      ∃ t, w.db.task taskId = some t ∧ t.contextId = contextId ∧ t.internalState = .queued ∧
        Served w'.db.context w'.db.task contextId taskId t.sequence False) : Ordered w' := by
  constructor
  · intro between e₁ earlier contextId taskId hsplit hact hnone
    rw [hlog, List.cons_eq_append_iff] at hsplit
    rcases hsplit with ⟨rfl, hsplit⟩ | ⟨between', rfl, hsplit⟩
    · cases hsplit
      obtain ⟨t, ht, -, -, hstarted⟩ := hstart hact
      exact ⟨t, by rw [hbefore]; exact ht, hstarted.mono False.elim⟩
    · obtain ⟨t, ht, hkept⟩ :=
        h.last hsplit hact fun e' he' => hnone e' (List.mem_cons_of_mem _ he')
      refine ⟨t, ht, (hserved (hnone e List.mem_cons_self) hkept).mono ?_⟩
      rintro (⟨e', he', hr⟩ | hr)
      · exact ⟨e', List.mem_cons_of_mem _ he', hr⟩
      · exact ⟨e, List.mem_cons_self, hr⟩
  · intro later e₂ between e₁ earlier contextId taskId₁ taskId₂ hsplit hact₁ hact₂ hnone
    rw [hlog, List.append_assoc, List.cons_append, List.cons_eq_append_iff] at hsplit
    rcases hsplit with ⟨rfl, hsplit⟩ | ⟨later', rfl, hsplit⟩
    · obtain ⟨rfl, hrest⟩ := List.cons.inj hsplit
      obtain ⟨t₁, ht₁, hkept⟩ := h.last hrest.symm hact₁ hnone
      obtain ⟨t₂, ht₂, hof, hqueued, -⟩ := hstart hact₂
      rcases hkept.behind ht₂ hof hqueued with hlt | hretried
      · exact .inl ⟨t₁, t₂, ht₁, by rw [hbefore]; exact ht₂, hlt⟩
      · exact .inr hretried
    · have hsplit' : w.log = later' ++ e₂ :: between ++ e₁ :: earlier := by
        rw [List.append_assoc, List.cons_append]
        exact hsplit
      exact h.order hsplit' hact₁ hact₂ hnone

/-- An entry that committed nothing. -/
lemma quiet (h : Ordered w) (hlog : w'.log = e :: w.log) (hbefore : e.before = w.db)
    (he : e.transaction = none) (hdb : w'.db = w.db) : Ordered w' := by
  have hact : e.activates = none := by rw [Entry.activates, he, Option.bind_none]
  refine h.push hlog hbefore (fun _ hkept => ?_) fun h => ?_
  · rw [hdb]
    exact hkept.mono .inl
  · rw [hact] at h
    cases h

/-- An entry that committed a query. -/
lemma commit (h : Ordered w) {q : Query} {v : q.Reply} (hlog : w'.log = e :: w.log)
    (hbefore : e.before = w.db) (he : e.transaction = some q) (hwf : w.db.WellFormed)
    (hmove : w.db.Move q) (hrun : q.run w.uuid w.db = .ok (v, w'.db)) : Ordered w' := by
  have hact : e.activates = q.activates? := by rw [Entry.activates, he, Option.bind_some]
  have hret : e.retries = q.retries? := by rw [Entry.retries, he, Option.bind_some]
  refine h.push hlog hbefore (fun hnone hkept => ?_) fun hstarts => ?_
  · rw [hret]
    rw [hact] at hnone
    exact hkept.step hwf (Query.run_effect hrun) hmove hnone
  · rw [hact] at hstarts
    cases q with
    | activateTask contextId' taskId' claim predecessor =>
      cases hstarts
      exact Served.start hwf hmove hrun
    | _ => cases hstarts

lemma of_knowing {s : Parties Known World} (hs : Knowing environment s) : Ordered s.world := by
  refine Knowing.invariant (P := fun s => Ordered s.world) .environment ?_ ?_ hs
  · exact ⟨fun h => by simp at h, fun h => by simp at h⟩
  · intro s s' hknow h turn
    have hco := Knowing.coherent .environment hknow
    cases turn with
    | join => exact h
    | leave i => exact h
    | drift hnow hdrift => exact h.frame rfl rfl rfl
    | commit hask hrun hr hexec =>
      exact h.commit rfl rfl rfl hco.store (hco.move hask hrun) hrun
    | refuse hask hexec => exact h.quiet rfl rfl rfl rfl
    | @other i k c r w' hc hk hallow hexec hdb huuid hlog =>
      refine h.quiet hlog rfl ?_ hdb
      cases c with
      | query q => exact absurd rfl (hc q)
      | _ => rfl
    | @client c r w' hc hclient hexec hdb huuid hlog =>
      refine h.quiet hlog rfl ?_ hdb
      cases c with
      | query q => exact absurd rfl (hc q)
      | _ => rfl

end Ordered

/-- **Single active task, served in order.** A task under way is its context's active one,
everything queued was admitted after the active task, and of two successive activations in one
context the second is of a later task, unless the same task was put back in between. -/
theorem single_active_fifo {s : System} (hs : Reachable s) :
    (∀ taskId t, s.world.db.task taskId = some t → t.internalState ≠ .queued →
      t.internalState ≠ .terminal →
        ∃ c, s.world.db.context t.contextId = some c ∧ c.activeTaskId = some taskId) ∧
    (∀ contextId c taskId, s.world.db.context contextId = some c →
      c.activeTaskId = some taskId → ∃ t, s.world.db.task taskId = some t ∧
        ∀ taskId' u, s.world.db.task taskId' = some u → u.contextId = contextId →
          u.internalState = .queued → t.sequence < u.sequence) ∧
    ∀ later e₂ between e₁ earlier contextId taskId₁ taskId₂,
      s.world.log = later ++ e₂ :: between ++ e₁ :: earlier →
      e₁.activates = some (contextId, taskId₁) → e₂.activates = some (contextId, taskId₂) →
      (∀ e ∈ between, ∀ taskId', e.activates ≠ some (contextId, taskId')) →
      InOrder taskId₁ taskId₂ e₁ e₂ between := by
  obtain ⟨knows, hknows⟩ := parties .environment hs
  have hwf := (Knowing.coherent .environment hknows).store
  have hordered := Ordered.of_knowing hknows
  refine ⟨fun taskId t => hwf.single, fun contextId c taskId hctx hactive => ?_,
    fun _ _ _ _ _ _ _ _ => hordered.order⟩
  obtain ⟨t, ht, -, -⟩ := hwf.active hctx hactive
  exact ⟨t, ht, fun taskId' u => hwf.fifo hctx hactive ht⟩

/-- The reply to task 101's message is lost, an admin puts the task back, and the next worker
activates it again. -/
def putBack : List Act :=
  firstTurnDone 0 ++ sendTurn (some 1) 101 ++
    activateNext 1 [.events [message 50, idle 51 .endTurn]] ++
    calls 1 [.raised .other, .run, .run, .done, .run] ++
    [.admin demo 101 .retry true] ++ calls 2 [.run, .run, .run, .run, .done] ++
    activateNext 3 [.events [message 50, idle 51 .endTurn]]

theorem single_active_fifo_put_back :
    ∃ s, play unchecked putBack = some s ∧
      s.world.log.filterMap Entry.activates = [(1, 101), (1, 101), (1, 100)] ∧
      ∃ t, s.world.db.task 101 = some t ∧ ∀ taskId' u, s.world.db.task taskId' = some u →
        u.contextId = 1 → u.internalState = .queued → t.sequence < u.sequence := by
  obtain ⟨s, hs, hreach, hval⟩ := played
    (fun s => (s.world.log.filterMap Entry.activates,
      (s.world.db.context 1).map (·.activeTaskId)))
    (show (play unchecked putBack).map _ = some ([(1, 101), (1, 101), (1, 100)], some (some 101)) by
      decide +kernel)
  obtain ⟨hlog, hctx⟩ := Prod.mk.inj hval
  obtain ⟨c, hctx, hactive⟩ := Option.map_eq_some_iff.mp hctx
  obtain ⟨-, hfifo, -⟩ := single_active_fifo hreach
  exact ⟨s, hs, hlog, hfifo 1 c 101 hctx hactive⟩

end ManagedAgents.Controller
