import Mathlib.Order.Basic
import ManagedAgents.Controller.Known
import ManagedAgents.Controller.Effects

/-!
The store's invariant, and the moves that keep it.

A move is an update of a context or a task with what must hold of the rows it changes. Fenced
updates check only the lease; that the caller makes one of the moves is shown elsewhere, from
what it knows. Here the store alone is looked at: one task is active at a time, and the queue is
served in order.
-/

namespace ManagedAgents.Controller

open ManagedAgents.Lib

open Known (bindFields finishFields statusFields)

section
variable (context : ContextId → Option ContextRow) (task : TaskId → Option TaskRow)

structure WellFormed : Prop where
  /-- The active task is there, in this context, and no longer queued. -/
  active : ∀ {contextId c taskId}, context contextId = some c → c.activeTaskId = some taskId →
    ∃ t, task taskId = some t ∧ t.contextId = contextId ∧ t.internalState ≠ .queued
  /-- A task's context is there and has counted past it. -/
  home : ∀ {taskId t}, task taskId = some t →
    ∃ c, context t.contextId = some c ∧ t.sequence < c.nextSequence
  /-- No two tasks of a context have one sequence number. -/
  order : ∀ {taskId taskId' t t'}, task taskId = some t → task taskId' = some t' →
    t.contextId = t'.contextId → t.sequence = t'.sequence → taskId = taskId'
  /-- A task that is under way is its context's active one. -/
  single : ∀ {taskId t}, task taskId = some t → t.internalState ≠ .queued →
    t.internalState ≠ .terminal → ∃ c, context t.contextId = some c ∧
      c.activeTaskId = some taskId
  /-- Everything queued was admitted after the active task. -/
  fifo : ∀ {contextId c taskId t taskId' u}, context contextId = some c →
    c.activeTaskId = some taskId → task taskId = some t → task taskId' = some u →
    u.contextId = contextId → u.internalState = .queued → t.sequence < u.sequence
  /-- A queued task has not been bound. -/
  unbound : ∀ {taskId t}, task taskId = some t → t.internalState = .queued →
    t.cmaInputEventId = none
  /-- A task keeps its input until it is bound. -/
  input : ∀ {taskId t}, task taskId = some t → t.inputObjectKey = none →
    t.cmaInputEventId.isSome = true

end

abbrev Db.WellFormed (db : Db) : Prop := Controller.WellFormed db.context db.task

namespace WellFormed

variable {context : ContextId → Option ContextRow} {task : TaskId → Option TaskRow}
  {contextId : ContextId} {taskId : TaskId} {c c' : ContextRow} {t t' : TaskRow}

lemma setContext (h : WellFormed context task) (hctx : context contextId = some c)
    (hactive : c'.activeTaskId = c.activeTaskId) (hnext : c.nextSequence ≤ c'.nextSequence) :
    WellFormed (Function.update context contextId (some c')) task := by
  constructor
  · simp only [Function.update_apply]
    have active := @h.active
    grind
  · simp only [Function.update_apply]
    have home := @h.home
    grind
  · exact h.order
  · simp only [Function.update_apply]
    have single := @h.single
    grind
  · simp only [Function.update_apply]
    have fifo := @h.fifo
    grind
  · exact h.unbound
  · exact h.input

/-- The active task may be dropped once it is terminal. -/
lemma clear (h : WellFormed context task) (hctx : context contextId = some c)
    (hactive : c'.activeTaskId = none) (hnext : c.nextSequence ≤ c'.nextSequence)
    (hdone : ∀ taskId t, c.activeTaskId = some taskId → task taskId = some t →
      t.internalState = .terminal) :
    WellFormed (Function.update context contextId (some c')) task := by
  constructor
  · simp only [Function.update_apply]
    have active := @h.active
    grind
  · simp only [Function.update_apply]
    have home := @h.home
    grind
  · exact h.order
  · simp only [Function.update_apply]
    have single := @h.single
    grind
  · simp only [Function.update_apply]
    have fifo := @h.fifo
    grind
  · exact h.unbound
  · exact h.input

lemma setTask (h : WellFormed context task) (htask : task taskId = some t)
    (hid : t'.contextId = t.contextId) (hseq : t'.sequence = t.sequence)
    (hqueued : t'.internalState = .queued → t.internalState = .queued)
    (hlive : t'.internalState ≠ .queued → t'.internalState ≠ .terminal →
      ∃ c, context t.contextId = some c ∧ c.activeTaskId = some taskId)
    (hunbound : t'.internalState = .queued → t'.cmaInputEventId = none)
    (hinput : t'.inputObjectKey = none → t'.cmaInputEventId.isSome = true) :
    WellFormed context (Function.update task taskId (some t')) := by
  constructor
  · simp only [Function.update_apply]
    have active := @h.active
    grind
  · simp only [Function.update_apply]
    have home := @h.home
    grind
  · simp only [Function.update_apply]
    have order := @h.order
    grind
  · simp only [Function.update_apply]
    have single := @h.single
    grind
  · simp only [Function.update_apply]
    have fifo := @h.fifo
    grind
  · simp only [Function.update_apply]
    have unbound := @h.unbound
    grind
  · simp only [Function.update_apply]
    have input := @h.input
    grind

/-- The active task goes back into the queue, before everything queued behind it. -/
lemma requeue (h : WellFormed context task) (htask : task taskId = some t)
    (hctx : context t.contextId = some c) (hactive : c.activeTaskId = some taskId)
    (hfree : c'.activeTaskId = none) (hnext : c.nextSequence ≤ c'.nextSequence)
    (hid : t'.contextId = t.contextId) (hseq : t'.sequence = t.sequence)
    (hqueued : t'.internalState = .queued) (hunbound : t'.cmaInputEventId = none)
    (hinput : t'.inputObjectKey.isSome = true) :
    WellFormed (Function.update context t.contextId (some c'))
      (Function.update task taskId (some t')) := by
  constructor
  · simp only [Function.update_apply]
    have active := @h.active
    grind
  · simp only [Function.update_apply]
    have home := @h.home
    grind
  · simp only [Function.update_apply]
    have order := @h.order
    grind
  · simp only [Function.update_apply]
    have single := @h.single
    grind
  · simp only [Function.update_apply]
    have fifo := @h.fifo
    have active := @h.active
    grind
  · simp only [Function.update_apply]
    have unbound := @h.unbound
    grind
  · simp only [Function.update_apply]
    have input := @h.input
    grind

/-- The first queued task becomes the active one. -/
lemma activate (h : WellFormed context task) (hctx : context contextId = some c)
    (htask : task taskId = some t) (hof : t.contextId = contextId)
    (hqueued : t.internalState = .queued) (hfree : c.activeTaskId = none)
    (hfirst : ∀ taskId' u, task taskId' = some u → u.contextId = contextId →
      u.internalState = .queued → t.sequence ≤ u.sequence)
    (hactive : c'.activeTaskId = some taskId) (hnext : c.nextSequence ≤ c'.nextSequence)
    (hid : t'.contextId = t.contextId) (hseq : t'.sequence = t.sequence)
    (hlive : t'.internalState ≠ .queued) (hinput : t'.inputObjectKey.isSome = true) :
    WellFormed (Function.update context contextId (some c'))
      (Function.update task taskId (some t')) := by
  constructor
  · simp only [Function.update_apply]
    have active := @h.active
    grind
  · simp only [Function.update_apply]
    have home := @h.home
    grind
  · simp only [Function.update_apply]
    have order := @h.order
    grind
  · simp only [Function.update_apply]
    have single := @h.single
    grind
  · simp only [Function.update_apply]
    intro contextId' c₁ taskId₁ t₁ taskId₂ u hc₁ hactive₁ ht₁ hu hof₂ hqueued₂
    have hne : taskId₂ ≠ taskId := by grind
    rw [if_neg hne] at hu
    by_cases hctx' : contextId' = contextId
    · have hle := hfirst taskId₂ u hu (hof₂.trans hctx') hqueued₂
      have hseq₂ : t.sequence ≠ u.sequence := fun he =>
        hne (h.order htask hu (hof.trans (hof₂.trans hctx').symm) he).symm
      grind
    · rw [if_neg hctx'] at hc₁
      obtain ⟨w, hw, hofw, -⟩ := h.active hc₁ hactive₁
      have hne₁ : taskId₁ ≠ taskId := by grind
      rw [if_neg hne₁] at ht₁
      exact h.fifo hc₁ hactive₁ ht₁ hu hof₂ hqueued₂
  · simp only [Function.update_apply]
    have unbound := @h.unbound
    grind
  · simp only [Function.update_apply]
    have input := @h.input
    have unbound := @h.unbound
    grind

/-- A new task takes the number its context has counted to. -/
lemma admitTurn (h : WellFormed context task) (hctx : context t.contextId = some c)
    (hfresh : task taskId = none) (hseq : t.sequence = c.nextSequence)
    (hactive : c'.activeTaskId = c.activeTaskId) (hnext : c'.nextSequence = c.nextSequence + 1)
    (hstate : t.internalState = .queued ∨ t.internalState = .terminal)
    (hunbound : t.cmaInputEventId = none) (hinput : t.inputObjectKey.isSome = true) :
    WellFormed (Function.update context t.contextId (some c'))
      (Function.update task taskId (some t)) := by
  constructor
  · simp only [Function.update_apply]
    have active := @h.active
    grind
  · simp only [Function.update_apply]
    have home := @h.home
    grind
  · simp only [Function.update_apply]
    have order := @h.order
    have home := @h.home
    grind
  · simp only [Function.update_apply]
    have single := @h.single
    grind
  · simp only [Function.update_apply]
    have fifo := @h.fifo
    have home := @h.home
    have active := @h.active
    grind
  · simp only [Function.update_apply]
    have unbound := @h.unbound
    grind
  · simp only [Function.update_apply]
    have input := @h.input
    grind

/-- A new context has no tasks. -/
lemma openContext (h : WellFormed context task) (hctx : context contextId = none)
    (hactive : c.activeTaskId = none) :
    WellFormed (Function.update context contextId (some c)) task := by
  constructor
  · simp only [Function.update_apply]
    have active := @h.active
    grind
  · simp only [Function.update_apply]
    have home := @h.home
    grind
  · exact h.order
  · simp only [Function.update_apply]
    have single := @h.single
    grind
  · simp only [Function.update_apply]
    have fifo := @h.fifo
    grind
  · exact h.unbound
  · exact h.input

end WellFormed

/-- An update of a task, as a move of the task in its context. -/
inductive TaskMove (c : ContextRow) (t : TaskRow) : TaskFields → Prop
  | hold {f} (h : f.isHold = true) : TaskMove c t f
  | bind (eventId) (hactive : c.activeTaskId = some t.taskId)
    (hnew : t.cmaInputEventId = none) : TaskMove c t (bindFields eventId)
  | status (humanPending) (hactive : c.activeTaskId = some t.taskId) :
    TaskMove c t (statusFields humanPending)
  | interrupting (now) (hactive : c.activeTaskId = some t.taskId) :
    TaskMove c t { cancelAttemptedAt := some (some now), internalState := some .interrupting }
  | finish {state eventId} (hactive : c.activeTaskId = some t.taskId)
    (hfinal : state.isFinal = true) : TaskMove c t (finishFields state eventId)
  | drop (hof : t.contextId = c.contextId) (hfree : c.activeTaskId = none)
    (hfailed : c.lifecycleState = .failed)
    (hstate : t.internalState = .queued ∨ t.internalState = .terminal) :
    TaskMove c t (finishFields .failed none)

/-- No update puts a task into the queue. -/
lemma TaskMove.unqueued {c : ContextRow} {t : TaskRow} {f : TaskFields} (h : TaskMove c t f)
    (hq : (t.set f).internalState = .queued) : t.internalState = .queued := by
  cases h with
  | hold hf =>
    have hstate : f.internalState = none := by
      simp only [TaskFields.isHold, Bool.and_eq_true, Option.isNone_iff_eq_none] at hf
      exact hf.1.1.1.1.2
    simpa [TaskRow.set, hstate] using hq
  | status humanPending => cases humanPending <;> cases hq
  | bind | interrupting | finish | drop => cases hq

/-- An update of a context, as a move. -/
inductive ContextMove (db : Db) (c : ContextRow) : ContextFields → Prop
  | session (sessionId) (hnone : c.cmaSessionId = none) (hactive : c.activeTaskId.isSome = true) :
    ContextMove db c { cmaSessionId := some (some sessionId), lifecycleState := some .ready }
  | failed (hactive : c.activeTaskId.isSome = true) :
    ContextMove db c { lifecycleState := some .failed }
  | clear (hdone : ∀ taskId t, c.activeTaskId = some taskId → db.task taskId = some t →
      t.internalState = .terminal)
    (hstarted : c.cmaSessionId.isSome = true ∨ c.lifecycleState = .failed) :
    ContextMove db c { activeTaskId := some none }

/-- The query is a move: what its caller makes sure of besides the lease. -/
def Db.Move (db : Db) : Query → Prop
  | .updateContext contextId _ f => ∀ c, db.context contextId = some c → ContextMove db c f
  | .updateTask taskId contextId _ f => ∀ c t, db.context contextId = some c →
    db.task taskId = some t → TaskMove c t f
  | .activateTask contextId taskId _ predecessor => ∀ c t, db.context contextId = some c →
    db.task taskId = some t → c.lifecycleState ≠ .failed ∧
      (c.cmaSessionId = none → predecessor = none) ∧
      ∀ taskId' u, db.task taskId' = some u → u.contextId = contextId →
        u.internalState = .queued → t.sequence ≤ u.sequence
  | _ => True

variable {db db' : Db} {fresh : ℕ}

/-- What a move writes besides the reason a task is held. -/
lemma TaskFields.set_isHold {f : TaskFields} {t : TaskRow} (h : f.isHold = true) :
    t.set f = { t with heldReason := f.heldReason.getD t.heldReason } := by
  simp only [isHold, Bool.and_eq_true, Option.isNone_iff_eq_none] at h
  obtain ⟨⟨⟨⟨⟨h₁, h₂⟩, h₃⟩, h₄⟩, h₅⟩, h₆⟩ := h
  simp [TaskRow.set, h₁, h₂, h₃, h₄, h₅, h₆]

lemma WellFormed.wroteContext {f : ContextFields} {contextId : ContextId} {c : ContextRow}
    (h : db.WellFormed) (hctx : db.context contextId = some c) (hmove : ContextMove db c f) :
    WellFormed (Function.update db.context contextId (some (c.set f))) db.task := by
  cases hmove with
  | session sessionId hnone hactive => exact h.setContext hctx rfl (Nat.le_refl _)
  | failed hactive => exact h.setContext hctx rfl (Nat.le_refl _)
  | clear hdone hstarted => exact h.clear hctx rfl (Nat.le_refl _) hdone

lemma WellFormed.wroteTask {f : TaskFields} {contextId : ContextId} {taskId : TaskId}
    {c : ContextRow} {t : TaskRow} (h : db.WellFormed) (hctx : db.context contextId = some c)
    (htask : db.task taskId = some t) (hmove : TaskMove c t f) :
    WellFormed db.context (Function.update db.task taskId (some (t.set f))) := by
  have hid := Db.task_id htask
  have hlive : c.activeTaskId = some t.taskId →
      ∃ c, db.context t.contextId = some c ∧ c.activeTaskId = some taskId := by
    intro hactive
    rw [hid] at hactive
    obtain ⟨t', ht', hof, -⟩ := h.active hctx hactive
    rw [htask, Option.some.injEq] at ht'
    exact ⟨c, by rw [ht', hof]; exact hctx, hactive⟩
  have hsingle := h.single htask
  have hunbound := h.unbound htask
  have hinput := h.input htask
  cases hmove with
  | hold hf =>
    rw [TaskFields.set_isHold hf]
    exact h.setTask htask rfl rfl id hsingle hunbound hinput
  | bind eventId hactive hnew =>
    exact h.setTask htask rfl rfl (fun hq => by cases hq) (fun _ _ => hlive hactive)
      (fun hq => by cases hq) fun _ => rfl
  | status humanPending hactive =>
    refine h.setTask htask rfl rfl (fun hq => ?_) (fun _ _ => hlive hactive) (fun hq => ?_)
      hinput <;> cases humanPending <;> cases hq
  | interrupting now hactive =>
    exact h.setTask htask rfl rfl (fun hq => by cases hq) (fun _ _ => hlive hactive)
      (fun hq => by cases hq) hinput
  | finish hactive hfinal =>
    exact h.setTask htask rfl rfl (fun hq => by cases hq) (fun _ hne => absurd rfl hne)
      (fun hq => by cases hq) hinput
  | drop hof hfree hfailed hstate =>
    exact h.setTask htask rfl rfl (fun hq => by cases hq) (fun _ hne => absurd rfl hne)
      (fun hq => by cases hq) hinput

/-- **Every move keeps the store well formed.** -/
theorem WellFormed.step {q : Query} (h : db.WellFormed) (heff : CoreEffect fresh db db' q)
    (hmove : db.Move q) : db'.WellFormed := by
  unfold Db.WellFormed at *
  cases heff with
  | same hc ht => rw [hc, ht]; exact h
  | opened hnew hrow hc ht =>
    rw [hc, ht]
    exact h.openContext hnew (by rw [hrow])
  | @admitted a c t hctx hfresh hmessage hrow hc ht =>
    rw [hc, ht]
    subst hrow
    -- the context as it is before its counter moves, there or just made
    have hadmit : ∀ context, WellFormed context db.task → context c.contextId = some c →
        WellFormed (Function.update context c.contextId
          (some { c with nextSequence := c.nextSequence + 1 }))
          (Function.update db.task a.proposedTaskId (some (admittedTask a
            { c with nextSequence := c.nextSequence + 1 } (rejectionReason c db)))) := by
      intro context hw hc
      refine hw.admitTurn (t := admittedTask a { c with nextSequence := c.nextSequence + 1 }
        (rejectionReason c db)) hc hfresh rfl rfl rfl ?_ rfl rfl
      cases h : (rejectionReason c db).isSome <;> simp [admittedTask, h]
    rcases hctx with hctx | ⟨hnone, hrow⟩
    · exact hadmit _ h hctx
    · have := hadmit _ (h.openContext hnone (c := c) (by rw [hrow])) (Function.update_self _ _ _)
      rwa [Function.update_idem] at this
  | claimed hctx hfree hc ht => rw [hc, ht]; exact h.setContext hctx rfl (Nat.le_refl _)
  | released hctx hheld hc ht => rw [hc, ht]; exact h.setContext hctx rfl (Nat.le_refl _)
  | wroteContext hctx hheld hcheck hc ht =>
    rw [hc, ht]
    exact h.wroteContext hctx (hmove _ hctx)
  | wroteTask hctx hheld htask hc ht =>
    rw [hc, ht]
    exact h.wroteTask hctx htask (hmove _ _ hctx htask)
  | @retried taskId claim c t htask hctx hheld hactive hlive hunbound hsession hcancel hc ht =>
    rw [hc, ht]
    have hinput : t.inputObjectKey.isSome = true := by
      by_contra hnone
      have := h.input htask (by simpa using hnone)
      simp [hunbound] at this
    exact h.requeue htask hctx hactive rfl (Nat.le_refl _) rfl rfl rfl hunbound hinput
  | @failed taskId claim c t htask hctx hheld hactive hlive hc ht =>
    rw [hc, ht]
    have hinput := h.input htask
    have hterminal : WellFormed db.context (Function.update db.task taskId (some
        { t with internalState := .terminal, a2aState := .failed, heldReason := none })) :=
      h.setTask htask rfl rfl (fun hq => by cases hq) (fun _ hne => absurd rfl hne)
        (fun hq => by cases hq) hinput
    refine hterminal.clear hctx rfl (Nat.le_refl _) fun taskId' t' hactive' ht' => ?_
    rw [hactive, Option.some.injEq] at hactive'
    rw [← hactive', Function.update_self, Option.some.injEq] at ht'
    rw [← ht']
  | activated hctx hheld hfree htask hof hqueued hc ht =>
    rw [hc, ht]
    have hinput := h.input htask
    have hunbound := h.unbound htask hqueued
    refine h.activate hctx htask hof hqueued hfree (hmove _ _ hctx htask).2.2 rfl (Nat.le_refl _)
      rfl rfl (fun hq => by cases hq) ?_
    by_contra hnone
    have := hinput (by simpa using hnone)
    simp [hunbound] at this
  | canceled htask hqueued hc ht =>
    rw [hc, ht]
    have hinput := h.input htask
    exact h.setTask htask rfl rfl (fun hq => by cases hq) (fun _ hne => absurd rfl hne)
      (fun hq => by cases hq) hinput
  | cancelRequested htask hqueued hlive hc ht =>
    rw [hc, ht]
    have hsingle := h.single htask
    have hunbound := h.unbound htask
    have hinput := h.input htask
    exact h.setTask htask rfl rfl id hsingle hunbound hinput

/-! ### What a move makes of a task -/

variable {q : Query}

/-- A task becomes active by its activation only. -/
lemma CoreEffect.active {contextId : ContextId} {taskId : TaskId} {c' : ContextRow}
    (heff : CoreEffect fresh db db' q) (hmove : db.Move q)
    (hc' : db'.context contextId = some c') (hactive : c'.activeTaskId = some taskId) :
    (∃ c, db.context contextId = some c ∧ c.activeTaskId = some taskId) ∨
      ∃ claim predecessor t, q = .activateTask contextId taskId claim predecessor ∧
        db.task taskId = some t ∧ t.internalState = .queued := by
  -- a change of one context that activates nothing
  have hset : ∀ {x c₀ c₀'}, db.context x = some c₀ →
      db'.context = Function.update db.context x (some c₀') →
      (c₀'.activeTaskId = some taskId → c₀.activeTaskId = some taskId) →
      ∃ c, db.context contextId = some c ∧ c.activeTaskId = some taskId := by
    intro x c₀ c₀' hc₀ hctx hsame
    rw [hctx, Function.update_apply] at hc'
    split at hc'
    · rename_i hid
      cases hc'
      exact ⟨c₀, hid ▸ hc₀, hsame hactive⟩
    · exact ⟨c', hc', hactive⟩
  cases heff with
  | same hctx _ | wroteTask _ _ _ hctx _ | canceled _ _ hctx _ | cancelRequested _ _ _ hctx _ =>
    rw [hctx] at hc'
    exact .inl ⟨c', hc', hactive⟩
  | @opened a c hnew hrow hctx _ =>
    rw [hctx, Function.update_apply] at hc'
    split at hc'
    · cases hc'
      rw [hrow] at hactive
      cases hactive
    · exact .inl ⟨c', hc', hactive⟩
  | @admitted a c t hctx hfresh hmessage hrow hc ht =>
    rcases hctx with hctx | ⟨-, hnew⟩
    · exact .inl (hset hctx hc fun h => h)
    · rw [hc, Function.update_apply] at hc'
      split at hc'
      · cases hc'
        rw [hnew] at hactive
        cases hactive
      · exact .inl ⟨c', hc', hactive⟩
  | claimed hctx _ hc _ | released hctx _ hc _ => exact .inl (hset hctx hc fun h => h)
  | wroteContext hctx _ _ hc _ =>
    refine .inl (hset hctx hc fun h => ?_)
    cases hmove _ hctx with
    | session | failed => exact h
    | clear => cases h
  | retried _ hctx _ _ _ _ _ _ hc _ => exact .inl (hset hctx hc fun h => by cases h)
  | failed _ hctx _ _ _ hc _ => exact .inl (hset hctx hc fun h => by cases h)
  | @activated contextId' taskId' claim predecessor c t hctx hheld hfree htask hof hqueued hc ht =>
    rw [hc, Function.update_apply] at hc'
    split at hc'
    · rename_i hid
      subst hid
      cases hc'
      cases hactive
      exact .inr ⟨_, _, t, rfl, htask, hqueued⟩
    · exact .inl ⟨c', hc', hactive⟩

/-- A queued task was queued, or active, or is new. -/
lemma CoreEffect.queued {taskId : TaskId} {t' : TaskRow} (heff : CoreEffect fresh db db' q)
    (hmove : db.Move q) (ht' : db'.task taskId = some t') (hqueued : t'.internalState = .queued) :
    (∃ t, db.task taskId = some t ∧ t.contextId = t'.contextId ∧ (t.internalState = .queued ∨
      ∃ c, db.context t.contextId = some c ∧ c.activeTaskId = some taskId)) ∨
    db.task taskId = none := by
  have hset : ∀ {y t₀ t₀'}, db.task y = some t₀ →
      db'.task = Function.update db.task y (some t₀') → t₀'.contextId = t₀.contextId →
      (t₀'.internalState = .queued → t₀.internalState = .queued ∨
        ∃ c, db.context t₀.contextId = some c ∧ c.activeTaskId = some y) →
      ∃ t, db.task taskId = some t ∧ t.contextId = t'.contextId ∧ (t.internalState = .queued ∨
        ∃ c, db.context t.contextId = some c ∧ c.activeTaskId = some taskId) := by
    intro y t₀ t₀' ht₀ htask hof hstate
    rw [htask, Function.update_apply] at ht'
    split at ht'
    · rename_i hid
      cases ht'
      subst hid
      exact ⟨t₀, ht₀, hof.symm, hstate hqueued⟩
    · exact ⟨t', ht', rfl, .inl hqueued⟩
  cases heff with
  | same _ ht | opened _ _ _ ht | claimed _ _ _ ht | released _ _ _ ht | wroteContext _ _ _ _ ht =>
    rw [ht] at ht'
    exact .inl ⟨t', ht', rfl, .inl hqueued⟩
  | @admitted a c t hctx hfresh hmessage hrow hc ht =>
    rw [ht, Function.update_apply] at ht'
    split at ht'
    · rename_i hid
      exact .inr (hid ▸ hfresh)
    · exact .inl ⟨t', ht', rfl, .inl hqueued⟩
  | wroteTask hctx _ htask _ ht =>
    exact .inl (hset htask ht rfl fun h => .inl ((hmove _ _ hctx htask).unqueued h))
  | retried htask hctx _ hactive _ _ _ _ _ ht =>
    exact .inl (hset htask ht rfl fun _ => .inr ⟨_, hctx, hactive⟩)
  | failed htask _ _ _ _ _ ht => exact .inl (hset htask ht rfl fun h => by cases h)
  | activated _ _ _ htask _ _ _ ht => exact .inl (hset htask ht rfl fun h => by cases h)
  | canceled htask _ _ ht => exact .inl (hset htask ht rfl fun h => by cases h)
  | cancelRequested htask _ _ _ ht => exact .inl (hset htask ht rfl fun h => .inl h)

end ManagedAgents.Controller
