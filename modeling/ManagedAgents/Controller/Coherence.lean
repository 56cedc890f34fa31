import ManagedAgents.Controller.Store

/-!
What a worker knows is true while its lease lasts.

Leases are told apart by their claims, which are never drawn twice. As long as a context's row
carries a worker's claim, the row's fenced columns are what the worker knows, whatever the other
workers and the clients do. With that, every call the contract allows is a move of the store.
-/

namespace ManagedAgents.Controller

open ManagedAgents.Lib

/-- What the worker knows agrees with the context's row and the tasks. -/
structure Known.Current (k : Known) (contextId : ContextId) (v : ContextView)
    (tasks : TaskId → Option TaskRow) : Prop where
  kept : k.lost = false
  view : ∀ {w}, k.view = .seen w → w = v
  task : ∀ {t}, k.task = some t → k.view = .seen v ∧ v.activeTaskId = some t.taskId ∧
    ∃ row, tasks t.taskId = some row ∧ row.view = t
  finished : k.finished = true → k.view ≠ .unread ∧ ∀ {taskId row}, k.view = .seen v →
    v.activeTaskId = some taskId → tasks taskId = some row → row.internalState = .terminal
  picked : ∀ {p}, k.picked = some p → v.activeTaskId ≠ some p.taskId ∧
    (∃ row, tasks p.taskId = some row ∧ row.contextId = contextId ∧ row.sequence = p.sequence ∧
      (row.internalState = .queued ∨ row.internalState = .terminal)) ∧
    ∀ taskId u, tasks taskId = some u → u.contextId = contextId → u.internalState = .queued →
      p.sequence ≤ u.sequence

/-- While the context's row carries the worker's claim, what it knows is current; before it has
a lease it knows nothing. -/
structure Known.Agrees (k : Known) (db : Db) : Prop where
  blank : k.lease = none → k.view = .unread ∧ k.task = none ∧ k.lost = false ∧
    k.picked = none ∧ k.finished = false
  current : ∀ {contextId claim c}, k.lease = some (contextId, claim) →
    db.context contextId = some c → c.schedulerClaimId = some claim →
    k.Current contextId c.view db.task

/-- The claim a query is fenced with. -/
def Query.claim? : Query → Option ClaimId
  | .releaseScheduler _ claim | .updateContext _ claim _ | .updateTask _ _ claim _
  | .resolveHeldTask _ claim _ | .activateTask _ _ claim _ | .addInputRequest _ _ _ _ claim
  | .addClarificationRequest _ _ _ _ claim | .recordPolicyDecision _ _ claim _ _
  | .recordHumanReview _ _ claim _ _ | .markClarificationAttempted _ _ claim
  | .denyCancelledInputRequest _ _ claim | .resolveInputRequest _ _ claim
  | .markConfirmationAttempted _ _ claim => some claim
  | _ => none

/-! ### What others do -/

/-- A change of the tasks that the holder of the context's lease cannot tell. -/
structure Undisturbed (contextId : ContextId) (tasks tasks' : TaskId → Option TaskRow) :
    Prop where
  kept : ∀ {taskId t}, tasks taskId = some t → t.contextId = contextId →
    ∃ t', tasks' taskId = some t' ∧ t'.contextId = contextId ∧ t'.sequence = t.sequence ∧
      t'.view = t.view ∧ (t.internalState = .terminal → t'.internalState = .terminal) ∧
      (t.internalState = .queued → t'.internalState = .queued ∨ t'.internalState = .terminal)
  queue : ∀ {taskId u'}, tasks' taskId = some u' → u'.contextId = contextId →
    u'.internalState = .queued →
    (∃ u, tasks taskId = some u ∧ u.contextId = contextId ∧ u.internalState = .queued ∧
      u.sequence = u'.sequence) ∨
    ∀ taskId t, tasks taskId = some t → t.contextId = contextId → t.sequence ≤ u'.sequence

variable {db db' : Db} {fresh : ℕ} {k : Known} {contextId : ContextId} {claim : ClaimId}
  {v : ContextView} {tasks tasks' : TaskId → Option TaskRow} {q : Query} {taskId : TaskId}
  {t t' : TaskRow}

lemma Undisturbed.refl : Undisturbed contextId tasks tasks :=
  ⟨fun ht hof => ⟨_, ht, hof, rfl, rfl, id, .inl⟩,
    fun hu hof hqueued => .inl ⟨_, hu, hof, hqueued, rfl⟩⟩

/-- A task of another context changes. -/
lemma Undisturbed.elsewhere (ht : tasks taskId = some t) (hof : t.contextId ≠ contextId)
    (hof' : t'.contextId ≠ contextId) :
    Undisturbed contextId tasks (Function.update tasks taskId (some t')) := by
  constructor
  · intro taskId₁ t₁ ht₁ hof₁
    have hne : taskId₁ ≠ taskId := by
      rintro rfl
      rw [ht, Option.some.injEq] at ht₁
      exact hof (ht₁ ▸ hof₁)
    exact ⟨t₁, by rw [Function.update_of_ne hne]; exact ht₁, hof₁, rfl, rfl, id, .inl⟩
  · intro taskId₁ u hu hof₁ hqueued
    have hne : taskId₁ ≠ taskId := by
      rintro rfl
      rw [Function.update_self, Option.some.injEq] at hu
      exact hof' (hu ▸ hof₁)
    rw [Function.update_of_ne hne] at hu
    exact .inl ⟨u, hu, hof₁, hqueued, rfl⟩

/-- A task changes in columns nobody remembers, or leaves the queue for good. -/
lemma Undisturbed.same (ht : tasks taskId = some t) (hid : t'.contextId = t.contextId)
    (hseq : t'.sequence = t.sequence) (hview : t'.view = t.view)
    (hstate : t'.internalState = t.internalState ∨
      t.internalState = .queued ∧ t'.internalState = .terminal) :
    Undisturbed contextId tasks (Function.update tasks taskId (some t')) := by
  constructor
  · intro taskId₁ t₁ ht₁ hof₁
    by_cases hne : taskId₁ = taskId
    · subst hne
      rw [ht, Option.some.injEq] at ht₁
      subst ht₁
      refine ⟨t', Function.update_self _ _ _, hid.trans hof₁, hseq, hview, ?_, ?_⟩
      · rcases hstate with h | ⟨h, h'⟩ <;> simp [h]
      · rcases hstate with h | ⟨h, h'⟩
        · exact fun hq => .inl (h.trans hq)
        · exact fun _ => .inr h'
    · exact ⟨t₁, by rw [Function.update_of_ne hne]; exact ht₁, hof₁, rfl, rfl, id, .inl⟩
  · intro taskId₁ u hu hof₁ hqueued
    by_cases hne : taskId₁ = taskId
    · subst hne
      rw [Function.update_self, Option.some.injEq] at hu
      subst hu
      refine .inl ⟨t, ht, hid ▸ hof₁, ?_, hseq.symm⟩
      rcases hstate with h | ⟨h, h'⟩
      · exact h ▸ hqueued
      · exact h
    · rw [Function.update_of_ne hne] at hu
      exact .inl ⟨u, hu, hof₁, hqueued, rfl⟩

/-- A task is added behind those there are. -/
lemma Undisturbed.added (hnone : tasks taskId = none)
    (hlast : ∀ taskId u, tasks taskId = some u → u.contextId = t.contextId →
      u.sequence ≤ t.sequence) :
    Undisturbed contextId tasks (Function.update tasks taskId (some t)) := by
  constructor
  · intro taskId₁ t₁ ht₁ hof₁
    have hne : taskId₁ ≠ taskId := by
      rintro rfl
      rw [hnone] at ht₁
      cases ht₁
    exact ⟨t₁, by rw [Function.update_of_ne hne]; exact ht₁, hof₁, rfl, rfl, id, .inl⟩
  · intro taskId₁ u hu hof₁ hqueued
    by_cases hne : taskId₁ = taskId
    · rw [hne, Function.update_self, Option.some.injEq] at hu
      subst hu
      exact .inr fun taskId₂ u hu hof => hlast taskId₂ u hu (hof.trans hof₁.symm)
    · rw [Function.update_of_ne hne] at hu
      exact .inl ⟨u, hu, hof₁, hqueued, rfl⟩

lemma Known.Current.undisturbed (h : k.Current contextId v tasks)
    (hactive : ∀ taskId, v.activeTaskId = some taskId →
      ∃ t, tasks taskId = some t ∧ t.contextId = contextId)
    (hu : Undisturbed contextId tasks tasks') : k.Current contextId v tasks' where
  kept := h.kept
  view := h.view
  task := by
    intro t ht
    obtain ⟨hview, hactive', row, hrow, hrt⟩ := h.task ht
    obtain ⟨row', hrow', hof⟩ := hactive _ hactive'
    rw [hrow, Option.some.injEq] at hrow'
    subst hrow'
    obtain ⟨t', ht', -, -, hsame, -⟩ := hu.kept hrow hof
    exact ⟨hview, hactive', t', ht', hsame.trans hrt⟩
  finished := by
    intro hfin
    refine ⟨(h.finished hfin).1, fun {taskId row} hview hactive' hrow => ?_⟩
    obtain ⟨t, ht, hof⟩ := hactive _ hactive'
    obtain ⟨t', ht', -, -, -, hterminal, -⟩ := hu.kept ht hof
    rw [hrow, Option.some.injEq] at ht'
    subst ht'
    exact hterminal ((h.finished hfin).2 hview hactive' ht)
  picked := by
    intro p hp
    obtain ⟨hidle, ⟨row, hrow, hof, hseq, hstate⟩, hmin⟩ := h.picked hp
    obtain ⟨t', ht', hof', hseq', -, hterminal, hqueued⟩ := hu.kept hrow hof
    refine ⟨hidle, ⟨t', ht', hof', hseq'.trans hseq, hstate.elim hqueued (.inr ∘ hterminal)⟩, ?_⟩
    intro taskId u hu' hofu hq
    rcases hu.queue hu' hofu hq with ⟨w, hw, hofw, hqw, hseqw⟩ | hlast
    · exact hseqw ▸ hmin taskId w hw hofw hqw
    · exact hseq ▸ hlast _ row hrow hof

/-- A move of a task by another context's holder. -/
lemma TaskMove.elsewhere {f : TaskFields} {c : ContextRow} (hmove : TaskMove c t f)
    (hwf : db.WellFormed) (hctx : db.context c.contextId = some c) (htask : db.task taskId = some t)
    (hne : c.contextId ≠ contextId) :
    Undisturbed contextId db.task (Function.update db.task taskId (some (t.set f))) := by
  have hid := Db.task_id htask
  have hof : c.activeTaskId = some t.taskId → t.contextId = c.contextId := by
    intro hactive
    obtain ⟨t', ht', hof, -⟩ := hwf.active hctx (hid ▸ hactive)
    rw [htask, Option.some.injEq] at ht'
    exact ht' ▸ hof
  have helsewhere : t.contextId = c.contextId →
      Undisturbed contextId db.task (Function.update db.task taskId (some (t.set f))) := by
    intro h
    have h' : (t.set f).contextId ≠ contextId := by
      change t.contextId ≠ contextId
      rwa [h]
    exact .elsewhere htask h' h'
  cases hmove with
  | hold hf =>
    rw [TaskFields.set_isHold hf]
    exact .same htask rfl rfl rfl (.inl rfl)
  | bind eventId hactive hnew => exact helsewhere (hof hactive)
  | status humanPending hactive => exact helsewhere (hof hactive)
  | interrupting now hactive => exact helsewhere (hof hactive)
  | finish hactive hfinal => exact helsewhere (hof hactive)
  | drop hof' hfree hfailed hstate => exact helsewhere hof'

/-- **Fencing.** A move that another makes changes nothing the holder of the lease can tell. -/
theorem CoreEffect.other {c' : ContextRow} (heff : CoreEffect fresh db db' q)
    (hwf : db.WellFormed) (hmove : db.Move q) (hctx : db'.context contextId = some c')
    (hclaim : c'.schedulerClaimId = some claim) (hfresh : claim < fresh)
    (hq : q.claim? ≠ some claim) :
    ∃ c, db.context contextId = some c ∧ c.schedulerClaimId = some claim ∧ c.view = c'.view ∧
      Undisturbed contextId db.task db'.task := by
  have hhome := @hwf.home
  cases heff with
  | same hc ht =>
    rw [hc] at hctx
    rw [ht]
    exact ⟨c', hctx, hclaim, rfl, .refl⟩
  | opened hnew hrow hc ht =>
    rw [hc, Function.update_apply] at hctx
    rw [ht]
    split at hctx
    · cases hctx
      rw [hrow] at hclaim
      cases hclaim
    · exact ⟨c', hctx, hclaim, rfl, .refl⟩
  | @admitted a c t hctx' hnone hmessage hrow hc ht =>
    have hadded : Undisturbed contextId db.task db'.task := by
      rw [ht]
      refine .added hnone fun taskId u hu hof => ?_
      obtain ⟨c₁, hc₁, hlt⟩ := hhome hu
      rw [hrow] at hof ⊢
      change u.contextId = c.contextId at hof
      change u.sequence ≤ c.nextSequence + 1 - 1
      rw [hof] at hc₁
      rcases hctx' with hctx' | ⟨hctx', -⟩ <;> rw [hctx'] at hc₁ <;> cases hc₁
      omega
    rw [hc, Function.update_apply] at hctx
    split at hctx
    · rename_i hid
      subst hid
      cases hctx
      rcases hctx' with hctx' | ⟨-, hrow'⟩
      · exact ⟨c, hctx', hclaim, rfl, hadded⟩
      · rw [hrow'] at hclaim
        cases hclaim
    · exact ⟨c', hctx, hclaim, rfl, hadded⟩
  | claimed hctx' hfree hc ht =>
    rw [hc, Function.update_apply] at hctx
    rw [ht]
    split at hctx
    · cases hctx
      cases hclaim
      exact absurd hfresh (Nat.lt_irrefl _)
    · exact ⟨c', hctx, hclaim, rfl, .refl⟩
  | released hctx' hheld hc ht =>
    rw [hc, Function.update_apply] at hctx
    rw [ht]
    split at hctx
    · cases hctx
      cases hclaim
    · exact ⟨c', hctx, hclaim, rfl, .refl⟩
  | @wroteContext contextId₁ claim₁ f c hctx' hheld hcheck hc ht =>
    rw [hc, Function.update_apply] at hctx
    rw [ht]
    split at hctx
    · cases hctx
      exact absurd ((ContextRow.holds_claim hheld).symm.trans hclaim) hq
    · exact ⟨c', hctx, hclaim, rfl, .refl⟩
  | @wroteTask taskId contextId₁ claim₁ f c t hctx' hheld htask hc ht =>
    rw [hc] at hctx
    rw [ht]
    have hid := Db.context_id hctx'
    have hne : c.contextId ≠ contextId := by
      rw [hid]
      rintro rfl
      rw [hctx', Option.some.injEq] at hctx
      subst hctx
      exact hq ((ContextRow.holds_claim hheld).symm.trans hclaim)
    exact ⟨c', hctx, hclaim, rfl,
      (hmove c t hctx' htask).elsewhere hwf (hid.symm ▸ hctx') htask hne⟩
  | @retried taskId claim₁ c t htask hctx' hheld hactive hlive hunbound hsession hcancel hc ht =>
    rw [hc, Function.update_apply] at hctx
    rw [ht]
    split at hctx
    · cases hctx
      exact absurd ((ContextRow.holds_claim hheld).symm.trans hclaim) hq
    · rename_i hne
      exact ⟨c', hctx, hclaim, rfl, .elsewhere htask (Ne.symm hne) (Ne.symm hne)⟩
  | @failed taskId claim₁ c t htask hctx' hheld hactive hlive hc ht =>
    rw [hc, Function.update_apply] at hctx
    rw [ht]
    split at hctx
    · cases hctx
      exact absurd ((ContextRow.holds_claim hheld).symm.trans hclaim) hq
    · rename_i hne
      exact ⟨c', hctx, hclaim, rfl, .elsewhere htask (Ne.symm hne) (Ne.symm hne)⟩
  | @activated contextId₁ taskId claim₁ predecessor c t hctx' hheld hfree htask hof hqueued hc ht =>
    rw [hc, Function.update_apply] at hctx
    rw [ht]
    split at hctx
    · cases hctx
      exact absurd ((ContextRow.holds_claim hheld).symm.trans hclaim) hq
    · rename_i hne
      have hne' : t.contextId ≠ contextId := by
        rw [hof]
        exact Ne.symm hne
      exact ⟨c', hctx, hclaim, rfl, .elsewhere htask hne' hne'⟩
  | canceled htask hqueued hc ht =>
    rw [hc] at hctx
    rw [ht]
    exact ⟨c', hctx, hclaim, rfl, .same htask rfl rfl rfl (.inr ⟨hqueued, rfl⟩)⟩
  | cancelRequested htask hqueued hlive hc ht =>
    rw [hc] at hctx
    rw [ht]
    exact ⟨c', hctx, hclaim, rfl, .same htask rfl rfl rfl (.inl rfl)⟩

/-! ### What a worker does itself -/

namespace Known

variable {r : Except Exn q.Reply} {c : ContextRow}

lemma Agrees.frame (h : k.Agrees db) (hc : db'.context = db.context) (ht : db'.task = db.task) :
    k.Agrees db' :=
  ⟨h.blank, fun hl hctx hclaim => ht ▸ h.current hl (hc ▸ hctx) hclaim⟩

/-- Only some of what a worker remembers is about the context's row and its tasks. -/
lemma Agrees.unseen (h : k.Agrees db) {listing sent permit rows verdict} :
    Agrees { k with listing, sent, permit, rows, verdict } db where
  blank := h.blank
  current hl hctx hclaim :=
    have h := h.current hl hctx hclaim
    ⟨h.kept, h.view, h.task, h.finished, h.picked⟩

lemma Current.forget (h : k.Current contextId v tasks) {v' : ContextView} :
    k.forget.Current contextId v' tasks' where
  kept := h.kept
  view hv := by cases hv
  task ht := by cases ht
  finished _ := ⟨nofun, nofun⟩
  picked hp := by cases hp

/-- As long as nothing was read there is nothing to go stale. -/
lemma Current.unread (h : k.Current contextId v tasks) (hview : k.view = .unread)
    (hpicked : k.picked = none) {v' : ContextView} : k.Current contextId v' tasks' where
  kept := h.kept
  view hv := by rw [hview] at hv; cases hv
  task ht := by
    have hseen := (h.task ht).1
    rw [hview] at hseen
    cases hseen
  finished hfin := absurd hview (h.finished hfin).1
  picked hp := by rw [hpicked] at hp; cases hp

lemma Agrees.forget (h : k.Agrees db) (hl : k.lease ≠ none) : k.forget.Agrees db :=
  ⟨fun hnone => absurd hnone hl, fun hl hctx hclaim => (h.current hl hctx hclaim).forget⟩

lemma Current.readContext (h : k.Current contextId v tasks) {row : Option ContextRow}
    (hrow : row.map (·.view) = some v) : (k.readContext row).Current contextId v tasks := by
  unfold Known.readContext
  cases hview : k.view with
  | unread =>
    cases row with
    | none => cases hrow
    | some c =>
      cases hrow
      refine ⟨h.kept, fun hv => by cases hv; rfl, fun ht => ?_, fun hfin => ?_, h.picked⟩
      · have hseen := (h.task ht).1
        rw [hview] at hseen
        cases hseen
      · exact absurd hview (h.finished hfin).1
  | seen w =>
    have hw := h.view hview
    subst hw
    simpa [hrow] using h
  | lapsed => exact h

lemma Current.readTask (h : k.Current contextId v tasks) (taskId : TaskId)
    (hid : ∀ t, tasks taskId = some t → t.taskId = taskId) :
    (k.readTask taskId (tasks taskId)).Current contextId v tasks := by
  unfold Known.readTask
  cases htask : k.task with
  | none =>
    cases hview : k.view with
    | seen w =>
      have hw := h.view hview
      subst hw
      cases hrow : tasks taskId with
      | none => exact h
      | some t =>
        dsimp only
        split
        · rename_i hactive
          have hcur := @h.view
          have hfin := h.finished
          rw [hview] at hcur hfin
          refine ⟨h.kept, hcur, fun ht => ?_, hfin, h.picked⟩
          cases ht
          have hsame : t.view.taskId = taskId := hid t hrow
          rw [hsame]
          exact ⟨rfl, hactive, t, hrow, rfl⟩
        · exact h
    | unread => exact h
    | lapsed => exact h
  | some t =>
    obtain ⟨-, -, row, hrow, hrt⟩ := h.task htask
    dsimp only
    split
    · rename_i hdiffers
      obtain ⟨rfl, hdiffers⟩ := hdiffers
      rw [hrow] at hdiffers
      exact absurd (congrArg some hrt) hdiffers
    · exact h

lemma Current.wroteContext {c : ContextRow} {f : ContextFields}
    (h : k.Current contextId c.view tasks) (hseen : k.view = .seen c.view)
    (hwrite : k.ContextWrite c.view f) :
    (k.wroteContext f).Current contextId (c.set f).view tasks := by
  have hview : (k.wroteContext f).view = .seen (c.set f).view := by
    simp only [Known.wroteContext, hseen, ContextRow.view_set]
  refine ⟨by rw [wroteContext_lost]; exact h.kept, fun hv => ?_, fun ht => ?_, fun hfin => ?_,
    fun {p} hp => ?_⟩
  · rw [hview] at hv
    cases hv
    rfl
  · cases hwrite with
    | clear => simp [Known.wroteContext, hseen] at ht
    | _ =>
      simp only [Known.wroteContext, hseen] at ht
      obtain ⟨-, hactive, hrow⟩ := h.task ht
      exact ⟨hview, hactive, hrow⟩
  · refine ⟨by rw [hview]; rintro ⟨⟩, fun _ hactive hrow => ?_⟩
    have hfin' : k.finished = true := by simpa [Known.wroteContext, hseen] using hfin
    cases hwrite with
    | clear => cases hactive
    | _ => exact (h.finished hfin').2 hseen hactive hrow
  · have hp' : k.picked = some p := by simpa [Known.wroteContext, hseen] using hp
    obtain ⟨hidle, hrest⟩ := h.picked hp'
    refine ⟨?_, hrest⟩
    cases hwrite with
    | clear => rintro ⟨⟩
    | _ => exact hidle

/-- A write to the active task, or to the queued one picked when there is none. -/
lemma TaskWrite.target {f : TaskFields} (h : k.TaskWrite v taskId f) :
    v.activeTaskId = some taskId ∨
      v.activeTaskId = none ∧ f.internalState = some .terminal ∧
        ∃ p, k.picked = some p ∧ p.taskId = taskId := by
  cases h with
  | bind hactive => exact .inl hactive
  | status humanPending hactive => exact .inl hactive
  | interrupting hactive => exact .inl hactive
  | finish hactive => exact .inl hactive
  | drop hnone hfailed hpicked => exact .inr ⟨hnone, rfl, _, hpicked, rfl⟩

lemma TaskWrite.leaves {f : TaskFields} (h : k.TaskWrite v taskId f) (t : TaskRow) :
    (t.set f).internalState ≠ .queued := by
  cases h with
  | status humanPending => cases humanPending <;> nofun
  | _ => nofun

lemma Current.wroteTask {f : TaskFields} (h : k.Current contextId v tasks)
    (hseen : k.view = .seen v) (hfin : k.finished = false) (htask : tasks taskId = some t)
    (hwrite : k.TaskWrite v taskId f) :
    (k.wroteTask f).Current contextId v (Function.update tasks taskId (some (t.set f))) := by
  have htarget := hwrite.target
  refine ⟨h.kept, h.view, fun {t₁} ht₁ => ?_,
    fun hfin' => ⟨by rw [Known.wroteTask, hseen]; nofun, ?_⟩,
    fun {p} hp => ?_⟩
  · obtain ⟨t₀, ht₀, rfl⟩ := Option.map_eq_some_iff.mp ht₁
    obtain ⟨-, hactive, row, hrow, hrt⟩ := h.task ht₀
    rcases htarget with htarget | ⟨htarget, -⟩
    · rw [hactive, Option.some.injEq] at htarget
      subst htarget
      rw [htask, Option.some.injEq] at hrow
      subst hrow
      exact ⟨hseen, hactive, _, Function.update_self _ _ _, by rw [TaskRow.view_set, hrt]⟩
    · rw [hactive] at htarget
      cases htarget
  · intro taskId₁ row _ hactive hrow
    rcases htarget with htarget | ⟨htarget, -⟩
    · rw [hactive, Option.some.injEq] at htarget
      rw [htarget, Function.update_self, Option.some.injEq] at hrow
      have hf : f.internalState = some .terminal := by simpa [Known.wroteTask, hfin] using hfin'
      rw [← hrow]
      simp [TaskRow.set, hf]
    · rw [hactive] at htarget
      cases htarget
  · obtain ⟨hidle, ⟨row, hrow, hof, hseq, hstate⟩, hmin⟩ := h.picked hp
    refine ⟨hidle, ?_, fun taskId₁ u hu hofu hq => ?_⟩
    · by_cases hsame : p.taskId = taskId
      · rcases htarget with htarget | ⟨-, hf, -⟩
        · exact absurd (hsame ▸ htarget) hidle
        · rw [hsame] at hrow ⊢
          rw [htask, Option.some.injEq] at hrow
          subst hrow
          exact ⟨_, Function.update_self _ _ _, hof, hseq, .inr (by simp [TaskRow.set, hf])⟩
      · exact ⟨row, by rw [Function.update_of_ne hsame]; exact hrow, hof, hseq, hstate⟩
    · by_cases hsame : taskId₁ = taskId
      · rw [hsame, Function.update_self, Option.some.injEq] at hu
        exact absurd (hu ▸ hq) (hwrite.leaves t)
      · rw [Function.update_of_ne hsame] at hu
        exact hmin taskId₁ u hu hofu hq

/-- The context's row carries the claim a fenced write was made with. -/
lemma Agrees.held (h : k.Agrees db) {c : ContextRow} (hl : k.holdsLease contextId claim)
    (hctx : db.context contextId = some c) (hheld : c.holds claim db.now = true) :
    k.Current contextId c.view db.task :=
  h.current hl hctx (ContextRow.holds_claim hheld)

/-- What the contract allows is a move, when the store takes it. -/
lemma Agrees.move (h : k.Agrees db) {v : q.Reply} (hallow : k.allowedQuery q)
    (hrun : q.run fresh db = .ok (v, db')) : db.Move q := by
  cases q with
  | updateContext contextId claim f =>
    obtain ⟨hl, hwrite⟩ := hallow
    obtain ⟨c, hctx, hheld, -⟩ := updateContext_ok hrun
    have hcur := h.held hl hctx hheld
    intro c' hc'
    rw [hctx, Option.some.injEq] at hc'
    subst hc'
    rcases hwrite with hlost | ⟨v, hseen, hwrite⟩
    · rw [hcur.kept] at hlost
      cases hlost
    · have hv := hcur.view hseen
      subst hv
      cases hwrite with
      | session sessionId hnone hactive => exact .session sessionId hnone hactive
      | failed hactive => exact .failed hactive
      | clear hfinished hstarted =>
        exact .clear (fun _ _ => (hcur.finished hfinished).2 hseen) hstarted
  | updateTask taskId contextId claim f =>
    obtain ⟨hl, hwrite⟩ := hallow
    obtain ⟨c, t, hctx, hheld, htask, -⟩ := updateTask_ok hrun
    have hcur := h.held hl hctx hheld
    intro c' t' hc' ht'
    rw [hctx, Option.some.injEq] at hc'
    rw [htask, Option.some.injEq] at ht'
    subst hc' ht'
    have hid := Db.task_id htask
    rcases hwrite with hhold | hlost | ⟨hfin, v, hseen, hwrite⟩
    · exact .hold hhold
    · rw [hcur.kept] at hlost
      cases hlost
    · have hv := hcur.view hseen
      subst hv
      cases hwrite with
      | @bind t₀ sessionId eventId hactive hsession htask₀ hnew hevent =>
        obtain ⟨-, -, row, hrow, hrt⟩ := hcur.task htask₀
        rw [htask, Option.some.injEq] at hrow
        subst hrow
        refine .bind eventId (hid.symm ▸ hactive) ?_
        rw [← hrt] at hnew
        exact hnew
      | status humanPending hactive => exact .status humanPending (hid.symm ▸ hactive)
      | interrupting hactive => exact .interrupting _ (hid.symm ▸ hactive)
      | finish hactive htask₀ hfinal hend => exact .finish (hid.symm ▸ hactive) hfinal
      | drop hnone hfailed hpicked =>
        obtain ⟨-, ⟨row, hrow, hof, -, hstate⟩, -⟩ := hcur.picked hpicked
        rw [htask, Option.some.injEq] at hrow
        subst hrow
        exact .drop (hof.trans (Db.context_id hctx).symm) hnone hfailed hstate
  | activateTask contextId taskId claim predecessor =>
    obtain ⟨hl, hfin, v, hseen, hfree, hlive, ⟨p, hpicked, hp⟩, hstarts⟩ := hallow
    obtain ⟨c, t, hctx, hheld, hfree', htask, -⟩ := activateTask_ok hrun
    have hcur := h.held hl hctx hheld
    intro c' t' hc' ht'
    rw [hctx, Option.some.injEq] at hc'
    rw [htask, Option.some.injEq] at ht'
    subst hc' ht'
    have hv := hcur.view hseen
    subst hv
    obtain ⟨-, ⟨row, hrow, -, hseq, -⟩, hmin⟩ := hcur.picked hpicked
    rw [hp, htask, Option.some.injEq] at hrow
    subst hrow
    refine ⟨hlive, fun hnone => ?_, fun taskId' u hu hof hq => hseq ▸ hmin taskId' u hu hof hq⟩
    have hnone' : c.view.cmaSessionId = none := hnone
    simpa only [Starts, hnone'] using hstarts
  | _ => trivial

/-- **Own steps.** What a worker knows stays current through the queries it makes. -/
theorem Agrees.ask (h : k.Agrees db) (hwf : db.WellFormed) {v : q.Reply}
    {r : Except Exn q.Reply} (hallow : k.allowedQuery q) (hrun : q.run fresh db = .ok (v, db'))
    (hr : r = .ok v ∨ r = .error .other) : (k.learnQuery q r).Agrees db' := by
  cases q with
  | admitTurn | cancelTask | recordHumanRuling => exact hallow.elim
  | getContext contextId =>
    cases hrun
    rcases hr with rfl | rfl
    · obtain ⟨claim, hl⟩ := hallow
      obtain ⟨view, lost, hk, -⟩ := k.readContext_cases (db.contexts.get? contextId)
      change (k.readContext _).Agrees db
      refine ⟨fun hnone => ?_, fun {contextId' claim' c} hl' hctx hclaim => ?_⟩
      · rw [hk] at hnone
        cases hl.symm.trans hnone
      · have hl'' : k.lease = some (contextId', claim') := by rwa [hk] at hl'
        have hsame := hl.symm.trans hl''
        cases hsame
        refine (h.current hl'' hctx hclaim).readContext ?_
        change (db.context contextId).map _ = _
        rw [hctx, Option.map_some]
    · exact h
  | getTask taskId =>
    cases hrun
    rcases hr with rfl | rfl
    · obtain ⟨task, lost, hk, -⟩ := k.readTask_cases taskId (db.tasks.get? taskId)
      change (k.readTask taskId _).Agrees db
      refine ⟨fun hnone => ?_, fun hl hctx hclaim => ?_⟩
      · have hnone' : k.lease = none := by rwa [hk] at hnone
        obtain ⟨hview, htask, hrest⟩ := h.blank hnone'
        simpa [Known.readTask, htask, hview] using hrest
      · rw [hk] at hl
        exact (h.current hl hctx hclaim).readTask taskId fun _ => Db.task_id
    · exact h
  | claimScheduler contextId =>
    obtain ⟨hview, htask, hlost, hpicked, hfin⟩ := h.blank hallow
    have hblank : ∀ {lease contextId' v'},
        Known.Current { k with lease := lease } contextId' v' db'.task := by
      intro lease contextId' v'
      refine ⟨hlost, fun hv => ?_, fun ht => ?_, fun hf => ?_, fun hp => ?_⟩
      · cases hview.symm.trans hv
      · cases htask.symm.trans ht
      · cases hfin.symm.trans hf
      · cases hpicked.symm.trans hp
    have hquiet : k.Agrees db' :=
      ⟨h.blank, fun hl => (by cases hl.symm.trans hallow)⟩
    rcases hr with rfl | rfl
    · cases v with
      | none => exact hquiet
      | some claim => exact ⟨by rintro ⟨⟩, fun _ _ _ => hblank⟩
    · exact hquiet
  | releaseScheduler contextId claim =>
    have hkeep : k.learnQuery (.releaseScheduler contextId claim) r = k := by
      rcases hr with rfl | rfl <;> rfl
    rw [hkeep]
    have heff := Query.run_effect hrun
    cases heff with
    | same hc ht => exact h.frame hc ht
    | released hctx hheld hc ht =>
      refine ⟨h.blank, fun hl hctx' hclaim => ?_⟩
      cases hallow.symm.trans hl
      rw [hc, Function.update_self] at hctx'
      cases hctx'
      cases hclaim
  | updateContext contextId claim f =>
    obtain ⟨c, hctx, hheld, -, rfl, hc, ht⟩ := updateContext_ok hrun
    obtain ⟨hl, hwrite⟩ := hallow
    have hcur := h.held hl hctx hheld
    rcases hr with rfl | rfl
    · obtain ⟨v, hseen, hwrite⟩ := hwrite.resolve_left (by simp [hcur.kept])
      have hv := hcur.view hseen
      subst hv
      have hlease : (k.wroteContext f).lease = some (contextId, claim) :=
        (wroteContext_lease k f).trans hl
      change (k.wroteContext f).Agrees db'
      refine ⟨fun hnone => (by cases hlease.symm.trans hnone), fun hl' hctx' hclaim => ?_⟩
      · cases hlease.symm.trans hl'
        rw [hc, Function.update_self] at hctx'
        cases hctx'
        rw [ht]
        exact hcur.wroteContext hseen hwrite
    · refine ⟨fun hnone => (by cases hl.symm.trans hnone), fun hl' hctx' hclaim => ?_⟩
      cases hl.symm.trans hl'
      exact hcur.forget
  | updateTask taskId contextId claim f =>
    obtain ⟨c, t, hctx, hheld, htask, rfl, hc, ht⟩ := updateTask_ok hrun
    obtain ⟨hl, hwrite⟩ := hallow
    have hcur := h.held hl hctx hheld
    have hactive : ∀ taskId, c.view.activeTaskId = some taskId →
        ∃ t, db.task taskId = some t ∧ t.contextId = contextId := by
      intro taskId hactive
      obtain ⟨t, ht, hof, -⟩ := hwf.active hctx hactive
      exact ⟨t, ht, hof⟩
    have hown : ∀ {k' : Known}, k'.lease = k.lease → k'.Current contextId c.view db'.task →
        k'.Agrees db' := by
      intro k' hlease hcur'
      refine ⟨fun hnone => ?_, fun hl' hctx' hclaim => ?_⟩
      · rw [hlease] at hnone
        cases hl.symm.trans hnone
      · rw [hlease] at hl'
        cases hl.symm.trans hl'
        rw [hc, hctx] at hctx'
        cases hctx'
        exact hcur'
    rcases hhold : f.isHold with _ | _
    · obtain ⟨hfin, v, hseen, hwrite⟩ :=
        (hwrite.resolve_left (by simp [hhold])).resolve_left (by simp [hcur.kept])
      have hv := hcur.view hseen
      subst hv
      rcases hr with rfl | rfl
      · simp only [learnQuery, hhold]
        exact hown rfl (ht ▸ hcur.wroteTask hseen hfin htask hwrite)
      · simp only [learnQuery, hhold]
        exact hown rfl hcur.forget
    · have hkeep : k.learnQuery (.updateTask taskId contextId claim f) r = k := by
        rcases hr with rfl | rfl <;> simp [learnQuery, hhold]
      rw [hkeep]
      refine hown rfl (hcur.undisturbed hactive ?_)
      rw [ht, TaskFields.set_isHold hhold]
      exact .same htask rfl rfl rfl (.inl rfl)
  | resolveHeldTask taskId claim resolution =>
    obtain ⟨⟨contextId, hl⟩, hview, hpicked⟩ := hallow
    have hkeep : k.learnQuery (.resolveHeldTask taskId claim resolution) r = k := by
      rcases hr with rfl | rfl <;> rfl
    rw [hkeep]
    have heff := Query.run_effect hrun
    refine ⟨h.blank, fun hl' hctx' hclaim => ?_⟩
    cases heff with
    | same hc ht => exact (h.frame hc ht).current hl' hctx' hclaim
    | @retried _ _ c t htask hctx hheld _ _ _ _ _ hc ht =>
      rw [hc, Function.update_apply] at hctx'
      split at hctx'
      · rename_i hid
        cases hctx'
        exact (h.current (c := c) hl' (hid ▸ hctx) hclaim).unread hview hpicked
      · exact (h.current hl' hctx' hclaim).unread hview hpicked
    | @failed _ _ c t htask hctx hheld _ _ hc ht =>
      rw [hc, Function.update_apply] at hctx'
      split at hctx'
      · rename_i hid
        cases hctx'
        exact (h.current (c := c) hl' (hid ▸ hctx) hclaim).unread hview hpicked
      · exact (h.current hl' hctx' hclaim).unread hview hpicked
  | nextQueued contextId =>
    obtain ⟨claim, hl⟩ := hallow
    obtain ⟨rfl, hrow⟩ := nextQueued_ok hrun
    rcases hr with rfl | rfl
    · refine ⟨fun hnone => (by cases hl.symm.trans hnone), fun hl' hctx hclaim => ?_⟩
      cases hl.symm.trans hl'
      have hcur := h.current hl hctx hclaim
      refine ⟨hcur.kept, hcur.view, hcur.task, hcur.finished, fun {p} hp => ?_⟩
      obtain ⟨htask, hof, hqueued, hmin⟩ := hrow p hp
      refine ⟨fun hactive => ?_, ⟨p, htask, hof, rfl, .inl hqueued⟩, hmin⟩
      obtain ⟨t, ht, -, hne⟩ := hwf.active hctx hactive
      rw [htask, Option.some.injEq] at ht
      exact hne (ht ▸ hqueued)
    · exact h
  | activateTask contextId taskId claim predecessor =>
    obtain ⟨hl, hfin, v, hseen, hfree, hlive, -, hstarts⟩ := hallow
    obtain ⟨c, t, hctx, hheld, hfree', htask, -, -, hv, hc, ht⟩ := activateTask_ok hrun
    have hcur := h.held hl hctx hheld
    have hcv := hcur.view hseen
    subst hcv
    rcases hr with rfl | rfl
    · have hid : v.taskId = taskId := by
        have hid := Db.task_id htask
        rw [hv]
        exact hid
      refine ⟨fun hnone => ?_, fun hl' hctx' hclaim => ?_⟩
      · simp only [learnQuery, activated, hseen] at hnone
        cases hl.symm.trans hnone
      · simp only [learnQuery, activated, hseen] at hl' ⊢
        cases hl.symm.trans hl'
        rw [hc, Function.update_self] at hctx'
        cases hctx'
        refine ⟨hcur.kept, fun hv => by cases hv; rw [hid]; rfl, fun ht₀ => ?_,
          fun hf => (by cases hfin.symm.trans hf), by intro _ hp; cases hp⟩
        cases ht₀
        have hid' : v.view.taskId = taskId := hid
        rw [hid', hid, ht]
        exact ⟨rfl, rfl, v, Function.update_self _ _ _, rfl⟩
    · refine ⟨fun hnone => (by cases hl.symm.trans hnone), fun hl' hctx' hclaim => ?_⟩
      cases hl.symm.trans hl'
      exact hcur.forget
  | listInputRequests taskId =>
    cases hrun
    rcases hr with rfl | rfl
    · exact h.unseen
    · exact h
  | markConfirmationAttempted requestId contextId claim =>
    have heff := Query.run_effect hrun
    cases heff with
    | same hc ht =>
      have hsame := h.frame hc ht
      rcases hr with rfl | rfl
      · cases v with
        | true => exact hsame.unseen
        | false => exact hsame
      · exact hsame
  | _ =>
    have heff := Query.run_effect hrun
    cases heff with
    | same hc ht => rcases hr with rfl | rfl <;> exact (h.frame hc ht).unseen

/-- A query that was not committed leaves the worker less certain at most. -/
lemma Agrees.refused (h : k.Agrees db) (hallow : k.allowedQuery q) (e : Exn) :
    (k.learnQuery q (.error e)).Agrees db := by
  cases q with
  | updateContext contextId claim f =>
    exact h.forget fun hnone => absurd (hallow.1.symm.trans hnone) nofun
  | updateTask taskId contextId claim f =>
    simp only [learnQuery]
    split
    · exact h
    · exact h.forget fun hnone => absurd (hallow.1.symm.trans hnone) nofun
  | activateTask contextId taskId claim predecessor =>
    exact h.forget fun hnone => absurd (hallow.1.symm.trans hnone) nofun
  | _ => exact h.unseen

/-- Other calls teach nothing about the store. -/
lemma Agrees.other {c : Call} (h : k.Agrees db) (hc : ∀ q, c ≠ .query q) (r : Except Exn c.Reply) :
    (k.learn c r).Agrees db := by
  cases c with
  | query q => exact absurd rfl (hc q)
  | listEvents | createSession | sendMessage | confirmTool | policyExchange =>
    cases r <;> exact h.unseen
  | _ => exact h

/-- A lease is learned from a claim that was granted. -/
lemma learnQuery_lease {v : q.Reply} {r : Except Exn q.Reply}
    (hrun : q.run fresh db = .ok (v, db')) (hr : r = .ok v ∨ r = .error .other)
    (hl : (k.learnQuery q r).lease = some (contextId, claim)) :
    k.lease = some (contextId, claim) ∨ claim = fresh := by
  cases hplain : plain q with
  | true =>
    obtain ⟨view, task, lost, finished, picked, hk⟩ := learnQuery_plain hplain k r
    rw [hk] at hl
    exact .inl hl
  | false =>
    cases q with
    | claimScheduler contextId' =>
      rcases hr with rfl | rfl
      · rcases claimScheduler_ok hrun with ⟨rfl, -⟩ | ⟨rfl, -⟩
        · exact .inl hl
        · cases hl
          exact .inr rfl
      · exact .inl hl
    | activateTask contextId' taskId claim' predecessor =>
      rcases hr with rfl | rfl
      · simp only [learnQuery, activated] at hl
        split at hl <;> exact .inl hl
      · exact .inl hl
    | markConfirmationAttempted requestId contextId' claim' =>
      rcases hr with rfl | rfl
      · cases v <;> exact .inl hl
      · exact .inl hl
    | listInputRequests | denyCancelledInputRequest => rcases hr with rfl | rfl <;> exact .inl hl
    | _ => cases hplain

lemma learnQuery_lease_error (k : Known) (q : Query) (e : Exn) :
    (k.learnQuery q (.error e)).lease = k.lease := by
  cases hplain : plain q with
  | true =>
    obtain ⟨view, task, lost, finished, picked, hk⟩ := learnQuery_plain hplain k (.error e)
    rw [hk]
  | false => cases q <;> first | rfl | cases hplain

lemma learn_lease_other {c : Call} (k : Known) (hc : ∀ q, c ≠ .query q) (r : Except Exn c.Reply) :
    (k.learn c r).lease = k.lease := by
  cases c with
  | query q => exact absurd rfl (hc q)
  | _ => cases r <;> rfl

/-- A program takes one lease only. -/
lemma learn_lease {c : Call} (hallow : k.allowed c) (hl : k.lease ≠ none)
    (r : Except Exn c.Reply) : (k.learn c r).lease = k.lease := by
  rcases c.query_or with ⟨q, rfl⟩ | hc
  · cases hplain : plain q with
    | true =>
      obtain ⟨view, task, lost, finished, picked, hk⟩ := learnQuery_plain hplain k r
      change (k.learnQuery q r).lease = k.lease
      rw [hk]
    | false =>
      cases q with
      | claimScheduler contextId' => exact absurd hallow hl
      | activateTask contextId' taskId claim' predecessor =>
        cases r with
        | error e => rfl
        | ok t =>
          simp only [learn, learnQuery, activated]
          split <;> rfl
      | markConfirmationAttempted requestId contextId' claim' =>
        rcases r with e | v
        · rfl
        · cases v <;> rfl
      | listInputRequests | denyCancelledInputRequest => cases r <;> rfl
      | _ => cases hplain
  · exact learn_lease_other k hc r

lemma allowedQuery_claim (h : k.allowedQuery q) (hq : q.claim? = some claim) :
    ∃ contextId, k.lease = some (contextId, claim) := by
  cases q <;> cases hq
  case resolveHeldTask => exact h.1
  case releaseScheduler => exact ⟨_, h⟩
  case recordHumanReview => exact ⟨_, h⟩
  case markClarificationAttempted => exact ⟨_, h⟩
  case denyCancelledInputRequest => exact ⟨_, h⟩
  case resolveInputRequest => exact ⟨_, h⟩
  case markConfirmationAttempted => exact ⟨_, h⟩
  all_goals exact ⟨_, h.1⟩

end Known

lemma CoreEffect.claim_cases {c' : ContextRow} (heff : CoreEffect fresh db db' q)
    (hctx : db'.context contextId = some c') (hclaim : c'.schedulerClaimId = some claim) :
    claim = fresh ∧ q = .claimScheduler contextId ∨
      ∃ c, db.context contextId = some c ∧ c.schedulerClaimId = some claim := by
  cases heff with
  | same hc ht | wroteTask _ _ _ hc _ | canceled _ _ hc _ | cancelRequested _ _ _ hc _ =>
    exact .inr ⟨c', hc ▸ hctx, hclaim⟩
  | opened hnew hrow hc ht =>
    rw [hc, Function.update_apply] at hctx
    split at hctx
    · cases hctx
      rw [hrow] at hclaim
      cases hclaim
    · exact .inr ⟨c', hctx, hclaim⟩
  | @admitted a c t hctx' hnone hmessage hrow hc ht =>
    rw [hc, Function.update_apply] at hctx
    split at hctx
    · rename_i hid
      cases hctx
      rcases hctx' with hctx' | ⟨-, hrow'⟩
      · exact .inr ⟨c, hid ▸ hctx', hclaim⟩
      · rw [hrow'] at hclaim
        cases hclaim
    · exact .inr ⟨c', hctx, hclaim⟩
  | claimed hctx' hfree hc ht =>
    rw [hc, Function.update_apply] at hctx
    split at hctx
    · rename_i hid
      cases hctx
      cases hclaim
      exact .inl ⟨rfl, hid ▸ rfl⟩
    · exact .inr ⟨c', hctx, hclaim⟩
  | released hctx' hheld hc ht =>
    rw [hc, Function.update_apply] at hctx
    split at hctx
    · cases hctx
      cases hclaim
    · exact .inr ⟨c', hctx, hclaim⟩
  | @wroteContext _ _ _ c hctx' _ _ hc _ | @retried _ _ c _ _ hctx' _ _ _ _ _ _ hc _
  | @failed _ _ c _ _ hctx' _ _ _ hc _ | @activated _ _ _ _ c _ hctx' _ _ _ _ _ hc _ =>
    rw [hc, Function.update_apply] at hctx
    split at hctx
    · rename_i hid
      cases hctx
      exact .inr ⟨c, hid ▸ hctx', hclaim⟩
    · exact .inr ⟨c', hctx, hclaim⟩

/-! ### Runs -/

/-- The invariant of the controller's party system. -/
structure Coherent (s : Parties Known World) : Prop where
  store : s.world.db.WellFormed
  claims : ∀ {contextId c claim}, s.world.db.context contextId = some c →
    c.schedulerClaimId = some claim → claim < s.world.uuid
  leases : ∀ {i k contextId claim}, s.knows i = some k → k.lease = some (contextId, claim) →
    claim < s.world.uuid
  distinct : ∀ {i j k k' contextId contextId' claim}, s.knows i = some k → s.knows j = some k' →
    k.lease = some (contextId, claim) → k'.lease = some (contextId', claim) → i = j
  agrees : ∀ {i k}, s.knows i = some k → k.Agrees s.world.db

/-- What a worker other than the caller knows stays current. -/
lemma Known.Agrees.bystander (h : k.Agrees db) (hwf : db.WellFormed)
    (heff : CoreEffect fresh db db' q) (hmove : db.Move q)
    (hfresh : ∀ {contextId claim}, k.lease = some (contextId, claim) → claim < fresh)
    (hq : ∀ {contextId claim}, k.lease = some (contextId, claim) → q.claim? ≠ some claim) :
    k.Agrees db' := by
  refine ⟨h.blank, fun hl hctx hclaim => ?_⟩
  obtain ⟨c, hctx', hclaim', hview, hun⟩ :=
    heff.other hwf hmove hctx hclaim (hfresh hl) (hq hl)
  rw [← hview]
  refine (h.current hl hctx' hclaim').undisturbed (fun taskId hactive => ?_) hun
  obtain ⟨t, ht, hof, -⟩ := hwf.active hctx' hactive
  exact ⟨t, ht, hof⟩

/-- A query of a client is fenced with nothing. -/
lemma Client.unfenced (h : Client (.query q)) : q.claim? = none := by
  cases h <;> rfl

lemma Client.move (h : Client (.query q)) : db.Move q := by
  cases h <;> trivial

/-- The queries that are made: a worker's as its contract allows, or a client's. -/
def Asked (knows : ℕ → Option Known) (q : Query) : Actor → Prop
  | .worker i => ∃ k, knows i = some k ∧ k.allowedQuery q
  | .client => Client (.query q)

namespace Coherent

variable {s : Parties Known World} {a : Actor} {r : Except Exn q.Reply} {v : q.Reply}

lemma move (h : Coherent s) (hq : Asked s.knows q a)
    (hrun : q.run s.world.uuid s.world.db = .ok (v, db')) : s.world.db.Move q := by
  cases a with
  | worker i =>
    obtain ⟨k, hk, hallow⟩ := hq
    exact (h.agrees hk).move hallow hrun
  | client => exact hq.move

/-- The fence of a query is the caller's own. -/
lemma fenced (h : Coherent s) (hq : Asked s.knows q a) {j : ℕ} {k : Known}
    (hk : s.knows j = some k) (hj : a ≠ .worker j) (hl : k.lease = some (contextId, claim)) :
    q.claim? ≠ some claim := by
  intro hclaim
  cases a with
  | worker i =>
    obtain ⟨k', hk', hallow⟩ := hq
    obtain ⟨contextId', hl'⟩ := Known.allowedQuery_claim hallow hclaim
    exact hj (congrArg _ (h.distinct hk' hk hl' hl))
  | client =>
    rw [hq.unfenced] at hclaim
    cases hclaim

/-- A committed query, seen by everyone but its caller. -/
lemma others (h : Coherent s) (hq : Asked s.knows q a)
    (hrun : q.run s.world.uuid s.world.db = .ok (v, db')) {j : ℕ} {k : Known}
    (hk : s.knows j = some k) (hj : a ≠ .worker j) : k.Agrees db' :=
  (h.agrees hk).bystander h.store (Query.run_effect hrun) (h.move hq hrun) (h.leases hk)
    fun hl => h.fenced hq hk hj hl

lemma claims_commit (h : Coherent s) (hrun : q.run s.world.uuid s.world.db = .ok (v, db'))
    {c : ContextRow} (hctx : db'.context contextId = some c)
    (hclaim : c.schedulerClaimId = some claim) : claim < s.world.uuid + 1 := by
  rcases (Query.run_effect hrun).claim_cases hctx hclaim with ⟨rfl, -⟩ | ⟨c', hc', hclaim'⟩
  · exact Nat.lt_succ_self _
  · exact Nat.lt_succ_of_lt (h.claims hc' hclaim')

lemma join (h : Coherent s) :
    Coherent ⟨s.world, Function.update s.knows s.joined (some {}), s.joined + 1⟩ := by
  have hknown : ∀ {i k}, Function.update s.knows s.joined (some {}) i = some k →
      s.knows i = some k ∨ k = {} := by
    intro i k hk
    rw [Function.update_apply] at hk
    split at hk
    · cases hk
      exact .inr rfl
    · exact .inl hk
  refine ⟨h.store, h.claims, fun hk hl => ?_, fun hk hk' hl hl' => ?_, fun hk => ?_⟩
  · rcases hknown hk with hk | rfl
    · exact h.leases hk hl
    · cases hl
  · rcases hknown hk with hk | rfl
    · rcases hknown hk' with hk' | rfl
      · exact h.distinct hk hk' hl hl'
      · cases hl'
    · cases hl
  · rcases hknown hk with hk | rfl
    · exact h.agrees hk
    · exact ⟨fun _ => ⟨rfl, rfl, rfl, rfl, rfl⟩, nofun⟩

lemma leave (h : Coherent s) (i : ℕ) :
    Coherent ⟨s.world, Function.update s.knows i none, s.joined⟩ := by
  have hknown : ∀ {j k}, Function.update s.knows i none j = some k → s.knows j = some k := by
    intro j k hk
    rw [Function.update_apply] at hk
    split at hk
    · cases hk
    · exact hk
  exact ⟨h.store, h.claims, fun hk => h.leases (hknown hk),
    fun hk hk' => h.distinct (hknown hk) (hknown hk'), fun hk => h.agrees (hknown hk)⟩

/-- The world changes where the invariant does not look. -/
lemma world (h : Coherent s) {w : World} (hc : w.db.context = s.world.db.context)
    (ht : w.db.task = s.world.db.task) (huuid : s.world.uuid ≤ w.uuid) :
    Coherent ⟨w, s.knows, s.joined⟩ := by
  refine ⟨?_, fun hctx hclaim => ?_, fun hk hl => ?_, h.distinct, fun hk => ?_⟩
  · have hstore := h.store
    unfold Db.WellFormed at hstore ⊢
    rwa [hc, ht]
  · exact Nat.lt_of_lt_of_le (h.claims (hc ▸ hctx) hclaim) huuid
  · exact Nat.lt_of_lt_of_le (h.leases hk hl) huuid
  · exact (h.agrees hk).frame hc ht

/-- A worker learns something that leaves its lease and is current. -/
lemma relearn (h : Coherent s) {i : ℕ} {k k' : Known} (hk : s.knows i = some k)
    (hl : k'.lease = k.lease) (hagrees : k'.Agrees s.world.db) :
    Coherent ⟨s.world, Function.update s.knows i (some k'), s.joined⟩ := by
  have hknown : ∀ {j k₁}, Function.update s.knows i (some k') j = some k₁ →
      ∃ k₀, s.knows j = some k₀ ∧ k₁.lease = k₀.lease ∧ k₁.Agrees s.world.db := by
    intro j k₁ hk₁
    rw [Function.update_apply] at hk₁
    split at hk₁
    · rename_i hj
      cases hk₁
      exact ⟨k, hj ▸ hk, hl, hagrees⟩
    · exact ⟨k₁, hk₁, rfl, h.agrees hk₁⟩
  refine ⟨h.store, h.claims, fun hk₁ hl₁ => ?_, fun hk₁ hk₂ hl₁ hl₂ => ?_, fun hk₁ => ?_⟩
  · obtain ⟨k₀, hk₀, hl₀, -⟩ := hknown hk₁
    exact h.leases hk₀ (hl₀ ▸ hl₁)
  · obtain ⟨k₀, hk₀, hl₀, -⟩ := hknown hk₁
    obtain ⟨k₀', hk₀', hl₀', -⟩ := hknown hk₂
    exact h.distinct hk₀ hk₀' (hl₀ ▸ hl₁) (hl₀' ▸ hl₂)
  · obtain ⟨-, -, -, hagrees⟩ := hknown hk₁
    exact hagrees

/-- A client's query. -/
lemma client (h : Coherent s) {w' : World} (hq : Client (.query q))
    (hexec : environment.exec s.world .client (.query q) r w') :
    Coherent ⟨w', s.knows, s.joined⟩ := by
  rcases exec_query hexec with ⟨v, hrun, -, hw⟩ | ⟨e, -, rfl⟩
  · rw [hw]
    have hask : Asked s.knows q .client := hq
    exact ⟨h.store.step (Query.run_effect hrun) (h.move hask hrun), h.claims_commit hrun,
      fun hk hl => Nat.lt_succ_of_lt (h.leases hk hl), h.distinct,
      fun hk => h.others hask hrun hk nofun⟩
  · exact h.world rfl rfl (Nat.le_refl _)

/-- A worker's query. -/
lemma query (h : Coherent s) {i : ℕ} {k : Known} {w' : World} (hk : s.knows i = some k)
    (hallow : k.allowedQuery q) (hexec : environment.exec s.world (.worker i) (.query q) r w') :
    Coherent ⟨w', Function.update s.knows i (some (k.learnQuery q r)), s.joined⟩ := by
  rcases exec_query hexec with ⟨v, hrun, hr, hw⟩ | ⟨e, rfl, rfl⟩
  · rw [hw]
    have hask : Asked s.knows q (.worker i) := ⟨k, hk, hallow⟩
    -- what is known afterwards is the caller's new knowledge or a bystander's old one
    have hknown : ∀ {j k₁}, Function.update s.knows i (some (k.learnQuery q r)) j = some k₁ →
        j = i ∧ k₁ = k.learnQuery q r ∨ Actor.worker i ≠ .worker j ∧ s.knows j = some k₁ := by
      intro j k₁ hk₁
      rw [Function.update_apply] at hk₁
      split at hk₁
      · rename_i hj
        cases hk₁
        exact .inl ⟨hj, rfl⟩
      · rename_i hj
        exact .inr ⟨fun h => hj (by cases h; rfl), hk₁⟩
    refine ⟨h.store.step (Query.run_effect hrun) (h.move hask hrun), h.claims_commit hrun,
      fun {j k₁ _ _} hk₁ hl₁ => ?_, fun {j j' k₁ k₂ _ _ _} hk₁ hk₂ hl₁ hl₂ => ?_, fun hk₁ => ?_⟩
    · rcases hknown hk₁ with ⟨-, rfl⟩ | ⟨-, hk₁⟩
      · rcases Known.learnQuery_lease hrun hr hl₁ with hl₁ | rfl
        · exact Nat.lt_succ_of_lt (h.leases hk hl₁)
        · exact Nat.lt_succ_self _
      · exact Nat.lt_succ_of_lt (h.leases hk₁ hl₁)
    · rcases hknown hk₁ with ⟨hj, rfl⟩ | ⟨-, hold₁⟩
      · rcases hknown hk₂ with ⟨hj', -⟩ | ⟨-, hold₂⟩
        · exact hj.trans hj'.symm
        · rcases Known.learnQuery_lease hrun hr hl₁ with hl₁ | rfl
          · exact hj.trans (h.distinct hk hold₂ hl₁ hl₂)
          · exact absurd (h.leases hold₂ hl₂) (Nat.lt_irrefl _)
      · rcases hknown hk₂ with ⟨hj', rfl⟩ | ⟨-, hold₂⟩
        · rcases Known.learnQuery_lease hrun hr hl₂ with hl₂ | rfl
          · exact (h.distinct hold₁ hk hl₁ hl₂).trans hj'.symm
          · exact absurd (h.leases hold₁ hl₁) (Nat.lt_irrefl _)
        · exact h.distinct hold₁ hold₂ hl₁ hl₂
    · rcases hknown hk₁ with ⟨-, rfl⟩ | ⟨hj, hk₁⟩
      · exact (h.agrees hk).ask h.store hallow hrun hr
      · exact h.others hask hrun hk₁ hj
  · exact (h.relearn hk (k.learnQuery_lease_error q e) ((h.agrees hk).refused hallow e)).world
      rfl rfl (Nat.le_refl _)

/-- **Coherence.** What every worker knows is current while its lease lasts, in every run. -/
theorem of_reachable (hs : Parties.Reachable contract environment {} Client {} s) :
    Coherent s := by
  induction hs with
  | init =>
    refine ⟨⟨?_, ?_, ?_, ?_, ?_, ?_, ?_⟩, nofun, nofun, nofun, nofun⟩ <;> nofun
  | step _ h ih =>
    cases h with
    | join => exact ih.join
    | @call i k c r w' hk hallow hexec =>
      rcases c.query_or with ⟨q, rfl⟩ | hc
      · exact ih.query hk hallow hexec
      · obtain ⟨hdb, huuid, -⟩ := exec_other hexec hc
        exact (ih.relearn hk (k.learn_lease_other hc r)
          ((ih.agrees hk).other hc r)).world (by rw [hdb]) (by rw [hdb]) huuid
    | leave i => exact ih.leave i
    | @outside c r w' ho hexec =>
      rcases c.query_or with ⟨q, rfl⟩ | hc
      · exact ih.client ho hexec
      · obtain ⟨hdb, huuid, -⟩ := exec_other hexec hc
        exact ih.world (by rw [hdb]) (by rw [hdb]) huuid
    | drift hd =>
      obtain ⟨now, history, -, rfl⟩ := hd
      exact ih.world rfl rfl (Nat.le_refl _)

end Coherent

end ManagedAgents.Controller
