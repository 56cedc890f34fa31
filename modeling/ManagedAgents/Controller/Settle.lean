import ManagedAgents.Controller.Calm
import ManagedAgents.Controller.Script

/-!
What a run makes of a cancelled task once the provider has stopped.

The latest status after the interrupt decides. Most final ones end the task; a spent budget and
a terminated session that still names a required action do not.
-/

namespace ManagedAgents.Controller

open ManagedAgents.Lib

/-! ### Sessions -/

/-- The table's checks hold, no session is two contexts', and a bound task's context has one. -/
structure Seated (context : ContextId → Option ContextRow) (task : TaskId → Option TaskRow) :
    Prop where
  check : ∀ {x c}, context x = some c → c.check = true
  apart : ∀ {x y c d}, context x = some c → context y = some d → y ≠ x →
    d.cmaSessionId.isSome = true → d.cmaSessionId ≠ c.cmaSessionId
  bound : ∀ {x t}, task x = some t → t.cmaInputEventId.isSome = true →
    ∃ c, context t.contextId = some c ∧ c.cmaSessionId.isSome = true

variable {context : ContextId → Option ContextRow} {task : TaskId → Option TaskRow}
  {db db' : Db} {fresh : ℕ} {E : Environment Call Call.Reply Exn World}
  {s : Parties Known World} {contextId : ContextId} {claim : ClaimId} {c c' : ContextRow}
  {taskId : TaskId} {t t' : TaskRow}

namespace Seated

/-- A context's row changes and keeps its session, or is new and has none. -/
lemma setContext (h : Seated context task)
    (hctx : context contextId = some c ∧ c'.cmaSessionId = c.cmaSessionId ∨
      context contextId = none ∧ c'.cmaSessionId = none)
    (hcheck : c'.check = true) : Seated (Function.update context contextId (some c')) task := by
  have hcontext : ∀ {x d}, Function.update context contextId (some c') x = some d →
      d.cmaSessionId.isSome = true → ∃ d', context x = some d' ∧
        d'.cmaSessionId = d.cmaSessionId := by
    intro x d hd hsome
    rw [Function.update_apply] at hd
    split at hd
    · rename_i hx
      cases hd
      rcases hctx with ⟨hctx, hsame⟩ | ⟨-, hnone⟩
      · exact ⟨c, hx ▸ hctx, hsame.symm⟩
      · rw [hnone] at hsome
        cases hsome
    · exact ⟨d, hd, rfl⟩
  refine ⟨fun {x d} hd => ?_, fun {x y d e} hd he hxy hsome hsame => ?_, fun {x t} htask hb => ?_⟩
  · rw [Function.update_apply] at hd
    split at hd
    · cases hd
      exact hcheck
    · exact h.check hd
  · obtain ⟨e', he', hsame'⟩ := hcontext he hsome
    rw [hsame] at hsome
    obtain ⟨d', hd', hsame''⟩ := hcontext hd hsome
    refine h.apart hd' he' hxy (by rw [hsame', hsame]; exact hsome) ?_
    rw [hsame', hsame'', hsame]
  · obtain ⟨d, hd, hsome⟩ := h.bound htask hb
    by_cases hx : t.contextId = contextId
    · rcases hctx with ⟨hctx, hsame⟩ | ⟨hnone, -⟩
      · rw [hx, hctx, Option.some.injEq] at hd
        exact ⟨c', by rw [hx, Function.update_self], by rw [hsame, hd]; exact hsome⟩
      · rw [hx, hnone] at hd
        cases hd
    · exact ⟨d, by rw [Function.update_of_ne hx, hd], hsome⟩

/-- The row keeps its session and its state. -/
lemma keepContext (h : Seated context task) (hctx : context contextId = some c)
    (hsession : c'.cmaSessionId = c.cmaSessionId)
    (hstate : c'.lifecycleState = c.lifecycleState) :
    Seated (Function.update context contextId (some c')) task := by
  have hcheck : c'.check = c.check := by simp [ContextRow.check, hsession, hstate]
  exact h.setContext (.inl ⟨hctx, hsession⟩) (hcheck.trans (h.check hctx))

/-- A context gets a session nobody has. -/
lemma session (h : Seated context task)
    (hapart : ∀ y d, context y = some d → y ≠ contextId → d.cmaSessionId ≠ c'.cmaSessionId)
    (hcheck : c'.check = true) (hsome : c'.cmaSessionId.isSome = true) :
    Seated (Function.update context contextId (some c')) task := by
  refine ⟨fun {x d} hd => ?_, fun {x y d e} hd he hxy hs => ?_, fun {x t} htask hb => ?_⟩
  · rw [Function.update_apply] at hd
    split at hd
    · cases hd
      exact hcheck
    · exact h.check hd
  · rw [Function.update_apply] at hd he
    split at hd <;> split at he
    · rename_i hx hy
      exact absurd (hy.trans hx.symm) hxy
    · rename_i hx hy
      cases hd
      exact hapart y e he hy
    · rename_i hx hy
      cases he
      exact fun hsame => hapart x d hd hx hsame.symm
    · exact h.apart hd he hxy hs
  · obtain ⟨d, hd, hsome'⟩ := h.bound htask hb
    by_cases hx : t.contextId = contextId
    · exact ⟨c', by rw [hx, Function.update_self], hsome⟩
    · exact ⟨d, by rw [Function.update_of_ne hx, hd], hsome'⟩

/-- A task's row is new and unbound, or changes in its context, and is bound only where there is
a session. -/
lemma setTask (h : Seated context task)
    (hbound : t'.cmaInputEventId.isSome = true →
      (∃ t, task taskId = some t ∧ t'.contextId = t.contextId ∧
        t.cmaInputEventId.isSome = true) ∨
      ∃ c, context t'.contextId = some c ∧ c.cmaSessionId.isSome = true) :
    Seated context (Function.update task taskId (some t')) := by
  refine ⟨h.check, h.apart, fun {x u} hu hb => ?_⟩
  rw [Function.update_apply] at hu
  split at hu
  · cases hu
    rcases hbound hb with ⟨t, htask, hof, hold⟩ | hnow
    · rw [hof]
      exact h.bound htask hold
    · exact hnow
  · exact h.bound hu hb

/-- The row keeps its input. -/
lemma keepInput (h : Seated context task) (htask : task taskId = some t)
    (hof : t'.contextId = t.contextId) (hinput : t'.cmaInputEventId = t.cmaInputEventId) :
    Seated context (Function.update task taskId (some t')) :=
  h.setTask fun hb => .inl ⟨t, htask, hof, by rw [← hinput]; exact hb⟩

end Seated

lemma updateContext_apart {f : ContextFields} {v : ContextRow}
    (h : updateContext contextId claim f db = .ok (v, db')) (hctx : db.context contextId = some c)
    (hsome : (c.set f).cmaSessionId.isSome = true) :
    ∀ y d, db.context y = some d → y ≠ contextId → d.cmaSessionId ≠ (c.set f).cmaSessionId := by
  have hget : db.contexts.get? contextId = some c := hctx
  intro y d hd hy hsame
  unfold updateContext at h
  rw [hget] at h
  dsimp only at h
  split at h
  · cases h
  split at h
  · cases h
  split at h
  · cases h
  rename_i hfree
  simp only [hsome, Bool.true_and, Bool.not_eq_true', Bool.not_eq_false, List.isEmpty_iff] at hfree
  have hmem : d ∈ db.contexts.select fun o => o.contextId != contextId &&
      o.cmaSessionId == (c.set f).cmaSessionId := by
    have hid := Db.context_id hd
    exact Table.mem_select.mpr ⟨by rw [hid]; exact hd, by simp [hid, hy, hsame]⟩
  rw [hfree] at hmem
  cases hmem

/-- A task is bound while it is active in a context with a session. -/
lemma Knowing.binding (hE : Within E) (hs : Knowing E s) {a : Actor} {f : TaskFields}
    (hask : Asked s.knows (.updateTask taskId contextId claim f) a)
    (hctx : s.world.db.context contextId = some c) (hheld : c.holds claim s.world.db.now = true)
    (hbind : f.cmaInputEventId.isSome = true) :
    c.activeTaskId = some taskId ∧ c.cmaSessionId.isSome = true := by
  cases a with
  | client => cases hask
  | worker i =>
    obtain ⟨k, hk, hlease, hwrite⟩ := hask
    have hcurrent := ((Knowing.coherent hE hs).agrees hk).current hlease hctx
      (ContextRow.holds_claim hheld)
    rcases hwrite with hhold | hlost | ⟨-, v, hview, hwrite⟩
    · simp only [TaskFields.isHold, Bool.and_eq_true, Option.isNone_iff_eq_none] at hhold
      rw [hhold.1.1.1.2] at hbind
      cases hbind
    · rw [hcurrent.kept] at hlost
      cases hlost
    · have hv := hcurrent.view hview
      subst hv
      cases hwrite with
      | bind hactive hsession => exact ⟨hactive, Option.isSome_iff_exists.mpr ⟨_, hsession⟩⟩
      | status | interrupting | finish | drop => cases hbind

/-- **Sessions in every run.** -/
theorem Knowing.seated (hE : Within E) (hs : Knowing E s) :
    Seated s.world.db.context s.world.db.task := by
  refine Knowing.history (P := fun _ _ db => Seated db.context db.task) hE ⟨nofun, nofun, nofun⟩
    (fun _ h => h) (fun h _ => h) ?_ hs
  intro s a q v r db' hs h hask hrun hr
  have hmove := (Knowing.coherent hE hs).move hask hrun
  cases Query.run_effect hrun with
  | same hc ht =>
    rw [hc, ht]
    exact h
  | @opened b c hnew hrow hc ht =>
    rw [hc, ht]
    exact h.setContext (c := c) (.inr ⟨hnew, by rw [hrow]⟩) (by rw [hrow]; rfl)
  | @admitted b c u hctx hfresh hmessage hrow hc ht =>
    rw [hc, ht]
    have hcheck : c.check = true := by
      rcases hctx with hctx | ⟨-, hrow⟩
      · exact h.check hctx
      · rw [hrow]
        rfl
    let c' : ContextRow := { c with nextSequence := c.nextSequence + 1 }
    have hrow' : s.world.db.context c.contextId = some c ∧ c'.cmaSessionId = c.cmaSessionId ∨
        s.world.db.context c.contextId = none ∧ c'.cmaSessionId = none :=
      hctx.imp (fun hctx => ⟨hctx, rfl⟩) fun ⟨hnone, hnew⟩ =>
        ⟨hnone, show c.cmaSessionId = none by rw [hnew]⟩
    refine (h.setContext hrow' hcheck).setTask fun hb => ?_
    rw [hrow] at hb
    cases hb
  | claimed hctx hfree hc ht =>
    rw [hc, ht]
    exact h.keepContext hctx rfl rfl
  | released hctx hheld hc ht =>
    rw [hc, ht]
    exact h.keepContext hctx rfl rfl
  | @wroteContext x y f c hctx hheld hcheck hc ht =>
    rw [hc, ht]
    cases hmove c hctx with
    | session sessionId =>
      exact h.session (updateContext_apart hrun hctx rfl) hcheck rfl
    | failed => exact h.setContext (.inl ⟨hctx, rfl⟩) hcheck
    | clear => exact h.setContext (.inl ⟨hctx, rfl⟩) hcheck
  | @wroteTask x contextId claim f c t hctx hheld htask hc ht =>
    rw [hc, ht]
    refine h.setTask fun hb => ?_
    by_cases hbind : f.cmaInputEventId.isSome = true
    · obtain ⟨hactive, hsession⟩ := Knowing.binding hE hs hask hctx hheld hbind
      obtain ⟨u, hu, hof, -⟩ := (Knowing.coherent hE hs).store.active hctx hactive
      rw [htask, Option.some.injEq] at hu
      subst hu
      exact .inr ⟨c, by rw [← hctx]; exact congrArg _ hof, hsession⟩
    · have hnone : f.cmaInputEventId = none := by simpa using hbind
      exact .inl ⟨t, htask, rfl, by simpa [TaskRow.set, hnone] using hb⟩
  | retried htask hctx _ _ _ _ _ _ hc ht =>
    rw [hc, ht]
    refine Seated.keepInput (h.keepContext hctx ?_ ?_) htask ?_ ?_ <;> rfl
  | @failed x y c t htask hctx hheld hactive hlive hc ht =>
    rw [hc, ht]
    refine Seated.keepInput (h.setContext (.inl ⟨hctx, ?_⟩) ?_) htask ?_ ?_
    · rfl
    · have hcheck := h.check hctx
      cases hsession : c.cmaSessionId with
      | none => simp [ContextRow.check]
      | some sessionId =>
        cases hstate : c.lifecycleState <;> simp_all [ContextRow.check]
    · rfl
    · rfl
  | activated hctx _ _ htask _ _ hc ht =>
    rw [hc, ht]
    refine Seated.keepInput (h.keepContext hctx ?_ ?_) htask ?_ ?_ <;> rfl
  | canceled htask _ hc ht =>
    rw [hc, ht]
    exact h.keepInput htask rfl rfl
  | cancelRequested htask _ _ hc ht =>
    rw [hc, ht]
    exact h.keepInput htask rfl rfl

/-! ### Final statuses -/

/-- A status after which nothing more comes of the task, on the path of an uncancelled one. -/
def Event.isFinal (e : Event) : Bool :=
  match e.kind? with
  | some .idle => e.stopKind != some .requiresAction
  | some .terminated | some .budgetReached => true
  | _ => false

variable {events : List Event} {w w' : World} {a : Actor} {x : Rest} {sessionId : SessionId}
  {cfg : Config} {status : Event}

/-- The active task's part of a run. -/
lemma Held.reconcileActive {S : Except Exn Unit → World → Prop}
    (h : Held contextId claim c taskId t x w) (hactive : c.activeTaskId = some taskId)
    (hsession : c.cmaSessionId = some sessionId) (hbound : t.cmaInputEventId.isSome = true)
    (hcancel : t.cancelRequestedAt.isSome = true)
    (hbody : ∀ w', Held contextId claim c taskId t x w' →
      Alone (calmEnvironment events) a (reconcileCancel contextId t claim sessionId events) S w') :
    Alone (calmEnvironment events) a (reconcileContext cfg c claim) S w := by
  have hid := Db.context_id h.context
  unfold reconcileContext
  rw [hactive]
  refine h.getTask.bind (fun v w₁ h₁ => ?_) fun e w₁ h₁ => by cases h₁.1
  obtain ⟨hv, h₁⟩ := h₁
  cases hv
  unfold Controller.reconcileActive activeSession
  rw [hsession]
  refine Alone.bind (Q := fun r w' => r = .ok (some sessionId) ∧
    Held contextId claim c taskId t x w') (Alone.pure ⟨rfl, h₁⟩) (fun v w₂ h₂ => ?_)
    fun e w₂ h₂ => by cases h₂.1
  obtain ⟨hv, h₂⟩ := h₂
  cases hv
  refine h₂.listEvents.bind (fun v w₃ h₃ => ?_) fun e w₃ h₃ => by cases h₃.1
  obtain ⟨hv, h₃⟩ := h₃
  cases hv
  unfold ensureBound
  rw [if_pos hbound]
  refine Alone.bind (Q := fun r w' => r = .ok (some t) ∧
    Held contextId claim c taskId t x w') (Alone.pure ⟨rfl, h₃⟩) (fun v w₄ h₄ => ?_)
    fun e w₄ h₄ => by cases h₄.1
  obtain ⟨hv, h₄⟩ := h₄
  cases hv
  dsimp only
  rw [if_pos hcancel, hid]
  exact hbody w₄ h₄

/-- The task still has the context. -/
def Stays (contextId : ContextId) (claim : ClaimId) (taskId : TaskId) (w : World) : Prop :=
  ∃ c t x, Held contextId claim c taskId t x w ∧ c.activeTaskId = some taskId

lemma Held.hold (h : Held contextId claim c taskId t x w) (reason : Option HeldReason) :
    Alone (calmEnvironment events) a (Controller.hold taskId contextId claim reason)
      (fun r w' => r = .ok () ∧
        Held contextId claim c taskId (t.set { heldReason := some reason }) x w') w :=
  h.updateTask'

lemma Held.sendInterrupt (h : Held contextId claim c taskId t x w)
    (hactive : c.activeTaskId = some taskId) :
    Alone (calmEnvironment events) a (Controller.sendInterrupt contextId t claim sessionId)
      (fun _ w' => Stays contextId claim taskId w') w := by
  have hid := Db.task_id h.task
  unfold Controller.sendInterrupt
  rw [hid]
  split
  · split
    · exact (h.hold _).mono fun r w' h' => ⟨c, _, x, h'.2, hactive⟩
    · exact Alone.pure ⟨c, t, x, h, hactive⟩
  · refine (h.outside rfl (fun _ hb => by cases hb) rfl).bind (fun now w₁ h₁ => ?_)
      fun e w₁ h₁ => ⟨c, t, x, h₁.2, hactive⟩
    refine h₁.2.updateTask'.bind (fun v w₂ h₂ => ?_) fun e w₂ h₂ => ⟨c, _, x, h₂.2, hactive⟩
    refine (h₂.2.outside rfl (fun _ hb => by cases hb) rfl).tryCatch
      (fun v w₃ h₃ => ⟨c, _, x, h₃.2, hactive⟩) fun e w₃ h₃ => ?_
    obtain ⟨v, hv⟩ := h₃.1
    cases hv

/-! ### Cleaning up keeps the context -/

/-- Queries that leave contexts alone, and of tasks change only what an update says. -/
def Query.tame : Query → Bool
  | .getTask _ | .listInputRequests _ | .updateTask _ _ _ _ | .decideClarificationRequest _ _ _
  | .markClarificationAttempted _ _ _ | .denyCancelledInputRequest _ _ _
  | .resolveInputRequest _ _ _ | .markConfirmationAttempted _ _ _ => true
  | _ => false

lemma CoreEffect.tame {q : Query} (h : CoreEffect fresh db db' q) (hq : q.tame = true)
    (htask : db.task taskId = some t) :
    db'.context = db.context ∧ ∃ t', db'.task taskId = some t' := by
  cases h with
  | same hc ht => exact ⟨hc, t, by rw [ht]; exact htask⟩
  | wroteTask _ _ _ hc ht =>
    refine ⟨hc, ?_⟩
    rw [ht, Function.update_apply]
    split
    · exact ⟨_, rfl⟩
    · exact ⟨t, htask⟩
  | _ => cases hq

namespace Stays

variable {q : Query} {b : Call}

lemma drift (h : Stays contextId claim taskId w) (hd : Drifted w w') :
    Stays contextId claim taskId w' :=
  h.imp fun _ ⟨t, x, h, hactive⟩ => ⟨t, x, h.drift hd, hactive⟩

lemma ask (h : Stays contextId claim taskId w) (hq : q.tame = true) :
    Alone (calmEnvironment events) a (Controller.ask q)
      (fun _ w' => Stays contextId claim taskId w') w := by
  refine Alone.perform fun w₁ hd r w' he => ?_
  obtain ⟨c, t, x, h₁, hactive⟩ := h.drift (.of_drift hd)
  rcases calm_query he with ⟨v, hrun, -⟩ | ⟨e, -, -, hdb, -⟩
  · obtain ⟨hc, t', ht'⟩ := (Query.run_effect hrun).tame hq h₁.task
    refine ⟨c, t', w'.rest, ⟨by rw [hc]; exact h₁.context, ht', ?_, ?_, rfl⟩, hactive⟩
    · rw [Query.run_now hrun]
      exact h₁.held
    · rw [hc]
      exact h₁.apart
  · exact ⟨c, t, w'.rest, ⟨by rw [hdb]; exact h₁.context, by rw [hdb]; exact h₁.task,
      by rw [hdb]; exact h₁.held, by rw [hdb]; exact h₁.apart, rfl⟩, hactive⟩

/-- Any other call: what goes outside is answered, and only objects are not found. -/
lemma perform (h : Stays contextId claim taskId w) (hb : ∀ q, b ≠ .query q) :
    Alone (calmEnvironment events) a (Controller.perform b)
      (fun r w' => r ≠ .error .definitiveProvider ∧ Stays contextId claim taskId w') w := by
  refine Alone.perform fun w₁ hd r w' he => ?_
  obtain ⟨c, t, x, h₁, hactive⟩ := h.drift (.of_drift hd)
  obtain ⟨hdb, -⟩ := exec_other he.1 hb
  refine ⟨?_, c, t, w'.rest, ⟨by rw [hdb]; exact h₁.context, by rw [hdb]; exact h₁.task,
    by rw [hdb]; exact h₁.held, by rw [hdb]; exact h₁.apart, rfl⟩, hactive⟩
  rintro rfl
  obtain ⟨⟨committed, w₂, hw, -⟩, hcalm⟩ := he
  cases hw with
  | external history hc =>
    cases b with
    | listEvents sessionId => cases hcalm
    | query q => exact hb q rfl
    | pendingPut | pendingGet | pendingDelete | uuid4 => cases hc
    | _ => exact hcalm.elim
  | refused => exact hb _ rfl

lemma call (h : Stays contextId claim taskId w) (hb : ∀ q, b ≠ .query q) :
    Alone (calmEnvironment events) a (Controller.perform b)
      (fun _ w' => Stays contextId claim taskId w') w :=
  (h.perform hb).mono fun _ _ h' => h'.2

lemma updateTask' {y : TaskId} {z : ContextId} {u : ClaimId} {f : TaskFields}
    (h : Stays contextId claim taskId w) :
    Alone (calmEnvironment events) a (Controller.updateTask' y z u f)
      (fun _ w' => Stays contextId claim taskId w') w :=
  (h.ask rfl).bind (fun _ _ h' => h') fun _ _ h' => h'

lemma pendingDelete (h : Stays contextId claim taskId w) (key : Option ObjectKey) :
    Alone (calmEnvironment events) a (Controller.pendingDelete key)
      (fun _ w' => Stays contextId claim taskId w') w := by
  cases key with
  | none => exact h
  | some key => exact h.call fun q hq => by cases hq

lemma cancelRequest {y : ContextId} {z : TaskId} {u : ClaimId} (request : Request)
    (h : Stays contextId claim taskId w) :
    Alone (calmEnvironment events) a (Controller.cancelRequest y z u request)
      (fun _ w' => Stays contextId claim taskId w') w := by
  cases request with
  | clarification row =>
    unfold Controller.cancelRequest
    dsimp only
    split
    · refine (h.call fun q hq => by cases hq).bind (fun key w₁ h₁ => ?_) fun _ _ h' => h'
      refine (h₁.call fun q hq => by cases hq).bind (fun _ w₂ h₂ => ?_) fun _ _ h' => h'
      refine (h₂.ask rfl).bind (fun decided w₃ h₃ => ?_) fun _ _ h' => h'
      split
      · exact (h₃.call fun q hq => by cases hq).bind (fun _ _ h' => h') fun _ _ h' => h'
      · exact h₃
    · exact h
  | approval row =>
    unfold Controller.cancelRequest
    dsimp only
    split
    · exact (h.ask rfl).bind (fun _ _ h' => h') fun _ _ h' => h'
    · exact h

/-- Sending something, where only a definitive failure of the provider ends the task. -/
lemma sending {α : Type} {send : Program α} {handler : Exn → Program α}
    (hsend : Alone (calmEnvironment events) a send
      (fun r w' => r ≠ .error .definitiveProvider ∧ Stays contextId claim taskId w') w)
    (hhandler : ∀ e w', e ≠ .definitiveProvider → Stays contextId claim taskId w' →
      Alone (calmEnvironment events) a (handler e)
        (fun _ w'' => Stays contextId claim taskId w'') w') :
    Alone (calmEnvironment events) a (tryCatch send handler)
      (fun _ w' => Stays contextId claim taskId w') w :=
  Alone.tryCatch hsend (fun _ _ h => h.2) fun e w' h =>
    hhandler e w' (fun he => h.1 (by rw [he])) h.2

/-- Looking again after an uncertain one. -/
lemma refresh {y : TaskId} {z : ContextId} {u : ClaimId} {reason : Option HeldReason}
    {settled : List Event → Sent} (h : Stays contextId claim taskId w) :
    Alone (calmEnvironment events) a (do
        Controller.hold y z u reason
        let refreshed ← Controller.perform (.listEvents sessionId)
        pure (settled refreshed))
      (fun _ w' => Stays contextId claim taskId w') w := by
  refine h.updateTask'.bind (fun _ w₁ h₁ => ?_) fun _ _ h' => h'
  exact (h₁.call fun q hq => by cases hq).bind (fun _ _ h' => h') fun _ _ h' => h'

lemma pendingGet (h : Stays contextId claim taskId w) (key : Option ObjectKey) :
    Alone (calmEnvironment events) a (Controller.pendingGet key)
      (fun r w' => r ≠ .error .definitiveProvider ∧ Stays contextId claim taskId w') w := by
  cases key with
  | none => exact ⟨(fun h => by cases h), h⟩
  | some key => exact h.perform fun q hq => by cases hq

lemma reconcileClarification {y : ContextId} {u : ClaimId} (row : ClarificationRow)
    (h : Stays contextId claim taskId w) :
    Alone (calmEnvironment events) a
      (Controller.reconcileClarification y t u sessionId events row)
      (fun _ w' => Stays contextId claim taskId w') w := by
  have hresolve : ∀ w, Stays contextId claim taskId w →
      Alone (calmEnvironment events) a (do
        resolveInput (.clarification row) y u
        Controller.pendingDelete row.answerObjectKey
        pure (none : Option Unit)) (fun _ w' => Stays contextId claim taskId w') w := by
    intro w h
    refine (h.ask rfl).bind (fun _ w₁ h₁ => ?_) fun _ _ h' => h'
    exact (h₁.pendingDelete _).bind (fun _ _ h' => h') fun _ _ h' => h'
  unfold Controller.reconcileClarification
  dsimp only
  split
  · exact hresolve w h
  split
  · exact h.updateTask'.bind (fun _ _ h' => h') fun _ _ h' => h'
  refine (h.ask rfl).bind (fun marked w₁ h₁ => ?_) fun _ _ h' => h'
  split
  · exact h₁
  refine Alone.bind (Stays.sending ?_ fun e w₂ he h₂ => ?_) (fun sent w₃ h₃ => ?_)
    fun _ _ h' => h'
  · refine (h₁.pendingGet _).bind (fun answer w₂ h₂ => ?_) fun e w₂ h₂ =>
      ⟨fun h => h₂.1 (by cases h; rfl), h₂.2⟩
    exact (h₂.2.perform fun q hq => by cases hq).bind
      (fun _ _ h' => ⟨(fun h => by cases h), h'.2⟩)
      fun e w₃ h₃ => ⟨fun h => h₃.1 (by cases h; rfl), h₃.2⟩
  · cases e with
    | definitiveProvider => exact absurd rfl he
    | _ => exact h₂.refresh
  · cases sent with
    | settled => exact hresolve w₃ h₃
    | unsettled => exact h₃
    | finished => exact h₃

lemma reconcileApproval {y : ContextId} {u : ClaimId} (row : ApprovalRow)
    (h : Stays contextId claim taskId w) :
    Alone (calmEnvironment events) a (Controller.reconcileApproval y t u sessionId events row)
      (fun _ w' => Stays contextId claim taskId w') w := by
  unfold Controller.reconcileApproval
  split
  · exact (h.ask rfl).bind (fun _ _ h' => h') fun _ _ h' => h'
  split
  · split
    · exact h.updateTask'.bind (fun _ _ h' => h') fun _ _ h' => h'
    · exact h
  split
  · exact h.updateTask'.bind (fun _ _ h' => h') fun _ _ h' => h'
  rename_i decision hdecision
  refine (h.ask rfl).bind (fun marked w₁ h₁ => ?_) fun _ _ h' => h'
  split
  · exact h₁
  refine Alone.bind (Stays.sending ?_ fun e w₂ he h₂ => ?_) (fun sent w₃ h₃ => ?_)
    fun _ _ h' => h'
  · have hreason : Alone (calmEnvironment events) a (confirmationReason t row decision)
        (fun r w' => r ≠ .error .definitiveProvider ∧ Stays contextId claim taskId w') w₁ := by
      unfold confirmationReason
      split
      · exact (h₁.perform fun q hq => by cases hq).bind
          (fun _ _ h' => ⟨(fun h => by cases h), h'.2⟩)
          fun e w₂ h₂ => ⟨fun h => h₂.1 (by cases h; rfl), h₂.2⟩
      · exact ⟨(fun h => by cases h), h₁⟩
    refine hreason.bind (fun reason w₂ h₂ => ?_) fun e w₂ h₂ =>
      ⟨fun h => h₂.1 (by cases h; rfl), h₂.2⟩
    exact (h₂.2.perform fun q hq => by cases hq).bind
      (fun _ _ h' => ⟨(fun h => by cases h), h'.2⟩)
      fun e w₃ h₃ => ⟨fun h => h₃.1 (by cases h; rfl), h₃.2⟩
  · cases e with
    | definitiveProvider => exact absurd rfl he
    | _ => exact h₂.refresh
  · cases sent with
    | settled => exact (h₃.ask rfl).bind (fun _ _ h' => h') fun _ _ h' => h'
    | unsettled => exact h₃
    | finished => exact h₃

lemma reconcileConfirmations {y : ContextId} {u : ClaimId} (h : Stays contextId claim taskId w) :
    Alone (calmEnvironment events) a
      (Controller.reconcileConfirmations y t u sessionId events)
      (fun _ w' => Stays contextId claim taskId w') w := by
  unfold Controller.reconcileConfirmations
  refine (h.ask rfl).bind (fun requests w₁ h₁ => ?_) fun _ _ h' => h'
  have hloop : Alone (calmEnvironment events) a
      (Prog.loop (reconcileRequest y t u sessionId events) requests)
      (fun _ w' => Stays contextId claim taskId w') w₁ := by
    refine Alone.loop_keeps h₁ fun request w' h' => ?_
    unfold reconcileRequest
    split
    · exact h'
    · cases request with
      | clarification row => exact h'.reconcileClarification row
      | approval row => exact h'.reconcileApproval row
  refine hloop.bind (fun finished w₂ h₂ => ?_) fun _ _ h' => h'
  cases finished with
  | some u => exact h₂
  | none =>
    refine (h₂.ask rfl).bind (fun current w₃ h₃ => ?_) fun _ _ h' => h'
    refine (h₃.ask rfl).bind (fun requests w₄ h₄ => ?_) fun _ _ h' => h'
    dsimp only
    split
    · exact h₄.updateTask'.bind (fun _ _ h' => h') fun _ _ h' => h'
    · exact h₄

end Stays

/-! ### What settles -/

/-- The run leaves the task ended and the context free. -/
def settled (active : Option TaskId) (t : TaskRow) (_ : Rest) : Prop :=
  active = none ∧ t.internalState = .terminal

lemma Held.settles (h : Held contextId claim c taskId t x w) (hcheck : c.check = true)
    (hstatus : (sinceInterrupt (sinceInput t events)).bind latestStatus = some status)
    (hfinal : status.isFinal = true) (hkind : status.kind? ≠ some .budgetReached)
    (hstop : status.stopKind ≠ some .requiresAction) :
    Alone (calmEnvironment events) a (reconcileCancel contextId t claim sessionId events)
      (fun r w' => r = .ok () ∧ ∃ c' t' x', Held contextId claim c' taskId t' x' w' ∧
        settled c'.activeTaskId t' x') w := by
  have hid := Db.task_id h.task
  have hends : (status.kind? == some .idle || status.kind? == some .terminated) = true := by
    unfold Event.isFinal at hfinal
    split at hfinal <;> simp_all
  unfold reconcileCancel
  rw [hstatus]
  dsimp only
  rw [hends, Bool.true_and, if_pos (by simpa using hstop), hid]
  exact (h.finish hcheck).mono fun r w' h' => ⟨h'.1, _, _, x, h'.2, rfl, rfl⟩

lemma Held.stays (h : Held contextId claim c taskId t x w) (hactive : c.activeTaskId = some taskId)
    (hstatus : (sinceInterrupt (sinceInput t events)).bind latestStatus = some status)
    (hnot : status.kind? = some .budgetReached ∨ status.stopKind = some .requiresAction) :
    Alone (calmEnvironment events) a (reconcileCancel contextId t claim sessionId events)
      (fun _ w' => Stays contextId claim taskId w') w := by
  unfold reconcileCancel
  rw [hstatus]
  dsimp only
  split
  · rename_i hfinish
    simp only [Bool.and_eq_true, Bool.or_eq_true, beq_iff_eq, bne_iff_ne, ne_eq] at hfinish
    rcases hnot with hkind | hstop
    · rw [hkind] at hfinish
      simp at hfinish
    · exact absurd hstop hfinish.2
  split
  · have hstays : Stays contextId claim taskId w := ⟨c, t, x, h, hactive⟩
    refine (hstays.ask rfl).bind (fun requests w₁ h₁ => ?_) fun _ _ h' => h'
    have hloop : Alone (calmEnvironment events) a
        (Prog.loop (cancelRequest contextId t.taskId claim) requests)
        (fun _ w' => Stays contextId claim taskId w') w₁ :=
      Alone.loop_keeps h₁ fun request _ h' => h'.cancelRequest request
    refine hloop.bind (fun _ w₂ h₂ => ?_) fun _ _ h' => h'
    exact h₂.reconcileConfirmations.bind (fun _ _ h' => h') fun _ _ h' => h'
  · exact h.sendInterrupt hactive

/-- The active task is bound and cancelled, its context's lease is free, and the latest status
after the interrupt that followed its input is final. -/
structure Stopped (db : Db) (contextId : ContextId) (c : ContextRow) (taskId : TaskId)
    (t : TaskRow) (events : List Event) (status : Event) : Prop where
  context : db.context contextId = some c
  active : c.activeTaskId = some taskId
  task : db.task taskId = some t
  bound : t.cmaInputEventId.isSome = true
  cancelled : t.cancelRequestedAt.isSome = true
  free : c.schedulerClaimId = none ∨ ∃ e, c.schedulerLeaseExpiresAt = some e ∧ e ≤ db.now
  latest : (sinceInterrupt (sinceInput t events)).bind latestStatus = some status
  final : status.isFinal = true

/-- A bound task's context has a session in every run. -/
lemma Stopped.session {s : System} (hs : Reachable s)
    (h : Stopped s.world.db contextId c taskId t events status) :
    (∃ sessionId, c.cmaSessionId = some sessionId) ∧ c.check = true ∧
      Free contextId c taskId t s.world.rest s.world := by
  obtain ⟨knows, hknows⟩ := parties Within.environment hs
  have hseated := Knowing.seated Within.environment hknows
  have hstore := (Knowing.coherent Within.environment hknows).store
  obtain ⟨u, hu, hof, -⟩ := hstore.active h.context h.active
  have htask : s.world.db.task taskId = some t := h.task
  have hsame : u = t := by
    have hu' : s.world.db.task taskId = some u := hu
    rw [htask, Option.some.injEq] at hu'
    exact hu'.symm
  subst hsame
  obtain ⟨d, hd, hsome⟩ := hseated.bound h.task h.bound
  have hcd : d = c := by
    have hd' : s.world.db.context u.contextId = some d := hd
    rw [hof, h.context, Option.some.injEq] at hd'
    exact hd'.symm
  subst hcd
  exact ⟨Option.isSome_iff_exists.mp hsome, hseated.check h.context, h.context, h.task, h.free,
    fun y e he hy hs' => hseated.apart h.context he hy hs', rfl⟩

/-- A spent budget, or a required action named by a terminated session, leaves the context with
the task. -/
lemma Stopped.stuck {s : System} (hs : Reachable s)
    (h : Stopped s.world.db contextId c taskId t events status)
    (hnot : status.kind? = some .budgetReached ∨ status.stopKind = some .requiresAction) :
    Alone (calmEnvironment events) a (Controller.runOnce cfg contextId)
      (fun _ w' => Settled contextId taskId (fun active _ _ => active = some taskId) w')
      s.world := by
  obtain ⟨⟨sessionId, hsession⟩, -, hfree⟩ := h.session hs
  refine (hfree.runOnce (S := fun _ => True) fun claim now w' h' => ?_).mono fun _ _ h' => h'.2
  refine h'.reconcileActive h.active hsession h.bound h.cancelled fun w'' h'' => ?_
  refine (h''.stays h.active h.latest hnot).mono fun r w₁ h₁ => ?_
  obtain ⟨c', t', x', h₁, hactive⟩ := h₁
  exact ⟨trivial, c', t', x', h₁, hactive⟩

/-- **When a cancelled task settles.** One run alone, with every call answered, ends the task and
frees the context just when the final status is no spent budget and names no required action. -/
theorem cancelled_settles {s : System} (hs : Reachable s)
    (h : Stopped s.world.db contextId c taskId t events status) :
    Alone (calmEnvironment events) a (Controller.runOnce cfg contextId)
        (fun _ w' => Settled contextId taskId settled w') s.world ↔
      status.kind? ≠ some .budgetReached ∧ status.stopKind ≠ some .requiresAction := by
  constructor
  · intro hsettles
    by_contra hcond
    rw [not_and_or, not_not, not_not] at hcond
    obtain ⟨r, w', ⟨c₁, t₁, hc₁, -, hfree, -⟩, c₂, t₂, hc₂, -, hheld⟩ :=
      (hsettles.and (h.stuck hs hcond)).nonempty calm_total
    rw [hc₁, Option.some.injEq] at hc₂
    rw [← hc₂, hfree] at hheld
    cases hheld
  · rintro ⟨hkind, hstop⟩
    obtain ⟨⟨sessionId, hsession⟩, hcheck, hfree⟩ := h.session hs
    refine (hfree.runOnce (S := (· = .ok ())) fun claim now w' h' => ?_).mono fun _ _ h' => h'.2
    refine h'.reconcileActive h.active hsession h.bound h.cancelled fun w'' h'' => ?_
    exact h''.settles hcheck h.latest h.final hkind hstop

/-- The first turn's task is cancelled, and the worker that bound it is gone. -/
def cancelledTurn : List Act :=
  firstTurn 0 ++ [.crash 0, .ask (.query (.cancelTask 100)), .tick 100]

/-- The session after an interrupt and one more event. -/
def interrupted (last : Event) : List Event :=
  [message 50, { type := .userInterrupt, id := some 51 }, last]

def budgetSpent : Event := { type := .budgetReached, id := some 52 }

def cancelledContext : ContextRow :=
  { contextId := 1
    creationMessageId := 100
    cmaSessionId := some 5
    lifecycleState := .ready
    nextSequence := 2
    activeTaskId := some 100
    schedulerClaimId := some 1
    schedulerLeaseExpiresAt := some 60 }

def cancelledTask : TaskRow :=
  { taskId := 100
    contextId := 1
    messageId := 100
    sequence := 1
    a2aState := .working
    internalState := .waiting
    cmaInputEventId := some 50
    dispatchAttempts := some 1
    cancelRequestedAt := some 0 }

lemma cancelledTurn_stopped (status : Event)
    (hlatest : (sinceInterrupt (sinceInput cancelledTask (interrupted status))).bind
      latestStatus = some status) (hfinal : status.isFinal = true) :
    ∃ s, play unchecked cancelledTurn = some s ∧ Reachable s ∧
      Stopped s.world.db 1 cancelledContext 100 cancelledTask (interrupted status) status := by
  obtain ⟨s, hplay, hs, hval⟩ := played
    (fun s => (s.world.db.context 1, s.world.db.task 100, s.world.db.now))
    (show (play unchecked cancelledTurn).map _ =
      some (some cancelledContext, some cancelledTask, 100) by decide +kernel)
  simp only [Prod.mk.injEq] at hval
  obtain ⟨hctx, htask, hnow⟩ := hval
  exact ⟨s, hplay, hs, hctx, rfl, htask, rfl, rfl, .inr ⟨60, rfl, by rw [hnow]; decide⟩, hlatest,
    hfinal⟩

/-- A cancelled task whose session has spent its budget never settles. -/
theorem cancelled_stuck_budget :
    ∃ s, Reachable s ∧
      Stopped s.world.db 1 cancelledContext 100 cancelledTask (interrupted budgetSpent)
        budgetSpent ∧
      ¬ Alone (calmEnvironment (interrupted budgetSpent)) (.worker 1) (Controller.runOnce demo 1)
        (fun _ w' => Settled 1 100 settled w') s.world := by
  obtain ⟨s, -, hs, h⟩ := cancelledTurn_stopped budgetSpent (by rfl) (by rfl)
  refine ⟨s, hs, h, fun hsettles => ?_⟩
  obtain ⟨r, w', ⟨c₁, t₁, hc₁, -, hfree, -⟩, c₂, t₂, hc₂, -, hheld⟩ :=
    (hsettles.and (h.stuck hs (.inl rfl))).nonempty calm_total
  rw [hc₁, Option.some.injEq] at hc₂
  rw [← hc₂, hfree] at hheld
  cases hheld

/-- One whose session became idle does. -/
theorem cancelled_settles_idle :
    ∃ s, play unchecked cancelledTurn = some s ∧
      Alone (calmEnvironment (interrupted (idle 52 .endTurn))) (.worker 1)
        (Controller.runOnce demo 1) (fun _ w' => Settled 1 100 settled w') s.world := by
  obtain ⟨s, hplay, hs, h⟩ := cancelledTurn_stopped (idle 52 .endTurn) (by rfl) (by rfl)
  exact ⟨s, hplay, (cancelled_settles hs h).mpr ⟨by decide +kernel, by decide +kernel⟩⟩

end ManagedAgents.Controller
