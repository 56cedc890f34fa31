import ManagedAgents.Controller.Custody

/-!
What the programs store and delete.

A program hands over what it has stored, and deletes what no row came to need or what a row that it
has seen needs no more.
-/

namespace ManagedAgents.Controller

open ManagedAgents.Lib

/-- A program never forgets what it saw, or what it may delete. -/
instance : Preorder Custody where
  le k k' := k'.client = k.client ∧ k.seen ⊆ k'.seen ∧ k.spare ⊆ k'.spare
  le_refl _ := ⟨rfl, List.Subset.refl _, List.Subset.refl _⟩
  le_trans _ _ _ h h' := ⟨h'.1.trans h.1, List.Subset.trans h.2.1 h'.2.1,
    List.Subset.trans h.2.2 h'.2.2⟩

/-- Calls that hand nothing over and delete nothing. -/
def Quiet : Call → Prop
  | .pendingDelete _ | .query (.admitTurn _) | .query (.decideClarificationRequest _ _ _) => False
  | _ => True

/-- A program that hands over and deletes only what it may. -/
abbrev Careful {α : Type} (p : Program α) (k : Custody) : Prop := custody.Abides p k

/-- The row was seen, with its object. -/
def Custody.Saw (k : Custody) (holder : Holder) (key : Option ObjectKey) : Prop :=
  ∀ key' ∈ key, (holder, key') ∈ k.seen

namespace Custody

variable {k k' : Custody} {c : Call} {r : Except Exn c.Reply} {holder : Holder}
  {key : Option ObjectKey}

lemma Saw.mono (h : k.Saw holder key) (hle : k ≤ k') : k'.Saw holder key :=
  fun key' hkey => hle.2.1 (h key' hkey)

lemma le_sawTask (t : TaskRow) : k ≤ k.sawTask t := by
  unfold sawTask
  split
  · exact ⟨rfl, List.subset_cons_self _ _, List.Subset.refl _⟩
  · exact le_refl _

lemma le_give {key : ObjectKey} {refused : Bool} : k ≤ k.give key refused := by
  refine ⟨rfl, List.Subset.refl _, ?_⟩
  cases refused
  · exact List.Subset.refl _
  · exact List.subset_cons_self _ _

lemma le_release : k ≤ k.release holder :=
  ⟨rfl, List.Subset.refl _, List.subset_append_right _ _⟩

lemma le_learn : k ≤ k.learn c r := by
  cases c with
  | query q =>
    cases q with
    | admitTurn ad => rcases r with e | ⟨c, t, created⟩ <;> exact le_give
    | decideClarificationRequest rid tid key' => cases r <;> exact le_give
    | getTask taskId =>
      rcases r with e | t
      · exact le_refl _
      · cases t with
        | none => exact le_refl _
        | some t => exact le_sawTask t
    | activateTask x taskId claim e =>
      rcases r with e | t
      · exact le_refl _
      · exact le_sawTask t
    | listInputRequests taskId =>
      rcases r with e | requests
      · exact le_refl _
      · exact ⟨rfl, List.subset_append_right _ _, List.Subset.refl _⟩
    | updateTask taskId x claim f =>
      rcases r with e | t
      · exact le_refl _
      · simp only [learn, learnQuery]
        split
        · exact le_release
        · exact le_refl _
    | resolveInputRequest rid x claim =>
      rcases r with e | v
      · exact le_refl _
      · exact le_release
    | _ => cases r <;> exact le_refl _
  | pendingPut key' text =>
    cases r with
    | error e => exact le_refl _
    | ok v =>
      simp only [learn]
      split
      · exact ⟨rfl, List.Subset.refl _, List.Subset.refl _⟩
      · exact le_refl _
  | _ => cases r <;> exact ⟨rfl, List.Subset.refl _, List.Subset.refl _⟩

lemma le_learnQuery {q : Query} {r : Except Exn q.Reply} : k ≤ k.learnQuery q r :=
  le_learn (c := .query q)

/-- What was just stored under a new key. -/
lemma mem_stored {key : ObjectKey} (text : Text) :
    key ∈ ((k.learn .uuid4 (.ok key)).learn (.pendingPut key text) (.ok ())).stored := by
  simp [learn]

lemma saw_sawTask (t : TaskRow) : (k.sawTask t).Saw (.task t.taskId) t.inputObjectKey := by
  intro key hkey
  unfold sawTask
  split
  · rename_i key' hkey'
    rw [hkey', Option.mem_def, Option.some.injEq] at hkey
    subst hkey
    exact List.mem_cons_self
  · rename_i hnone
    rw [hnone] at hkey
    cases hkey

lemma saw_answer {requests : List Request} {row : ClarificationRow}
    (h : Request.clarification row ∈ requests) :
    (k.sawRequests requests).Saw (.answer row.requestId) row.answerObjectKey := by
  intro key hkey
  refine List.mem_append_left _ (List.mem_filterMap.mpr ⟨_, h, ?_⟩)
  rw [Option.mem_def] at hkey
  rw [Request.answer?, hkey]
  rfl

/-- A row that was seen, and needs its object no more. -/
lemma Saw.spare (h : k.Saw holder key) {key' : ObjectKey} (hkey : key' ∈ key)
    (hle : k.release holder ≤ k') : key' ∈ k'.spare :=
  hle.2.2 (List.mem_append_left _ (mem_of.mpr (h key' hkey)))

end Custody

lemma Quiet.allowed {c : Call} (h : Quiet c) (k : Custody) : k.allowed c := by
  cases c with
  | query q =>
    cases q with
    | admitTurn | decideClarificationRequest => exact h.elim
    | _ => trivial
  | pendingDelete => exact h.elim
  | _ => trivial

lemma Routine.quiet {c : Call} (h : Routine c) : Quiet c := by
  cases c with
  | query q => cases q <;> trivial
  | _ => trivial

lemma Plain.quiet {c : Call} (h : Plain c) : Quiet c := h.routine.quiet

instance : custody.Growing := ⟨Custody.le_learn⟩

instance : Lenient custody := ⟨fun h => h.quiet.allowed _⟩

/-! ### The scheduler -/

section

variable {k : Custody} {contextId : ContextId} {claim : ClaimId} {cfg : Config} {task : TaskRow}
  {taskId : TaskId} {sessionId : SessionId} {events : List Event}

/-- A task that was seen is bound, and then its input is deleted. -/
lemma careful_bindInput {eventId : EventId}
    (hsaw : k.Saw (.task task.taskId) task.inputObjectKey) :
    Careful (bindInput task contextId claim eventId) k := by
  have hbind : ∀ k', k.release (.task task.taskId) ≤ k' →
      Careful (tryCatch (pendingDelete task.inputObjectKey) fun _ => pure ()) k' := by
    intro k' hle
    refine .tryCatch ?_ fun _ _ _ => .pure
    cases hkey : task.inputObjectKey with
    | none => exact .pure
    | some key => exact .last (hsaw.spare hkey hle)
  refine Contract.Conforms.bind (Q := fun _ k' => k.release (.task task.taskId) ≤ k') ?_
    fun _ k' hle => (hbind k' hle).mono (Custody.le_release.trans hle)
  refine Contract.Conforms.bind (Q := fun _ k' => k.release (.task task.taskId) ≤ k') ?_
    fun _ _ hle => Contract.conforms_pure hle
  refine Contract.conforms_perform trivial (fun _ _ => ?_) fun _ _ => Custody.le_learn
  exact le_refl _

/-- A clarification that was seen is resolved, and then its answer is deleted. -/
lemma careful_reconcileClarification {row : ClarificationRow}
    (hsaw : k.Saw (.answer row.requestId) row.answerObjectKey) :
    Careful (reconcileClarification contextId task claim sessionId events row) k := by
  have hresolve : ∀ k', k ≤ k' → Careful (do
      resolveInput (.clarification row) contextId claim
      pendingDelete row.answerObjectKey
      pure (none : Option Unit)) k' := by
    intro k' hle
    refine .call trivial fun _ _ => .bind ?_ fun _ _ _ => .pure
    cases hkey : row.answerObjectKey with
    | none => exact .pure
    | some key => exact .last ((hsaw.mono hle).spare hkey (le_refl _))
  unfold reconcileClarification
  split
  · exact hresolve k (le_refl k)
  split
  · exact .bind (abides_plain plain_hold) fun _ _ _ => .pure
  refine .call trivial fun marked _ => ?_
  split
  · exact .pure
  refine .bind (.every (P := Quiet) (.tryCatch ?_ fun e => ?_) fun h => h.allowed _)
    fun sent k' hle => ?_
  · exact (plain_pendingGet.mono Plain.quiet).bind fun _ => every_call trivial fun _ => .pure
  · cases e with
    | definitiveProvider => exact (plain_finishFailed.mono Plain.quiet).bind fun _ => .pure
    | _ => exact (plain_hold.mono Plain.quiet).bind fun _ => every_call trivial fun _ => .pure
  · cases sent with
    | settled => exact hresolve k' hle
    | _ => exact .pure

lemma careful_reconcileConfirmations :
    Careful (reconcileConfirmations contextId task claim sessionId events) k := by
  refine .call trivial fun requests _ => .bind (.loop fun request hrequest k' hle => ?_) ?_
  · unfold reconcileRequest
    split
    · exact .pure
    cases request with
    | clarification row =>
      exact careful_reconcileClarification ((Custody.saw_answer hrequest).mono hle)
    | approval row => exact abides_plain plain_reconcileApproval
  · intro result k' _
    split
    · exact .pure
    · refine abides_plain (every_ask trivial fun _ => every_ask trivial fun _ => ?_)
      split
      · exact plain_hold.bind fun _ => .pure
      · exact .pure

lemma quiet_publishReview {row : ApprovalRow} {review : Option HumanReview} :
    (publishReview contextId taskId claim row review).Every Quiet := by
  unfold publishReview
  dsimp only
  split
  · exact .throw
  split
  · exact every_call trivial fun _ => every_call trivial fun _ => every_ask trivial fun _ =>
      (plain_hold.mono Plain.quiet)
  · exact (plain_hold.mono Plain.quiet)

lemma quiet_judge {source : Option Event} {row : ApprovalRow} :
    (judge cfg contextId taskId claim source row).Every Quiet := by
  unfold judge
  split
  · exact .throw
  split
  · exact .throw
  refine .bind (every_consult fun _ => trivial) fun decision => ?_
  split
  · exact quiet_publishReview
  split
  · exact Prog.every_perform trivial
  · refine .bind (.tryCatch (Prog.every_perform trivial) fun e => ?_) fun _ =>
      (plain_hold.mono Plain.quiet)
    cases e <;> exact .throw

lemma quiet_evaluateRow {request : Request} :
    (evaluateRow cfg contextId taskId claim events request).Every Quiet := by
  unfold evaluateRow
  split
  · exact .pure
  split
  · exact .pure
  refine every_ask trivial fun current => ?_
  split
  · exact .pure
  refine every_ask trivial fun task => ?_
  split
  · exact .pure
  split
  · exact .pure
  refine every_call trivial fun now => ?_
  split
  · exact .throw
  split
  · exact .pure
  refine .tryCatch (quiet_judge.bind fun _ => .pure) fun e => ?_
  cases e with
  | lostSchedulerClaim => exact .throw
  | _ => exact (routine_judgeFailed.mono Routine.quiet).bind fun _ => .pure

lemma quiet_evaluatePolicy : (evaluatePolicy cfg contextId taskId claim events).Every Quiet := by
  refine every_ask trivial fun rows => .bind ?_ fun _ => .pure
  exact Contract.conforms_loop trivial fun _ _ _ _ => quiet_evaluateRow

lemma careful_reviewAndWait :
    Careful (reviewAndWait cfg contextId task claim sessionId events) k := by
  refine .bind (.every quiet_evaluatePolicy fun h => h.allowed _) fun decided _ _ => ?_
  split
  · exact abides_plain plain_setWaitingState
  refine .call trivial fun refreshed _ => ?_
  dsimp only
  split
  · refine .bind careful_reconcileConfirmations fun finished _ _ => ?_
    split
    · exact abides_plain plain_setWaitingState
    · exact .pure
  · exact .pure

lemma careful_reconcileStatus :
    Careful (reconcileStatus cfg contextId task claim sessionId) k := by
  refine .call trivial fun events _ => ?_
  split
  · exact .pure
  refine .call trivial fun requests _ => ?_
  dsimp only
  split
  · exact careful_reviewAndWait
  split
  · exact abides_plain plain_finishFailed
  · exact abides_plain plain_finishFailed
  · split
    · exact .bind (abides_routine routine_addRequests) fun _ _ _ => careful_reviewAndWait
    · exact abides_plain plain_finish
    · exact abides_plain plain_finishFailed
    · exact .pure
  · exact abides_routine (every_ask trivial fun _ => .pure)
  · exact .pure

/-- The answer of a cancelled clarification is stored before it is handed over, and deleted unless
it was taken. -/
lemma careful_cancelRequest {request : Request} :
    Careful (cancelRequest contextId taskId claim request) k := by
  unfold cancelRequest
  split
  · split
    · refine .call trivial fun key _ => .call trivial fun _ _ => ?_
      refine .call (Custody.mem_stored "Task cancelled by user.") fun decided _ => ?_
      dsimp only
      split
      · rename_i hlost
        refine .call ?_ fun _ _ => .pure
        change key ∈ (Custody.give _ key (decided.bind (·.answerObjectKey) != some key)).spare
        rw [hlost]
        exact List.mem_cons_self
      · exact .pure
    · exact .pure
  · split
    · exact abides_routine (.bind (Prog.every_perform trivial) fun _ => .pure)
    · exact .pure

lemma careful_reconcileCancel :
    Careful (reconcileCancel contextId task claim sessionId events) k := by
  unfold reconcileCancel
  dsimp only
  split
  · exact abides_plain plain_sendInterrupt
  split
  · exact abides_plain plain_finish
  split
  · refine .call trivial fun requests _ => .bind (.loop fun _ _ _ _ => careful_cancelRequest) ?_
    exact fun _ _ _ => .bind careful_reconcileConfirmations fun _ _ _ => .pure
  · exact abides_plain plain_sendInterrupt

lemma careful_reconcileActive {context : ContextRow}
    (hsaw : k.Saw (.task task.taskId) task.inputObjectKey) :
    Careful (reconcileActive cfg context task claim) k := by
  refine .bind (abides_plain ?_) fun session k₁ hle => ?_
  · unfold activeSession
    split
    · exact .pure
    refine every_call trivial fun found => ?_
    split
    · exact plain_hold.bind fun _ => .pure
    · exact plain_updateContext.bind fun _ => .pure
  split
  · exact .pure
  refine .call trivial fun events _ => .bind ?_ fun bound _ _ => ?_
  · unfold ensureBound
    split
    · exact .pure
    split
    · exact .bind (abides_plain plain_hold) fun _ _ _ => .pure
    split
    · exact .throw
    · refine .bind (careful_bindInput (hsaw.mono (hle.trans Custody.le_learn))) fun _ _ _ => ?_
      exact abides_plain (every_ask trivial fun _ => .pure)
  split
  · exact .pure
  split
  · exact careful_reconcileCancel
  refine .bind careful_reconcileConfirmations fun finished _ _ => ?_
  split
  · exact careful_reconcileStatus
  · exact .pure

/-- Every task that is read again was seen. -/
lemma saw_getTask {row : Option TaskRow} (hsaw : k.Saw (.task task.taskId) task.inputObjectKey) :
    (k.learnQuery (.getTask taskId) (.ok row)).Saw (.task (row.getD task).taskId)
      (row.getD task).inputObjectKey := by
  cases row with
  | none => exact hsaw
  | some t => exact Custody.saw_sawTask t

lemma careful_dispatch {context : ContextRow}
    (hsaw : k.Saw (.task task.taskId) task.inputObjectKey) :
    Careful (dispatch cfg context task claim) k := by
  refine .bind (abides_plain plain_pendingGet) fun text k₁ hle => ?_
  have hsaw := hsaw.mono hle
  split
  · -- the first turn
    refine .call trivial fun recovered _ => .bind (abides_plain (.tryCatch ?_ fun e => ?_)) ?_
    · split
      · exact .pure
      · exact .map (Prog.every_perform trivial)
    · cases e with
      | definitiveProvider => exact plain_finishFailed.bind fun _ => .pure
      | _ => exact plain_hold.bind fun _ => .pure
    intro session k₂ hle₂
    have hsaw := hsaw.mono (Custody.le_learn.trans hle₂)
    split
    · exact .pure
    refine .bind (abides_plain plain_updateContext) fun _ k₃ hle₃ => ?_
    have hsaw := hsaw.mono hle₃
    refine .call trivial fun found _ => ?_
    split
    · refine .bind (careful_bindInput (hsaw.mono Custody.le_learn)) fun _ k₄ hle₄ => ?_
      have hsaw := hsaw.mono (Custody.le_learn.trans hle₄)
      refine .call trivial fun context' _ => .call trivial fun row _ => ?_
      exact careful_reconcileActive (saw_getTask (hsaw.mono Custody.le_learnQuery))
    · exact abides_plain plain_hold
  · -- a later one
    refine .bind (abides_plain (.tryCatch (.map (Prog.every_perform trivial)) fun e => ?_)) ?_
    · cases e with
      | definitiveProvider => exact plain_finish.bind fun _ => .pure
      | _ => exact plain_hold.bind fun _ => .pure
    intro sent k₂ hle₂
    split
    · exact .pure
    · exact careful_bindInput (hsaw.mono hle₂)
    · exact abides_plain plain_hold

lemma careful_reconcileContext {context : ContextRow} :
    Careful (reconcileContext cfg context claim) k := by
  unfold reconcileContext
  split
  · refine .call trivial fun row _ => ?_
    split
    · exact careful_reconcileActive (Custody.saw_sawTask _)
    · exact .pure
  · refine .call trivial fun queued _ => ?_
    split
    · exact .pure
    split
    · exact abides_plain plain_finish
    dsimp only
    split
    · refine .call trivial fun events _ => .call trivial fun task _ => ?_
      exact careful_dispatch (Custody.saw_sawTask _)
    · exact .call trivial fun task _ => careful_dispatch (Custody.saw_sawTask _)

lemma careful_runOnce : Careful (runOnce cfg contextId) k := by
  refine .call trivial fun granted _ => ?_
  split
  · exact .throw
  refine .ensure (.call trivial fun context _ => ?_) fun _ _ => abides_plain plain_runOnceCleanup
  split
  · exact .pure
  · exact .bind careful_reconcileContext fun _ _ _ => abides_plain plain_scheduleNext

/-! ### The service -/

lemma careful_getTask {n : Option ℤ} {options : Option TaskViewOptions} :
    Careful (Service.getTask str taskId n options) k :=
  abides_plain (viewing_getTask.mono Viewing.plain)

/-- An input that no task took may be deleted. -/
lemma careful_admitInput {a : Admission} (hstored : a.inputObjectKey ∈ k.stored) :
    custody.Conforms (Service.admitInput a)
      (fun admitted k' => k ≤ k' ∧
        ∀ c t, admitted = some (c, t, false) → a.inputObjectKey ∈ k'.spare)
      (fun k' => k ≤ k') k := by
  have hfind : (Service.findAdmitted a).Every Routine := by
    unfold Service.findAdmitted
    split <;> exact Prog.every_perform trivial
  have hrecover : ∀ k', k ≤ k' → a.inputObjectKey ∈ k'.spare →
      custody.Conforms (Service.recover a)
        (fun _ k'' => k ≤ k'' ∧ a.inputObjectKey ∈ k''.spare)
        (fun k'' => k ≤ k'' ∧ a.inputObjectKey ∈ k''.spare) k' := by
    intro k' hle hspare
    have hrun : Careful (Service.recover a) k' := by
      refine abides_routine (hfind.bind fun context => ?_)
      split
      · exact .throw
      refine every_ask trivial fun task => ?_
      split
      · exact .throw
      · exact .pure
    exact Contract.Conforms.mono hrun (fun _ _ h => ⟨hle.trans h, h.2.2 hspare⟩)
      fun _ h => ⟨hle.trans h, h.2.2 hspare⟩
  refine .tryCatch (H := fun k' => k ≤ k' ∧ a.inputObjectKey ∈ k'.spare) (.map (Q := fun v k' =>
    k ≤ k' ∧ (v.2.2 = false → a.inputObjectKey ∈ k'.spare)) ?_ ?_) ?_
  · refine .tryCatch (H := fun k' => k ≤ k' ∧ a.inputObjectKey ∈ k'.spare) ?_ ?_
    · refine Contract.conforms_perform hstored (fun v _ => ⟨Custody.le_learn, ?_⟩)
        fun _ _ => ⟨Custody.le_learn, List.mem_cons_self⟩
      obtain ⟨c, t, created⟩ := v
      rintro rfl
      exact List.mem_cons_self
    · rintro e k' ⟨hle, hspare⟩
      cases e with
      | uniqueViolation =>
        exact (hrecover k' hle hspare).mono (fun _ _ h => ⟨h.1, fun _ => h.2⟩) fun _ h => h
      | _ => exact Contract.conforms_throw ⟨hle, hspare⟩
  · rintro ⟨c, t, created⟩ k' ⟨hle, hspare⟩
    refine ⟨hle, fun c' t' h => hspare ?_⟩
    cases h
    rfl
  · rintro e k' ⟨hle, hspare⟩
    have hdelete : custody.Conforms (perform (.pendingDelete a.inputObjectKey))
        (fun _ k'' => k ≤ k'') (fun k'' => k ≤ k'') k' := Contract.Abides.mono (.last hspare) hle
    cases e with
    | keyError =>
      exact hdelete.bind fun _ _ h => Contract.conforms_pure ⟨h, fun _ _ h => by cases h⟩
    | _ => exact hdelete.bind fun _ _ h => Contract.conforms_throw h

lemma careful_sendTurn {requested : Option ContextId} {messageId : MessageId} {body : Text}
    {view : TaskViewOptions} : Careful (Service.sendTurn str requested messageId body view) k := by
  refine .call trivial fun key _ => .call trivial fun _ _ => ?_
  refine .call trivial fun contextId _ => .call trivial fun taskId _ => ?_
  refine Contract.Conforms.bind (careful_admitInput (Custody.mem_stored body)) ?_
  rintro admitted k' ⟨hle, hspare⟩
  refine Contract.Abides.mono ?_ hle
  split
  · exact .pure
  rename_i context task created
  refine .bind ?_ fun _ _ _ => .bind ?_ fun _ _ _ => careful_getTask
  · unfold Service.discardUnless
    split
    · exact .pure
    · rename_i hcreated
      rw [Bool.not_eq_true] at hcreated
      subst hcreated
      exact .last (hspare _ _ rfl)
  · unfold Service.wake
    split
    · exact .pure
    · exact .last trivial

/-- An answer that was not recorded may be deleted. -/
lemma careful_decide {requestId : RequestId} {key : ObjectKey} (hclient : k.client = true)
    (hstored : key ∈ k.stored) :
    custody.Conforms (Service.decide requestId taskId key)
      (fun row k' => k ≤ k' ∧ (row.bind (·.answerObjectKey) ≠ some key → key ∈ k'.spare))
      (fun k' => k ≤ k') k := by
  refine .tryCatch (H := fun k' => k ≤ k' ∧ key ∈ k'.spare) ?_ ?_
  · refine Contract.conforms_perform hstored (fun row _ => ⟨Custody.le_learn, fun hlost => ?_⟩)
      fun e _ => ⟨Custody.le_learn, ?_⟩
    · change key ∈ (k.give key (row.bind (·.answerObjectKey) != some key)).spare
      simp [Custody.give, hlost]
    · change key ∈ (k.give key k.client).spare
      simp [Custody.give, hclient]
  · rintro e k' ⟨hle, hspare⟩
    have hdelete : custody.Conforms (perform (.pendingDelete key)) (fun _ k'' => k ≤ k'')
        (fun k'' => k ≤ k'') k' := Contract.Abides.mono (.last hspare) hle
    exact hdelete.bind fun _ _ h => Contract.conforms_throw h

lemma careful_continueClarification {contextId : ContextId} {requestId : RequestId} {answer : Text}
    {options : TaskViewOptions} (hclient : k.client = true) :
    Careful (Service.continueClarification str contextId task requestId answer options) k := by
  refine .call trivial fun prior _ => ?_
  split
  · split
    · exact careful_getTask
    split
    · exact .pure
    refine .call trivial fun key _ => .call trivial fun _ _ => ?_
    refine Contract.Conforms.bind (careful_decide ?_ (Custody.mem_stored answer)) ?_
    · exact Custody.learn_client.trans (Custody.learn_client.trans hclient)
    rintro row k' ⟨hle, hspare⟩
    refine Contract.Abides.mono ?_ hle
    refine .bind ?_ fun _ _ _ => ?_
    · unfold Service.discardUnless
      split
      · exact .pure
      · rename_i hlost
        exact .last (hspare (by simpa using hlost))
    split
    · exact .pure
    · exact .call trivial fun _ _ => careful_getTask
  · exact .pure

lemma careful_send {message : Message} {n : Option ℤ} {options : Option TaskViewOptions}
    (hclient : k.client = true) : Careful (Service.send str message n options) k := by
  unfold Service.send
  split
  · exact .pure
  split
  · split
    · unfold Service.continue'
      split
      · exact .pure
      split
      · exact .pure
      refine .call trivial fun row _ => ?_
      split
      · exact .pure
      split
      · exact .pure
      split
      · exact .pure
      · exact .pure
      · exact careful_continueClarification (Custody.le_learnQuery.1.trans hclient)
      · refine .call trivial fun accepted _ => ?_
        split
        · exact .pure
        · exact .call trivial fun _ _ => careful_getTask
    · split
      · exact .pure
      · exact careful_sendTurn
  · exact .pure

lemma careful_answered {α : Type} {p : Program (Answer α)} (hp : Careful p k) :
    Careful (answered p) k := by
  refine hp.bind fun answer _ _ => ?_
  split
  · exact .pure
  · exact .throw

/-- Every program hands over and deletes only what it may. -/
theorem careful_program (l : Errand) : Careful l.program l.custody := by
  cases l with
  | wakeup cfg contextId => exact careful_runOnce
  | resolve cfg taskId resolution verified => exact abides_plain plain_resolve
  | send str message n options => exact careful_answered (careful_send rfl)
  | get str taskId n options => exact careful_answered careful_getTask
  | cancel str cfg taskId options =>
    exact careful_answered (abides_plain (cancelling_cancel.mono Cancelling.plain))

end

/-! ### Every run -/

/-- Every input that a task still waits with is there, and every answer that is still to be sent. -/
structure Intact (w : World) : Prop where
  input : ∀ {taskId t}, w.db.task taskId = some t →
    t.internalState = .queued ∨ t.internalState = .dispatching ∧ t.cmaInputEventId = none →
    ∃ key, t.inputObjectKey = some key ∧ (w.objects key).isSome = true
  answer : ∀ {row r}, w.db.clarification row = some r → r.status = .resolving →
    r.responseAttemptedAt = none →
    ∃ key, r.answerObjectKey = some key ∧ (w.objects key).isSome = true

/-- **Compensating deletes.** As long as whoever stores an input or an answer can tell whether it
was taken, and answers are given up under the lease only, nothing that is still needed is
deleted. -/
theorem nothing_needed_deleted {s : Staff} (hs : Serves s)
    (hheard : ∀ e ∈ s.world.log, e.Heard s.job) : Intact s.world := by
  have hprograms : ∀ l, custody.Conforms (works.program l) (fun _ _ => True) (fun _ => True)
      l.custody :=
    fun l => Contract.Conforms.mono (careful_program l) (fun _ _ _ => trivial) fun _ _ => trivial
  obtain ⟨knows, hkeeping, -⟩ : ∃ knows,
      Crew.Tracked works environment custody Errand.custody (fun _ _ => True) {} s knows ∧
      Crew.Keeps custody (fun _ _ => True) s knows :=
    Crew.tracks hprograms (fun hs hc => Serves.possible hs hc) hs
  have hkept := Kept.of_keeping hkeeping hheard
  constructor
  · intro taskId t ht hwaiting
    cases hkey : t.inputObjectKey with
    | none =>
      have hbound := hs.wellFormed.input ht hkey
      rcases hwaiting with hqueued | ⟨-, hunbound⟩
      · rw [hs.wellFormed.unbound ht hqueued] at hbound
        cases hbound
      · rw [hunbound] at hbound
        cases hbound
    | some key =>
      refine ⟨key, rfl, hkept.present (.task ht hkey (.inl ?_))⟩
      rcases hwaiting with h | ⟨h, -⟩ <;> rw [h] <;> decide
  · intro row r hr hresolving hnew
    cases hkey : r.answerObjectKey with
    | none =>
      have hpending := (hs.orderly.answered hr).mpr hkey
      rw [hresolving] at hpending
      cases hpending
    | some key => exact ⟨key, rfl, hkept.present (.answer hr hkey hresolving hnew)⟩

/-- A call that was answered, and gives up no answer. -/
def Entry.plain (e : Entry) : Bool :=
  !e.failed && match e.call with
    | .query (.resolveInputRequest _ _ _) => false
    | _ => true

lemma Entry.heard_of_plain {e : Entry} {job : ℕ → Option Errand} (h : e.plain = true) :
    e.Heard job := by
  rw [Entry.plain, Bool.and_eq_true] at h
  have hfailed : e.failed ≠ true := by simpa using h.1
  refine ⟨fun _ hf => absurd hf hfailed, fun _ hf => absurd hf hfailed, fun hc => ?_⟩
  rw [hc] at h
  exact absurd h.2 Bool.false_ne_true

/-- A turn that was admitted waits with its input. -/
theorem nothing_needed_deleted_queued : ∃ s t, Serves s ∧ s.world.db.task 2 = some t ∧
    t.internalState = .queued ∧ Intact s.world := by
  have hplay : ((stage.play works {} (.start (turn 100) ::
      turns 0 [.run, .run, .run, .run, .run])).map fun s : Staff =>
        (s.world.log.all Entry.plain, s.world.db.task 2)) =
      some (true, some
        { taskId := 2, contextId := 1, messageId := 100, sequence := 1, a2aState := .submitted,
          internalState := .queued, inputObjectKey := some 0, dispatchAttempts := some 0 }) := by
    decide +kernel
  obtain ⟨s, -, hs, hval⟩ := stage.played _ hplay
  obtain ⟨hlog, htask⟩ := Prod.mk.inj hval
  exact ⟨s, _, hs, htask, rfl,
    nothing_needed_deleted hs fun e he =>
      Entry.heard_of_plain (List.all_eq_true.mp hlog e he)⟩

/-- The acknowledgement of an admission is lost; its input is deleted, and the turn is queued. -/
theorem lost_acknowledgement_deletes_input : ∃ s t, Serves s ∧ s.world.db.task 2 = some t ∧
    t.internalState = .queued ∧ t.inputObjectKey = some 0 ∧ s.world.objects 0 = none := by
  have hplay : ((stage.play works {} (.start (turn 100) ::
      turns 0 [.run, .run, .run, .run, .lost, .run])).map fun s : Staff =>
        (s.world.db.task 2, s.world.objects 0)) =
      some (some
        { taskId := 2, contextId := 1, messageId := 100, sequence := 1, a2aState := .submitted,
          internalState := .queued, inputObjectKey := some 0, dispatchAttempts := some 0 },
        none) := by
    decide +kernel
  obtain ⟨s, -, hs, hval⟩ := stage.played _ hplay
  obtain ⟨htask, hobject⟩ := Prod.mk.inj hval
  exact ⟨s, _, hs, htask, rfl, rfl, hobject⟩

end ManagedAgents.Controller
