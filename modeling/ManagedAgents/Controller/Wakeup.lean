import ManagedAgents.Controller.Routine

/-!
No wakeup is lost.

A wakeup's program minds its context's active task until it has seen that there is none, and the
queued ones until it has seen that there are none, or has asked for another wakeup. A program that
returns minds nothing any more; whatever it leaves behind is minded by someone else.
-/

namespace ManagedAgents.Controller

open ManagedAgents.Lib

/-- What a program last saw of its context: there may be anything to do; no task is active; or
nothing is to be done that another wakeup is not waiting for. -/
inductive Standing
  | busy
  | idle (contextId : ContextId)
  | done (contextId : ContextId)
  deriving DecidableEq

/-- A program under watch: the context of its record, how it stands, the task it was told of and
the one it has asked a wakeup for. -/
structure Watch where
  own : Option ContextId := none
  standing : Standing := .busy
  told : Option (ContextId × TaskId) := none
  announced : Option TaskId := none

namespace Watch

def read (k : Watch) (contextId : ContextId) : Option ContextRow → Watch
  | none => { k with standing := .done contextId }
  | some c => { k with standing := if c.activeTaskId.isSome then .busy else .idle contextId }

def next (k : Watch) (contextId : ContextId) : Option TaskRow → Watch
  | none => if k.standing = .idle contextId then { k with standing := .done contextId } else k
  | some _ => k

/-- A task that is over needs no wakeup. -/
def admitted (k : Watch) (c : ContextRow) (t : TaskRow) : Watch :=
  { k with
    told := some (c.contextId, t.taskId)
    announced := if t.internalState = .terminal then some t.taskId else none }

def scheduled (k : Watch) (contextId : ContextId) : Watch :=
  { k with
    standing := .done contextId
    announced := k.told.elim k.announced fun (x, t) =>
      if x = contextId then some t else k.announced }

def learn (k : Watch) : (c : Call) → Except Exn c.Reply → Watch
  | .query (.getContext contextId), .ok row => k.read contextId row
  | .query (.nextQueued contextId), .ok row => k.next contextId row
  | .query (.activateTask _ _ _ _), _ => { k with standing := .busy }
  | .query (.admitTurn _), .ok (c, t, _) => k.admitted c t
  | .schedule contextId _, .ok _ => k.scheduled contextId
  | _, _ => k

def allowed (k : Watch) : Call → Prop
  | .query (.activateTask contextId _ _ _) => k.own = some contextId
  | .query (.admitTurn _) => k.told = none
  | _ => True

/-- An active task is minded until it is seen that there is none. -/
def Minds (contextId : ContextId) (k : Watch) : Prop :=
  k.standing ≠ .idle contextId ∧ k.standing ≠ .done contextId

/-- A queued task is minded until it is seen that there is none. -/
def Heeds (contextId : ContextId) (k : Watch) : Prop := k.standing ≠ .done contextId

/-- A wakeup was asked for the task it was told of. -/
def Announced (k : Watch) : Prop := ∀ x t, k.told = some (x, t) → k.announced = some t

/-- What a program has done when it returns. -/
def Done (l : Errand) (k : Watch) : Prop :=
  (∀ x, l.record = some x → k.standing = .done x) ∧ k.Announced

/-- Calls that teach nothing about the task that was admitted. -/
def Aside : Call → Prop
  | .query (.activateTask _ _ _ _) | .query (.admitTurn _) => False
  | _ => True

end Watch

open Watch (Announced Done Aside)

/-- What is known of the wakeups a program is responsible for. -/
def watch : Contract Call Call.Reply Exn Watch where
  possible _ c r := Known.possible c r
  allowed := Watch.allowed
  learn := Watch.learn

def Errand.watch (l : Errand) : Watch := { own := l.record }

variable {k : Watch} {c : Call} {r : Except Exn c.Reply}

namespace Watch

@[simp] lemma scheduled_told (contextId : ContextId) : (k.scheduled contextId).told = k.told := rfl

@[simp] lemma learn_own : (k.learn c r).own = k.own := by
  unfold learn
  split
  · unfold read
    split <;> rfl
  · unfold next
    split
    · split <;> rfl
    · rfl
  all_goals rfl

lemma learn_told (h : ∀ a, c ≠ .query (.admitTurn a)) : (k.learn c r).told = k.told := by
  unfold learn
  split
  · unfold read
    split <;> rfl
  · unfold next
    split
    · split <;> rfl
    · rfl
  · rfl
  · exact absurd rfl (h _)
  · rfl
  · rfl

lemma Aside.allowed (h : Aside c) : k.allowed c := by
  unfold Aside at h
  unfold Watch.allowed
  split <;> trivial

lemma Aside.admits (h : Aside c) : ∀ a, c ≠ .query (.admitTurn a) := by
  rintro a rfl
  exact h

end Watch

/-! ### The jobs under watch -/

variable {str : Json → CodePoints} {contextId : ContextId} {claim : ClaimId} {cfg : Config}

/-- A program that admits nothing is told of nothing. -/
lemma watched_aside {α : Type} {p : Program α} (hp : p.Every Aside) (hk : k.told = none) :
    watch.Conforms p (fun _ k' => k'.told = none) (fun k' => k'.told = none) k :=
  hp.conforms (C := watch) hk (fun _ h => h.allowed)
    fun h hc _ => (Watch.learn_told hc.admits).trans h

/-- Serving a context admits nothing and activates its own tasks. -/
lemma watched_reconcileContext {context : ContextRow} (hown : k.own = some context.contextId)
    (htold : k.told = none) :
    watch.Conforms (reconcileContext cfg context claim)
      (fun _ k' => k'.own = some context.contextId ∧ k'.told = none)
      (fun k' => k'.told = none) k := by
  have hserve : Keeps context.contextId claim (reconcileContext cfg context claim)
      (fun _ k' => k'.holdsLease context.contextId claim)
      { granted context.contextId claim with view := .seen context.view } :=
    conforms_reconcileContext rfl
  refine (hserve.transfer (R := fun known k' => known.holdsLease context.contextId claim ∧
    k'.own = some context.contextId ∧ k'.told = none) ⟨rfl, hown, htold⟩ ?_ (fun _ h => h) ?_).mono
    ?_ ?_
  · rintro known k' c ⟨hl, hown, -⟩ hallow
    change k'.allowed c
    unfold Watch.allowed
    split
    · obtain ⟨hl', -⟩ : known.holdsLease _ _ ∧ _ := hallow
      cases hl.symm.trans hl'
      exact hown
    · exact hallow.elim
    · trivial
  · rintro known k' c r ⟨hl, hown, htold⟩ hallow -
    refine ⟨?_, Watch.learn_own.trans hown, (Watch.learn_told ?_).trans htold⟩
    · exact (Known.learn_lease hallow (by rw [hl]; exact Option.some_ne_none _) r).trans hl
    · rintro a rfl
      exact hallow.elim
  · rintro _ k' ⟨known, ⟨-, hown, htold⟩, -⟩
    exact ⟨hown, htold⟩
  · rintro k' ⟨known, ⟨-, -, htold⟩, -⟩
    exact htold

/-- Asking for the next wakeup settles the context's. -/
lemma watched_scheduleNext (htold : k.told = none) :
    watch.Conforms (scheduleNext contextId)
      (fun _ k' => k'.standing = .done contextId ∧ k'.told = none)
      (fun k' => k'.told = none) k := by
  have hschedule : ∀ (k : Watch) delay, k.told = none →
      watch.Conforms (perform (.schedule contextId delay))
        (fun _ k' => k'.standing = .done contextId ∧ k'.told = none) (fun k' => k'.told = none) k :=
    fun k delay htold =>
      Contract.conforms_perform trivial (fun _ _ => ⟨rfl, htold⟩) fun _ _ => htold
  refine .bind (Q := fun row k' => k'.told = none ∧ ((row.bind (·.activeTaskId)).isSome = false →
    k'.standing = .idle contextId ∨ k'.standing = .done contextId)) ?_ ?_
  · refine Contract.conforms_perform trivial (fun row _ => ?_) fun _ _ => htold
    cases row with
    | none => exact ⟨htold, fun _ => .inr rfl⟩
    | some c =>
      refine ⟨htold, fun hfree => .inl ?_⟩
      have hfree : c.activeTaskId.isSome = false := hfree
      change (if c.activeTaskId.isSome then Standing.busy else .idle contextId) = _
      rw [hfree]
      rfl
  rintro row k₁ ⟨htold, hfree⟩
  split
  · exact hschedule k₁ 30 htold
  rename_i hnone
  have hfree := hfree (by simpa using hnone)
  refine .bind (Q := fun task k' => k'.told = none ∧
    (task.isSome = false → k'.standing = .done contextId)) ?_ ?_
  · refine Contract.conforms_perform trivial (fun task _ => ?_) fun _ _ => htold
    cases task with
    | some t => exact ⟨htold, fun h => by cases h⟩
    | none =>
      change (k₁.next contextId none).told = none ∧
        (_ → (k₁.next contextId none).standing = .done contextId)
      unfold Watch.next
      rcases hfree with hidle | hdone
      · rw [if_pos hidle]
        exact ⟨htold, fun _ => rfl⟩
      · rw [if_neg (by rw [hdone]; exact fun h => by cases h)]
        exact ⟨htold, fun _ => hdone⟩
  rintro task k₂ ⟨htold, hdone⟩
  split
  · exact hschedule k₂ 0 htold
  · rename_i hnone
    exact Contract.conforms_pure ⟨hdone (by simpa using hnone), htold⟩

lemma watched_runOnceCleanup {P : Watch → Prop} (hP : P k) :
    watch.Conforms (runOnceCleanup cfg contextId claim) (fun _ => P) P k := by
  refine .bind (Q := fun _ => P) (Contract.conforms_perform trivial (fun _ _ => hP) fun _ _ => hP)
    fun _ k₁ hP => ?_
  split
  · refine .tryCatch (H := P) (Contract.conforms_perform trivial (fun _ _ => hP) fun _ _ => hP) ?_
    exact fun _ _ h => Contract.conforms_pure h
  · exact Contract.conforms_pure hP

/-- A wakeup's program that returns has seen to its context. -/
lemma watched_runOnce (hown : k.own = some contextId) (htold : k.told = none) :
    watch.Conforms (runOnce cfg contextId)
      (fun _ k' => k'.standing = .done contextId ∧ k'.told = none) (fun _ => True) k := by
  refine .bind (Q := fun _ k' => k'.own = some contextId ∧ k'.told = none)
    (Contract.conforms_perform trivial (fun _ _ => ⟨hown, htold⟩) fun _ _ => trivial) ?_
  rintro granted k₁ ⟨hown, htold⟩
  split
  · exact Contract.conforms_throw trivial
  refine .ensure (Q := fun _ k' => k'.standing = .done contextId ∧ k'.told = none)
    (E := fun _ => True) ?_ (fun _ _ h => (watched_runOnceCleanup h).mono (fun _ _ h => h)
      fun _ _ => trivial) fun _ _ => (watched_runOnceCleanup (P := fun _ => True) trivial)
  refine .bind (Q := fun row k' => k'.own = some contextId ∧ k'.told = none ∧
    (∀ c ∈ row, c.contextId = contextId) ∧ (row = none → k'.standing = .done contextId)) ?_ ?_
  · refine Contract.conforms_perform trivial (fun row hid => ?_) fun _ _ => trivial
    refine ⟨Watch.learn_own.trans hown,
      (Watch.learn_told fun a h => by cases h).trans htold, ?_, ?_⟩
    · rintro c rfl
      exact hid
    · rintro rfl
      rfl
  rintro row k₂ ⟨hown, htold, hid, hnone⟩
  split
  · exact Contract.conforms_pure ⟨hnone rfl, htold⟩
  rename_i context
  have hid := hid context rfl
  subst hid
  refine .bind ((watched_reconcileContext hown htold).mono (fun _ _ h => h) fun _ _ => trivial) ?_
  rintro _ k₃ ⟨-, htold⟩
  exact (watched_scheduleNext htold).mono (fun _ _ h => h) fun _ _ => trivial

lemma Plain.aside (h : Plain c) : Aside c := by
  cases c with
  | query q => cases q <;> trivial
  | _ => trivial

lemma Viewing.aside (h : Viewing c) : Aside c := h.plain.aside

lemma Continuing.aside (h : Continuing c) : Aside c := by
  cases c with
  | query q => cases q <;> trivial
  | _ => trivial

lemma Cancelling.aside (h : Cancelling c) : Aside c := h.plain.aside

/-! ### Sends -/

/-- The task a send was told of, before it asks for a wakeup; one that was found again is none. -/
def Watch.Told (c : ContextRow) (t : TaskRow) (k : Watch) : Prop :=
  k.told = none ∨ k.told = some (c.contextId, t.taskId) ∧
    (t.internalState = .terminal → k.announced = some t.taskId)

lemma Watch.Announced.of_none (h : k.told = none) : k.Announced := by
  intro x t ht
  rw [h] at ht
  cases ht

lemma Watch.Announced.learn (h : k.Announced) (hc : Aside c) : (k.learn c r).Announced := by
  intro x t ht
  rw [Watch.learn_told hc.admits] at ht
  have hann := h x t ht
  unfold Watch.learn
  split
  · unfold Watch.read
    split <;> exact hann
  · unfold Watch.next
    split
    · split <;> exact hann
    · exact hann
  · exact hann
  · exact hc.elim
  · simp only [Watch.scheduled, ht, Option.elim_some, hann, ite_self]
  · exact hann

/-- Once the wakeup is asked for, a program may go on asking. -/
lemma announced_aside {α : Type} {p : Program α} (hp : p.Every Aside) (hk : k.Announced) :
    watch.Conforms p (fun _ => Announced) (fun _ => True) k :=
  (hp.conforms (C := watch) hk (fun _ h => h.allowed) fun h hc _ => h.learn hc).mono
    (fun _ _ h => h) fun _ _ => trivial

lemma watched_admitInput {a : Admission} (htold : k.told = none) :
    watch.Conforms (Service.admitInput a)
      (fun o k' => match o with
        | none => k'.told = none
        | some (c, t, _) => k'.Told c t)
      (fun _ => True) k := by
  have hfind : (Service.findAdmitted a).Every Aside := by
    unfold Service.findAdmitted
    split <;> exact Prog.every_perform trivial
  have hrecover : (Service.recover a).Every Aside := by
    refine hfind.bind fun context => ?_
    split
    · exact .throw
    · refine every_ask trivial fun task => ?_
      split
      · exact .throw
      · exact .pure
  refine .tryCatch (H := fun k' => k'.told = none) (.map (Q := fun v k' => k'.Told v.1 v.2.1)
    (.tryCatch (H := fun k' => k'.told = none) ?_ ?_) fun _ _ h => h) ?_
  · refine Contract.conforms_perform htold (fun v _ => ?_) fun _ _ => htold
    obtain ⟨c, t, created⟩ := v
    refine .inr ⟨rfl, fun hterminal => ?_⟩
    exact if_pos hterminal
  · intro e k₁ htold
    cases e with
    | uniqueViolation =>
      exact (watched_aside hrecover htold).mono (fun _ _ h => .inl h) fun _ h => h
    | _ => exact Contract.conforms_throw htold
  · intro e k₁ htold
    cases e with
    | keyError =>
      exact .bind (Contract.conforms_perform (Q := fun _ k' => k'.told = none) trivial
        (fun _ _ => htold) fun _ _ => trivial) fun _ _ h => Contract.conforms_pure h
    | _ =>
      exact .bind (Contract.conforms_perform (Q := fun _ k' => k'.told = none) trivial
        (fun _ _ => htold) fun _ _ => trivial) fun _ _ _ => Contract.conforms_throw trivial

/-- A send that returns has asked for a wakeup, unless its task is over. -/
lemma watched_sendTurn {requested : Option ContextId} {messageId : MessageId} {body : Text}
    {view : TaskViewOptions} (htold : k.told = none) :
    watch.Conforms (Service.sendTurn str requested messageId body view) (fun _ => Announced)
      (fun _ => True) k := by
  have hquiet : ∀ {c : Call} {k : Watch}, Aside c → k.told = none →
      watch.Conforms (perform c) (fun _ k' => k'.told = none) (fun _ => True) k :=
    fun hc htold => (watched_aside (Prog.every_perform hc) htold).mono (fun _ _ h => h)
      fun _ _ => trivial
  refine .bind (hquiet trivial htold) fun key k₁ h₁ => .bind (hquiet trivial h₁) fun _ k₂ h₂ =>
    .bind (hquiet trivial h₂) fun _ k₃ h₃ => .bind (hquiet trivial h₃) fun _ k₄ h₄ =>
    .bind (watched_admitInput h₄) fun admitted k₅ h₅ => ?_
  split
  · exact Contract.conforms_pure (.of_none h₅)
  rename_i context task created
  have h₅ : k₅.Told context task := h₅
  refine .bind (Q := fun _ => Watch.Told context task) ?_ fun _ k₆ h₆ => ?_
  · unfold Service.discardUnless
    split
    · exact Contract.conforms_pure h₅
    · exact Contract.conforms_perform trivial (fun _ _ => h₅) fun _ _ => trivial
  refine .bind (Q := fun _ => Announced) ?_ fun _ k₇ h₇ =>
    announced_aside (viewing_getTask.mono Viewing.aside) h₇
  unfold Service.wake
  split
  · rename_i hterminal
    refine Contract.conforms_pure fun x t ht => ?_
    rcases h₆ with hnone | ⟨htold, hann⟩
    · rw [hnone] at ht
      cases ht
    · rw [htold] at ht
      cases ht
      exact hann (by simpa using hterminal)
  · refine Contract.conforms_perform trivial (fun _ _ x t ht => ?_) fun _ _ => trivial
    have ht : k₆.told = some (x, t) := ht
    rcases h₆ with hnone | ⟨htold, -⟩
    · rw [hnone] at ht
      cases ht
    · change (k₆.scheduled context.contextId).announced = some t
      rw [htold] at ht
      cases ht
      simp only [Watch.scheduled, htold, Option.elim_some, if_pos]

/-- **Every program settles its wakeups** before it returns. -/
theorem watched_program (l : Errand) :
    watch.Conforms l.program (fun _ => Done l) (fun _ => True) l.watch := by
  have hsettled : ∀ {p : Program Unit}, l.record = none →
      watch.Conforms p (fun _ => Announced) (fun _ => True) l.watch →
      watch.Conforms p (fun _ => Done l) (fun _ => True) l.watch := by
    refine fun hnone hp => hp.mono (fun _ k h => ⟨fun x hx => ?_, h⟩) fun _ h => h
    rw [hnone] at hx
    cases hx
  cases l with
  | wakeup cfg contextId =>
    refine (watched_runOnce rfl rfl).mono (fun _ k h => ⟨fun x hx => ?_, .of_none h.2⟩) fun _ h => h
    cases hx
    exact h.1
  | resolve cfg taskId resolution verified =>
    exact hsettled rfl (announced_aside (plain_resolve.mono Plain.aside) (.of_none rfl))
  | send str message historyLength options =>
    refine hsettled rfl (.bind (Q := fun _ => Announced) ?_ fun answer k h => ?_)
    · unfold Service.send
      split
      · exact Contract.conforms_pure (.of_none rfl)
      split
      · split
        · exact announced_aside (continuing_continue.mono Continuing.aside) (.of_none rfl)
        · split
          · exact Contract.conforms_pure (.of_none rfl)
          · exact watched_sendTurn rfl
      · exact Contract.conforms_pure (.of_none rfl)
    · split
      · exact Contract.conforms_pure h
      · exact Contract.conforms_throw trivial
  | get str taskId historyLength options =>
    exact hsettled rfl (announced_aside (every_answered (viewing_getTask.mono Viewing.aside))
      (.of_none rfl))
  | cancel str cfg taskId options =>
    exact hsettled rfl (announced_aside (every_answered (cancelling_cancel.mono Cancelling.aside))
      (.of_none rfl))

/-! ### One call -/

section

variable {db db' : Db} {fresh : ℕ} {q : Query} {w w' : World} {a : Actor}

lemma exec_getContext {row : Option ContextRow}
    (h : environment.exec w a (.query (.getContext contextId)) (.ok row) w') :
    row = w.db.context contextId ∧ w'.db = w.db := by
  have hrun : Except.ok (w.db.contexts.get? contextId, w.db) = Except.ok (row, w'.db) := exec_ok h
  simp only [Except.ok.injEq, Prod.mk.injEq] at hrun
  exact ⟨hrun.1.symm, hrun.2.symm⟩

/-- The caller has asked for a wakeup of the context, and was told so. -/
def Posted (c : Call) (r : Except Exn c.Reply) (contextId : ContextId) : Prop :=
  c.posts = some contextId ∧ ∃ v, r = .ok v

/-- Active tasks are minded as long as the caller can tell that there may be one. -/
lemma Watch.Minds.learn (h : k.Minds contextId) (he : environment.exec w a c r w') :
    (k.learn c r).Minds contextId ∨
      (∀ row, w'.db.context contextId = some row → row.activeTaskId.isSome = false) ∨
      Posted c r contextId := by
  unfold Watch.learn
  split
  · rename_i y row
    obtain ⟨rfl, hdb⟩ := exec_getContext he
    by_cases hy : y = contextId
    · subst hy
      by_cases hbusy : ∃ row, w.db.context y = some row ∧ row.activeTaskId.isSome = true
      · obtain ⟨row, hrow, hactive⟩ := hbusy
        refine .inl ?_
        simp [Watch.Minds, Watch.read, hrow, hactive]
      · refine .inr (.inl fun row hrow => ?_)
        rw [hdb] at hrow
        exact Bool.eq_false_iff.mpr fun hactive => hbusy ⟨row, hrow, hactive⟩
    · refine .inl ?_
      unfold Watch.read
      split
      · simp [Watch.Minds, hy]
      · simp only [Watch.Minds]
        split <;> simp [hy]
  · rename_i y row
    refine .inl ?_
    unfold Watch.next
    split
    · split
      · rename_i hidle
        have hne : y ≠ contextId := by
          rintro rfl
          exact h.1 hidle
        simp [Watch.Minds, hne]
      · exact h
    · exact h
  · exact .inl ⟨fun h => (by cases h), fun h => by cases h⟩
  · exact .inl h
  · rename_i y delay v
    by_cases hy : y = contextId
    · exact .inr (.inr ⟨congrArg some hy, _, rfl⟩)
    · refine .inl ?_
      simp [Watch.Minds, Watch.scheduled, hy]
  · exact .inl h

/-- So are queued ones. -/
lemma Watch.Heeds.learn (h : k.Heeds contextId) (hwf : w.db.WellFormed)
    (he : environment.exec w a c r w') :
    (k.learn c r).Heeds contextId ∨
      (∀ t row, w'.db.task t = some row → row.contextId = contextId →
        row.internalState ≠ .queued) ∨
      Posted c r contextId := by
  unfold Watch.learn
  split
  · rename_i y row
    obtain ⟨rfl, hdb⟩ := exec_getContext he
    unfold Watch.read
    split
    · rename_i hnone
      by_cases hy : y = contextId
      · subst hy
        refine .inr (.inl fun t row hrow hof => ?_)
        rw [hdb] at hrow
        obtain ⟨c, hc, -⟩ := hwf.home hrow
        rw [hof] at hc
        exact absurd (hc.symm.trans hnone) (by simp)
      · exact .inl (by simp [Watch.Heeds, hy])
    · refine .inl ?_
      simp only [Watch.Heeds]
      split <;> simp
  · rename_i y row
    have hrun := exec_ok he
    unfold Watch.next
    split
    · split
      · by_cases hy : y = contextId
        · subst hy
          refine .inr (.inl fun t row hrow hof hqueued => ?_)
          rw [(nextQueued_ok hrun).1] at hrow
          exact nextQueued_none hrun hrow hof hqueued
        · exact .inl (by simp [Watch.Heeds, hy])
      · exact .inl h
    · exact .inl h
  · exact .inl fun h => by cases h
  · exact .inl h
  · rename_i y delay v
    by_cases hy : y = contextId
    · exact .inr (.inr ⟨congrArg some hy, _, rfl⟩)
    · refine .inl ?_
      simp [Watch.Heeds, Watch.scheduled, hy]
  · exact .inl h

/-- What a program was told of is there. -/
lemma Watch.learn_told_there {x : ContextId} {taskId : TaskId}
    (he : environment.exec w a c r w') (h : (k.learn c r).told = some (x, taskId)) :
    k.told = some (x, taskId) ∨ ∃ t, w'.db.task taskId = some t ∧ t.contextId = x := by
  by_cases hadmission : ∃ ad, c = .query (.admitTurn ad)
  · obtain ⟨ad, rfl⟩ := hadmission
    cases r with
    | error e => exact .inl h
    | ok v =>
      obtain ⟨c, t, created⟩ := v
      obtain ⟨ht, hof⟩ := admitTurn_row (exec_ok he)
      cases h
      exact .inr ⟨t, ht, hof⟩
  · rw [Watch.learn_told fun ad h => hadmission ⟨ad, h⟩] at h
    exact .inl h

/-- A task is announced when it is over, or a wakeup has been asked for. -/
lemma Watch.learn_announced {taskId : TaskId} (he : environment.exec w a c r w')
    (h : (k.learn c r).announced = some taskId) :
    k.announced = some taskId ∧ (k.learn c r).told = k.told ∨
      (∃ x, (k.learn c r).told = some (x, taskId)) ∧
        ((∃ t, w'.db.task taskId = some t ∧ t.internalState = .terminal) ∨
          ∃ x, k.told = some (x, taskId) ∧ Posted c r x) := by
  cases c with
  | query q =>
    cases q with
    | admitTurn ad =>
      cases r with
      | error e => exact .inl ⟨h, rfl⟩
      | ok v =>
        obtain ⟨c, t, created⟩ := v
        obtain ⟨ht, -⟩ := admitTurn_row (exec_ok he)
        simp only [Watch.learn, Watch.admitted] at h
        split at h
        · rename_i hover
          cases h
          exact .inr ⟨⟨_, rfl⟩, .inl ⟨t, ht, hover⟩⟩
        · cases h
    | getContext y =>
      rcases r with e | row
      · exact .inl ⟨h, rfl⟩
      · cases row <;> exact .inl ⟨h, rfl⟩
    | nextQueued y =>
      rcases r with e | row
      · exact .inl ⟨h, rfl⟩
      · refine .inl ⟨?_, Watch.learn_told fun a h => by cases h⟩
        cases row with
        | some t => exact h
        | none =>
          simp only [Watch.learn, Watch.next] at h
          split at h <;> exact h
    | _ => cases r <;> exact .inl ⟨h, rfl⟩
  | schedule y delay =>
    cases r with
    | error e => exact .inl ⟨h, rfl⟩
    | ok v =>
      simp only [Watch.learn, Watch.scheduled] at h
      cases htold : k.told with
      | none =>
        rw [htold] at h
        exact .inl ⟨h, htold⟩
      | some told =>
        obtain ⟨x, t⟩ := told
        rw [htold] at h
        simp only [Option.elim_some] at h
        split at h
        · rename_i hx
          cases h
          exact .inr ⟨⟨x, htold⟩, .inr ⟨x, rfl, congrArg some hx.symm, _, rfl⟩⟩
        · exact .inl ⟨h, htold⟩
  | _ => cases r <;> exact .inl ⟨h, rfl⟩

end

/-! ### Every run -/

/-- The program that was told of the task its admission made or found, with the task. -/
def Entry.told : Entry → Option (ℕ × TaskRow)
  | ⟨.worker i, .query (.admitTurn _), .ok (_, t, _), _, _, _⟩ => some (i, t)
  | _ => none

lemma Entry.told_eq {e : Entry} {i : ℕ} {t : TaskRow} (h : e.told = some (i, t)) :
    ∃ a c created committed before after,
      e = ⟨.worker i, .query (.admitTurn a), .ok (c, t, created), committed, before, after⟩ := by
  unfold Entry.told at h
  split at h
  · cases h
    exact ⟨_, _, _, _, _, _, rfl⟩
  · cases h

abbrev Watching : Staff → (ℕ → Option Watch) → Prop :=
  Crew.Tracked works environment watch Errand.watch Done {}

/-- Whatever is to be done is minded. -/
structure Watched (s : Staff) (knows : ℕ → Option Watch) : Prop where
  own : ∀ {i k}, knows i = some k → ∃ l, s.job i = some l ∧ l.record = k.own
  active : ∀ {x c}, s.world.db.context x = some c → c.activeTaskId.isSome = true →
    Crew.Minded works Watch.Minds s knows x
  queued : ∀ {i k taskId t}, knows i = some k → k.announced = some taskId →
    s.world.db.task taskId = some t → t.internalState = .queued →
    Crew.Minded works Watch.Heeds s knows t.contextId
  told : ∀ {i k x taskId}, knows i = some k → k.told = some (x, taskId) →
    ∃ t, s.world.db.task taskId = some t ∧ t.contextId = x
  announced : ∀ {i k taskId}, knows i = some k → k.announced = some taskId →
    ∃ x, k.told = some (x, taskId)
  logged : ∀ {i k e t}, knows i = some k → e ∈ s.world.log → e.told = some (i, t) →
    ∃ x, k.told = some (x, t.taskId)
  started : ∀ {e i}, e ∈ s.world.log → e.actor = .worker i → i < s.started

namespace Watched

variable {s : Staff} {knows : ℕ → Option Watch} {i : ℕ} {l : Errand} (waiting : ContextId → ℕ)

/-- A new program knows nothing, and takes nothing from what is minded. -/
lemma join (h : Watched s knows)
    (hmind : ∀ {minds : ContextId → Watch → Prop} {x}, (∀ y, minds y l.watch) →
      Crew.Minded works minds s knows x → Crew.Minded works minds
        { s.hire works l with waiting := waiting }
        (Function.update knows s.started (some l.watch)) x) :
    Watched { s.hire works l with waiting := waiting }
      (Function.update knows s.started (some l.watch)) := by
  have hheeds : ∀ y, l.watch.Heeds y := fun y h => by cases h
  have hminds : ∀ y, l.watch.Minds y := fun y => ⟨fun h => (by cases h), fun h => (by cases h)⟩
  have hknows : ∀ {j k}, Function.update knows s.started (some l.watch) j = some k →
      j = s.started ∧ k = l.watch ∨ j ≠ s.started ∧ knows j = some k := by
    intro j k hk
    rw [Function.update_apply] at hk
    split at hk
    · exact .inl ⟨‹_›, (Option.some.inj hk).symm⟩
    · exact .inr ⟨‹_›, hk⟩
  constructor
  · intro j k hk
    dsimp only [Crew.hire]
    rcases hknows hk with ⟨rfl, rfl⟩ | ⟨hj, hk⟩
    · exact ⟨l, Function.update_self _ _ _, rfl⟩
    · rw [Function.update_of_ne hj]
      exact h.own hk
  · exact fun hc hactive => hmind hminds (h.active hc hactive)
  · intro j k taskId t hk hann ht hqueued
    rcases hknows hk with ⟨-, rfl⟩ | ⟨-, hk⟩
    · cases hann
    · exact hmind hheeds (h.queued hk hann ht hqueued)
  · intro j k x taskId hk htold
    rcases hknows hk with ⟨-, rfl⟩ | ⟨-, hk⟩
    · cases htold
    · exact h.told hk htold
  · intro j k taskId hk hann
    rcases hknows hk with ⟨-, rfl⟩ | ⟨-, hk⟩
    · cases hann
    · exact h.announced hk hann
  · intro j k e t hk he hadmits
    rcases hknows hk with ⟨rfl, -⟩ | ⟨-, hk⟩
    · obtain ⟨_, _, _, _, _, _, rfl⟩ := Entry.told_eq hadmits
      exact absurd (h.started he rfl) (Nat.lt_irrefl _)
    · exact h.logged hk he hadmits
  · exact fun he hactor => Nat.lt_succ_of_lt (h.started he hactor)

/-- A program that is gone takes nothing from what is minded. -/
lemma leave (h : Watched s knows)
    (hmind : ∀ {minds : ContextId → Watch → Prop} {x},
      (∀ y k, k.standing = .done y → ¬minds y k) →
      Crew.Minded works minds s knows x → Crew.Minded works minds
        { s.discharge i with waiting := waiting } (Function.update knows i none) x) :
    Watched { s.discharge i with waiting := waiting } (Function.update knows i none) := by
  have hknows : ∀ {j k}, Function.update knows i none j = some k → knows j = some k := by
    intro j k hk
    rw [Function.update_apply] at hk
    split at hk
    · cases hk
    · exact hk
  constructor
  · exact fun hk => h.own (hknows hk)
  · exact fun hc hactive => hmind (fun y k hdone h => h.2 hdone) (h.active hc hactive)
  · exact fun hk hann ht hqueued =>
      hmind (fun y k hdone h => h hdone) (h.queued (hknows hk) hann ht hqueued)
  · exact fun hk htold => h.told (hknows hk) htold
  · exact fun hk hann => h.announced (hknows hk) hann
  · exact fun hk he hadmits => h.logged (hknows hk) he hadmits
  · exact h.started

/-- One call: what becomes active is minded by its caller, what is asked for waits, and what the
caller stops minding is not there. -/
lemma proceed (h : Watched s knows) (hs : Serves s) {c : Call}
    {next : Except Exn c.Reply → Program Unit} {r : Except Exn c.Reply} {w' : World} {k : Watch}
    (hi : s.thread i = some (.call c next)) (hk : knows i = some k) (hallow : k.allowed c)
    (hc : environment.exec s.world (.worker i) c r w') (hle : ∀ x, s.waiting x ≤ waiting x)
    (hposted : ∀ x, Posted c r x → 0 < waiting x) :
    Watched { s.proceed i (next r) w' with waiting := waiting }
      (Function.update knows i (some (k.learn c r))) := by
  obtain ⟨l, hl, hown⟩ := h.own hk
  have hminds : ∀ {x row}, w'.db.context x = some row → row.activeTaskId.isSome = true →
      Crew.Minded works Watch.Minds s knows x →
      Crew.Minded works Watch.Minds { s.proceed i (next r) w' with waiting := waiting }
        (Function.update knows i (some (k.learn c r))) x := by
    intro x row hrow hactive hminded
    refine hminded.proceed hk (hle x) fun _ hmind => ?_
    rcases hmind.learn hc with hmind | hidle | hpost
    · exact .inl hmind
    · rw [hidle row hrow] at hactive
      cases hactive
    · exact .inr (hposted x hpost)
  have hheeds : ∀ {x taskId t}, w'.db.task taskId = some t → t.contextId = x →
      t.internalState = .queued → Crew.Minded works Watch.Heeds s knows x →
      Crew.Minded works Watch.Heeds { s.proceed i (next r) w' with waiting := waiting }
        (Function.update knows i (some (k.learn c r))) x := by
    intro x taskId t ht hof hqueued hminded
    refine hminded.proceed hk (hle x) fun _ hmind => ?_
    rcases hmind.learn hs.wellFormed hc with hmind | hempty | hpost
    · exact .inl hmind
    · exact absurd hqueued (hempty taskId t ht hof)
    · exact .inr (hposted x hpost)
  have hknows : ∀ {j kj}, Function.update knows i (some (k.learn c r)) j = some kj →
      j = i ∧ kj = k.learn c r ∨ j ≠ i ∧ knows j = some kj := by
    intro j kj hkj
    rw [Function.update_apply] at hkj
    split at hkj
    · exact .inl ⟨‹_›, (Option.some.inj hkj).symm⟩
    · exact .inr ⟨‹_›, hkj⟩
  obtain ⟨q, heff, -, hmove, hq⟩ := hs.core hi hc
  obtain ⟨committed, hlog⟩ := exec_noted hc
  -- a task announced before is queued now
  have hstill : ∀ {j kj taskId t}, knows j = some kj → kj.announced = some taskId →
      w'.db.task taskId = some t → t.internalState = .queued →
      Crew.Minded works Watch.Heeds { s.proceed i (next r) w' with waiting := waiting }
        (Function.update knows i (some (k.learn c r))) t.contextId := by
    intro j kj taskId t hkj hann ht hqueued
    obtain ⟨x, htold⟩ := h.announced hkj hann
    obtain ⟨t₀, ht₀, -⟩ := h.told hkj htold
    rcases heff.queued hmove ht hqueued with ⟨t₁, ht₁, hof, hstate⟩ | hnone
    · refine hheeds ht rfl hqueued ?_
      rw [← hof]
      rcases hstate with hqueued | ⟨c₁, hc₁, hactive⟩
      · exact h.queued hkj hann ht₁ hqueued
      · exact (h.active hc₁ (by rw [hactive]; rfl)).mono fun _ hmind => hmind.2
    · rw [ht₀] at hnone
      cases hnone
  constructor
  · intro j kj hkj
    dsimp only [Crew.proceed]
    rcases hknows hkj with ⟨rfl, rfl⟩ | ⟨-, hkj⟩
    · exact ⟨l, hl, hown.trans Watch.learn_own.symm⟩
    · exact h.own hkj
  · intro x row hrow hactive
    obtain ⟨taskId, htaskId⟩ := Option.isSome_iff_exists.mp hactive
    rcases heff.active hmove hrow htaskId with ⟨row₀, hrow₀, hactive₀⟩ | ⟨claim, e, t, rfl, -, -⟩
    · exact hminds hrow hactive (h.active hrow₀ (by rw [hactive₀]; rfl))
    · -- an activation: the caller serves this context
      rcases hq with rfl | hq
      · have hx : k.own = some x := hallow
        exact .own hl (hown.trans hx) ⟨fun h => (by cases h), fun h => (by cases h)⟩
      · cases hq
  · intro j kj taskId t hkj hann ht hqueued
    rcases hknows hkj with ⟨rfl, rfl⟩ | ⟨-, hkj⟩
    · rcases Watch.learn_announced hc hann with
        ⟨hann, -⟩ | ⟨-, ⟨t', ht', hover⟩ | ⟨x, htold, hpost⟩⟩
      · exact hstill hk hann ht hqueued
      · have ht : w'.db.task taskId = some t := ht
        rw [ht, Option.some.injEq] at ht'
        subst ht'
        rw [hover] at hqueued
        cases hqueued
      · obtain ⟨t₀, ht₀, hof⟩ := h.told hk htold
        obtain ⟨t₁, ht₁, hof₁⟩ := heff.task_stays ht₀
        have ht : w'.db.task taskId = some t := ht
        rw [ht, Option.some.injEq] at ht₁
        subst ht₁
        refine .inl ?_
        rw [hof₁, hof]
        exact hposted x hpost
    · exact hstill hkj hann ht hqueued
  · intro j kj x taskId hkj htold
    have hstays : ∀ {t₀}, s.world.db.task taskId = some t₀ → t₀.contextId = x →
        ∃ t, w'.db.task taskId = some t ∧ t.contextId = x := by
      intro t₀ ht₀ hof
      obtain ⟨t, ht, hof'⟩ := heff.task_stays ht₀
      exact ⟨t, ht, hof'.trans hof⟩
    rcases hknows hkj with ⟨rfl, rfl⟩ | ⟨-, hkj⟩
    · rcases Watch.learn_told_there hc htold with htold | hthere
      · obtain ⟨t₀, ht₀, hof⟩ := h.told hk htold
        exact hstays ht₀ hof
      · exact hthere
    · obtain ⟨t₀, ht₀, hof⟩ := h.told hkj htold
      exact hstays ht₀ hof
  · intro j kj taskId hkj hann
    rcases hknows hkj with ⟨rfl, rfl⟩ | ⟨-, hkj⟩
    · rcases Watch.learn_announced hc hann with ⟨hann, hsame⟩ | ⟨htold, -⟩
      · rw [hsame]
        exact h.announced hk hann
      · exact htold
    · exact h.announced hkj hann
  · intro j kj e t hkj he hadmits
    have he : e ∈ w'.log := he
    rw [hlog, List.mem_cons] at he
    rcases hknows hkj with ⟨rfl, rfl⟩ | ⟨hj, hkj⟩
    · rcases he with rfl | he
      · obtain ⟨ad, c₁, created, committed', before, after, heq⟩ := Entry.told_eq hadmits
        cases heq
        exact ⟨_, rfl⟩
      · obtain ⟨x, htold⟩ := h.logged hk he hadmits
        refine ⟨x, (Watch.learn_told ?_).trans htold⟩
        rintro ad rfl
        have hnone : k.told = none := hallow
        rw [htold] at hnone
        cases hnone
    · rcases he with rfl | he
      · obtain ⟨ad, c₁, created, committed', before, after, heq⟩ := Entry.told_eq hadmits
        cases heq
        exact absurd rfl hj
      · exact h.logged hkj he hadmits
  · intro e j he hactor
    have he : e ∈ w'.log := he
    rw [hlog, List.mem_cons] at he
    rcases he with rfl | he
    · cases hactor
      by_contra hstarted
      rw [Crew.Reachable.started hs (Nat.not_lt.mp hstarted)] at hi
      cases hi
    · exact h.started he hactor

/-- In every run. -/
theorem of_watching {knows : ℕ → Option Watch} (h : Watching s knows) : Watched s knows := by
  induction h with
  | init =>
    exact ⟨fun hk => (by cases hk), fun hc => (by cases hc), fun hk => (by cases hk),
      fun hk => (by cases hk), fun hk => (by cases hk), fun hk => (by cases hk),
      fun he => (by cases he)⟩
  | @start s knows l hs hl ih =>
    exact ih.join s.waiting fun _ hmind =>
      hmind.hire (hs.reachable.started (Nat.le_refl _)) _
  | deliver hs hl hx ih =>
    exact ih.join _ fun hstart hmind =>
      hmind.deliver (hs.reachable.started (Nat.le_refl _)) hl (hstart _)
  | @call s knows i k c next r w' hs hi hk ha hp hc hquiet ih =>
    refine ih.proceed s.waiting hs.reachable hi hk ha hc (fun _ => Nat.le_refl _) ?_
    rintro x ⟨hposts, v, rfl⟩
    rcases hquiet with hnone | ⟨e, he⟩
    · have hnone : c.posts = none := hnone
      rw [hposts] at hnone
      cases hnone
    · cases he
  | @send s knows i k c next r w' hs hi hk ha hp hc ih =>
    refine ih.proceed _ hs.reachable hi hk ha hc (Crew.le_add _ _) ?_
    rintro x ⟨hposts, -⟩
    have hposts : works.posts c = some x := hposts
    rw [hposts]
    exact Crew.add_pos _ _
  | @settle s knows i k l x hs hi hl hx hk hQ ih =>
    refine ih.leave s.waiting fun hdone hmind => hmind.settle hk hl fun y hy => ?_
    exact hdone y k (hQ.1 y hy)
  | drop hs hl hi ih => exact ih.leave _ fun _ hmind => hmind.drop hl
  | post hs x ih =>
    exact ⟨ih.own, fun hc ha => (ih.active hc ha).post x,
      fun hk ha ht hq => (ih.queued hk ha ht hq).post x, ih.told, ih.announced, ih.logged,
      ih.started⟩
  | drift hs hd ih =>
    obtain ⟨now, history, -, rfl⟩ := hd
    exact ⟨ih.own, ih.active, ih.queued, ih.told, ih.announced, ih.logged, ih.started⟩

end Watched

/-- **No lost wakeup.** As long as a task is not over, and a program that was told of it when it was
admitted has returned, a wakeup of its context waits or is being processed. -/
theorem no_lost_wakeup {s : Staff} (hs : Serves s) {i : ℕ} {e : Entry} {t task : TaskRow}
    (hreturned : s.thread i = some (.ret ())) (he : e ∈ s.world.log) (htold : e.told = some (i, t))
    (htask : s.world.db.task t.taskId = some task) (hlive : task.internalState ≠ .terminal) :
    Crew.Outstanding works s task.contextId := by
  obtain ⟨knows, hwatching, hkeeps⟩ : ∃ knows, Watching s knows ∧
      Crew.Keeps watch Done s knows :=
    Crew.tracks watched_program (fun hs hc => Serves.possible hs hc) hs
  have hwatched := Watched.of_watching hwatching
  obtain ⟨l, k, -, hk, -, hann⟩ := hkeeps i _ hreturned
  obtain ⟨x, hx⟩ := hwatched.logged hk he htold
  by_cases hqueued : task.internalState = .queued
  · exact (hwatched.queued hk (hann x _ hx) htask hqueued).outstanding
  · obtain ⟨c, hc, hactive⟩ := hs.wellFormed.single htask hqueued hlive
    exact (hwatched.active hc (by rw [hactive]; rfl)).outstanding

/-- The only wakeup of a first turn is with a worker that has just activated it. -/
theorem no_lost_wakeup_dispatching : ∃ s task, Serves s ∧ s.world.db.task 2 = some task ∧
    task.internalState = .dispatching ∧ s.waiting 1 = 0 ∧
    Crew.Outstanding works s task.contextId := by
  have hplay : ((stage.play works {} (.start (turn 100) ::
      turns 0 [.run, .run, .run, .run, .run, .done, .run, .run, .run, .run] ++
      .deliver (.wakeup demo 1) :: turns 1 [.run, .run, .run, .run])).map fun s : Staff =>
        (s.returned 0,
          s.world.log.findSome? Entry.told, s.world.db.task 2, s.waiting 1)) =
      some (true,
        some (0,
          { taskId := 2, contextId := 1, messageId := 100, sequence := 1, a2aState := .submitted,
            internalState := .queued, inputObjectKey := some 0, dispatchAttempts := some 0 }),
        some
          { taskId := 2, contextId := 1, messageId := 100, sequence := 1, a2aState := .submitted,
            internalState := .dispatching, inputObjectKey := some 0, dispatchAttempts := some 1 },
        0) := by
    decide +kernel
  obtain ⟨s, -, hs, hval⟩ := stage.played _ hplay
  simp only [Prod.mk.injEq] at hval
  obtain ⟨hret, hlog, htask, hwaiting⟩ := hval
  obtain ⟨e, he, htold⟩ := List.exists_of_findSome?_eq_some hlog
  exact ⟨s, _, hs, htask, rfl, hwaiting,
    no_lost_wakeup hs (Crew.of_returned hret) he htold htask (by decide)⟩

end ManagedAgents.Controller
