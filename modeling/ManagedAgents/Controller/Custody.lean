import ManagedAgents.Controller.Routine

/-!
Who needs an object of the pending-input store, and who may delete it.

An object is stored under a fresh key, which is then handed over to one row: the input of a task or
the answer of a clarification. Until then only the program that drew the key knows it. A program
deletes what it stored when it believes that nothing came to need it, and what a row no longer
needs.
-/

namespace ManagedAgents.Controller

open ManagedAgents.Lib

/-- What an object is stored for. -/
inductive Holder
  | task (taskId : TaskId)
  | answer (requestId : RequestId)
  deriving DecidableEq

namespace Db

/-- The object is named by a row. -/
inductive Uses (db : Db) (key : ObjectKey) : Holder → Prop
  | task {taskId t} (ht : db.task taskId = some t) (hkey : t.inputObjectKey = some key) :
    Uses db key (.task taskId)
  | answer {row r} (hr : db.clarification row = some r) (hkey : r.answerObjectKey = some key) :
    Uses db key (.answer r.requestId)

/-- The task is not over, or its context has not noticed yet. -/
def Live (db : Db) (t : TaskRow) : Prop :=
  t.internalState ≠ .terminal ∨
    ∃ c, db.context t.contextId = some c ∧ c.activeTaskId = some t.taskId

/-- The object may still be read for a row. -/
inductive Wants (db : Db) (key : ObjectKey) : Holder → Prop
  | task {taskId t} (ht : db.task taskId = some t) (hkey : t.inputObjectKey = some key)
    (hlive : db.Live t) : Wants db key (.task taskId)
  | answer {row r} (hr : db.clarification row = some r) (hkey : r.answerObjectKey = some key)
    (hresolving : r.status = .resolving) (hnew : r.responseAttemptedAt = none) :
    Wants db key (.answer r.requestId)

variable {db : Db} {key : ObjectKey} {holder : Holder}

lemma Wants.uses (h : db.Wants key holder) : db.Uses key holder := by
  cases h with
  | task ht hkey => exact .task ht hkey
  | answer hr hkey => exact .answer hr hkey

end Db

/-- The object a query hands over, and to which row. -/
def Query.hands : Query → Option (ObjectKey × Holder)
  | .admitTurn a => some (a.inputObjectKey, .task a.proposedTaskId)
  | .decideClarificationRequest requestId _ answerKey => some (answerKey, .answer requestId)
  | _ => none

section

variable {db db' : Db} {fresh : ℕ} {q : Query} {key : ObjectKey} {holder : Holder}

/-- A task that names an object did before, and was live if it is, unless it was handed over. -/
lemma CoreEffect.task_before {taskId : TaskId} {t' : TaskRow} (heff : CoreEffect fresh db db' q)
    (hwf : db.WellFormed) (hmove : db.Move q) (ht' : db'.task taskId = some t')
    (hkey : t'.inputObjectKey = some key) :
    (∃ t, db.task taskId = some t ∧ t.inputObjectKey = some key ∧ (db'.Live t' → db.Live t)) ∨
      q.hands = some (key, .task taskId) := by
  have hlive : ∀ {t}, db.task taskId = some t → t.contextId = t'.contextId →
      (t'.internalState ≠ .terminal → db.Live t) → db'.Live t' → db.Live t := by
    rintro t ht hof hstate (h | ⟨c', hc', hactive⟩)
    · exact hstate h
    · have hid := (Db.task_id ht').trans (Db.task_id ht).symm
      rw [hid] at hactive
      rcases heff.active hmove hc' hactive with ⟨c, hc, hactive⟩ | ⟨_, _, u, -, hu, hqueued⟩
      · exact .inr ⟨c, hof ▸ hc, hactive⟩
      · rw [Db.task_id ht, ht, Option.some.injEq] at hu
        subst hu
        exact .inl (by rw [hqueued]; decide)
  -- a change of one task that keeps its object
  have hset : ∀ {y t₀ t₀'}, db.task y = some t₀ →
      db'.task = Function.update db.task y (some t₀') → t₀'.contextId = t₀.contextId →
      (t₀'.inputObjectKey = some key → t₀.inputObjectKey = some key) →
      (t₀'.inputObjectKey = some key → t₀'.internalState ≠ .terminal → db.Live t₀) →
      ∃ t, db.task taskId = some t ∧ t.inputObjectKey = some key ∧ (db'.Live t' → db.Live t) := by
    intro y t₀ t₀' ht₀ htask hof hkeeps hstate
    have ht'' := ht'
    rw [htask, Function.update_apply] at ht''
    split at ht''
    · rename_i hid
      cases ht''
      subst hid
      exact ⟨t₀, ht₀, hkeeps hkey, hlive ht₀ hof.symm (hstate hkey)⟩
    · exact ⟨t', ht'', hkey, hlive ht'' rfl .inl⟩
  cases heff with
  | same _ ht | opened _ _ _ ht | claimed _ _ _ ht | released _ _ _ ht | wroteContext _ _ _ _ ht =>
    rw [ht] at ht'
    exact .inl ⟨t', ht', hkey, hlive ht' rfl .inl⟩
  | @admitted a c t hctx hfresh hmessage hrow hc ht =>
    have ht'' := ht'
    rw [ht, Function.update_apply] at ht''
    split at ht''
    · rename_i hid
      cases ht''
      rw [hrow] at hkey
      cases hkey
      rw [hid]
      exact .inr rfl
    · exact .inl ⟨t', ht'', hkey, hlive ht'' rfl .inl⟩
  | @wroteTask y x claim f c t hctx hheld htask hc ht =>
    have hactive : c.activeTaskId = some t.taskId → db.Live t := by
      intro hactive
      obtain ⟨t₁, ht₁, hof, -⟩ := hwf.active hctx hactive
      rw [Db.task_id htask, htask, Option.some.injEq] at ht₁
      subst ht₁
      exact .inr ⟨c, hof ▸ hctx, hactive⟩
    cases hmove c t hctx htask with
    | hold hf =>
      refine .inl (hset htask ht rfl ?_ fun _ hstate => .inl ?_)
      · rw [TaskFields.set_isHold hf]
        exact id
      · rwa [TaskFields.set_isHold hf] at hstate
    | bind eventId hact hnew =>
      exact .inl (hset htask ht rfl (fun h => by cases h) fun h => by cases h)
    | status humanPending hact => exact .inl (hset htask ht rfl id fun _ _ => hactive hact)
    | interrupting now hact => exact .inl (hset htask ht rfl id fun _ _ => hactive hact)
    | finish hact hfinal => exact .inl (hset htask ht rfl id fun _ _ => hactive hact)
    | drop => exact .inl (hset htask ht rfl id fun _ h => absurd rfl h)
  | retried htask hctx _ hactive _ _ _ _ _ ht =>
    exact .inl (hset htask ht rfl id fun _ _ =>
      .inr ⟨_, hctx, by rw [hactive, Db.task_id htask]⟩)
  | failed htask hctx _ hactive _ _ ht =>
    exact .inl (hset htask ht rfl id fun _ _ => .inr ⟨_, hctx, by rw [hactive, Db.task_id htask]⟩)
  | activated _ _ _ htask _ hqueued _ ht =>
    exact .inl (hset htask ht rfl id fun _ _ => .inl (by rw [hqueued]; decide))
  | canceled htask hqueued _ ht =>
    exact .inl (hset htask ht rfl id fun _ _ => .inl (by rw [hqueued]; decide))
  | cancelRequested htask _ hnot _ ht => exact .inl (hset htask ht rfl id fun _ _ => .inl hnot)

/-- A clarification that has an answer had it before, unless it was handed over. -/
lemma ClarificationEffect.answer_before {row : TaskId × EventId} {r' : ClarificationRow}
    (heff : ClarificationEffect db db' q) (hr' : db'.clarification row = some r')
    (hkey : r'.answerObjectKey = some key) :
    (∃ r, db.clarification row = some r ∧ r.requestId = r'.requestId ∧
      r.answerObjectKey = some key ∧
      (r'.status = .resolving → r'.responseAttemptedAt = none →
        r.status = .resolving ∧ r.responseAttemptedAt = none)) ∨
      q.hands = some (key, .answer r'.requestId) := by
  rcases heff.origin hr' with ⟨r, hr, hchange⟩ | ⟨-, _, _, _, _, _, -, -, -, rfl⟩
  · cases hchange with
    | same => exact .inl ⟨r', hr, rfl, hkey, fun h h' => ⟨h, h'⟩⟩
    | decided hguard =>
      simp only [Db.answerable, Bool.and_eq_true, beq_iff_eq] at hguard
      cases hkey
      rw [hguard.1.1.1]
      exact .inr rfl
    | marked hguard => exact .inl ⟨r, hr, rfl, hkey, fun _ h => by cases h⟩
    | resolved hguard => exact .inl ⟨r, hr, rfl, hkey, fun h => by cases h⟩
  · cases hkey

/-- An object is used by who used it, or was handed over. -/
lemma Db.Uses.before (h : db'.Uses key holder) (hcore : CoreEffect fresh db db' q)
    (hclar : ClarificationEffect db db' q) (hwf : db.WellFormed) (hmove : db.Move q) :
    db.Uses key holder ∨ q.hands = some (key, holder) := by
  cases h with
  | task ht hkey =>
    exact (hcore.task_before hwf hmove ht hkey).imp_left fun ⟨t, ht, hkey, _⟩ => .task ht hkey
  | answer hr hkey =>
    rcases hclar.answer_before hr hkey with ⟨r, hr, hid, hkey, -⟩ | hhands
    · exact .inl (hid ▸ .answer hr hkey)
    · exact .inr hhands

/-- An object is wanted by who wanted it, or was handed over. -/
lemma Db.Wants.before (h : db'.Wants key holder) (hcore : CoreEffect fresh db db' q)
    (hclar : ClarificationEffect db db' q) (hwf : db.WellFormed) (hmove : db.Move q) :
    db.Wants key holder ∨ q.hands = some (key, holder) := by
  cases h with
  | task ht hkey hlive =>
    exact (hcore.task_before hwf hmove ht hkey).imp_left
      fun ⟨t, ht, hkey, hbefore⟩ => .task ht hkey (hbefore hlive)
  | answer hr hkey hresolving hnew =>
    rcases hclar.answer_before hr hkey with ⟨r, hr, hid, hkey, hbefore⟩ | hhands
    · obtain ⟨hresolving, hnew⟩ := hbefore hresolving hnew
      exact .inl (hid ▸ .answer hr hkey hresolving hnew)
    · exact .inr hhands

end

/-! ### What a program is told -/

def Entry.failed (e : Entry) : Bool :=
  match e.reply with
  | .ok _ => false
  | .error _ => true

/-- The caller can tell what became of the object it had stored or wants to delete. -/
structure Entry.Heard (job : ℕ → Option Errand) (e : Entry) : Prop where
  /-- An admission that failed for its caller left no task that needs the input. -/
  admission : ∀ {a}, e.call = .query (.admitTurn a) → e.failed = true → ∀ {taskId t},
    e.after.task taskId = some t → t.inputObjectKey = some a.inputObjectKey →
    t.internalState = .terminal
  /-- A client's answer that failed for its caller was not recorded. -/
  answer : ∀ {requestId taskId answerKey i str message n options},
    e.call = .query (.decideClarificationRequest requestId taskId answerKey) → e.failed = true →
    e.actor = .worker i → job i = some (.send str message n options) → ∀ {row r},
    e.after.clarification row = some r → r.answerObjectKey ≠ some answerKey
  /-- A clarification that has not been responded to is resolved under the lease. -/
  resolution : ∀ {requestId contextId claim},
    e.call = .query (.resolveInputRequest requestId contextId claim) → e.failed = false →
    ∀ {row r}, e.before.clarification row = some r → r.requestId = requestId →
    r.status = .resolving → r.responseAttemptedAt = none →
    e.before.leasedTask r.taskId contextId claim = true

lemma Entry.Heard.anti {job job' : ℕ → Option Errand} {e : Entry} (h : e.Heard job')
    (hle : ∀ {i l}, job i = some l → job' i = some l) : e.Heard job :=
  ⟨h.admission, fun hc hf ha hj => h.answer hc hf ha (hle hj), h.resolution⟩

/-! ### What a program knows of objects -/

/-- What a program knows of objects: the keys it drew and has not handed over, those among them
under which it stored something, the rows it saw with their objects, and the objects that nothing
needs any more. -/
structure Custody where
  /-- It answers a client. -/
  client : Bool := false
  mine : List ObjectKey := []
  stored : List ObjectKey := []
  seen : List (Holder × ObjectKey) := []
  spare : List ObjectKey := []

def Call.hands : Call → Option (ObjectKey × Holder)
  | query q => q.hands
  | _ => none

/-- The answer of a clarification, with whose it is. -/
def Request.answer? : Request → Option (Holder × ObjectKey)
  | clarification r => r.answerObjectKey.map (Holder.answer r.requestId, ·)
  | approval _ => none

namespace Custody

/-- The objects the row was seen with. -/
def of (k : Custody) (holder : Holder) : List ObjectKey :=
  (k.seen.filter (·.1 = holder)).map (·.2)

def sawTask (k : Custody) (t : TaskRow) : Custody :=
  match t.inputObjectKey with
  | some key => { k with seen := (.task t.taskId, key) :: k.seen }
  | none => k

def sawRequests (k : Custody) (requests : List Request) : Custody :=
  { k with seen := requests.filterMap Request.answer? ++ k.seen }

/-- A key is handed over, perhaps to nobody. -/
def give (k : Custody) (key : ObjectKey) (refused : Bool) : Custody :=
  { k with
    mine := k.mine.filter (· ≠ key)
    stored := k.stored.filter (· ≠ key)
    spare := if refused then key :: k.spare else k.spare }

/-- The row needs its object no more. -/
def release (k : Custody) (holder : Holder) : Custody := { k with spare := k.of holder ++ k.spare }

def learnQuery (k : Custody) : (q : Query) → Except Exn q.Reply → Custody
  | .admitTurn a, .ok (_, _, created) => k.give a.inputObjectKey !created
  | .admitTurn a, .error _ => k.give a.inputObjectKey true
  | .decideClarificationRequest _ _ key, .ok row =>
    k.give key (row.bind (·.answerObjectKey) != some key)
  | .decideClarificationRequest _ _ key, .error _ => k.give key k.client
  | .getTask _, .ok (some t) => k.sawTask t
  | .activateTask _ _ _ _, .ok t => k.sawTask t
  | .listInputRequests _, .ok requests => k.sawRequests requests
  | .updateTask taskId _ _ f, .ok _ =>
    if f.inputObjectKey = some none then k.release (.task taskId) else k
  | .resolveInputRequest requestId _ _, .ok _ => k.release (.answer requestId)
  | _, _ => k

def learn (k : Custody) : (c : Call) → Except Exn c.Reply → Custody
  | .query q, r => k.learnQuery q r
  | .uuid4, .ok n => { k with mine := n :: k.mine }
  | .pendingPut key _, .ok _ => if key ∈ k.mine then { k with stored := key :: k.stored } else k
  | _, _ => k

def allowed (k : Custody) : Call → Prop
  | .pendingDelete key => key ∈ k.spare
  | .query (.admitTurn a) => a.inputObjectKey ∈ k.stored
  | .query (.decideClarificationRequest _ _ key) => key ∈ k.stored
  | _ => True

end Custody

/-- What a program may do with objects. -/
def custody : Contract Call Call.Reply Exn Custody where
  possible _ c r := Known.possible c r
  allowed := Custody.allowed
  learn := Custody.learn

namespace Custody

variable {k : Custody} {c : Call} {r : Except Exn c.Reply} {key : ObjectKey} {holder : Holder}
  {w w' : World} {a : Actor}

lemma mem_of : key ∈ k.of holder ↔ (holder, key) ∈ k.seen := by
  simp [of, eq_comm]

lemma sawTask_mine (t : TaskRow) :
    (k.sawTask t).mine = k.mine ∧ (k.sawTask t).stored = k.stored := by
  unfold sawTask
  split <;> exact ⟨rfl, rfl⟩

/-- What is handed over was stored before. -/
lemma allowed_hands (h : k.allowed c) (hhands : c.hands = some (key, holder)) : key ∈ k.stored := by
  cases c with
  | query q =>
    cases q with
    | admitTurn ad | decideClarificationRequest rid tid key' =>
      cases hhands
      exact h
    | _ => cases hhands
  | _ => cases hhands

lemma mem_give {key' : ObjectKey} {holder' : Holder} {refused : Bool} :
    (key ∈ (k.give key' refused).mine ↔
        key ∈ k.mine ∧ ∀ holder, some (key', holder') ≠ some (key, holder)) ∧
      (key ∈ (k.give key' refused).stored ↔
        key ∈ k.stored ∧ ∀ holder, some (key', holder') ≠ some (key, holder)) := by
  have hne : (∀ holder, some (key', holder') ≠ some (key, holder)) ↔ key ≠ key' := by
    constructor
    · rintro h rfl
      exact h holder' rfl
    · rintro h holder heq
      cases heq
      exact h rfl
  rw [hne]
  simp [give]

/-- What is handed over is no longer the program's own. -/
lemma mem_learnQuery {q : Query} {r : Except Exn q.Reply} :
    (key ∈ (k.learnQuery q r).mine ↔ key ∈ k.mine ∧ ∀ holder, q.hands ≠ some (key, holder)) ∧
      (key ∈ (k.learnQuery q r).stored ↔
        key ∈ k.stored ∧ ∀ holder, q.hands ≠ some (key, holder)) := by
  have hsame : ∀ {k' : Custody}, k'.mine = k.mine → k'.stored = k.stored → q.hands = none →
      (key ∈ k'.mine ↔ key ∈ k.mine ∧ ∀ holder, q.hands ≠ some (key, holder)) ∧
      (key ∈ k'.stored ↔ key ∈ k.stored ∧ ∀ holder, q.hands ≠ some (key, holder)) := by
    intro k' hmine hstored hhands
    simp [hmine, hstored, hhands]
  cases q with
  | admitTurn ad =>
    rcases r with e | ⟨c, t, created⟩ <;> exact mem_give
  | decideClarificationRequest rid tid key' => cases r <;> exact mem_give
  | getTask taskId =>
    rcases r with e | t
    · exact hsame rfl rfl rfl
    · cases t with
      | none => exact hsame rfl rfl rfl
      | some t => exact hsame (sawTask_mine t).1 (sawTask_mine t).2 rfl
  | activateTask x taskId claim e =>
    rcases r with e | t
    · exact hsame rfl rfl rfl
    · exact hsame (sawTask_mine t).1 (sawTask_mine t).2 rfl
  | updateTask taskId x claim f =>
    rcases r with e | t
    · exact hsame rfl rfl rfl
    · simp only [learnQuery]
      split <;> exact hsame rfl rfl rfl
  | _ => cases r <;> exact hsame rfl rfl rfl

/-- A key is the program's own as long as it is not handed over, or when it has just drawn it. -/
lemma learn_mine (he : environment.exec w a c r w') (h : key ∈ (k.learn c r).mine) :
    key ∈ k.mine ∧ (∀ holder, c.hands ≠ some (key, holder)) ∨
      key = w.uuid ∧ key < w'.uuid ∧ c.hands = none := by
  cases c with
  | query q => exact .inl (mem_learnQuery.1.mp h)
  | uuid4 =>
    cases r with
    | error e => exact .inl ⟨h, fun _ h => by cases h⟩
    | ok n =>
      rcases List.mem_cons.mp h with rfl | h
      · obtain ⟨committed, w₁, hw, rfl⟩ := he
        cases hw with
        | external history hc => cases hc
        | uuid4 => exact .inr ⟨rfl, Nat.lt_succ_self _, rfl⟩
      · exact .inl ⟨h, fun _ h => by cases h⟩
  | pendingPut key' text =>
    refine .inl ⟨?_, fun _ h => by cases h⟩
    cases r with
    | error e => exact h
    | ok v =>
      simp only [learn] at h
      split at h <;> exact h
  | _ => cases r <;> exact .inl ⟨h, fun _ h => by cases h⟩

/-- Objects are lost by deletions only. -/
lemma exec_objects (he : environment.exec w a c r w') (h : (w.objects key).isSome = true)
    (hdelete : c ≠ .pendingDelete key) : (w'.objects key).isSome = true := by
  obtain ⟨committed, w₁, hw, rfl⟩ := he
  have hput : ∀ {key' text}, (Function.update w.objects key' (some text) key).isSome = true := by
    intro key' text
    rw [Function.update_apply]
    split
    · rfl
    · exact h
  have hgone : ∀ {key'}, c = .pendingDelete key' →
      (Function.update w.objects key' none key).isSome = true := by
    rintro key' rfl
    rw [Function.update_of_ne]
    · exact h
    · rintro rfl
      exact hdelete rfl
  cases hw with
  | put | putUnacknowledged => exact hput
  | delete | deleteUnacknowledged => exact hgone rfl
  | _ => exact h

/-- Something is stored under a key when a put of it is acknowledged. -/
lemma learn_stored (he : environment.exec w a c r w') (h : key ∈ (k.learn c r).stored)
    (hstored : key ∈ k.stored → key ∈ k.mine ∧ (w.objects key).isSome = true)
    (hspare : key ∈ k.spare → key ∉ k.mine) (hallow : k.allowed c) :
    key ∈ (k.learn c r).mine ∧ (w'.objects key).isSome = true := by
  have hold : key ∈ k.stored → key ∈ k.mine ∧ (w'.objects key).isSome = true := by
    intro hkey
    obtain ⟨hmine, hobject⟩ := hstored hkey
    refine ⟨hmine, exec_objects he hobject ?_⟩
    rintro rfl
    exact hspare hallow hmine
  cases c with
  | query q =>
    obtain ⟨hkey, hhands⟩ := mem_learnQuery.2.mp h
    exact ⟨mem_learnQuery.1.mpr ⟨(hold hkey).1, hhands⟩, (hold hkey).2⟩
  | uuid4 =>
    cases r with
    | error e => exact hold h
    | ok n => exact ⟨List.mem_cons_of_mem _ (hold h).1, (hold h).2⟩
  | pendingPut key' text =>
    cases r with
    | error e => exact hold h
    | ok v =>
      simp only [learn] at h ⊢
      split at h
      · rename_i hmine
        rw [if_pos hmine]
        rcases List.mem_cons.mp h with rfl | h
        · refine ⟨hmine, ?_⟩
          obtain ⟨committed, w₁, hw, rfl⟩ := he
          cases hw with
          | put => simp [World.note]
          | external history hc => cases hc
        · exact hold h
      · rename_i hmine
        rw [if_neg hmine]
        exact hold h
  | _ => cases r <;> exact hold h

/-- What a program newly sees is there. -/
lemma learn_seen (he : environment.exec w a c r w') (h : (holder, key) ∈ (k.learn c r).seen) :
    (holder, key) ∈ k.seen ∨ w'.db.Uses key holder := by
  have hsaw : ∀ {t : TaskRow}, w'.db.task t.taskId = some t → (holder, key) ∈ (k.sawTask t).seen →
      (holder, key) ∈ k.seen ∨ w'.db.Uses key holder := by
    intro t ht h
    unfold sawTask at h
    split at h
    · rename_i key' hkey
      rcases List.mem_cons.mp h with heq | h
      · cases heq
        exact .inr (.task ht hkey)
      · exact .inl h
    · exact .inl h
  cases c with
  | query q =>
    cases q with
    | getTask taskId =>
      rcases r with e | t
      · exact .inl h
      · cases t with
        | none => exact .inl h
        | some t =>
          have hrun : Except.ok (w.db.task taskId, w.db) = .ok (some t, w'.db) := exec_ok he
          simp only [Except.ok.injEq, Prod.mk.injEq] at hrun
          have hid := Db.task_id hrun.1
          subst hid
          exact hsaw (hrun.2 ▸ hrun.1) h
    | activateTask x taskId claim e =>
      rcases r with e | t
      · exact .inl h
      · obtain ⟨c, t₀, -, -, -, ht₀, -, -, rfl, -, htask⟩ := activateTask_ok (exec_ok he)
        refine hsaw ?_ h
        rw [htask, Db.task_id ht₀, Function.update_self]
    | listInputRequests taskId =>
      rcases r with e | requests
      · exact .inl h
      · obtain ⟨hdb, hlisted⟩ := listInputRequests_ok (exec_ok he)
        rcases List.mem_append.mp h with h | h
        · obtain ⟨request, hrequest, hanswer⟩ := List.mem_filterMap.mp h
          cases request with
          | approval row => cases hanswer
          | clarification row =>
            obtain ⟨key', hkey, heq⟩ := Option.map_eq_some_iff.mp hanswer
            cases heq
            rw [hdb]
            exact .inr (.answer (Db.requestsOf_clarification (hlisted _ hrequest)).1 hkey)
        · exact .inl h
    | updateTask taskId x claim f =>
      rcases r with e | t
      · exact .inl h
      · simp only [learn, learnQuery] at h
        split at h <;> exact .inl h
    | admitTurn ad => rcases r with e | ⟨c, t, created⟩ <;> exact .inl h
    | _ => cases r <;> exact .inl h
  | pendingPut key' text =>
    cases r with
    | error e => exact .inl h
    | ok v =>
      simp only [learn] at h
      split at h <;> exact .inl h
  | _ => cases r <;> exact .inl h

lemma learn_client : (k.learn c r).client = k.client := by
  have hsaw : ∀ t, (k.sawTask t).client = k.client := by
    intro t
    unfold sawTask
    split <;> rfl
  cases c with
  | query q =>
    cases q with
    | admitTurn ad => rcases r with e | ⟨c, t, created⟩ <;> rfl
    | getTask taskId =>
      rcases r with e | t
      · rfl
      · cases t with
        | none => rfl
        | some t => exact hsaw t
    | activateTask x taskId claim e =>
      rcases r with e | t
      · rfl
      · exact hsaw t
    | updateTask taskId x claim f =>
      rcases r with e | t
      · rfl
      · simp only [learn, learnQuery]
        split <;> rfl
    | _ => cases r <;> rfl
  | pendingPut key' text =>
    cases r with
    | error e => rfl
    | ok v =>
      simp only [learn]
      split <;> rfl
  | _ => cases r <;> rfl

/-- The object is not wanted, and the program knows who would. -/
def Free (db' : Db) (k : Custody) (c : Call) (key : ObjectKey) : Prop :=
  (∀ holder, ¬db'.Wants key holder) ∧ ((∃ holder, c.hands = some (key, holder)) ∨
    ∃ holder, (holder, key) ∈ k.seen)

section Spare

variable {i : ℕ} {job : ℕ → Option Errand} {committed : Bool} {db db' : Db} {fresh : ℕ}

/-- A new task is not active. -/
lemma new_inactive {ad : Admission} {v : ContextRow × TaskRow × Bool} {contextId : ContextId}
    {c' : ContextRow} (h : admitTurn ad db = .ok (v, db')) (hwf : db.WellFormed)
    (hnone : db.task ad.proposedTaskId = none) (hc' : db'.context contextId = some c') :
    c'.activeTaskId ≠ some ad.proposedTaskId := by
  intro hactive
  have heff : CoreEffect 0 db db' (.admitTurn ad) := admit_effect h
  rcases heff.active trivial hc' hactive with ⟨c, hc, hactive⟩ | ⟨_, _, _, hq, -⟩
  · obtain ⟨t, ht, -⟩ := hwf.active hc hactive
    rw [hnone] at ht
    cases ht
  · cases hq

/-- The task an admission proposed is new, or has been there all along. -/
lemma proposed {ad : Admission} {v : ContextRow × TaskRow × Bool} {t : TaskRow}
    (h : admitTurn ad db = .ok (v, db')) (ht : db'.task ad.proposedTaskId = some t) :
    db.task ad.proposedTaskId = none ∨ db.task ad.proposedTaskId = some t := by
  have heff : CoreEffect 0 db db' (.admitTurn ad) := admit_effect h
  cases heff with
  | same _ htask | opened _ _ _ htask => exact .inr (htask ▸ ht)
  | admitted _ hfresh => exact .inl hfresh

/-- An admission that failed for its caller wants no input. -/
lemma admission_failed {ad : Admission} {e : Exn}
    (he : environment.exec w a (.query (.admitTurn ad)) (.error e) w') (hwf : w.db.WellFormed)
    (hheard : Entry.Heard job ⟨a, .query (.admitTurn ad), .error e, committed, w.db, w'.db⟩)
    (hunused : ∀ holder, ¬w.db.Uses ad.inputObjectKey holder) :
    ¬w'.db.Wants ad.inputObjectKey (.task ad.proposedTaskId) := by
  rintro (⟨ht, hkey, hlive⟩ | _)
  rcases exec_query he with ⟨v, hrun, -, -⟩ | ⟨e', -, rfl⟩
  · rcases proposed hrun ht with hnone | hold
    · rcases hlive with hlive | ⟨c, hc, hactive⟩
      · exact hlive (hheard.admission rfl rfl ht hkey)
      · rw [Db.task_id ht] at hactive
        exact new_inactive hrun hwf hnone hc hactive
    · exact hunused _ (.task hold hkey)
  · exact hunused _ (.task ht hkey)

/-- An admission that found its task needs no input. -/
lemma admission_found {ad : Admission} {c : ContextRow} {t : TaskRow}
    (he : environment.exec w a (.query (.admitTurn ad)) (.ok (c, t, false)) w')
    (hunused : ∀ holder, ¬w.db.Uses ad.inputObjectKey holder) :
    ¬w'.db.Wants ad.inputObjectKey (.task ad.proposedTaskId) := by
  rintro (⟨ht, hkey, -⟩ | _)
  obtain ⟨c₀, db₁, hadmit, -, hcase⟩ := admitTurn_ok (exec_ok he)
  rcases hcase with ⟨-, -, hdb, -⟩ | ⟨hcreated, -⟩
  · rw [hdb] at ht
    rcases admitContext_ok hadmit with ⟨-, hsame⟩ | ⟨-, -, -, hsame, -⟩
    · rw [hsame] at ht
      exact hunused _ (.task ht hkey)
    · rw [hsame] at ht
      exact hunused _ (.task ht hkey)
  · cases hcreated

/-- An answer that was not recorded is not wanted. -/
lemma decision_lost {requestId : RequestId} {taskId : TaskId} {row : Option ClarificationRow}
    (he : environment.exec w a (.query (.decideClarificationRequest requestId taskId key))
      (.ok row) w') (horderly : Orderly w'.db) (hunused : ∀ holder, ¬w.db.Uses key holder)
    (hlost : row.bind (·.answerObjectKey) ≠ some key) :
    ¬w'.db.Wants key (.answer requestId) := by
  intro hwants
  obtain ⟨hmap, hrow⟩ := decideClarificationRequest_ok (exec_ok he)
  generalize hholder : Holder.answer requestId = holder at hwants
  cases hwants with
  | task => cases hholder
  | @answer key' r hr hkey hresolving hnew =>
    have hr' := hr
    rw [hmap] at hr'
    obtain ⟨r₀, hr₀, hif⟩ := Db.mapClarifications_some.mp hr'
    split at hif
    · rename_i hguard
      simp only [Db.answerable, Bool.and_eq_true, beq_iff_eq] at hguard
      have htask : r.taskId = taskId := by rw [← hif]; exact hguard.1.1.2
      have hid : r.requestId = requestId := (Holder.answer.inj hholder).symm
      have hmem : r ∈ w'.db.clarifications.select fun r =>
          r.requestId == requestId && r.taskId == taskId := by
        refine Table.mem_select.mpr ⟨?_, by simp [hid, htask]⟩
        have hkey := Db.clarification_key hr
        subst hkey
        exact hr
      cases hhead : (w'.db.clarifications.select fun r =>
          r.requestId == requestId && r.taskId == taskId).head? with
      | none =>
        rw [List.head?_eq_none_iff] at hhead
        rw [hhead] at hmem
        cases hmem
      | some r₂ =>
        obtain ⟨hr₂, hq⟩ := Table.mem_select.mp (List.mem_of_mem_head? hhead)
        simp only [Bool.and_eq_true, beq_iff_eq] at hq
        have hrow₂ : w'.db.clarification r₂.key = some r₂ := hr₂
        have hsame := horderly.unique hrow₂ hr (hq.1.trans hid.symm)
        rw [hsame, hr, Option.some.injEq] at hrow₂
        subst hrow₂
        rw [hrow, hhead] at hlost
        exact hlost hkey
    · subst hif
      exact hunused _ (.answer hr₀ hkey)

/-- A task that is bound needs no input. -/
lemma bound_free {taskId : TaskId} {x : ContextId} {claim : ClaimId} {f : TaskFields} {t : TaskRow}
    (he : environment.exec w a (.query (.updateTask taskId x claim f)) (.ok t) w')
    (hf : f.inputObjectKey = some none) : ¬w'.db.Wants key (.task taskId) := by
  rintro (⟨ht, hkey, -⟩ | _)
  obtain ⟨c, t₀, -, -, -, -, -, htask⟩ := updateTask_ok (exec_ok he)
  rw [htask, Function.update_self, Option.some.injEq] at ht
  subst ht
  simp [TaskRow.set, hf] at hkey

/-- An answer whose request was resolved is not wanted. -/
lemma resolved_free {requestId : RequestId} {x : ContextId} {claim : ClaimId}
    (he : environment.exec w a (.query (.resolveInputRequest requestId x claim)) (.ok ()) w')
    (hheard : Entry.Heard job
      ⟨a, .query (.resolveInputRequest requestId x claim), .ok (), committed, w.db, w'.db⟩) :
    ¬w'.db.Wants key (.answer requestId) := by
  intro hwants
  have hmap := resolveInputRequest_ok (exec_ok he)
  generalize hholder : Holder.answer requestId = holder at hwants
  cases hwants with
  | task => cases hholder
  | @answer key' r hr hkey hresolving hnew =>
    have hid : r.requestId = requestId := (Holder.answer.inj hholder).symm
    rw [hmap] at hr
    obtain ⟨r₀, hr₀, hif⟩ := Db.mapClarifications_some.mp hr
    split at hif
    · subst hif
      cases hresolving
    · rename_i hguard
      subst hif
      have hleased := hheard.resolution rfl rfl hr₀ hid hresolving hnew
      exact hguard (by simp [Db.closable, hid, hresolving, hleased])

/-- A row that was seen with an object and wants it no more leaves it free. -/
lemma release_free (h : key ∈ (k.release holder).spare)
    (hseen : ∀ {holder}, (holder, key) ∈ k.seen → ∀ {holder'}, db'.Wants key holder' →
      holder' = holder)
    (hnot : ¬db'.Wants key holder) : key ∈ k.spare ∨ Free db' k c key := by
  rcases List.mem_append.mp h with h | h
  · have hmem := mem_of.mp h
    refine .inr ⟨fun holder' hwants => ?_, .inr ⟨holder, hmem⟩⟩
    rw [hseen hmem hwants] at hwants
    exact hnot hwants
  · exact .inl h

/-- An object that is newly spare is free. -/
lemma learn_spare (he : environment.exec w (.worker i) c r w')
    (h : key ∈ (k.learn c r).spare) (hallow : k.allowed c) (hwf : w.db.WellFormed)
    (horderly : Orderly w'.db)
    (hheard : Entry.Heard job ⟨.worker i, c, r, committed, w.db, w'.db⟩)
    (hclient : k.client = true →
      ∃ str message n options, job i = some (.send str message n options))
    (hstored : ∀ {key}, key ∈ k.stored → ∀ holder, ¬w.db.Uses key holder)
    (hseen : ∀ {holder}, (holder, key) ∈ k.seen → ∀ {holder'}, w'.db.Wants key holder' →
      holder' = holder)
    (hbefore : ∀ {key holder}, w'.db.Wants key holder → w.db.Wants key holder ∨
      c.hands = some (key, holder)) : key ∈ k.spare ∨ Free w'.db k c key := by
  -- a key that was handed over is wanted by the row it was meant for, if at all
  have hgive : ∀ {key₀ holder₀ refused}, c.hands = some (key₀, holder₀) →
      (refused = true → ¬w'.db.Wants key₀ holder₀) → key ∈ (k.give key₀ refused).spare →
      key ∈ k.spare ∨ Free w'.db k c key := by
    intro key₀ holder₀ refused hhands hnot hmem
    cases refused with
    | false => exact .inl hmem
    | true =>
      rcases List.mem_cons.mp hmem with rfl | hmem
      · refine .inr ⟨fun holder hwants => ?_, .inl ⟨_, hhands⟩⟩
        rcases hbefore hwants with hold | hnew
        · exact hstored (allowed_hands hallow hhands) holder hold.uses
        · rw [hhands] at hnew
          cases hnew
          exact hnot rfl hwants
      · exact .inl hmem
  cases c with
  | query q =>
    cases q with
    | admitTurn ad =>
      rcases r with e | ⟨c, t, created⟩
      · exact hgive rfl (fun _ => admission_failed he hwf hheard (hstored hallow)) h
      · refine hgive rfl (fun hrefused => ?_) h
        cases created with
        | true => cases hrefused
        | false => exact admission_found he (hstored hallow)
    | decideClarificationRequest rid tid key' =>
      rcases r with e | row
      · have hhands : Call.hands (.query (.decideClarificationRequest rid tid key')) =
            some (key', .answer rid) := rfl
        refine hgive hhands (fun hclient' => ?_) h
        obtain ⟨str, message, n, options, hjob⟩ := hclient hclient'
        intro hwants
        generalize hholder : Holder.answer rid = holder at hwants
        cases hwants with
        | task => cases hholder
        | answer hr hkey => exact hheard.answer rfl rfl rfl hjob hr hkey
      · exact hgive rfl (fun hlost => decision_lost he horderly (hstored hallow)
          (by simpa using hlost)) h
    | getTask taskId =>
      rcases r with e | t
      · exact .inl h
      · cases t with
        | none => exact .inl h
        | some t =>
          simp only [learn, learnQuery, sawTask] at h
          split at h <;> exact .inl h
    | activateTask x taskId claim e =>
      rcases r with e | t
      · exact .inl h
      · simp only [learn, learnQuery, sawTask] at h
        split at h <;> exact .inl h
    | updateTask taskId x claim f =>
      rcases r with e | t
      · exact .inl h
      · simp only [learn, learnQuery] at h
        split at h
        · exact release_free h hseen (bound_free he ‹_›)
        · exact .inl h
    | resolveInputRequest rid x claim =>
      rcases r with e | v
      · exact .inl h
      · exact release_free h hseen (resolved_free he hheard)
    | _ => cases r <;> exact .inl h
  | pendingPut key' text =>
    cases r with
    | error e => exact .inl h
    | ok v =>
      simp only [learn] at h
      split at h <;> exact .inl h
  | _ => cases r <;> exact .inl h

end Spare

end Custody

/-! ### Every call -/

def Errand.custody (l : Errand) : Custody :=
  match l with
  | .send _ _ _ _ => { client := true }
  | _ => {}

/-- The key is nobody's own. -/
def Common (knows : ℕ → Option Custody) (key : ObjectKey) : Prop :=
  ∀ {i k}, knows i = some k → key ∉ k.mine

/-- Objects are where they are wanted, and programs are right about the ones they know. -/
structure Kept (s : Staff) (knows : ℕ → Option Custody) : Prop where
  single : ∀ {key holder holder'}, s.world.db.Uses key holder → s.world.db.Uses key holder' →
    holder = holder'
  bounded : ∀ {key holder}, s.world.db.Uses key holder → key < s.world.uuid
  present : ∀ {key holder}, s.world.db.Wants key holder → (s.world.objects key).isSome = true
  mine : ∀ {i k key}, knows i = some k → key ∈ k.mine → key < s.world.uuid ∧
    (∀ holder, ¬s.world.db.Uses key holder) ∧
    ∀ {j kj}, knows j = some kj → key ∈ kj.mine → j = i
  stored : ∀ {i k key}, knows i = some k → key ∈ k.stored → key ∈ k.mine ∧
    (s.world.objects key).isSome = true
  seen : ∀ {i k key holder}, knows i = some k → (holder, key) ∈ k.seen →
    key < s.world.uuid ∧ (∀ {holder'}, s.world.db.Uses key holder' → holder' = holder) ∧
    Common knows key
  spare : ∀ {i k key}, knows i = some k → key ∈ k.spare → key < s.world.uuid ∧
    (∀ holder, ¬s.world.db.Wants key holder) ∧ Common knows key
  client : ∀ {i k}, knows i = some k → k.client = true →
    ∃ str message n options, s.job i = some (.send str message n options)

namespace Kept

variable {s : Staff} {knows : ℕ → Option Custody} {i : ℕ} (waiting : ContextId → ℕ)

lemma proceed (h : Kept s knows) (hs : Serves s) {c : Call}
    {next : Except Exn c.Reply → Program Unit} {r : Except Exn c.Reply} {w' : World} {k : Custody}
    (hi : s.thread i = some (.call c next)) (hk : knows i = some k) (hallow : k.allowed c)
    (hc : environment.exec s.world (.worker i) c r w')
    (hheard : ∀ {e}, w'.log = e :: s.world.log → e.Heard s.job) :
    Kept { s.proceed i (next r) w' with waiting := waiting }
      (Function.update knows i (some (k.learn c r))) := by
  obtain ⟨q, hcore, hclar, hmove, hq⟩ := hs.core hi hc
  obtain ⟨committed, hlog⟩ := exec_noted hc
  have hheard := hheard hlog
  have huuid : s.world.uuid ≤ w'.uuid := by
    rcases c.query_or with ⟨q', rfl⟩ | hother
    · rcases exec_query hc with ⟨v, -, -, hw⟩ | ⟨e, -, rfl⟩
      · rw [hw]
        exact Nat.le_succ _
      · exact Nat.le_refl _
    · exact (exec_other hc hother).2.1
  have horderly : Orderly w'.db := hs.orderly.step hclar
  have hhands : ∀ {key holder}, q.hands = some (key, holder) → c.hands = some (key, holder) := by
    intro key holder hhands
    rcases hq with rfl | rfl
    · exact hhands
    · cases hhands
  have huses : ∀ {key holder}, w'.db.Uses key holder → s.world.db.Uses key holder ∨
      c.hands = some (key, holder) :=
    fun huses => (huses.before hcore hclar hs.wellFormed hmove).imp_right hhands
  have hwants : ∀ {key holder}, w'.db.Wants key holder → s.world.db.Wants key holder ∨
      c.hands = some (key, holder) :=
    fun hwants => (hwants.before hcore hclar hs.wellFormed hmove).imp_right hhands
  -- what is handed over was the caller's own, and nobody used it
  have hhanded : ∀ {key holder}, c.hands = some (key, holder) →
      key ∈ k.mine ∧ (s.world.objects key).isSome = true :=
    fun hhands => h.stored hk (Custody.allowed_hands hallow hhands)
  have hknows : ∀ {j kj}, Function.update knows i (some (k.learn c r)) j = some kj →
      j = i ∧ kj = k.learn c r ∨ j ≠ i ∧ knows j = some kj := by
    intro j kj hkj
    rw [Function.update_apply] at hkj
    split at hkj
    · exact .inl ⟨‹_›, (Option.some.inj hkj).symm⟩
    · exact .inr ⟨‹_›, hkj⟩
  have hcommon : ∀ {key}, key < s.world.uuid → Common knows key →
      Common (Function.update knows i (some (k.learn c r))) key := by
    intro key hlt hkey j kj hkj hmine
    rcases hknows hkj with ⟨rfl, rfl⟩ | ⟨-, hkj⟩
    · rcases Custody.learn_mine hc hmine with ⟨hmine, -⟩ | ⟨hnew, -, -⟩
      · exact hkey hk hmine
      · rw [hnew] at hlt
        exact Nat.lt_irrefl _ hlt
    · exact hkey hkj hmine
  have hsingle : ∀ {key holder holder'}, w'.db.Uses key holder → w'.db.Uses key holder' →
      holder = holder' := by
    intro key holder holder' hu hu'
    rcases huses hu with hold | hnew
    · rcases huses hu' with hold' | hnew'
      · exact h.single hold hold'
      · exact absurd hold ((h.mine hk (hhanded hnew').1).2.1 _)
    · rcases huses hu' with hold' | hnew'
      · exact absurd hold' ((h.mine hk (hhanded hnew).1).2.1 _)
      · rw [hnew] at hnew'
        cases hnew'
        rfl
  have hbounded : ∀ {key holder}, w'.db.Uses key holder → key < w'.uuid := by
    intro key holder hu
    refine Nat.lt_of_lt_of_le ?_ huuid
    rcases huses hu with hold | hnew
    · exact h.bounded hold
    · exact (h.mine hk (hhanded hnew).1).1
  have hmine : ∀ {j kj key}, Function.update knows i (some (k.learn c r)) j = some kj →
      key ∈ kj.mine → key < w'.uuid ∧ (∀ holder, ¬w'.db.Uses key holder) ∧
        ∀ {j' kj'}, Function.update knows i (some (k.learn c r)) j' = some kj' →
          key ∈ kj'.mine → j' = j := by
    intro j kj key hkj hkey
    rcases hknows hkj with ⟨rfl, rfl⟩ | ⟨hne, hkj⟩
    · rcases Custody.learn_mine hc hkey with ⟨hold, hnot⟩ | ⟨hnew, hlt, hnone⟩
      · obtain ⟨hlt, hunused, hown⟩ := h.mine hk hold
        refine ⟨Nat.lt_of_lt_of_le hlt huuid, fun holder hu => ?_, fun hkj' hkey' => ?_⟩
        · rcases huses hu with hu | hu
          · exact hunused holder hu
          · exact hnot holder hu
        · rcases hknows hkj' with ⟨rfl, -⟩ | ⟨-, hkj'⟩
          · rfl
          · exact hown hkj' hkey'
      · refine ⟨hlt, fun holder hu => ?_, fun hkj' hkey' => ?_⟩
        · rcases huses hu with hu | hu
          · have hlt := h.bounded hu
            rw [hnew] at hlt
            exact Nat.lt_irrefl _ hlt
          · rw [hnone] at hu
            cases hu
        · rcases hknows hkj' with ⟨rfl, -⟩ | ⟨-, hkj'⟩
          · rfl
          · have hlt := (h.mine hkj' hkey').1
            rw [hnew] at hlt
            exact absurd hlt (Nat.lt_irrefl _)
    · obtain ⟨hlt, hunused, hown⟩ := h.mine hkj hkey
      refine ⟨Nat.lt_of_lt_of_le hlt huuid, fun holder hu => ?_, fun hkj' hkey' => ?_⟩
      · rcases huses hu with hu | hu
        · exact hunused holder hu
        · exact hne (hown hk (hhanded hu).1).symm
      · rcases hknows hkj' with ⟨rfl, rfl⟩ | ⟨-, hkj'⟩
        · rcases Custody.learn_mine hc hkey' with ⟨hold, -⟩ | ⟨hnew, -, -⟩
          · exact hown hk hold
          · rw [hnew] at hlt
            exact absurd hlt (Nat.lt_irrefl _)
        · exact hown hkj' hkey'
  have hused : ∀ {key holder}, w'.db.Uses key holder →
      Common (Function.update knows i (some (k.learn c r))) key :=
    fun hu j kj hkj hkey => (hmine hkj hkey).2.1 _ hu
  -- who is known to have an object has it still
  have hbelongs : ∀ {j kj key holder}, knows j = some kj → (holder, key) ∈ kj.seen →
      ∀ {holder'}, w'.db.Uses key holder' → holder' = holder := by
    intro j kj key holder hkj hkey holder' hu
    obtain ⟨-, hbelongs, hfree⟩ := h.seen hkj hkey
    rcases huses hu with hold | hnew
    · exact hbelongs hold
    · exact absurd (hhanded hnew).1 (hfree hk)
  have hspare : ∀ {j kj key}, knows j = some kj → key ∈ kj.spare →
      key < w'.uuid ∧ (∀ holder, ¬w'.db.Wants key holder) ∧
        Common (Function.update knows i (some (k.learn c r))) key := by
    intro j kj key hkj hkey
    obtain ⟨hlt, hunwanted, hfree⟩ := h.spare hkj hkey
    refine ⟨Nat.lt_of_lt_of_le hlt huuid, fun holder hw => ?_, hcommon hlt hfree⟩
    rcases hwants hw with hold | hnew
    · exact hunwanted holder hold
    · exact hfree hk (hhanded hnew).1
  constructor
  · exact hsingle
  · exact hbounded
  · intro key holder hw
    rcases hwants hw with hold | hnew
    · refine Custody.exec_objects hc (h.present hold) ?_
      rintro rfl
      exact (h.spare hk hallow).2.1 holder hold
    · refine Custody.exec_objects hc (hhanded hnew).2 ?_
      rintro rfl
      cases hnew
  · exact hmine
  · intro j kj key hkj hkey
    rcases hknows hkj with ⟨rfl, rfl⟩ | ⟨hne, hold⟩
    · exact Custody.learn_stored hc hkey (h.stored hk)
        (fun hspare hmine => (h.spare hk hspare).2.2 hk hmine) hallow
    · obtain ⟨hown, hobject⟩ := h.stored hold hkey
      refine ⟨hown, Custody.exec_objects hc hobject ?_⟩
      rintro rfl
      exact (h.spare hk hallow).2.2 hold hown
  · intro j kj key holder hkj hkey
    have hold : ∀ {j kj}, knows j = some kj → (holder, key) ∈ kj.seen → key < w'.uuid ∧
        (∀ {holder'}, w'.db.Uses key holder' → holder' = holder) ∧
        Common (Function.update knows i (some (k.learn c r))) key := by
      intro j kj hkj hkey
      obtain ⟨hlt, -, hfree⟩ := h.seen hkj hkey
      exact ⟨Nat.lt_of_lt_of_le hlt huuid, hbelongs hkj hkey, hcommon hlt hfree⟩
    rcases hknows hkj with ⟨rfl, rfl⟩ | ⟨-, hkj⟩
    · rcases Custody.learn_seen hc hkey with hseen | hu
      · exact hold hk hseen
      · exact ⟨hbounded hu, fun hu' => hsingle hu' hu, hused hu⟩
    · exact hold hkj hkey
  · intro j kj key hkj hkey
    rcases hknows hkj with ⟨rfl, rfl⟩ | ⟨-, hkj⟩
    · rcases Custody.learn_spare hc hkey hallow hs.wellFormed horderly hheard (h.client hk)
        (fun hkey => (h.mine hk (h.stored hk hkey).1).2.1)
        (fun hkey _ hw => hbelongs hk hkey hw.uses) hwants with hold | ⟨hunwanted, hwhy⟩
      · exact hspare hk hold
      · refine ⟨?_, hunwanted, ?_⟩
        · rcases hwhy with ⟨holder, hnew⟩ | ⟨holder, hseen⟩
          · exact Nat.lt_of_lt_of_le (h.mine hk (hhanded hnew).1).1 huuid
          · exact Nat.lt_of_lt_of_le (h.seen hk hseen).1 huuid
        · rcases hwhy with ⟨holder, hnew⟩ | ⟨holder, hseen⟩
          · intro j' kj' hkj' hmine'
            obtain ⟨hlt, -, hown⟩ := h.mine hk (hhanded hnew).1
            rcases hknows hkj' with ⟨rfl, rfl⟩ | ⟨hne, hkj'⟩
            · rcases Custody.learn_mine hc hmine' with ⟨-, hnot⟩ | ⟨heq, -, -⟩
              · exact hnot holder hnew
              · rw [heq] at hlt
                exact Nat.lt_irrefl _ hlt
            · exact hne (hown hkj' hmine')
          · exact hcommon (h.seen hk hseen).1 (h.seen hk hseen).2.2
    · exact hspare hkj hkey
  · intro j kj hkj hclient
    dsimp only [Crew.proceed]
    rcases hknows hkj with ⟨rfl, rfl⟩ | ⟨-, hkj⟩
    · exact h.client hk (by rwa [Custody.learn_client] at hclient)
    · exact h.client hkj hclient

/-- What a change of the programs, or of what is no row, keeps. -/
lemma change {s' : Staff} {knows' : ℕ → Option Custody} (h : Kept s knows)
    (hworld : s'.world.uuid = s.world.uuid ∧ s'.world.objects = s.world.objects)
    (huses : ∀ {key holder}, s'.world.db.Uses key holder → s.world.db.Uses key holder)
    (hwants : ∀ {key holder}, s'.world.db.Wants key holder → s.world.db.Wants key holder)
    (hknows : ∀ {j k}, knows' j = some k → (knows j = some k ∧ s'.job j = s.job j) ∨
      ∃ l, s'.job j = some l ∧ k = l.custody) : Kept s' knows' := by
  have hbare : ∀ {l : Errand}, l.custody.mine = [] ∧ l.custody.stored = [] ∧
      l.custody.seen = [] ∧ l.custody.spare = [] := by
    rintro ⟨⟩ <;> exact ⟨rfl, rfl, rfl, rfl⟩
  have hcommon : ∀ {key}, Common knows key → Common knows' key := by
    intro key hkey j k hk hmine
    rcases hknows hk with ⟨hk, -⟩ | ⟨l, -, rfl⟩
    · exact hkey hk hmine
    · simp [hbare.1] at hmine
  have huuid : ∀ {key}, key < s.world.uuid → key < s'.world.uuid := fun h => hworld.1 ▸ h
  have hobject : ∀ {key}, (s.world.objects key).isSome = true →
      (s'.world.objects key).isSome = true := fun h => hworld.2 ▸ h
  constructor
  · exact fun hu hu' => h.single (huses hu) (huses hu')
  · exact fun hu => huuid (h.bounded (huses hu))
  · exact fun hw => hobject (h.present (hwants hw))
  · intro j k key hk hkey
    rcases hknows hk with ⟨hk, -⟩ | ⟨l, -, rfl⟩
    · obtain ⟨hlt, hunused, hown⟩ := h.mine hk hkey
      refine ⟨huuid hlt, fun holder hu => hunused holder (huses hu), fun hk' hkey' => ?_⟩
      rcases hknows hk' with ⟨hk', -⟩ | ⟨l, -, rfl⟩
      · exact hown hk' hkey'
      · simp [hbare.1] at hkey'
    · simp [hbare.1] at hkey
  · intro j k key hk hkey
    rcases hknows hk with ⟨hk, -⟩ | ⟨l, -, rfl⟩
    · exact (h.stored hk hkey).imp_right hobject
    · simp [hbare.2.1] at hkey
  · intro j k key holder hk hkey
    rcases hknows hk with ⟨hk, -⟩ | ⟨l, -, rfl⟩
    · obtain ⟨hlt, hbelongs, hfree⟩ := h.seen hk hkey
      exact ⟨huuid hlt, fun hu => hbelongs (huses hu), hcommon hfree⟩
    · simp [hbare.2.2.1] at hkey
  · intro j k key hk hkey
    rcases hknows hk with ⟨hk, -⟩ | ⟨l, -, rfl⟩
    · obtain ⟨hlt, hunwanted, hfree⟩ := h.spare hk hkey
      exact ⟨huuid hlt, fun holder hw => hunwanted holder (hwants hw), hcommon hfree⟩
    · simp [hbare.2.2.2] at hkey
  · intro j k hk hclient
    rcases hknows hk with ⟨hk, hjob⟩ | ⟨l, hl, rfl⟩
    · rw [hjob]
      exact h.client hk hclient
    · cases l with
      | send str message n options => exact ⟨str, message, n, options, hl⟩
      | _ => cases hclient

/-- A new program has nothing. -/
lemma join {l : Errand} (h : Kept s knows) :
    Kept { s.hire works l with waiting := waiting }
      (Function.update knows s.started (some l.custody)) := by
  refine h.change ⟨rfl, rfl⟩ id id fun {j k} hk => ?_
  rw [Function.update_apply] at hk
  dsimp only [Crew.hire]
  split at hk
  · cases hk
    exact .inr ⟨l, by simp [*], rfl⟩
  · exact .inl ⟨hk, Function.update_of_ne ‹_› _ _⟩

/-- What a program leaves behind is nobody's. -/
lemma leave (h : Kept s knows) :
    Kept { s.discharge i with waiting := waiting } (Function.update knows i none) := by
  refine h.change ⟨rfl, rfl⟩ id id fun {j k} hk => ?_
  rw [Function.update_apply] at hk
  split at hk
  · cases hk
  · exact .inl ⟨hk, rfl⟩

lemma drift {now : Time} {history : SessionId → List Event} (h : Kept s knows) :
    Kept { s with world := { s.world with db := { s.world.db with now }, history } } knows := by
  refine h.change ⟨rfl, rfl⟩ ?_ ?_ fun hk => .inl ⟨hk, rfl⟩
  · rintro key _ (⟨ht, hkey⟩ | ⟨hr, hkey⟩)
    · exact .task ht hkey
    · exact .answer hr hkey
  · rintro key _ (⟨ht, hkey, hlive⟩ | ⟨hr, hkey, hresolving, hnew⟩)
    · exact .task ht hkey hlive
    · exact .answer hr hkey hresolving hnew

/-- In every run in which every caller could tell. -/
theorem of_keeping {knows : ℕ → Option Custody}
    (h : Crew.Tracked works environment custody Errand.custody (fun _ _ => True) {} s knows)
    (hheard : ∀ e ∈ s.world.log, e.Heard s.job) : Kept s knows := by
  induction h with
  | init =>
    refine ⟨?_, ?_, ?_, fun hk => (by cases hk), fun hk => (by cases hk), fun hk => (by cases hk),
      fun hk => (by cases hk), fun hk => (by cases hk)⟩
    · rintro key _ _ (⟨ht, -⟩ | ⟨hr, -⟩)
      · cases ht
      · cases hr
    · rintro key _ (⟨ht, -⟩ | ⟨hr, -⟩)
      · cases ht
      · cases hr
    · rintro key _ (⟨ht, -⟩ | ⟨hr, -⟩)
      · cases ht
      · cases hr
  | start hs hl ih =>
    exact (ih fun e he => (hheard e he).anti fun hj => hs.reachable.hire_job hj).join _
  | deliver hs hl hx ih =>
    exact (ih fun e he => (hheard e he).anti fun hj => hs.reachable.hire_job hj).join _
  | call hs hi hk ha hp hc hquiet ih =>
    refine (ih fun e he => hheard e ?_).proceed _ hs.reachable hi hk ha hc fun hlog => hheard _ ?_
    · obtain ⟨_, hlog⟩ := exec_noted hc
      dsimp only [Crew.proceed]
      rw [hlog]
      exact List.mem_cons_of_mem _ he
    · dsimp only [Crew.proceed]
      rw [hlog]
      exact List.mem_cons_self
  | send hs hi hk ha hp hc ih =>
    refine (ih fun e he => hheard e ?_).proceed _ hs.reachable hi hk ha hc fun hlog => hheard _ ?_
    · obtain ⟨_, hlog⟩ := exec_noted hc
      dsimp only [Crew.proceed]
      rw [hlog]
      exact List.mem_cons_of_mem _ he
    · dsimp only [Crew.proceed]
      rw [hlog]
      exact List.mem_cons_self
  | settle hs hi hl hx hk hQ ih => exact (ih hheard).leave _
  | drop hs hl hi ih => exact (ih hheard).leave _
  | post hs x ih => exact (ih hheard).change ⟨rfl, rfl⟩ id id fun hk => .inl ⟨hk, rfl⟩
  | drift hs hd ih =>
    obtain ⟨now, history, -, rfl⟩ := hd
    exact (ih hheard).drift

end Kept

end ManagedAgents.Controller
