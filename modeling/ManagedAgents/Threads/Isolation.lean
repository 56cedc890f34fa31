import ManagedAgents.Lib.Replay
import ManagedAgents.Threads.Sends

/-!
How many tasks a logical send is admitted as, and whose context they are in.

The controller tells first turns apart by their client message id alone, and turns of a context by
that id and the context. A send is admitted once as long as the thread's claim keeps first turns
with different ids apart, and threads stay apart as long as their first turns have different ids.
-/

namespace ManagedAgents.Threads.Sends

open ManagedAgents.Lib
open ManagedAgents.Controller (ContextId TaskId MessageId ClaimId Gapless Admits admitTurn_admits)

/-- A run of the sends, by its calls. -/
abbrev Past (job : ℕ → Option Job) : List Entry → Stores → Prop :=
  History Answers Drifts allowed {} job

lemma answers_possible {st st' : Stores} {c : Call} {r : Except Exn c.Reply}
    (h : Answers st c r st') : possible c r := by
  unfold possible
  split
  · rename_i threadId row
    cases h with
    | done hrun =>
      have hrow : st.app.threads.get? threadId = some row :=
        congrArg Prod.fst (Except.ok.inj hrun)
      exact Table.get?_key hrow
    | external hquery => exact absurd rfl (hquery _)
  · trivial

lemma Reachable.past {s : Senders} (hs : Reachable s) :
    Past s.job s.world.log s.world.state := by
  have hpossible : ∀ {s : Senders} {i : ℕ} {d : File} {c r w'}, Reachable s →
      (Environment.logged Answers Drifts).exec s.world (.worker i) c r w' →
      (Contract.filed possible allowed).possible d c r := by
    rintro s i d c r w' - ⟨st, hanswer, rfl⟩
    exact answers_possible hanswer
  obtain ⟨knows, htracked, -⟩ := Crew.tracks (Q := fun _ _ => True) conforms_job hpossible hs
  exact htracked.history

/-! ### Runs that are written down -/

/-- What is said to a call: that its transaction runs, drawing this id; that the message is
admitted, with a context and a task for it; that this reply is lost; or that all is well. -/
inductive Said
  | run (fresh : ℕ)
  | answer (contextId : ContextId) (taskId : TaskId)
  | lose (contextId : ContextId) (taskId : TaskId)
  | fine

/-- What the message asks for. -/
def asked (message : Message) (contextId : ContextId) (taskId : TaskId) : Controller.Admission :=
  { proposedContextId := contextId
    requestedContextId := message.contextId
    messageId := message.messageId
    proposedTaskId := taskId
    inputObjectKey := taskId }

def reply (st : Stores) : (c : Call) → Said → Option (Except Exn c.Reply × Stores)
  | .query q, .run fresh =>
    match q.run fresh st.app with
    | .ok (v, app) => some (.ok v, { st with app })
    | .error e => some (.error e, st)
  | .sendMessage _ message _, .answer contextId taskId =>
    if message.taskId = none then
      match Controller.admitTurn (asked message contextId taskId) st.controller with
      | .ok ((c, t, _), controller) =>
        some (.ok { id := t.taskId, contextId := c.contextId, state := t.a2aState },
          { st with controller })
      | .error _ => none
    else none
  | .sendMessage _ message _, .lose contextId taskId =>
    if message.taskId = none then
      match Controller.admitTurn (asked message contextId taskId) st.controller with
      | .ok (_, controller) => some (.error .other, { st with controller })
      | .error _ => none
    else none
  | .createPushConfig _ _, .fine => some (.ok (), st)
  | _, _ => none

lemma reply_answers {st st' : Stores} {c : Call} {said : Said} {r : Except Exn c.Reply}
    (h : reply st c said = some (r, st')) : Answers st c r st' := by
  unfold reply at h
  split at h
  · split at h
    · cases h
      exact .done ‹_›
    · cases h
      exact .refused ‹_›
  · split at h
    · rename_i htask
      split at h
      · cases h
        exact .admitted ⟨htask, rfl, rfl⟩ ‹_›
      · cases h
    · cases h
  · split at h
    · rename_i htask
      split at h
      · cases h
        exact .lost ⟨htask, rfl, rfl⟩ ‹_›
      · cases h
    · cases h
  · cases h
    exact .external nofun nofun
  · cases h

/-- Lines are answered like this; meanwhile the clock is set, and threads are changed. -/
def stage : Stage (.logged Answers Drifts) Said (ℕ ⊕ ℕ × Query) where
  answer w a c said := (reply w.state c said).map fun (r, st) =>
    (r, { state := st, log := ⟨a, ⟨c, r⟩, w.state, st⟩ :: w.log })
  answer_exec h := by
    obtain ⟨⟨r, st⟩, hreply, heq⟩ := Option.map_eq_some_iff.mp h
    cases heq
    exact ⟨st, reply_answers hreply, rfl⟩
  tick w
    | .inl now =>
      if w.state.app.now ≤ now then
        some { w with state := { w.state with app := { w.state.app with now := now } } }
      else none
    | .inr (fresh, q) =>
      if sending q then none
      else
        match q.run fresh w.state.app with
        | .ok (_, app) => some { w with state := { w.state with app } }
        | .error _ => none
  tick_drift h := by
    split at h
    · split at h
      · cases h
        exact ⟨_, .tick ‹_›, rfl⟩
      · cases h
    · split at h
      · cases h
      · split at h
        · cases h
          exact ⟨_, .threads (by simpa using ‹¬sending _ = true›) ‹_›, rfl⟩
        · cases h

/-! ### What a call changes -/

section

variable {st st' : Stores} {c : Call} {r : Except Exn c.Reply}

lemma Answers.app (h : Answers st c r st') :
    st'.app = st.app ∨ ∃ q fresh, c = .query q ∧ Effect q fresh st.app st'.app := by
  cases h with
  | done hrun | unacknowledged hrun => exact .inr ⟨_, _, rfl, Query.run_effect hrun⟩
  | refused | unavailable | admitted | lost | rejected | external => exact .inl rfl

/-- The message's context and task, once it was admitted. -/
structure Admission (st st' : Stores) (message : Message) (c : ContextId) (x : TaskId) : Prop where
  turn : message.taskId = none
  admits : ∃ a created, a.requestedContextId = message.contextId ∧ a.messageId = message.messageId ∧
    Admits st.controller st'.controller a c x created
  app : st'.app = st.app

lemma Answers.sent {agentId : AgentId} {message : Message} {humanInput : Bool}
    {r : Except Exn Task} (h : Answers st (.sendMessage agentId message humanInput) r st') :
    (st'.controller = st.controller ∧ ∃ e, r = .error e) ∨
      ∃ contextId x, Admission st st' message contextId x ∧
        ∀ task, r = .ok task → task.id = x ∧ task.contextId = contextId := by
  cases h with
  | @admitted _ _ _ a c t created controller state requests ha hrun =>
    refine .inr ⟨c.contextId, t.taskId, ⟨ha.1, ⟨a, created, ha.2.1, ha.2.2, admitTurn_admits hrun⟩,
      rfl⟩, fun task htask => ?_⟩
    cases htask
    exact ⟨rfl, rfl⟩
  | @lost _ _ _ a v controller e ha hrun =>
    exact .inr ⟨_, _, ⟨ha.1, ⟨a, v.2.2, ha.2.1, ha.2.2, admitTurn_admits hrun⟩, rfl⟩, nofun⟩
  | rejected => exact .inl ⟨rfl, _, rfl⟩
  | external _ hsend => exact absurd rfl (hsend _ _ _)

/-- Only messages change what the controller has admitted. -/
lemma Answers.unsent (h : Answers st c r st') (hc : ∀ a m u, c ≠ .sendMessage a m u) :
    st'.controller = st.controller := by
  cases h with
  | admitted | lost | rejected => exact absurd rfl (hc _ _ _)
  | done | unacknowledged | refused | unavailable | external => rfl

lemma Drifts.controller (h : Drifts st st') :
    st'.controller.head = st.controller.head ∧ st'.controller.turn = st.controller.turn := by
  cases h with
  | tick | threads | controllerTick => exact ⟨rfl, rfl⟩
  | controls hq hrun => exact (Controller.Query.run_effect hrun).unadmitted hq

end

/-! ### One task for each send -/

/-- The thread's claim was granted. -/
def grants (e : Entry) : Bool :=
  match e.said with
  | ⟨.query (.claimContextInitialization _ _), .ok (.acquired _)⟩ => true
  | _ => false

/-- A first turn was sent. -/
def opens (e : Entry) : Bool :=
  match e.said.1 with
  | .sendMessage _ message _ => message.contextId.isNone
  | _ => false

/-- Who was granted the claim last. -/
def holder (log : List Entry) : Option Actor := (log.find? grants).map (·.actor)

/-- The claim is granted to a send only while no context was made under another client message id,
and a first turn is sent only while the claim was last granted to a send of its client message id.
-/
def Renews (job : ℕ → Option Job) (e : Entry) (earlier : List Entry) : Prop :=
  ∀ i l, e.actor = .worker i → job i = some l →
    (grants e = true → ∀ c ∈ e.before.controller.contexts.rows, c.creationMessageId = l.messageId) ∧
    (opens e = true → ∃ j l', holder earlier = some (.worker j) ∧ job j = some l' ∧
      l'.messageId = l.messageId)

/-- There is one context, made under the client message id of the send that was granted the claim
last. -/
structure Single (job : ℕ → Option Job) (log : List Entry) (db : Controller.Db) : Prop where
  gapless : Gapless db.head db.turn
  one : ∀ {c d u v}, db.head c = some u → db.head d = some v → c = d
  held : ∀ {c m n}, db.head c = some (m, n) → ∀ {j l}, holder log = some (.worker j) →
    job j = some l → m = l.messageId

namespace Single

variable {job : ℕ → Option Job} {log : List Entry} {st st' : Stores}

lemma congr (h : Single job log st.controller) (hh : st'.controller.head = st.controller.head)
    (ht : st'.controller.turn = st.controller.turn) : Single job log st'.controller := by
  obtain ⟨hgapless, hone, hheld⟩ := h
  rw [← hh, ← ht] at hgapless
  rw [← hh] at hone hheld
  exact ⟨hgapless, hone, hheld⟩

lemma holder_cons {e : Entry} (h : grants e = false) : holder (e :: log) = holder log := by
  simp [holder, h]

lemma holder_grant {e : Entry} (h : grants e = true) : holder (e :: log) = some e.actor := by
  simp [holder, h]

/-- A first turn makes a context only where there is none. -/
lemma admission (h : Single job log st.controller) {message : Message} {c : ContextId} {x : TaskId}
    (hadmission : Admission st st' message c x)
    (hheld : message.contextId = none → ∃ j l, holder log = some (.worker j) ∧ job j = some l ∧
      message.messageId = l.messageId) : Single job log st'.controller := by
  obtain ⟨a, created, hrequested, hm, hadmits⟩ := hadmission.admits
  have horigin : ∀ {d m n}, st'.controller.head d = some (m, n) →
      (∃ n', st.controller.head d = some (m, n')) ∨ m = message.messageId ∧ d = c ∧
        message.contextId = none ∧ ∀ y u, st.controller.head y ≠ some u := by
    intro d m n hd
    rcases hadmits.origin hd with hold | ⟨hfirst, hm', hdc, hnone⟩
    · exact .inl hold
    -- a context there is was made under this client message id
    rw [hrequested] at hfirst
    obtain ⟨j, l, hholder, hjob, hmessage⟩ := hheld hfirst
    refine .inr ⟨hm'.trans hm, hdc, hfirst, fun y u hy => ?_⟩
    obtain ⟨m₀, n₀⟩ := u
    have hm₀ : m₀ = l.messageId := h.held hy hholder hjob
    rw [hm₀, ← hmessage, ← hm] at hy
    exact hnone y n₀ hy
  refine ⟨h.gapless.admits hadmits, fun {d e u v} hd he => ?_, fun {d m n} hd {k l'} hk hl' => ?_⟩
  · rcases horigin (d := d) hd with ⟨n, hd⟩ | ⟨-, rfl, -, hnone⟩
    · rcases horigin (d := e) he with ⟨n', he⟩ | ⟨-, -, -, hnone⟩
      · exact h.one hd he
      · exact absurd hd (hnone _ _)
    · rcases horigin (d := e) he with ⟨n', he⟩ | ⟨-, rfl, -, -⟩
      · exact absurd he (hnone _ _)
      · rfl
  · rcases horigin hd with ⟨n', hd⟩ | ⟨rfl, -, hfirst, -⟩
    · exact h.held hd hk hl'
    · obtain ⟨j, l, hholder, hjob, hmessage⟩ := hheld hfirst
      rw [hholder] at hk
      cases hk
      rw [hjob] at hl'
      cases hl'
      exact hmessage

end Single

/-- While claims are renewed by their own message's sends, there is one context. -/
lemma single_of_past {job : ℕ → Option Job} {log : List Entry} {st : Stores}
    (h : Past job log st) (hrenews : Throughout (Renews job) log) :
    Single job log st.controller := by
  induction h with
  | init => exact ⟨by constructor <;> simp, nofun, nofun⟩
  | @call log st i l c r st' h hjob hallowed hanswer ih =>
    obtain ⟨hrenew, hearlier⟩ := hrenews
    have hsingle := ih hearlier
    obtain ⟨hgrant, hopen⟩ := hrenew i l rfl hjob
    have hkeep : grants ⟨.worker i, ⟨c, r⟩, st, st'⟩ = false →
        Single job log st'.controller →
          Single job (⟨.worker i, ⟨c, r⟩, st, st'⟩ :: log) st'.controller := by
      refine fun hnot h => ⟨h.gapless, h.one, fun {d m n} hd {j l'} hj => ?_⟩
      rw [Single.holder_cons hnot] at hj
      exact h.held hd hj
    by_cases hsend : ∃ a m u, c = .sendMessage a m u
    · obtain ⟨agentId, message, humanInput, rfl⟩ := hsend
      refine hkeep rfl ?_
      rcases hanswer.sent with ⟨hsame, -⟩ | ⟨d, x, hadmission, -⟩
      · exact hsingle.congr (by rw [hsame]) (by rw [hsame])
      refine hsingle.admission hadmission fun hfirst => ?_
      obtain ⟨j, l', hholder, hj, hl'⟩ := hopen (by simp [opens, hfirst])
      exact ⟨j, l', hholder, hj, hallowed.2.1.trans hl'.symm⟩
    · have hsame := hanswer.unsent fun a m u hc => hsend ⟨a, m, u, hc⟩
      have hst : Single job log st'.controller := hsingle.congr (by rw [hsame]) (by rw [hsame])
      by_cases hg : grants ⟨.worker i, ⟨c, r⟩, st, st'⟩ = true
      · refine ⟨hst.gapless, hst.one, fun {d m n} hd {j l'} hj hl' => ?_⟩
        rw [Single.holder_grant hg] at hj
        cases hj
        rw [hjob] at hl'
        cases hl'
        rw [hsame] at hd
        obtain ⟨row, hrow, hcreation, -⟩ := Controller.head_eq_some.mp hd
        exact hcreation.symm.trans (hgrant hg row (Table.get?_eq_some.mp hrow).1)
      · exact hkeep (by simpa using hg) hst
  | drift h hd ih => exact (ih hrenews).congr hd.controller.1 hd.controller.2

/-- **One task for each logical send.** In every run of one thread's sends in which the claim goes
over to another client message only before a context was made, and first turns are sent by whom it
was granted last, a client message is admitted as one task, and all tasks are in one context. -/
theorem one_task_per_send {s : Senders} (hs : Reachable s)
    (hrenews : Throughout (Renews s.job) s.world.log) :
    (∀ x y c d m n n', s.world.state.controller.turn x = some (c, m, n) →
      s.world.state.controller.turn y = some (d, m, n') → x = y) ∧
    ∀ x y u v, s.world.state.controller.turn x = some u →
      s.world.state.controller.turn y = some v → u.1 = v.1 := by
  have h := single_of_past hs.past hrenews
  have hcontext : ∀ x y u v, s.world.state.controller.turn x = some u →
      s.world.state.controller.turn y = some v → u.1 = v.1 := by
    rintro x y ⟨c, m, n⟩ ⟨d, m', n'⟩ hx hy
    obtain ⟨first, next, hc, -⟩ := h.gapless.of hx
    obtain ⟨first', next', hd, -⟩ := h.gapless.of hy
    exact h.one hc hd
  refine ⟨fun x y c d m n n' hx hy => ?_, hcontext⟩
  have hcd : c = d := hcontext x y _ _ hx hy
  subst hcd
  exact h.gapless.message hx hy

/-- A thread, and a turn of it whose first reply is lost. -/
def firstLost : List (Duty Job Unit Said (ℕ ⊕ ℕ × Query)) :=
  [.tick (.inr (1, .createThread 7 1 none)),
    .start { threadId := 1, messageId := 100, text := "one", web := true },
    .call 0 (.run 0), .call 0 (.run 10), .call 0 (.run 20), .call 0 (.lose 1 1), .tick (.inl 31)]

/-- The claim lapses and another turn makes the thread's context, in which the first one is admitted
again when it is retried. -/
theorem second_task_for_retry : ∃ s : Senders, Reachable s ∧
    (∀ i l, s.job i = some l → l.threadId = 1) ∧
    s.world.state.controller.turn 1 = some (1, 100, 1) ∧
    s.world.state.controller.turn 3 = some (2, 100, 2) := by
  have hplay : ((stage.play works { state := {} }
      (firstLost ++ [.start { threadId := 1, messageId := 200, text := "two", web := true },
        .call 1 (.run 0), .call 1 (.run 11), .call 1 (.run 21), .call 1 (.answer 2 2),
        .call 1 (.run 0), .call 1 (.run 0),
        .start { threadId := 1, messageId := 100, text := "one", web := true },
        .call 2 (.run 0), .call 2 (.run 12), .call 2 (.answer 3 3)])).map fun s : Senders =>
      ((List.range s.started).all fun i => (s.job i).all fun l => l.threadId == 1,
        [s.world.state.controller.turn 1, s.world.state.controller.turn 3])) =
      some (true, [some (1, 100, 1), some (2, 100, 2)]) := by
    decide +kernel
  obtain ⟨s, -, hs, hval⟩ := stage.played _ hplay
  obtain ⟨hjobs, hval⟩ := Prod.mk.inj hval
  obtain ⟨hfirst, hval⟩ := List.cons.inj hval
  obtain ⟨hretry, -⟩ := List.cons.inj hval
  refine ⟨s, hs, fun i l hl => ?_, hfirst, hretry⟩
  have hlt : i < s.started := by
    by_contra hge
    rw [hs.unhired (Nat.le_of_not_lt hge)] at hl
    cases hl
  have hi := List.all_eq_true.mp hjobs i (List.mem_range.mpr hlt)
  rw [hl] at hi
  simpa using hi

/-- The condition, as a check. -/
def renewed (job : ℕ → Option Job) (e : Entry) (earlier : List Entry) : Bool :=
  match e.actor with
  | .client => true
  | .worker i => (job i).all fun l =>
    (!grants e || e.before.controller.contexts.rows.all fun c => c.creationMessageId == l.messageId)
      && (!opens e || match holder earlier with
        | some (.worker j) => (job j).any fun l' => l'.messageId == l.messageId
        | _ => false)

lemma renews_of_renewed {job : ℕ → Option Job} (e : Entry) (earlier : List Entry)
    (h : renewed job e earlier = true) : Renews job e earlier := by
  intro i l hactor hjob
  simp only [renewed, hactor, hjob, Option.all_some, Bool.and_eq_true, Bool.or_eq_true,
    Bool.not_eq_true'] at h
  refine ⟨fun hg c hc => ?_, fun ho => ?_⟩
  · rcases h.1 with hnot | hall
    · rw [hg] at hnot
      cases hnot
    · simpa using List.all_eq_true.mp hall c hc
  · rcases h.2 with hnot | hany
    · rw [ho] at hnot
      cases hnot
    · split at hany
      · rename_i j hholder
        rw [Option.any_eq_true] at hany
        obtain ⟨l', hl', hm⟩ := hany
        exact ⟨j, l', hholder, hl', by simpa using hm⟩
      · cases hany

/-- A retry by the same client message finds its task. -/
theorem one_task_per_send_retry : ∃ s : Senders, Reachable s ∧
    s.world.state.controller.turn 1 = some (1, 100, 1) ∧
    ∀ y d n', s.world.state.controller.turn y = some (d, 100, n') → 1 = y := by
  have hplay : ((stage.play works { state := {} }
      (firstLost ++ [.start { threadId := 1, messageId := 100, text := "one", web := true },
        .call 1 (.run 0), .call 1 (.run 11), .call 1 (.run 21), .call 1 (.answer 2 2),
        .call 1 (.run 0), .call 1 (.run 0)])).map fun s : Senders =>
      (always (renewed s.job) s.world.log, s.world.state.controller.turn 1)) =
      some (true, some (1, 100, 1)) := by
    decide +kernel
  obtain ⟨s, -, hs, hval⟩ := stage.played _ hplay
  obtain ⟨hrenewed, hturn⟩ := Prod.mk.inj hval
  have hrenews := Throughout.of_always renews_of_renewed hrenewed
  exact ⟨s, hs, hturn, fun y d n' hy => (one_task_per_send hs hrenews).1 1 y 1 d 100 1 n' hturn hy⟩

/-! ### Threads stay apart -/

/-- The call was a program's whose job has this thread. -/
def For (job : ℕ → Option Job) (e : Entry) (t : ThreadId) (m : MessageId) : Prop :=
  ∃ i l, e.actor = .worker i ∧ job i = some l ∧ l.threadId = t ∧ l.messageId = m

/-- The task was made by a send of this thread and client message id. -/
def Admitted (job : ℕ → Option Job) (log : List Entry) (x : TaskId) (t : ThreadId) (m : MessageId) :
    Prop :=
  ∃ e ∈ log, e.before.controller.turn x = none ∧ e.after.controller.turn x ≠ none ∧ For job e t m

/-- The context was made by a send of this thread. -/
def Made (job : ℕ → Option Job) (log : List Entry) (c : ContextId) (t : ThreadId) : Prop :=
  ∃ e ∈ log, e.before.controller.head c = none ∧ e.after.controller.head c ≠ none ∧
    ∃ m, For job e t m

/-- A first turn is sent under a client message id that made a context only for the thread that it
was made for. -/
def Separate (job : ℕ → Option Job) (e : Entry) (earlier : List Entry) : Prop :=
  ∀ i l, e.actor = .worker i → job i = some l → opens e = true →
    ∀ c ∈ e.before.controller.contexts.rows, c.creationMessageId = l.messageId →
      Made job earlier c.contextId l.threadId

/-- What a send was told is so, and about its own thread and message. -/
def Tells (job : ℕ → Option Job) (log : List Entry) (l : Job) :
    (c : Call) → Except Exn c.Reply → Prop
  | .sendMessage _ _ _, .ok task =>
    Admitted job log task.id l.threadId l.messageId ∧ Made job log task.contextId l.threadId
  | .query (.getThread t), .ok (some row) =>
    t = l.threadId → ∀ c, row.contextId = some c → Made job log c l.threadId
  | .query (.claimContextInitialization t _), .ok (.ready c) =>
    t = l.threadId → Made job log c l.threadId
  | _, _ => True

section

variable {job : ℕ → Option Job} {log : List Entry} {e : Entry} {c : ContextId} {x : TaskId}
  {t t' : ThreadId} {m : MessageId} {st st' : Stores}

lemma Admitted.cons (h : Admitted job log x t m) : Admitted job (e :: log) x t m := by
  obtain ⟨e', he', h⟩ := h
  exact ⟨e', List.mem_cons_of_mem e he', h⟩

lemma Made.cons (h : Made job log c t) : Made job (e :: log) c t := by
  obtain ⟨e', he', h⟩ := h
  exact ⟨e', List.mem_cons_of_mem e he', h⟩

lemma Tells.cons {l : Job} {call : Call} {r : Except Exn call.Reply} (h : Tells job log l call r) :
    Tells job (e :: log) l call r := by
  unfold Tells at h ⊢
  split
  · exact ⟨h.1.cons, h.2.cons⟩
  · exact fun ht c hc => (h ht c hc).cons
  · exact fun ht => (h ht).cons
  · trivial

/-- A context is a thread's, with all its tasks; a thread's context and tasks are its own. -/
structure Isolated (job : ℕ → Option Job) (log : List Entry) (st : Stores) : Prop where
  gapless : Gapless st.controller.head st.controller.turn
  there : ∀ {c t}, Made job log c t → st.controller.head c ≠ none
  unique : ∀ {c t t'}, Made job log c t → Made job log c t' → t = t'
  turns : ∀ {x c m n}, st.controller.turn x = some (c, m, n) →
    ∃ t, Made job log c t ∧ Admitted job log x t m
  bound : ∀ {t row c}, st.app.threads.get? t = some row → row.contextId = some c →
    Made job log c t
  tasks : ∀ {send row x}, st.app.tasks.get? send = some row → row.taskId = some x →
    Admitted job log x send.1 send.2
  told : ∀ e ∈ log, ∀ i l, e.actor = .worker i → job i = some l →
    Tells job log l e.said.1 e.said.2

namespace Isolated

lemma init : Isolated job [] {} where
  gapless := by constructor <;> simp
  there h := by
    obtain ⟨e, he, -⟩ := h
    cases he
  unique h := by
    obtain ⟨e, he, -⟩ := h
    cases he
  turns h := by simp at h
  bound h := by cases h
  tasks h := by cases h
  told e he := by cases he

variable {i : ℕ} {l : Job}

/-- What the controller answered a send is about its thread and message. -/
lemma answered (h : Isolated job log st) (hjob : job i = some l) {task : Task}
    (htask : Answered ⟨⟨Chronicle.of i log⟩, l⟩ task) :
    Admitted job log task.id l.threadId l.messageId ∧ Made job log task.contextId l.threadId := by
  obtain ⟨agentId, message, humanInput, hheard⟩ := htask
  obtain ⟨e, he, hactor, hsaid⟩ := Chronicle.mem_of.mp hheard
  have htold := h.told e he i l hactor hjob
  rw [hsaid] at htold
  exact htold

/-- The context a turn is sent in is its thread's. -/
lemma within (h : Isolated job log st) (hjob : job i = some l)
    (hwithin : Within ⟨⟨Chronicle.of i log⟩, l⟩ (some c)) : Made job log c l.threadId := by
  cases hwithin with
  | its hheard hcontext =>
    obtain ⟨e, he, hactor, hsaid⟩ := Chronicle.mem_of.mp hheard
    have htold := h.told e he i l hactor hjob
    rw [hsaid] at htold
    exact htold rfl c hcontext
  | ready hheard =>
    obtain ⟨e, he, hactor, hsaid⟩ := Chronicle.mem_of.mp hheard
    have htold := h.told e he i l hactor hjob
    rw [hsaid] at htold
    exact htold rfl

/-- What was told, and one call more. -/
lemma told_cons (h : Isolated job log st) (he : e.actor = .worker i) (hjob : job i = some l)
    (hnew : Tells job (e :: log) l e.said.1 e.said.2) : ∀ e' ∈ e :: log, ∀ j l',
      e'.actor = .worker j → job j = some l' → Tells job (e :: log) l' e'.said.1 e'.said.2 := by
  intro e' he' j l' hactor hl'
  rcases List.mem_cons.mp he' with rfl | he'
  · rw [he] at hactor
    cases hactor
    rw [hjob] at hl'
    cases hl'
    exact hnew
  · exact (h.told e' he' j l' hactor hl').cons

/-- What the drift leaves of the controller and the threads. -/
lemma congr (h : Isolated job log st) (hhead : st'.controller.head = st.controller.head)
    (hturn : st'.controller.turn = st.controller.turn)
    (hbound : ∀ {t row c}, st'.app.threads.get? t = some row → row.contextId = some c →
      Made job log c t)
    (htasks : ∀ {send row x}, st'.app.tasks.get? send = some row → row.taskId = some x →
      Admitted job log x send.1 send.2) : Isolated job log st' where
  gapless := by
    rw [hhead, hturn]
    exact h.gapless
  there hmade := by
    rw [hhead]
    exact h.there hmade
  unique := h.unique
  turns hx := h.turns (hturn ▸ hx)
  bound := hbound
  tasks := htasks
  told := h.told

/-- A thread has the context it had, or one that was bound. -/
lemma bound_effect (h : Isolated job log st) {q : Query} {fresh : ℕ} {app : Db}
    (heffect : Effect q fresh st.app app)
    (hq : ∀ t claimId c, q = .bindContext t claimId c → Made job log c t) {t : ThreadId}
    {row : ThreadRow} {c : ContextId} (hrow : app.threads.get? t = some row)
    (hcontext : row.contextId = some c) : Made job log c t := by
  have hchange := heffect.thread t
  rw [hrow] at hchange
  generalize hold : st.app.threads.get? t = old at hchange
  cases hchange with
  | same => exact h.bound hold hcontext
  | created _ hnone =>
    rw [hnone] at hcontext
    cases hcontext
  | touched halike => exact h.bound hold (halike.contextId ▸ hcontext)
  | claimed => exact h.bound hold hcontext
  | bound hq' =>
    cases hcontext
    exact hq _ _ _ hq'
  | released => exact h.bound hold hcontext

/-- A send has the task it had, or one that was bound. -/
lemma tasks_effect (h : Isolated job log st) {q : Query} {fresh : ℕ} {app : Db}
    (heffect : Effect q fresh st.app app)
    (hq : ∀ t m x, q = .bindTaskId t m x → Admitted job log x t m) {send : ThreadId × MessageId}
    {row : AgentTask} {x : TaskId} (hrow : app.tasks.get? send = some row)
    (htask : row.taskId = some x) : Admitted job log x send.1 send.2 := by
  have hchange := heffect.send send
  rw [hrow] at hchange
  generalize hold : st.app.tasks.get? send = old at hchange
  cases hchange with
  | same => exact h.tasks hold htask
  | recorded _ _ hnone =>
    rw [hnone] at htask
    cases htask
  | bound hq' =>
    cases htask
    exact hq _ _ _ hq'

lemma drift (h : Isolated job log st) (hd : Drifts st st') : Isolated job log st' := by
  refine h.congr hd.controller.1 hd.controller.2 ?_ ?_
  · cases hd with
    | tick | controls | controllerTick => exact h.bound
    | threads hq hrun =>
      exact h.bound_effect (Query.run_effect hrun) fun t claimId c hc => by
        rw [hc] at hq
        cases hq
  · cases hd with
    | tick | controls | controllerTick => exact h.tasks
    | threads hq hrun =>
      exact h.tasks_effect (Query.run_effect hrun) fun t m x hc => by
        rw [hc] at hq
        cases hq

/-- A call that is not logged makes nothing. -/
lemma made_cons (hhead : ∀ c, e.before.controller.head c = none →
    e.after.controller.head c = none) (h : Made job (e :: log) c t) : Made job log c t := by
  obtain ⟨e', he', hnone, hsome, hfor⟩ := h
  rcases List.mem_cons.mp he' with rfl | he'
  · exact absurd (hhead c hnone) hsome
  · exact ⟨e', he', hnone, hsome, hfor⟩

/-- A call that does not concern the controller. -/
lemma other (h : Isolated job log st) {c : Call} {r : Except Exn c.Reply} (hjob : job i = some l)
    (hallowed : allowed ⟨⟨Chronicle.of i log⟩, l⟩ c) (hanswer : Answers st c r st')
    (hsame : st'.controller = st.controller)
    (hnot : (∀ a m u, c ≠ .sendMessage a m u) ∨ ∃ e, r = .error e) :
    Isolated job (⟨.worker i, ⟨c, r⟩, st, st'⟩ :: log) st' := by
  have hmade : ∀ {c' t}, Made job (⟨.worker i, ⟨c, r⟩, st, st'⟩ :: log) c' t → Made job log c' t :=
    fun h => made_cons (fun c' hnone => by rw [hsame]; exact hnone) h
  have hbound : ∀ {t row c}, st'.app.threads.get? t = some row → row.contextId = some c →
      Made job log c t := by
    rcases hanswer.app with happ | ⟨q, fresh, rfl, heffect⟩
    · rw [happ]
      exact h.bound
    · refine h.bound_effect heffect fun t claimId c hq => ?_
      subst hq
      obtain ⟨rfl, task, htask, rfl⟩ := hallowed
      exact (h.answered hjob htask).2
  have htasks : ∀ {send row x}, st'.app.tasks.get? send = some row → row.taskId = some x →
      Admitted job log x send.1 send.2 := by
    rcases hanswer.app with happ | ⟨q, fresh, rfl, heffect⟩
    · rw [happ]
      exact h.tasks
    · refine h.tasks_effect heffect fun t m x hq => ?_
      subst hq
      obtain ⟨rfl, rfl, task, htask, rfl⟩ := hallowed
      exact (h.answered hjob htask).1
  have htells : Tells job log l c r := by
    unfold Tells
    split
    · rcases hnot with hnot | ⟨e, hr⟩
      · exact absurd rfl (hnot _ _ _)
      · cases hr
    · rintro rfl c hc
      cases hanswer with
      | done hrun => exact hbound (run_getThread hrun) hc
      | external hquery => exact absurd rfl (hquery _)
    · rintro rfl
      cases hanswer with
      | done hrun =>
        obtain ⟨row, hrow, hc⟩ := run_claimContextInitialization hrun
        exact hbound hrow hc
      | external hquery => exact absurd rfl (hquery _)
    · trivial
  exact {
    gapless := by
      rw [hsame]
      exact h.gapless
    there := fun hm => by
      rw [hsame]
      exact h.there (hmade hm)
    unique := fun hm hm' => h.unique (hmade hm) (hmade hm')
    turns := fun hx => by
      rw [hsame] at hx
      obtain ⟨t, hm, hadmitted⟩ := h.turns hx
      exact ⟨t, hm.cons, hadmitted.cons⟩
    bound := fun hrow hc => (hbound hrow hc).cons
    tasks := fun hrow hx => (htasks hrow hx).cons
    told := h.told_cons rfl hjob htells.cons }

/-- A message that was admitted, or may have been. -/
lemma admission (h : Isolated job log st) {agentId : AgentId} {message : Message}
    {humanInput : Bool}
    {r : Except Exn Task} {c : ContextId} {x : TaskId} (hjob : job i = some l)
    (hmessage : message.messageId = l.messageId)
    (hwithin : Within ⟨⟨Chronicle.of i log⟩, l⟩ message.contextId)
    (hadmission : Admission st st' message c x)
    (hanswered : ∀ task, r = .ok task → task.id = x ∧ task.contextId = c)
    (hseparate : message.contextId = none → ∀ row ∈ st.controller.contexts.rows,
      row.creationMessageId = l.messageId → Made job log row.contextId l.threadId) :
    Isolated job (⟨.worker i, ⟨.sendMessage agentId message humanInput, r⟩, st, st'⟩ :: log)
      st' := by
  obtain ⟨a, created, hrequested, hm, hadmits⟩ := hadmission.admits
  obtain ⟨⟨first, next, hhead, hnames⟩, n, hturn⟩ := hadmits.serves
  have hkeeps := hadmits.keeps
  generalize he : (⟨.worker i, ⟨.sendMessage agentId message humanInput, r⟩, st, st'⟩ : Entry) = e
  have hbefore : e.before = st := by rw [← he]
  have hafter : e.after = st' := by rw [← he]
  have hfor : For job e l.threadId l.messageId := ⟨i, l, by rw [← he], hjob, rfl, rfl⟩
  -- only this context can be new
  have honly : ∀ {d}, e.before.controller.head d = none → e.after.controller.head d ≠ none →
      d = c := by
    intro d hnone hsome
    rw [hbefore] at hnone
    rw [hafter] at hsome
    obtain ⟨⟨m, n⟩, hd⟩ := Option.ne_none_iff_exists'.mp hsome
    rcases hadmits.origin hd with ⟨n', hold⟩ | ⟨-, -, hdc, -⟩
    · rw [hnone] at hold
      cases hold
    · exact hdc
  have hmade : Made job (e :: log) c l.threadId := by
    cases hold : st.controller.head c with
    | none =>
      refine ⟨e, List.mem_cons_self, hbefore ▸ hold, ?_, _, hfor⟩
      rw [hafter, hhead]
      exact Option.some_ne_none _
    | some u =>
      obtain ⟨first', next'⟩ := u
      refine Made.cons ?_
      rcases hnames with hc | ⟨hnone, hfirst⟩
      · rw [← hrequested, hc] at hwithin
        exact h.within hjob hwithin
      · obtain ⟨row, hrow, hcreation, -⟩ := Controller.head_eq_some.mp hold
        obtain ⟨next'', hhead'⟩ := hkeeps.head hold
        rw [hhead] at hhead'
        cases hhead'
        have hmem := (Table.get?_eq_some.mp hrow).1
        have hid : row.contextId = c := Table.get?_key hrow
        rw [← hid]
        exact hseparate (hrequested ▸ hnone) row hmem
          (hcreation.trans (hfirst.trans (hm.trans hmessage)))
  have hcases : ∀ {d t}, Made job (e :: log) d t →
      Made job log d t ∨ d = c ∧ t = l.threadId ∧ st.controller.head d = none := by
    rintro d t ⟨e', he', hnone, hsome, m, j, l', hactor, hl', rfl, hm'⟩
    rcases List.mem_cons.mp he' with rfl | he'
    · rw [← he] at hactor
      cases hactor
      rw [hjob] at hl'
      cases hl'
      exact .inr ⟨honly hnone hsome, rfl, hbefore ▸ hnone⟩
    · exact .inl ⟨e', he', hnone, hsome, m, j, l', hactor, hl', rfl, hm'⟩
  have hunique : ∀ {d t t'}, Made job (e :: log) d t → Made job (e :: log) d t' → t = t' := by
    intro d t t' ht ht'
    rcases hcases ht with ht | ⟨-, rfl, hnone⟩ <;> rcases hcases ht' with ht' | ⟨-, rfl, hnone'⟩
    · exact h.unique ht ht'
    · exact absurd hnone' (h.there ht)
    · exact absurd hnone (h.there ht')
    · rfl
  have hturns : ∀ {y d m n}, st'.controller.turn y = some (d, m, n) →
      ∃ t, Made job (e :: log) d t ∧ Admitted job (e :: log) y t m := by
    intro y d m n hy
    rcases hadmits.turn_cases hy with hold | ⟨rfl, rfl, rfl, hnew⟩
    · obtain ⟨t, ht, hadmitted⟩ := h.turns hold
      exact ⟨t, ht.cons, hadmitted.cons⟩
    · refine ⟨l.threadId, hmade, e, List.mem_cons_self, hbefore ▸ hnew, ?_, ?_⟩
      · rw [hafter, hy]
        exact Option.some_ne_none _
      · rw [hm, hmessage]
        exact hfor
  refine ⟨h.gapless.admits hadmits, fun {d t} hd => ?_, hunique, hturns, ?_, ?_, ?_⟩
  · rcases hcases hd with hd | ⟨rfl, -, -⟩
    · obtain ⟨⟨m, n⟩, hsome⟩ := Option.ne_none_iff_exists'.mp (h.there hd)
      obtain ⟨n', hsome'⟩ := hkeeps.head hsome
      rw [hsome']
      exact Option.some_ne_none _
    · rw [hhead]
      exact Option.some_ne_none _
  · rw [hadmission.app]
    exact fun hrow hc => (h.bound hrow hc).cons
  · rw [hadmission.app]
    exact fun hrow hx => (h.tasks hrow hx).cons
  · have hnew : Tells job (e :: log) l (.sendMessage agentId message humanInput) r := by
      cases r with
      | error => trivial
      | ok task =>
        obtain ⟨hid, hcontext⟩ := hanswered task rfl
        obtain ⟨t, ht, hadmitted⟩ := hturns hturn
        rw [hunique ht hmade, hm, hmessage] at hadmitted
        exact ⟨hid ▸ hadmitted, hcontext ▸ hmade⟩
    subst he
    exact h.told_cons rfl hjob hnew

end Isolated

end

/-- While first turns of different threads are kept apart, so are the threads. -/
lemma isolated_of_past {job : ℕ → Option Job} {log : List Entry} {st : Stores}
    (h : Past job log st) (hseparate : Throughout (Separate job) log) : Isolated job log st := by
  induction h with
  | init => exact .init
  | @call log st i l c r st' h hjob hallowed hanswer ih =>
    obtain ⟨hsep, hearlier⟩ := hseparate
    have hisolated := ih hearlier
    by_cases hsend : ∃ a m u, c = .sendMessage a m u
    · obtain ⟨agentId, message, humanInput, rfl⟩ := hsend
      rcases hanswer.sent with ⟨hsame, hfailed⟩ | ⟨d, x, hadmission, hanswered⟩
      · exact hisolated.other hjob hallowed hanswer hsame (.inr hfailed)
      · obtain ⟨-, hmessage, hwithin⟩ := hallowed
        exact hisolated.admission hjob hmessage hwithin hadmission hanswered fun hfirst =>
          hsep i l rfl hjob (by simp [opens, hfirst])
    · have hnot : ∀ a m u, c ≠ .sendMessage a m u := fun a m u hc => hsend ⟨a, m, u, hc⟩
      exact hisolated.other hjob hallowed hanswer (hanswer.unsent hnot) (.inl hnot)
  | drift h hd ih => exact (ih hseparate).drift hd

/-- **Threads do not share contexts or tasks.** In every run in which no first turn is sent under a
client message id whose context was made for another thread, the tasks of a thread's context were
made by that thread's sends, and the task a logical send is bound to was made for its thread and
client message. -/
theorem threads_isolated {s : Senders} (hs : Reachable s)
    (hseparate : Throughout (Separate s.job) s.world.log) :
    (∀ t row c x m n, s.world.state.app.threads.get? t = some row → row.contextId = some c →
      s.world.state.controller.turn x = some (c, m, n) → Admitted s.job s.world.log x t m) ∧
    ∀ t m row x, s.world.state.app.tasks.get? (t, m) = some row → row.taskId = some x →
      Admitted s.job s.world.log x t m := by
  have h := isolated_of_past hs.past hseparate
  refine ⟨fun t row c x m n hrow hcontext hx => ?_, fun t m row x hrow hx => h.tasks hrow hx⟩
  obtain ⟨t', hmade, hadmitted⟩ := h.turns hx
  rw [h.unique (h.bound hrow hcontext) hmade]
  exact hadmitted

/-- Two threads. -/
def twoThreads : List (Duty Job Unit Said (ℕ ⊕ ℕ × Query)) :=
  [.tick (.inr (1, .createThread 7 1 none)), .tick (.inr (2, .createThread 8 1 none))]

/-- The calls of a web send that makes its thread's context, up to its task's. -/
def firstTurn (i : ℕ) (contextId : ContextId) : List (Duty Job Unit Said (ℕ ⊕ ℕ × Query)) :=
  [.call i (.run 0), .call i (.run (10 + i)), .call i (.run (20 + i)),
    .call i (.answer contextId contextId), .call i (.run 0), .call i (.run 0)]

/-- No send of this thread made the task, as a check. -/
def strange (job : ℕ → Option Job) (log : List Entry) (x : TaskId) (t : ThreadId) : Bool :=
  log.all fun e => match e.actor with
    | .client => true
    | .worker i => (e.before.controller.turn x).isSome || (e.after.controller.turn x).isNone ||
      (job i).all fun l => l.threadId != t

lemma not_admitted {job : ℕ → Option Job} {log : List Entry} {x : TaskId} {t : ThreadId}
    {m : MessageId} (h : strange job log x t = true) : ¬ Admitted job log x t m := by
  rintro ⟨e, he, hbefore, hafter, i, l, hactor, hjob, hthread, -⟩
  have hcheck := List.all_eq_true.mp h e he
  simp only [hactor, hbefore, hjob, hthread, Option.all_some, bne_self_eq_false, Bool.or_false,
    Option.isSome_none, Bool.false_or, Option.isNone_iff_eq_none] at hcheck
  exact hafter hcheck

/-- The first reply to one thread is lost, and another thread that sends its first turn under the
same client message id is given its context and its task. -/
theorem context_taken_over : ∃ s : Senders, Reachable s ∧
    (∃ row, s.world.state.app.threads.get? 2 = some row ∧ row.contextId = some 1) ∧
    s.world.state.controller.turn 1 = some (1, 100, 1) ∧
    (∃ row, s.world.state.app.tasks.get? (2, 100) = some row ∧ row.taskId = some 1) ∧
    ∀ m, ¬ Admitted s.job s.world.log 1 2 m := by
  have hplay : ((stage.play works { state := {} }
      (twoThreads ++ [.start { threadId := 1, messageId := 100, text := "one", web := true },
        .start { threadId := 2, messageId := 100, text := "two", web := true },
        .call 0 (.run 0), .call 0 (.run 10), .call 0 (.run 20), .call 0 (.lose 1 1)] ++
        firstTurn 1 2)).map fun s : Senders =>
      ((strange s.job s.world.log 1 2, s.world.state.controller.turn 1),
        [(s.world.state.app.threads.get? 2).bind (·.contextId),
          (s.world.state.app.tasks.get? (2, 100)).bind (·.taskId)])) =
      some ((true, some (1, 100, 1)), [some 1, some 1]) := by
    decide +kernel
  obtain ⟨s, -, hs, hval⟩ := stage.played _ hplay
  obtain ⟨hfirst, hval⟩ := Prod.mk.inj hval
  obtain ⟨hstrange, hturn⟩ := Prod.mk.inj hfirst
  obtain ⟨hthread, hval⟩ := List.cons.inj hval
  obtain ⟨htask, -⟩ := List.cons.inj hval
  exact ⟨s, hs, Option.bind_eq_some_iff.mp hthread, hturn, Option.bind_eq_some_iff.mp htask,
    fun m => not_admitted hstrange⟩

/-- The condition, where no context has the client message id of a first turn, as a check. -/
def unused (job : ℕ → Option Job) (e : Entry) (_ : List Entry) : Bool :=
  match e.actor with
  | .client => true
  | .worker i => !opens e || (job i).all fun l =>
    e.before.controller.contexts.rows.all fun c => c.creationMessageId != l.messageId

lemma separate_of_unused {job : ℕ → Option Job} (e : Entry) (earlier : List Entry)
    (h : unused job e earlier = true) : Separate job e earlier := by
  intro i l hactor hjob ho c hc hcreation
  simp only [unused, hactor, ho, hjob, Option.all_some, Bool.not_true, Bool.false_or] at h
  have hne := List.all_eq_true.mp h c hc
  rw [hcreation] at hne
  simp at hne

/-- Two threads, each with its first turn. -/
theorem threads_isolated_two : ∃ s : Senders, Reachable s ∧
    s.world.state.controller.turn 4 = some (4, 200, 1) ∧ Admitted s.job s.world.log 4 2 200 := by
  have hplay : ((stage.play works { state := {} }
      (twoThreads ++ [.start { threadId := 1, messageId := 100, text := "one", web := true },
        .start { threadId := 2, messageId := 200, text := "two", web := true }] ++
        firstTurn 0 3 ++ firstTurn 1 4)).map fun s : Senders =>
      (always (unused s.job) s.world.log, s.world.state.controller.turn 4,
        (s.world.state.app.threads.get? 2).bind (·.contextId))) =
      some (true, some (4, 200, 1), some 4) := by
    decide +kernel
  obtain ⟨s, -, hs, hval⟩ := stage.played _ hplay
  obtain ⟨hunused, hval⟩ := Prod.mk.inj hval
  obtain ⟨hturn, hval⟩ := Prod.mk.inj hval
  obtain ⟨row, hrow, hcontext⟩ := Option.bind_eq_some_iff.mp hval
  have hisolated := threads_isolated hs (Throughout.of_always separate_of_unused hunused)
  exact ⟨s, hs, hturn, hisolated.1 2 row 4 4 200 1 hrow hcontext hturn⟩

end ManagedAgents.Threads.Sends
