import ManagedAgents.Threads.Isolation

/-!
What a send that returned has left behind.

The reply to a send can be lost at any of its calls. Once it returned, though, its client message is
admitted, and its thread and its row are bound to what the controller answered, whatever other sends
do and for good.
-/

namespace ManagedAgents.Threads.Sends

open ManagedAgents.Lib
open ManagedAgents.Controller (ContextId TaskId MessageId ClaimId)

/-! ### What a send was told when it returned -/

/-- The context of the task was bound to the thread, or is the one the thread had. -/
def Placed (d : File) (contextId : ContextId) : Prop :=
  (∃ claimId row, d.Heard (.query (.bindContext d.job.threadId claimId contextId)) row) ∨
    Within d (some contextId)

/-- The controller answered with a task, and the thread and the send were bound to it. -/
def Acknowledged (d : File) : Prop :=
  ∃ task, Answered d task ∧ Placed d task.contextId ∧
    ∃ r, d.Heard (.query (.bindTaskId d.job.threadId d.job.messageId task.id)) r

section

variable {d d' : File} {row : ThreadRow} {turn : Service.Turn} {task : Task}

lemma Placed.mono {contextId : ContextId} (h : Placed d contextId) (hle : d ≤ d') :
    Placed d' contextId := by
  have hjob : d.job = d'.job := hle.1
  refine h.imp ?_ fun h => h.mono hle
  rintro ⟨claimId, row, h⟩
  exact ⟨claimId, row, hjob ▸ d.heard_mono h hle⟩

lemma Acknowledged.mono (h : Acknowledged d) (hle : d ≤ d') : Acknowledged d' := by
  have hjob : d.job = d'.job := hle.1
  obtain ⟨task, htask, hplaced, r, hbound⟩ := h
  exact ⟨task, htask.mono hle, hplaced.mono hle, r, hjob ▸ d.heard_mono hbound hle⟩

lemma places_closeTurn (hrow : row.threadId = d.job.threadId) (htask : Answered d task)
    (hwithin : Within d turn.contextId) :
    Follows (Service.closeTurn row turn task) (fun _ d' => Placed d' task.contextId) d := by
  unfold Service.closeTurn
  cases turn with
  | first claimId =>
    refine Lib.Follows.bind (.perform ⟨hrow, task, htask, rfl⟩) fun bound d' hle hbound => ?_
    have hjob : d.job = d'.job := hle.1
    rw [hrow, hjob] at hbound
    exact .pure (.inl ⟨claimId, bound, hbound.2⟩)
  | within contextId =>
    dsimp only
    split
    · rename_i heq
      refine .pure (.inr ?_)
      rw [heq]
      exact hwithin
    · exact .throw

/-- A turn that goes on after it was bound is acknowledged. -/
lemma acknowledges_turn {β : Type} {f : Task → Program β} {text : Controller.Text}
    (hheard : d.Heard (.query (.getThread d.job.threadId)) (some row))
    (hrow : row.threadId = d.job.threadId)
    (hf : ∀ task d', d ≤ d' → Acknowledged d' →
      Follows (f task) (fun _ d'' => Acknowledged d'') d') :
    Follows (do
      let turn ← Service.openTurn Service.contextSeconds row
      let task ← Service.submit row turn d.job.messageId text
      Service.closeTurn row turn task
      let _ ← ask (.bindTaskId d.job.threadId d.job.messageId task.id)
      f task) (fun _ d' => Acknowledged d') d := by
  refine (follows_openTurn hheard hrow).bind fun turn d₁ hle₁ hwithin => ?_
  have hjob₁ : d.job = d₁.job := hle₁.1
  rw [hjob₁] at hrow ⊢
  refine (follows_submit hwithin).bind fun task d₂ hle₂ htask => ?_
  have hjob₂ : d₁.job = d₂.job := hle₂.1
  rw [hjob₂] at hrow ⊢
  refine (places_closeTurn hrow htask (hwithin.mono hle₂)).bind fun _ d₃ hle₃ hplaced => ?_
  have hjob₃ : d₂.job = d₃.job := hle₃.1
  rw [hjob₃]
  refine Lib.Follows.bind (.perform ⟨rfl, rfl, task, htask.mono hle₃, rfl⟩)
    fun r d₄ hle₄ hbound => ?_
  have hjob₄ : d₃.job = d₄.job := hle₄.1
  rw [hjob₄] at hbound
  exact hf task d₄ (le_trans hle₁ (le_trans hle₂ (le_trans hle₃ hle₄)))
    ⟨task, htask.mono (le_trans hle₃ hle₄), hplaced.mono hle₄, r, hbound.2⟩

/-- What comes after the binding leaves the send acknowledged. -/
lemma acknowledged_call {c : Call} (hallow : allowed d c) (h : Acknowledged d) :
    Follows (perform c) (fun _ d' => Acknowledged d') d :=
  Lib.Follows.mono (.perform hallow) fun _ _ hle _ => h.mono hle

end

/-- **A send that returns is acknowledged.** -/
theorem acknowledges_job (l : Job) : (Contract.filed possible allowed).Conforms l.program
    (fun _ d => d.job = l ∧ Acknowledged d) (fun _ => True) { said := [], job := l } := by
  have hturn : Follows (Service.sendTurn l.threadId l.messageId l.text) (fun _ d => Acknowledged d)
      { said := [], job := l } := by
    unfold Service.sendTurn
    split
    · exact .throw
    refine Lib.Follows.bind (follows_thread (d := { said := [], job := l }))
      fun row d₁ hle₁ ⟨hheard, hrow⟩ => ?_
    refine .call trivial fun _ d₂ hle₂ => .call trivial fun _ d₃ hle₃ => ?_
    have hjob : l = d₃.job := (le_trans hle₁ (le_trans hle₂ hle₃)).1
    subst hjob
    refine acknowledges_turn (Dossier.heard_mono hheard (le_trans hle₂ hle₃)) hrow
      fun task d₄ _ hdone => ?_
    exact Lib.Follows.bind (Q := fun _ d => Acknowledged d)
      (.tryCatch (acknowledged_call trivial hdone) fun _ _ _ => .throw) fun _ _ _ h => .pure h
  have hsend : Follows (Service.send l.threadId l.messageId l.text) (fun _ d => Acknowledged d)
      { said := [], job := l } := by
    unfold Service.send
    refine Lib.Follows.bind (follows_thread (d := { said := [], job := l }))
      fun row d₁ hle₁ ⟨hheard, hrow⟩ => ?_
    refine .call trivial fun _ d₂ hle₂ => ?_
    have hjob : l = d₂.job := (le_trans hle₁ hle₂).1
    subst hjob
    refine acknowledges_turn (Dossier.heard_mono hheard hle₂) hrow fun task d₄ _ hdone => ?_
    refine Lib.Follows.bind (acknowledged_call trivial hdone) fun _ d₅ _ hdone => ?_
    exact Lib.Follows.bind (acknowledged_call trivial hdone) fun _ _ _ h => .pure h
  have hjob : Follows l.send (fun _ d => Acknowledged d) { said := [], job := l } := by
    unfold Job.send
    split
    · exact hsend
    · exact hturn
  have hprogram : Follows l.program (fun _ d => Acknowledged d) { said := [], job := l } :=
    hjob.bind fun _ _ _ h => .pure h
  exact Contract.Conforms.mono hprogram (fun _ _ h => ⟨h.1.1.symm, h.2⟩) fun _ _ => trivial

/-! ### What was bound stays -/

/-- The application's rows keep what is bound in them, and the controller its contexts and tasks. -/
structure Grows (st st' : Stores) : Prop where
  app : st.app.Settled → st'.app.Settled ∧ st.app.Grows st'.app
  controller : st.controller.Keeps st'.controller

namespace Grows

lemma refl (st : Stores) : Grows st st := ⟨fun h => ⟨h, .refl _⟩, ⟨fun h => ⟨_, h⟩, id⟩⟩

lemma trans {st st' st'' : Stores} (h : Grows st st') (h' : Grows st' st'') : Grows st st'' := by
  refine ⟨fun hst => ?_, ⟨fun hc => ?_, fun hx => h'.controller.turn (h.controller.turn hx)⟩⟩
  · obtain ⟨hst', hgrows⟩ := h.app hst
    obtain ⟨hst'', hgrows'⟩ := h'.app hst'
    exact ⟨hst'', hgrows.trans hgrows'⟩
  · obtain ⟨next, hc'⟩ := h.controller.head hc
    exact h'.controller.head hc'

variable {st st' : Stores}

lemma of_answers {c : Call} {r : Except Exn c.Reply} (h : Answers st c r st') : Grows st st' := by
  refine ⟨fun hst => ?_, ?_⟩
  · rcases h.app with happ | ⟨q, fresh, -, heffect⟩
    · rw [happ]
      exact ⟨hst, .refl _⟩
    · exact heffect.grows hst
  · by_cases hsend : ∃ a m u, c = .sendMessage a m u
    · obtain ⟨agentId, message, humanInput, rfl⟩ := hsend
      rcases h.sent with ⟨hsame, -⟩ | ⟨contextId, x, hadmission, -⟩
      · rw [hsame]
        exact .of_eq rfl rfl
      · obtain ⟨a, created, -, -, hadmits⟩ := hadmission.admits
        exact hadmits.keeps
    · rw [h.unsent fun a m u hc => hsend ⟨a, m, u, hc⟩]
      exact .of_eq rfl rfl

lemma of_drifts (h : Drifts st st') : Grows st st' := by
  refine ⟨fun hst => ?_, .of_eq h.controller.1 h.controller.2⟩
  cases h with
  | tick => exact ⟨hst, ⟨(Db.Grows.refl st.app).thread, (Db.Grows.refl st.app).send⟩⟩
  | threads hq hrun => exact (Query.run_effect hrun).grows hst
  | controls | controllerTick => exact ⟨hst, .refl _⟩

end Grows

/-- The send of this thread and client message is bound to the task, and the thread to its context,
where the controller has it under this message. -/
structure Bound (st : Stores) (t : ThreadId) (m : MessageId) (x : TaskId) (c : ContextId) :
    Prop where
  send : ∃ r, st.app.tasks.get? (t, m) = some r ∧ r.taskId = some x
  thread : ∃ r, st.app.threads.get? t = some r ∧ r.contextId = some c
  turn : ∃ n, st.controller.turn x = some (c, m, n)

section

variable {job : ℕ → Option Job} {log : List Entry} {st : Stores} {i : ℕ} {l : Job}

/-- What a query of the past was answered, it left so, and the stores grew since. -/
lemma asked_of_heard (h : Past job log st) {q : Query} {v : q.Reply}
    (hheard : (⟨⟨Chronicle.of i log⟩, l⟩ : File).Heard (.query q) v) :
    ∃ fresh before after, Query.run fresh q before = .ok (v, after) ∧ after.Settled ∧
      after.Grows st.app := by
  obtain ⟨e, he, -, hsaid⟩ := Chronicle.mem_of.mp hheard
  have hanswer := h.answered e he
  obtain ⟨-, hsince⟩ := h.since Grows.refl Grows.trans Grows.of_answers Grows.of_drifts
  obtain ⟨hstart, hgrows⟩ := hsince e he
  obtain ⟨hbefore, -⟩ := hstart.app fun _ _ h => by cases h
  obtain ⟨hafter, -⟩ := (Grows.of_answers hanswer).app hbefore
  rw [hsaid] at hanswer
  generalize hst : e.after = after at hanswer hafter hgrows
  cases hanswer with
  | @done fresh _ _ app hrun => exact ⟨fresh, _, app, hrun, hafter, (hgrows.app hafter).2⟩
  | external hquery => exact absurd rfl (hquery _)

/-- A thread that had a context has it. -/
lemma thread_grows {db db' : Db} (h : db.Grows db') {t : ThreadId} {c : ContextId}
    (hrow : ∃ r, db.threads.get? t = some r ∧ r.contextId = some c) :
    ∃ r, db'.threads.get? t = some r ∧ r.contextId = some c := by
  obtain ⟨r, hr, hc⟩ := hrow
  obtain ⟨r', hr', -, -, hcontext⟩ := h.thread t r hr
  exact ⟨r', hr', hcontext c hc⟩

/-- What the controller answered it has admitted, under the send's own client message. -/
lemma admitted_of_answered (h : Past job log st) (hjob : job i = some l) {task : Task}
    (htask : Answered ⟨⟨Chronicle.of i log⟩, l⟩ task) :
    ∃ n, st.controller.turn task.id = some (task.contextId, l.messageId, n) := by
  obtain ⟨agentId, message, humanInput, hheard⟩ := htask
  obtain ⟨e, he, hactor, hsaid⟩ := Chronicle.mem_of.mp hheard
  obtain ⟨j, l', earlier, hactor', hjob', hallowed⟩ := h.made e he
  rw [hactor] at hactor'
  cases hactor'
  rw [hjob] at hjob'
  cases hjob'
  have hanswer := h.answered e he
  obtain ⟨-, hsince⟩ := h.since Grows.refl Grows.trans Grows.of_answers Grows.of_drifts
  rw [hsaid] at hallowed hanswer
  rcases hanswer.sent with ⟨-, e, hfailed⟩ | ⟨c, x, hadmission, hanswered⟩
  · cases hfailed
  obtain ⟨rfl, rfl⟩ := hanswered task rfl
  obtain ⟨a, created, -, hm, hadmits⟩ := hadmission.admits
  obtain ⟨n, hturn⟩ := hadmits.serves.turn
  rw [hm, hallowed.2.1] at hturn
  exact ⟨n, (hsince e he).2.controller.turn hturn⟩

/-- A send that was told of its bindings is bound. -/
lemma bound_of_told (h : Past job log st) (hjob : job i = some l) {task : Task} {r : AgentTask}
    (htask : Answered ⟨⟨Chronicle.of i log⟩, l⟩ task)
    (hplaced : Placed ⟨⟨Chronicle.of i log⟩, l⟩ task.contextId)
    (hheard : (⟨⟨Chronicle.of i log⟩, l⟩ : File).Heard
      (.query (.bindTaskId l.threadId l.messageId task.id)) r) :
    Bound st l.threadId l.messageId task.id task.contextId := by
  refine ⟨?_, ?_, admitted_of_answered h hjob htask⟩
  · obtain ⟨fresh, before, after, hrun, -, hgrows⟩ := asked_of_heard h hheard
    obtain ⟨r', hr', hx⟩ := run_bindTaskId hrun
    obtain ⟨r'', hr'', -, htask'⟩ := hgrows.send _ r' hr'
    exact ⟨r'', hr'', htask' _ hx⟩
  · rcases hplaced with ⟨claimId, row, hheard⟩ | hwithin
    · obtain ⟨fresh, before, after, hrun, -, hgrows⟩ := asked_of_heard h hheard
      exact thread_grows hgrows (run_bindContext hrun)
    · cases hwithin with
      | its hheard hcontext =>
        obtain ⟨fresh, before, after, hrun, -, hgrows⟩ := asked_of_heard h hheard
        exact thread_grows hgrows ⟨_, run_getThread hrun, hcontext⟩
      | ready hheard =>
        obtain ⟨fresh, before, after, hrun, -, hgrows⟩ := asked_of_heard h hheard
        exact thread_grows hgrows (run_claimContextInitialization hrun)

end

/-! ### The main results -/

lemma possible_of_exec {s : Senders} {i : ℕ} {d : File} {c : Call} {r : Except Exn c.Reply}
    {w' : Ledger Call.Reply Exn Stores}
    (h : (Environment.logged Answers Drifts).exec s.world (.worker i) c r w') :
    (Contract.filed possible allowed).possible d c r := by
  obtain ⟨st, hanswer, -⟩ := h
  exact answers_possible hanswer

/-- A send that returned was told of its bindings. -/
lemma told_of_returned {s : Senders} (hs : Reachable s) {i : ℕ}
    (hreturned : s.thread i = some (.ret ())) :
    ∃ l, s.job i = some l ∧ Acknowledged ⟨⟨Chronicle.of i s.world.log⟩, l⟩ := by
  obtain ⟨knows, htracked, hkeeps⟩ := Crew.tracks (Q := fun l d => d.job = l ∧ Acknowledged d)
    acknowledges_job (fun _ h => possible_of_exec h) hs
  obtain ⟨l, d, hjob, hknows, hd, hdone⟩ := hkeeps i _ hreturned
  obtain ⟨-, hsaid⟩ := htracked.filed hknows
  have hfile : d = ⟨⟨Chronicle.of i s.world.log⟩, l⟩ := by
    rw [← hd, ← hsaid]
  rw [hfile] at hdone
  exact ⟨l, hjob, hdone⟩

/-- The controller answered program `i` with the task. -/
def ToldTask (s : Senders) (i : ℕ) (task : Task) : Prop :=
  ∃ agentId message humanInput,
    (⟨.sendMessage agentId message humanInput, .ok task⟩ : Prog.Exchange Call.Reply Exn) ∈
      Chronicle.of i s.world.log

/-- What a send that returned was told is so from then on. -/
lemma bound_of_returned {s s' : Senders} (hs : Reachable s) {i : ℕ}
    (hreturned : s.thread i = some (.ret ()))
    (hlater : Relation.ReflTransGen (Crew.Step works (.logged Answers Drifts)) s s') :
    ∃ l task, s'.job i = some l ∧ s.job i = some l ∧ ToldTask s i task ∧
      Bound s'.world.state l.threadId l.messageId task.id task.contextId := by
  obtain ⟨l, hjob, task, htask, hplaced, r, hbound⟩ := told_of_returned hs hreturned
  obtain ⟨hs', hlog, hjobs⟩ := hs.later hlater
  have hle : (⟨⟨Chronicle.of i s.world.log⟩, l⟩ : File) ≤ ⟨⟨Chronicle.of i s'.world.log⟩, l⟩ :=
    ⟨rfl, Chronicle.of_suffix hlog⟩
  have hbound' := bound_of_told (Reachable.past hs') (hjobs hjob) (htask.mono hle)
    (hplaced.mono hle) (Dossier.heard_mono hbound hle)
  exact ⟨l, task, hjobs hjob, hjob, htask, hbound'⟩

/-- **Acknowledged sends are bound for good.** When a send has returned, the controller had answered
it with a task, and in that state and in every later one its client message is admitted as this
task, its row is bound to it and its thread to the task's context. -/
theorem acknowledged_send_bound {s s' : Senders} (hs : Reachable s) {i : ℕ}
    (hreturned : s.thread i = some (.ret ()))
    (hlater : Relation.ReflTransGen (Crew.Step works (.logged Answers Drifts)) s s') :
    ∃ l task, s.job i = some l ∧ ToldTask s i task ∧
      Bound s'.world.state l.threadId l.messageId task.id task.contextId := by
  obtain ⟨l, task, -, hjob, htold, hbound⟩ := bound_of_returned hs hreturned hlater
  exact ⟨l, task, hjob, htold, hbound⟩

/-- A web send that makes its thread's context, to its end. -/
def firstSend (i : ℕ) (contextId : ContextId) : List (Duty Job Unit Said (ℕ ⊕ ℕ × Query)) :=
  firstTurn i contextId ++ [.call i .fine, .call i (.run 0)]

/-- A thread's first turn. -/
theorem acknowledged_send_bound_first : ∃ s : Senders, Reachable s ∧
    ∃ l task, s.job 0 = some l ∧ l.messageId = 100 ∧ ToldTask s 0 task ∧
      Bound s.world.state l.threadId l.messageId task.id task.contextId := by
  have hplay : ((stage.play works { state := {} }
      (twoThreads ++ [.start { threadId := 1, messageId := 100, text := "one", web := true }] ++
        firstSend 0 3)).map fun s : Senders => (s.returned 0, (s.job 0).map (·.messageId))) =
      some (true, some 100) := by
    decide +kernel
  obtain ⟨s, -, hs, hval⟩ := stage.played _ hplay
  obtain ⟨hreturned, hval⟩ := Prod.mk.inj hval
  obtain ⟨l, task, hl, hrest⟩ := acknowledged_send_bound hs (Crew.of_returned hreturned) .refl
  rw [hl] at hval
  exact ⟨s, hs, l, task, hl, Option.some.inj hval, hrest⟩

/-- **Acknowledged sends agree.** Replies can be lost, and a retried message can be admitted more
than once. Still, of one client message of a thread, all the sends that returned were answered with
the same task. -/
theorem acknowledged_sends_agree {s : Senders} (hs : Reachable s) {i j : ℕ} {l l' : Job}
    (hi : s.thread i = some (.ret ())) (hj : s.thread j = some (.ret ()))
    (hl : s.job i = some l) (hl' : s.job j = some l')
    (hthread : l'.threadId = l.threadId) (hmessage : l'.messageId = l.messageId) :
    ∃ task task', ToldTask s i task ∧ ToldTask s j task' ∧ task'.id = task.id ∧
      task'.contextId = task.contextId := by
  obtain ⟨k, task, -, hk, htold, hbound⟩ := bound_of_returned hs hi .refl
  obtain ⟨k', task', -, hk', htold', hbound'⟩ := bound_of_returned hs hj .refl
  rw [hl] at hk
  cases hk
  rw [hl'] at hk'
  cases hk'
  rw [hthread, hmessage] at hbound'
  refine ⟨task, task', htold, htold', ?_, ?_⟩
  · obtain ⟨r, hr, hx⟩ := hbound.send
    obtain ⟨r', hr', hx'⟩ := hbound'.send
    rw [hr] at hr'
    cases hr'
    exact Option.some.inj (hx'.symm.trans hx)
  · obtain ⟨r, hr, hc⟩ := hbound.thread
    obtain ⟨r', hr', hc'⟩ := hbound'.thread
    rw [hr] at hr'
    cases hr'
    exact Option.some.inj (hc'.symm.trans hc)

/-- A message whose reply was lost is sent again twice. -/
theorem acknowledged_sends_agree_retried : ∃ s : Senders, Reachable s ∧
    ∃ task task', ToldTask s 1 task ∧ ToldTask s 2 task' ∧ task'.id = task.id ∧
      task'.contextId = task.contextId := by
  have hplay : ((stage.play works { state := {} }
      (firstLost ++ [.start { threadId := 1, messageId := 100, text := "one", web := true }] ++
        firstSend 1 2 ++ [.start { threadId := 1, messageId := 100, text := "one", web := true },
        .call 2 (.run 0), .call 2 (.run 12), .call 2 (.answer 3 3), .call 2 (.run 0),
        .call 2 .fine, .call 2 (.run 0)])).map fun s : Senders =>
      ((s.returned 1, s.returned 2),
        [(s.job 1).map fun l => (l.threadId, l.messageId),
          (s.job 2).map fun l => (l.threadId, l.messageId)])) =
      some ((true, true), [some (1, 100), some (1, 100)]) := by
    decide +kernel
  obtain ⟨s, -, hs, hval⟩ := stage.played _ hplay
  obtain ⟨hreturned, hval⟩ := Prod.mk.inj hval
  obtain ⟨hi, hj⟩ := Prod.mk.inj hreturned
  obtain ⟨hl, hval⟩ := List.cons.inj hval
  obtain ⟨hl', -⟩ := List.cons.inj hval
  obtain ⟨l, hl, heq⟩ := Option.map_eq_some_iff.mp hl
  obtain ⟨l', hl', heq'⟩ := Option.map_eq_some_iff.mp hl'
  obtain ⟨ht, hm⟩ := Prod.mk.inj heq
  obtain ⟨ht', hm'⟩ := Prod.mk.inj heq'
  exact ⟨s, hs, acknowledged_sends_agree hs (Crew.of_returned hi) (Crew.of_returned hj) hl hl'
    (ht'.trans ht.symm) (hm'.trans hm.symm)⟩

end ManagedAgents.Threads.Sends
