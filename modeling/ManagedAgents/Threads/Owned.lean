import ManagedAgents.Lib.Replay
import ManagedAgents.Threads.Authority

/-!
What the handlers' files say is so in the database: the checks they rest on were true when they were
made, and what was bound to a thread then is bound to it when the controller is called.
-/

namespace ManagedAgents.Threads

open ManagedAgents.Lib
open ManagedAgents.Controller (ContextId TaskId MessageId)

/-! ### The log and the database -/

/-- An answered query was answered by its transaction. -/
def Honest (e : Entry) : Prop :=
  ∀ q v, e.said = ⟨.query q, .ok v⟩ → ∃ fresh, Query.run fresh q e.before = .ok (v, e.after)

/-- The log's databases grow, up to the present one. -/
structure Chained (w : World) : Prop where
  settled : w.db.Settled
  honest : ∀ e ∈ w.log, Honest e
  grows : ∀ e ∈ w.log, e.after.Grows w.db
  ordered : w.log.Pairwise fun e e' => e'.after.Grows e.before

namespace Chained

variable {w w' : World} {a : Actor} {c : Call} {r : Except Exn c.Reply}

/-- Whatever an answer makes of the database, it grows. -/
lemma answers (h : Chained w) {w₁ : World} (hw : Answers w c r w₁) :
    w₁.log = w.log ∧ w₁.db.Settled ∧ w.db.Grows w₁.db := by
  cases hw with
  | done hrun | unacknowledged hrun =>
    obtain ⟨hsettled, hgrows⟩ := (Query.run_effect hrun).grows h.settled
    exact ⟨rfl, hsettled, hgrows⟩
  | refused | unavailable | external => exact ⟨rfl, h.settled, .refl _⟩

lemma exec (h : Chained w) (he : environment.exec w a c r w') : Chained w' := by
  obtain ⟨w₁, hw, rfl⟩ := he
  obtain ⟨hlog, hsettled, hgrows⟩ := h.answers hw
  refine ⟨hsettled, fun e he => ?_, fun e he => ?_, ?_⟩
  · rcases List.mem_cons.mp he with rfl | he
    · intro q v hsaid
      dsimp only at hsaid ⊢
      cases hsaid
      cases hw with
      | done hrun => exact ⟨_, hrun⟩
      | external hc => exact absurd rfl (hc q)
    · exact h.honest e he
  · rcases List.mem_cons.mp he with rfl | he
    · exact .refl _
    · exact (h.grows e he).trans hgrows
  · refine List.pairwise_cons.mpr ⟨fun e he => h.grows e he, h.ordered⟩

lemma drift (h : Chained w) (hd : environment.drift w w') : Chained w' := by
  rcases hd with ⟨now, -, rfl⟩ | ⟨q, v, db, hrun, rfl⟩
  · exact ⟨h.settled, h.honest, fun e he => ⟨(h.grows e he).thread, (h.grows e he).send⟩, h.ordered⟩
  · obtain ⟨hsettled, hgrows⟩ := (Query.run_effect hrun).grows h.settled
    exact ⟨hsettled, h.honest, fun e he => (h.grows e he).trans hgrows, h.ordered⟩

end Chained

lemma Reachable.chained {s : Handlers} (hs : Reachable s) : Chained s.world :=
  Crew.Reachable.world
    ⟨fun _ _ h => (by cases h), fun _ h => (by cases h), fun _ h => (by cases h), .nil⟩
    Chained.exec Chained.drift hs

lemma exec_possible {w w' : World} {a : Actor} {c : Call} {r : Except Exn c.Reply}
    (h : environment.exec w a c r w') : possible c r := by
  obtain ⟨w₁, hw, -⟩ := h
  unfold possible
  split
  · rename_i threadId row
    cases hw with
    | done hrun =>
      have hrow : w.db.threads.get? threadId = some row := congrArg Prod.fst (Except.ok.inj hrun)
      exact Table.get?_key hrow
    | external hc => exact absurd rfl (hc _)
  · rename_i surface tenantId externalThreadId row b
    cases hw with
    | done hrun =>
      have hjoined : ((w.db.bindings.get? (surface, tenantId, externalThreadId)).bind fun b =>
          (w.db.threads.get? b.threadId).map fun r => (r, b)) = some (row, b) :=
        congrArg Prod.fst (Except.ok.inj hrun)
      obtain ⟨b', -, hrow⟩ := Option.bind_eq_some_iff.mp hjoined
      obtain ⟨row', hget, hpair⟩ := Option.map_eq_some_iff.mp hrow
      cases hpair
      exact Table.get?_key hget
    | external hc => exact absurd rfl (hc _)
  · trivial

/-! ### What the answers mean -/

/-- The thread is the principal's, and not archived. -/
def Db.Owns (db : Db) (p : PrincipalId) (t : ThreadId) : Prop :=
  ∃ row, db.threads.get? t = some row ∧ row.principalId = p ∧ row.archivedAt = none

/-- The agent's task is bound to the thread. -/
def Db.Binds (db : Db) (agentId : AgentId) (taskId : TaskId) (t : ThreadId) : Prop :=
  ∃ clientMessageId row, db.tasks.get? (t, clientMessageId) = some row ∧ row.agentId = agentId ∧
    row.taskId = some taskId

/-- The Slack user is this principal. -/
def Db.Identifies (db : Db) (teamId userId : String) (p : PrincipalId) : Prop :=
  ∃ row, db.identities.get? ("slack", teamId, userId) = some row ∧ row.principalId = p

section

variable {db db' : Db} {fresh seconds : ℕ} {p : PrincipalId} {t : ThreadId} {row : ThreadRow}
  {b : SurfaceBinding} {surface tenantId externalThreadId teamId userId : String}
  {agentId : AgentId} {taskId : TaskId} {contextId : ContextId} {clientMessageId : MessageId}
  {title : Option Controller.Text}

lemma ownedBy_iff : row.ownedBy p = true ↔ row.principalId = p ∧ row.archivedAt = none := by
  simp [ThreadRow.ownedBy]

lemma run_ownsThread (h : Query.run fresh (.ownsThread p t) db = .ok (true, db')) :
    db'.Owns p t := by
  obtain ⟨howned, rfl⟩ := Prod.mk.inj (Except.ok.inj h)
  rw [Option.any_eq_true] at howned
  obtain ⟨row, hrow, howned⟩ := howned
  exact ⟨row, hrow, ownedBy_iff.mp howned⟩

lemma run_selectSurfaceThread
    (h : Query.run fresh (.selectSurfaceThread surface tenantId externalThreadId) db =
      .ok (some (row, b), db')) (howned : row.ownedBy p = true) : db'.Owns p row.threadId := by
  obtain ⟨hjoined, rfl⟩ := Prod.mk.inj (Except.ok.inj h)
  obtain ⟨b', -, hbound⟩ := Option.bind_eq_some_iff.mp hjoined
  obtain ⟨row', hget, heq⟩ := Option.map_eq_some_iff.mp hbound
  cases heq
  exact ⟨row, by rw [Table.get?_key hget]; exact hget, ownedBy_iff.mp howned⟩

lemma run_insertSurfaceThread
    (h : Query.run fresh
        (.insertSurfaceThread surface tenantId externalThreadId p agentId title) db =
      .ok (some (row, b), db')) : db'.Owns p row.threadId := by
  simp only [Query.run, insertSurfaceThread] at h
  split at h
  · cases h
  · rename_i inserted created hinsert
    have hinserted : Effect (.getThread 0) 0 db created ∧ _ := Effect.insertThread rfl rfl hinsert
    obtain ⟨-, rfl, -, htable⟩ := hinserted
    split at h
    · cases h
      exact ⟨_, (Table.get?_insert htable _).trans (if_pos rfl), rfl, rfl⟩
    · cases h

lemma run_resolveExternalIdentity
    (h : Query.run fresh (.resolveExternalIdentity "slack" teamId userId) db = .ok (some p, db')) :
    db'.Identifies teamId userId p := by
  obtain ⟨hfound, rfl⟩ := Prod.mk.inj (Except.ok.inj h)
  obtain ⟨row, hrow, hp⟩ := Option.map_eq_some_iff.mp hfound
  exact ⟨row, hrow, hp⟩

lemma run_getTaskBinding {b : AgentTask}
    (h : Query.run fresh (.getTaskBinding agentId taskId) db = .ok (some b, db')) :
    db'.Binds agentId taskId b.threadId := by
  obtain ⟨hfound, rfl⟩ := Prod.mk.inj (Except.ok.inj h)
  obtain ⟨hget, hmatch⟩ := Table.mem_select.mp (List.mem_of_head? hfound)
  simp only [Bool.and_eq_true, beq_iff_eq] at hmatch
  exact ⟨b.clientMessageId, b, hget, hmatch⟩

lemma run_recordLogicalSend {r : AgentTask}
    (h : Query.run fresh (.recordLogicalSend t agentId clientMessageId) db = .ok (r, db')) :
    ∃ r', db'.tasks.get? (t, clientMessageId) = some r' ∧ r'.agentId = agentId := by
  simp only [Query.run, recordLogicalSend] at h
  split at h
  · cases h
  · split at h
    · cases h
    · split at h
      · rename_i row hrow
        split at h
        · rename_i hagent
          cases h
          exact ⟨_, hrow, hagent⟩
        · cases h
      · split at h
        · rename_i tasks hinsert
          cases h
          exact ⟨_, (Table.get?_insert hinsert _).trans (if_pos rfl), rfl⟩
        · cases h

end

/-- What a check saw was so. -/
lemma Honest.checks {e : Entry} (h : Honest e) {p : PrincipalId} {t : ThreadId}
    (hx : Checks p t e.said) : e.after.Owns p t := by
  generalize hsaid : e.said = x at hx
  cases hx with
  | owned =>
    obtain ⟨fresh, hrun⟩ := h _ _ hsaid
    exact run_ownsThread hrun
  | joined hrow howned =>
    obtain ⟨fresh, hrun⟩ := h _ _ hsaid
    exact hrow ▸ run_selectSurfaceThread hrun howned
  | created hrow =>
    obtain ⟨fresh, hrun⟩ := h _ _ hsaid
    exact hrow ▸ run_insertSurfaceThread hrun
  | read howned =>
    obtain ⟨fresh, hrun⟩ := h _ _ hsaid
    exact ⟨_, run_getThread hrun, ownedBy_iff.mp howned⟩

/-! ### The main result -/

/-- In these entries the program of this number was told that the errand's Slack user is a
principal, and saw that the thread is this principal's and not archived; both were so when it was
told. -/
def Entitled (l : Errand) (i : ℕ) (earlier : List Entry) (t : ThreadId) : Prop :=
  ∃ p, (∃ e ∈ earlier, e.actor = .worker i ∧
      e.said = ⟨.query (.resolveExternalIdentity "slack" l.teamId l.userId), .ok (some p)⟩ ∧
      e.after.Identifies l.teamId l.userId p) ∧
    ∃ e ∈ earlier, e.actor = .worker i ∧ Checks p t e.said ∧ e.after.Owns p t

/-- The program holds a claim on the thread's context. -/
def Claimed (i : ℕ) (earlier : List Entry) (t : ThreadId) : Prop :=
  ∃ e ∈ earlier, e.actor = .worker i ∧ ∃ seconds claimId,
    e.said = ⟨.query (.claimContextInitialization t seconds), .ok (.acquired claimId)⟩

/-- A call to the controller concerns a thread to which the program is entitled. A turn is a logical
send of that thread, in its context or in one that is made for it; a task that is named is bound to
that thread. -/
def Lawful (l : Errand) (i : ℕ) (earlier : List Entry) (db : Db) : Call → Prop
  | .sendMessage agentId message _ =>
    ∃ t row, Entitled l i earlier t ∧ db.threads.get? t = some row ∧ row.agentId = agentId ∧
      (∀ contextId, message.contextId = some contextId → row.contextId = some contextId) ∧
      match message.taskId with
      | none => (message.contextId = none → Claimed i earlier t) ∧
        ∃ send, db.tasks.get? (t, message.messageId) = some send ∧ send.agentId = agentId
      | some taskId => db.Binds agentId taskId t
  | .getTask agentId taskId _ | .cancelTask agentId taskId =>
    ∃ t row, Entitled l i earlier t ∧ db.threads.get? t = some row ∧ row.agentId = agentId ∧
      db.Binds agentId taskId t
  | .listTasks agentId contextId _ =>
    ∃ t row, Entitled l i earlier t ∧ db.threads.get? t = some row ∧ row.agentId = agentId ∧
      row.contextId = some contextId
  | _ => True

section

variable {w : World} {l : Errand} {i : ℕ} {later earlier : List Entry} {e : Entry} {t : ThreadId}
  {row : ThreadRow}

lemma Db.Grows.binds {db db' : Db} {agentId : AgentId} {taskId : TaskId} (h : db.Grows db')
    (hbinds : db.Binds agentId taskId t) : db'.Binds agentId taskId t := by
  obtain ⟨clientMessageId, r, hr, hagent, htask⟩ := hbinds
  obtain ⟨r', hr', hagent', htask'⟩ := h.send _ r hr
  exact ⟨clientMessageId, r', hr', hagent'.trans hagent, htask' taskId htask⟩

/-- What the file of a program has is in the log, and was so; the database grew since. -/
lemma Chained.heard (h : Chained w) (hlog : w.log = later ++ e :: earlier) {c : Call} {v : c.Reply}
    (hheard : (⟨⟨Chronicle.of i earlier⟩, l⟩ : File).Heard c v) :
    ∃ e' ∈ earlier, e'.actor = .worker i ∧ e'.said = ⟨c, .ok v⟩ ∧ Honest e' ∧
      e'.after.Grows e.before := by
  obtain ⟨e', he', hactor, hsaid⟩ := Chronicle.mem_of.mp hheard
  have hordered := h.ordered
  rw [hlog, List.pairwise_append] at hordered
  exact ⟨e', he', hactor, hsaid, h.honest e' (by rw [hlog]; simp [he']),
    (List.pairwise_cons.mp hordered.2.1).1 e' he'⟩

lemma Chained.entitled (h : Chained w) (hlog : w.log = later ++ e :: earlier)
    (howner : Owner ⟨⟨Chronicle.of i earlier⟩, l⟩ t) : Entitled l i earlier t := by
  obtain ⟨p, hresolved, x, hx, hchecks⟩ := howner
  obtain ⟨e₁, he₁, hactor₁, hsaid₁, hhonest₁, -⟩ := h.heard hlog hresolved
  obtain ⟨e₂, he₂, hactor₂, rfl⟩ := Chronicle.mem_of.mp hx
  have hhonest₂ := h.honest e₂ (by rw [hlog]; simp [he₂])
  obtain ⟨fresh, hrun⟩ := hhonest₁ _ _ hsaid₁
  exact ⟨p, ⟨e₁, he₁, hactor₁, hsaid₁, run_resolveExternalIdentity hrun⟩,
    e₂, he₂, hactor₂, hchecks, hhonest₂.checks hchecks⟩

/-- A row that was read is there, with its agent and its context. -/
lemma Chained.read (h : Chained w) (hlog : w.log = later ++ e :: earlier)
    (hread : Read ⟨⟨Chronicle.of i earlier⟩, l⟩ t row) :
    ∃ row', e.before.threads.get? t = some row' ∧ row'.agentId = row.agentId ∧
      ∀ contextId, row.contextId = some contextId → row'.contextId = some contextId := by
  obtain ⟨e', -, -, hsaid, hhonest, hgrows⟩ := h.heard hlog hread.1
  obtain ⟨fresh, hrun⟩ := hhonest _ _ hsaid
  obtain ⟨row', hrow', -, hagent, hcontext⟩ := hgrows.thread t row (run_getThread hrun)
  exact ⟨row', hrow', hagent, hcontext⟩

lemma Chained.bound (h : Chained w) (hlog : w.log = later ++ e :: earlier) {taskId : TaskId}
    (hbound : Bound ⟨⟨Chronicle.of i earlier⟩, l⟩ t row taskId) :
    e.before.Binds row.agentId taskId t := by
  obtain ⟨-, b, hheard, rfl⟩ := hbound
  obtain ⟨e', -, -, hsaid, hhonest, hgrows⟩ := h.heard hlog hheard
  obtain ⟨fresh, hrun⟩ := hhonest _ _ hsaid
  exact hgrows.binds (run_getTaskBinding hrun)

lemma Chained.within (h : Chained w) (hlog : w.log = later ++ e :: earlier)
    (hread : Read ⟨⟨Chronicle.of i earlier⟩, l⟩ t row) {row' : ThreadRow}
    (hrow' : e.before.threads.get? t = some row')
    (hkeep : ∀ contextId, row.contextId = some contextId → row'.contextId = some contextId)
    {context : Option ContextId} (hwithin : Within ⟨⟨Chronicle.of i earlier⟩, l⟩ row context) :
    (∀ contextId, context = some contextId → row'.contextId = some contextId) ∧
      (context = none → Claimed i earlier t) := by
  cases hwithin with
  | its hcontext =>
    refine ⟨fun contextId heq => ?_, nofun⟩
    cases heq
    exact hkeep _ hcontext
  | ready hheard =>
    refine ⟨fun contextId heq => ?_, nofun⟩
    cases heq
    obtain ⟨e', -, -, hsaid, hhonest, hgrows⟩ := h.heard hlog hheard
    obtain ⟨fresh, hrun⟩ := hhonest _ _ hsaid
    obtain ⟨ready, hready, hcontext⟩ := run_claimContextInitialization hrun
    rw [hread.2] at hready
    obtain ⟨row'', hrow'', -, -, hgrown⟩ := hgrows.thread t ready hready
    rw [hrow'] at hrow''
    cases hrow''
    exact hgrown _ hcontext
  | first hheard =>
    refine ⟨nofun, fun _ => ?_⟩
    obtain ⟨e', he', hactor, hsaid, -, -⟩ := h.heard hlog hheard
    rw [hread.2] at hsaid
    exact ⟨e', he', hactor, _, _, hsaid⟩

/-- What a program may call by its file is lawful by the log. -/
lemma Chained.lawful (h : Chained w) (hlog : w.log = later ++ e :: earlier) {c : Call}
    (hallowed : allowed ⟨⟨Chronicle.of i earlier⟩, l⟩ c) : Lawful l i earlier e.before c := by
  cases c with
  | sendMessage agentId message humanInput =>
    obtain ⟨t, row, howner, hread, hagent, hmessage⟩ := hallowed
    obtain ⟨row', hrow', hagent', hkeep⟩ := h.read hlog hread
    refine ⟨t, row', h.entitled hlog howner, hrow', hagent'.trans hagent, ?_⟩
    cases htask : message.taskId with
    | none =>
      rw [htask] at hmessage
      obtain ⟨hwithin, r, hheard⟩ := hmessage
      obtain ⟨hcontext, hclaimed⟩ := h.within hlog hread hrow' hkeep hwithin
      obtain ⟨e', -, -, hsaid, hhonest, hgrows⟩ := h.heard hlog hheard
      obtain ⟨fresh, hrun⟩ := hhonest _ _ hsaid
      obtain ⟨r', hr', hsend⟩ := run_recordLogicalSend hrun
      obtain ⟨r'', hr'', hsend', -⟩ := hgrows.send _ r' hr'
      exact ⟨hcontext, hclaimed, r'', hr'', hsend'.trans hsend⟩
    | some taskId =>
      rw [htask] at hmessage
      obtain ⟨hcontext, hbound⟩ := hmessage
      exact ⟨fun contextId heq => hkeep contextId (hcontext ▸ heq),
        hagent ▸ h.bound hlog hbound⟩
  | getTask agentId taskId _ | cancelTask agentId taskId =>
    obtain ⟨t, row, howner, hagent, hbound⟩ := hallowed
    obtain ⟨row', hrow', hagent', -⟩ := h.read hlog hbound.1
    exact ⟨t, row', h.entitled hlog howner, hrow', hagent'.trans hagent,
      hagent ▸ h.bound hlog hbound⟩
  | listTasks agentId contextId pageToken =>
    obtain ⟨t, row, howner, hread, hagent, hcontext⟩ := hallowed
    obtain ⟨row', hrow', hagent', hkeep⟩ := h.read hlog hread
    exact ⟨t, row', h.entitled hlog howner, hrow', hagent'.trans hagent, hkeep _ hcontext⟩
  | _ => trivial

end

/-- **Slack's handlers act for their users only.** Whatever happened, every call a handler made was
lawful by what it had been told before: what it had the controller do concerns a thread that it saw
to be unarchived and owned by the principal it resolved from its event's team and user, and a task
it named is bound to that thread. -/
theorem handlers_lawful {s : Handlers} (hs : Reachable s) {later earlier : List Entry} {e : Entry}
    {i : ℕ} (hlog : s.world.log = later ++ e :: earlier) (hactor : e.actor = .worker i) :
    ∃ l, s.job i = some l ∧ Lawful l i earlier e.before e.said.1 := by
  obtain ⟨knows, htracked, -⟩ := Crew.tracks (C := contract) (Q := fun _ _ => True)
    conforms_errand (fun _ hexec => exec_possible hexec) hs
  have hchronicled : Chronicled World.log allowed s knows := by
    refine Crew.Tracked.chronicled ?_ ?_ rfl htracked
    · rintro w i c r w' ⟨w₁, hw, rfl⟩
      refine ⟨_, congrArg (List.cons _) ?_, rfl, rfl⟩
      cases hw <;> rfl
    · rintro w w' (⟨now, -, rfl⟩ | ⟨q, v, db, -, rfl⟩) <;> rfl
  obtain ⟨l, hjob, hallowed⟩ := hchronicled.allowed later e earlier i hlog hactor
  exact ⟨l, hjob, hs.chained.lawful hlog hallowed⟩

/-! ### A run -/

/-- What is said to a call: that its transaction runs, or what is outside answers. -/
inductive Reply
  | run
  | acquired (token : IngressToken)
  | page (page : TaskPage)
  | task (task : Task)

def World.reply (w : World) : (c : Call) → Reply → Option (Except Exn c.Reply × World)
  | .query q, .run =>
    match q.run w.uuid w.db with
    | .ok (v, db) => some (.ok v, { w with db := db, uuid := w.uuid + 1 })
    | .error e => some (.error e, w)
  | .claimIngress _ _, .acquired token => some (.ok (.acquired token), w)
  | .listTasks _ _ _, .page page => some (.ok page, w)
  | .cancelTask _ _, .task task => some (.ok task, w)
  | _, _ => none

lemma World.reply_answers {w w₁ : World} {c : Call} {said : Reply} {r : Except Exn c.Reply}
    (h : w.reply c said = some (r, w₁)) : Answers w c r w₁ := by
  unfold World.reply at h
  split at h
  · split at h
    · cases h
      exact .done ‹_›
    · cases h
      exact .refused ‹_›
  · cases h
    exact .external fun _ h => by cases h
  · cases h
    exact .external fun _ h => by cases h
  · cases h
    exact .external fun _ h => by cases h
  · cases h

/-- What others run is a drift. -/
lemma others_drift {w w' : World} {q : Query}
    (h : (match q.run w.uuid w.db with
      | .ok (_, db) => some { w with db := db, uuid := w.uuid + 1 }
      | .error _ => none) = some w') : environment.drift w w' := by
  split at h
  · cases h
    exact .inr ⟨_, _, _, ‹_›, rfl⟩
  · cases h

/-- Lines are answered like this, and meanwhile others run their transactions. -/
def stage : Stage environment Reply Query where
  answer w a c said := (w.reply c said).map fun (r, w₁) => (r, w.note a c r w₁)
  answer_exec h := by
    obtain ⟨⟨r, w₁⟩, hreply, heq⟩ := Option.map_eq_some_iff.mp h
    cases heq
    exact ⟨_, World.reply_answers hreply, rfl⟩
  tick w q :=
    match q.run w.uuid w.db with
    | .ok (_, db) => some { w with db := db, uuid := w.uuid + 1 }
    | .error _ => none
  tick_drift h := others_drift h

/-- The latest call is a program's, and cancels this task. -/
def cancelled (agentId : AgentId) (taskId : TaskId) (log : List Entry) : Bool :=
  match log with
  | ⟨.worker 0, ⟨.cancelTask agentId' taskId', _⟩, _, _⟩ :: _ =>
    agentId' == agentId && taskId' == taskId
  | _ => false

/-- A user stops the task of its thread. -/
theorem handlers_lawful_stop : ∃ s l earlier e, Reachable s ∧ s.world.log = e :: earlier ∧
    e.said.1 = .cancelTask 1 3 ∧ s.job 0 = some l ∧ Lawful l 0 earlier e.before e.said.1 := by
  have hplay : (stage.play works {}
      ([.tick (.mapExternalIdentity 7 "slack" "T" "U"), .tick (.createThread 7 1 none),
        .tick (.bindSurface "slack" "T" "C:1" 1), .tick (.recordLogicalSend 1 1 5),
        .tick (.claimContextInitialization 1 30), .tick (.bindContext 1 4 9),
        .tick (.bindTaskId 1 5 3),
        .start (.stop {}
          { eventId := "event-1"
            teamId := "T"
            channelId := "C"
            threadTs := "1"
            userId := "U" } 1),
        .call 0 (.acquired 0), .call 0 .run, .call 0 .run, .call 0 .run, .call 0 .run,
        .call 0 (.page
          { tasks := [{ id := 3, contextId := 9, state := .working }]
            nextPageToken := none }),
        .call 0 .run, .call 0 .run,
        .call 0 (.task { id := 3, contextId := 9, state := .canceled })])).map
      (fun s : Handlers => cancelled 1 3 s.world.log) = some true := by
    decide +kernel
  obtain ⟨s, -, hs, hval⟩ := stage.played _ hplay
  unfold cancelled at hval
  split at hval
  · rename_i agentId taskId r before after earlier hlog
    simp only [Bool.and_eq_true, beq_iff_eq] at hval
    obtain ⟨rfl, rfl⟩ := hval
    have hentry : s.world.log = [] ++ _ :: earlier := hlog
    obtain ⟨l, hjob, hlawful⟩ := handlers_lawful hs hentry rfl
    exact ⟨s, l, earlier, _, hs, hlog, rfl, hjob, hlawful⟩
  · cases hval

end ManagedAgents.Threads
