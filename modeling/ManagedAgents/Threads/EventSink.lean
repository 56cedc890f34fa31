import ManagedAgents.Threads.Bindings

/-!
The private receiver of the controller's pushes, from `a2a_event_sink/app.py`.

A push is published for the thread its task is bound to, when the context it names is the thread's.
What a body parses to, which ids are well formed, which agents are registered and how the protocol
names its states is given. An id is an opaque token.
-/

namespace ManagedAgents.Threads.EventSink

open ManagedAgents.Lib
open ManagedAgents.Controller (ContextId TaskId)

/-! ### The receiver -/

structure Request where
  contentType : String := ""
  /-- The delivery id's header, empty when it is missing. -/
  deliveryId : String := ""
  chunks : List (List UInt8) := []

/-- What a `StreamResponse` carries. -/
inductive Payload
  | task (taskId : TaskId) (contextId : ContextId) (state : ℕ)
  | message (taskId : TaskId) (contextId : ContextId)
  | statusUpdate (taskId : TaskId) (contextId : ContextId) (state : ℕ)
  | artifactUpdate (taskId : TaskId) (contextId : ContextId)

namespace Payload

def taskId : Payload → TaskId
  | task taskId _ _ | message taskId _ | statusUpdate taskId _ _ | artifactUpdate taskId _ => taskId

def contextId : Payload → ContextId
  | task _ contextId _ | message _ contextId | statusUpdate _ contextId _
  | artifactUpdate _ contextId => contextId

def state : Payload → Option ℕ
  | task _ _ state | statusUpdate _ _ state => some state
  | _ => none

/-- `WhichOneof`. -/
def kind : Payload → String
  | task _ _ _ => "task"
  | message _ _ => "message"
  | statusUpdate _ _ _ => "status_update"
  | artifactUpdate _ _ => "artifact_update"

end Payload

structure A2ATaskUpdated where
  deliveryId : String
  agentId : AgentId
  taskId : TaskId
  threadId : ThreadId
  contextId : ContextId
  eventKind : String
  taskState : Option String
  deriving DecidableEq

/-- What the receiver is built with: how bodies are parsed and digested, which task and context ids
are not blank and short enough, the registered agents and the names of the states. -/
structure Deployment where
  parse : List UInt8 → Option (Option Payload)
  sha256 : List UInt8 → String
  taskIdFits : TaskId → Bool
  contextIdFits : ContextId → Bool
  registered : AgentId → Bool
  stateName : ℕ → Option String

inductive Exn
  | http (status : ℕ) (detail : String)
  /-- Any other exception, such as a lost connection. -/
  | other
  deriving DecidableEq

inductive Call
  | query (q : Query)
  | publish (update : A2ATaskUpdated)

@[reducible] def Call.Reply : Call → Type
  | query q => q.Reply
  | publish _ => Unit

abbrev Program (α : Type) := Prog Call Call.Reply Exn α

abbrev perform (c : Call) : Program c.Reply := Prog.perform c

/-- The header up to its parameters, stripped, in lower case. -/
def mediaType (contentType : String) : String :=
  let first := contentType.toList.takeWhile (· ≠ ';')
  String.ofList ((first.dropWhile isSpace).reverse.dropWhile isSpace |>.reverse.map Char.toLower)

def hexDigit (c : Char) : Bool := c.isDigit || ('a' ≤ c && c ≤ 'f')

/-- `_DELIVERY_ID.fullmatch`. -/
def validDeliveryId (deliveryId : String) : Bool :=
  deliveryId.toList.length = 64 && deliveryId.toList.all hexDigit

def maxBodyBytes : ℕ := 1024 * 1024

/-- The body, read chunk by chunk while it is not too large. -/
def readBody (body : List UInt8) : List (List UInt8) → Option (List UInt8)
  | [] => some body
  | chunk :: rest =>
    if maxBodyBytes < body.length + chunk.length then none else readBody (body ++ chunk) rest

section

variable (e : Deployment)

/-- The checks before the database is read: the delivery id and what the body carries. -/
@[irreducible] def check (agentId : AgentId) (request : Request) : Except Exn (String × Payload) :=
  if mediaType request.contentType ≠ "application/a2a+json" then
    .error (.http 415 "Expected application/a2a+json")
  else if request.deliveryId ≠ "" ∧ validDeliveryId request.deliveryId = false then
    .error (.http 400 "Invalid delivery ID")
  else
    match readBody [] request.chunks with
    | none => .error (.http 413 "Push body is too large")
    | some body =>
      match e.parse body with
      | none => .error (.http 400 "Malformed A2A push body")
      | some none => .error (.http 400 "Push has no task identity")
      | some (some payload) =>
        if e.taskIdFits payload.taskId && e.contextIdFits payload.contextId
            && e.registered agentId then
          if payload.state.any fun state => (e.stateName state).isNone then
            .error (.http 400 "Unknown Task state")
          else
            .ok (if request.deliveryId = "" then e.sha256 body else request.deliveryId, payload)
        else .error (.http 400 "Unknown agent or task identity")

/-- The name of a state, without its prefix; the unspecified one has none. -/
def taskState (state : Option ℕ) : Option String :=
  (state.filter (· ≠ 0)).bind fun state =>
    (e.stateName state).map fun name =>
      if "TASK_STATE_".toList.isPrefixOf name.toList then
        String.ofList (name.toList.drop "TASK_STATE_".length)
      else name

/-- The thread the task is bound to. -/
def boundThread (agentId : AgentId) (taskId : TaskId) : Program (Option ThreadRow) := do
  match ← perform (.query (.getTaskBinding agentId taskId)) with
  | some binding => perform (.query (.getThread binding.threadId))
  | none => pure none

def receive (agentId : AgentId) (request : Request) : Program Unit := do
  match check e agentId request with
  | .error refusal => throw refusal
  | .ok (deliveryId, payload) =>
    match ← boundThread agentId payload.taskId with
    | none => throw (.http 503 "Task binding is not ready")
    | some thread =>
      if thread.agentId ≠ agentId ∨ thread.contextId ≠ some payload.contextId then
        throw (.http 409 "Push context does not match thread")
      else
        tryCatch
          (perform (.publish
            { deliveryId
              agentId
              taskId := payload.taskId
              threadId := thread.threadId
              contextId := payload.contextId
              eventKind := payload.kind
              taskState := taskState e payload.state }))
          fun _ => throw (.http 503 "Event publication failed")

end

/-! ### Any number of pushes -/

/-- The call is answered like this and leaves this database. -/
inductive Answers (db : Db) : (c : Call) → Except Exn c.Reply → Db → Prop
  | done {fresh q v db'} (h : Query.run fresh q db = .ok (v, db')) :
    Answers db (.query q) (.ok v) db'
  | failed {q error} : Answers db (.query q) (.error error) db
  | published {update r} : Answers db (.publish update) r db

/-- A push that is received. -/
structure Push where
  agentId : AgentId
  request : Request

/-- A push that was not answered may be sent again. -/
def works (e : Deployment) : Works Call Call.Reply Exn Push Unit :=
  ⟨fun l => receive e l.agentId l.request, fun _ => none, fun _ => none⟩

abbrev Entry := Deed Call.Reply Exn Db

abbrev Receivers := Crew Call Call.Reply Exn (Ledger Call.Reply Exn Db) Push Unit

/-- The states the receivers reach from an empty database, while anybody runs any transaction. -/
abbrev Reachable (e : Deployment) : Receivers → Prop :=
  Crew.Reachable (works e) (.logged Answers Db.Moves) { state := {} }

abbrev File := Dossier Push Call.Reply Exn

def possible : (c : Call) → Except Exn c.Reply → Prop := fun _ _ => True

/-- An update is published for the thread that was read for its task, with its context. -/
def allowed (d : File) : Call → Prop
  | .publish update => ∃ binding thread,
    d.Heard (.query (.getTaskBinding update.agentId update.taskId)) (some binding) ∧
      d.Heard (.query (.getThread binding.threadId)) (some thread) ∧
      thread.agentId = update.agentId ∧ thread.contextId = some update.contextId ∧
      thread.threadId = update.threadId
  | _ => True

lemma follows_boundThread {d : File} {agentId : AgentId} {taskId : TaskId} :
    Lib.Follows possible allowed (boundThread agentId taskId)
      (fun o d' => ∀ thread, o = some thread → ∃ binding : AgentTask,
        d'.Heard (.query (.getTaskBinding agentId taskId)) (some binding) ∧
          d'.Heard (.query (.getThread binding.threadId)) (some thread)) d := by
  refine Lib.Follows.bind (.perform trivial) fun o d₁ _ hbinding => ?_
  cases o with
  | none => exact .pure nofun
  | some binding =>
    refine Lib.Follows.mono (.perform trivial) fun o d₂ hle hthread thread heq => ?_
    subst heq
    exact ⟨binding, d₁.heard_mono hbinding.2 hle, hthread.2⟩

/-- **A push is published for the thread of its task.** -/
theorem follows_receive {e : Deployment} {d : File} {agentId : AgentId} {request : Request} :
    Lib.Follows possible allowed (receive e agentId request) (fun _ _ => True) d := by
  unfold receive
  generalize check e agentId request = checked
  cases checked with
  | error refusal => exact .throw
  | ok accepted =>
    obtain ⟨deliveryId, payload⟩ := accepted
    refine Lib.Follows.bind follows_boundThread fun o d _ hread => ?_
    cases o with
    | none => exact .throw
    | some thread =>
      obtain ⟨binding, hbinding, hthread⟩ := hread thread rfl
      dsimp only
      split
      · exact .throw
      · rename_i hmatch
        rw [not_or, not_not, not_not] at hmatch
        refine .tryCatch (.quiet ?_) fun _ _ _ => .throw
        exact ⟨binding, thread, hbinding, hthread, hmatch.1, hmatch.2, rfl⟩

/-! ### Where updates go -/

variable {e : Deployment} {job : ℕ → Option Push} {log : List Entry} {db db' : Db} {i : ℕ}
  {l : Push}

/-- The calls so far, and the database they left. -/
abbrev Past (job : ℕ → Option Push) (log : List Entry) (db : Db) : Prop :=
  History Answers Db.Moves allowed {} job log db

lemma Reachable.past {s : Receivers} (hs : Reachable e s) :
    Past s.job s.world.log s.world.state := by
  have hjobs : ∀ l, (Contract.filed possible allowed).Conforms ((works e).program l)
      (fun _ _ => True) (fun _ => True) { said := [], job := l } := fun l =>
    Contract.Conforms.mono follows_receive (fun _ _ _ => trivial) fun _ _ => trivial
  obtain ⟨knows, htracked, -⟩ := Crew.tracks (Q := fun _ _ => True) hjobs (fun _ _ => trivial) hs
  exact htracked.history

lemma Answers.moves {c : Call} {r : Except Exn c.Reply} (h : Answers db c r db') :
    db.Moves db' := by
  cases h with
  | done hrun => exact .run hrun
  | failed | published => exact .same rfl

/-- A settled database stays settled, and what is bound in it stays. -/
def Keeps (db db' : Db) : Prop := db.Settled → db'.Settled ∧ db.Stays db'

lemma Keeps.refl (db : Db) : Keeps db db := fun h => ⟨h, .refl db⟩

lemma Keeps.trans {db'' : Db} (h : Keeps db db') (h' : Keeps db' db'') : Keeps db db'' := by
  intro hdb
  obtain ⟨hdb', hstays⟩ := h hdb
  obtain ⟨hdb'', hstays'⟩ := h' hdb'
  exact ⟨hdb'', hstays.trans hstays'⟩

lemma keeps_of_moves (h : db.Moves db') : Keeps db db' :=
  fun hdb => ⟨h.settled hdb, h.stays hdb⟩

lemma Past.unique (h : Past job log db) : db.Unique := by
  induction h with
  | init => exact ⟨nofun, nofun⟩
  | call _ _ _ hanswer ih => exact hanswer.moves.unique ih
  | drift _ hd ih => exact Db.Moves.unique hd ih

/-- What a receiver read, the database had, and has it still. -/
lemma heard_query (h : Past job log db) {q : Query} {v : q.Reply}
    (hheard : (⟨⟨Chronicle.of i log⟩, l⟩ : File).Heard (.query q) v) :
    ∃ fresh before after, Query.run fresh q before = .ok (v, after) ∧ after.Stays db := by
  obtain ⟨m, hm, -, hsaid⟩ := Chronicle.mem_of.mp hheard
  have hanswer := h.answered m hm
  obtain ⟨-, hsince⟩ := h.since (R := Keeps) .refl .trans (fun h => keeps_of_moves h.moves)
    keeps_of_moves
  obtain ⟨hstart, hgrows⟩ := hsince m hm
  obtain ⟨hbefore, -⟩ := hstart nofun
  obtain ⟨hafter, -⟩ := keeps_of_moves hanswer.moves hbefore
  have hstays := (hgrows hafter).2
  rw [hsaid] at hanswer
  generalize m.before = before, m.after = after at hanswer hstays
  cases hanswer with
  | done hrun => exact ⟨_, before, after, hrun, hstays⟩

/-- The update is for the thread its task is bound to, with the thread's context. -/
structure Routed (db : Db) (update : A2ATaskUpdated) : Prop where
  send : db.Binds update.agentId update.taskId update.threadId
  thread : ∃ r, db.threads.get? update.threadId = some r ∧ r.agentId = update.agentId ∧
    r.contextId = some update.contextId

lemma routed_of_published (h : Past job log db) {p : Entry} (hp : p ∈ log)
    {update : A2ATaskUpdated} (hpublish : p.said.1 = .publish update) : Routed db update := by
  obtain ⟨later, earlier, hlog⟩ := List.append_of_mem hp
  obtain ⟨i, l, -, -, hallowed, -, hpast⟩ := h.split hlog
  rw [hpublish] at hallowed
  obtain ⟨binding, thread, hbinding, hthread, hagent, hcontext, hid⟩ := hallowed
  have hsuffix : earlier <:+ log := ⟨later ++ [p], by simp [hlog]⟩
  have hle : (⟨⟨Chronicle.of i earlier⟩, l⟩ : File) ≤ ⟨⟨Chronicle.of i log⟩, l⟩ :=
    ⟨rfl, Chronicle.of_suffix hsuffix⟩
  obtain ⟨fresh, before, after, hrun, hstays⟩ := heard_query h (Dossier.heard_mono hbinding hle)
  obtain ⟨fresh', before', after', hrun', hstays'⟩ := heard_query h (Dossier.heard_mono hthread hle)
  have hbinds := hstays.grows.binds (run_getTaskBinding hrun)
  have hread := run_getThread hrun'
  have hthreadId : thread.threadId = binding.threadId := Table.get?_key hread
  obtain ⟨t, ht, -, htagent, htcontext⟩ := hstays'.grows.thread _ thread hread
  rw [← hthreadId, hid] at ht hbinds
  exact ⟨hbinds, t, ht, htagent.trans hagent, htcontext _ hcontext⟩

/-- **Updates are routed.** Whatever is pushed, whoever writes to the database meanwhile, every
published update is, then and from then on, for the thread that its agent's task is bound to, with
this thread's context; so all updates of one task of an agent are for the same thread and
context. -/
theorem updates_routed {s : Receivers} (hs : Reachable e s) {p p' : Entry}
    {update update' : A2ATaskUpdated} (hp : p ∈ s.world.log) (hp' : p' ∈ s.world.log)
    (hpublish : p.said.1 = .publish update) (hpublish' : p'.said.1 = .publish update')
    (hagent : update'.agentId = update.agentId) (htask : update'.taskId = update.taskId) :
    Routed s.world.state update ∧ update'.threadId = update.threadId ∧
      update'.contextId = update.contextId := by
  have hrouted := routed_of_published hs.past hp hpublish
  have hrouted' := routed_of_published hs.past hp' hpublish'
  have hunique := Past.unique hs.past
  obtain ⟨m, r, hr, hragent, hrtask⟩ := hrouted.send
  obtain ⟨m', r', hr', hragent', hrtask'⟩ := hrouted'.send
  have hsends := hunique.task hr' hr (hragent'.trans (hagent.trans hragent.symm))
    (hrtask'.trans (congrArg some htask)) hrtask
  have hthreads : update'.threadId = update.threadId := (Prod.mk.inj hsends).1
  obtain ⟨t, ht, -, hcontext⟩ := hrouted.thread
  obtain ⟨t', ht', -, hcontext'⟩ := hrouted'.thread
  rw [hthreads, ht] at ht'
  cases ht'
  exact ⟨hrouted, hthreads, Option.some.inj (hcontext'.symm.trans hcontext)⟩

/-! ### A run -/

def reply (db : Db) : (c : Call) → Option (Except Exn c.Reply × Db)
  | .query q =>
    match q.run 0 db with
    | .ok (v, db') => some (.ok v, db')
    | .error _ => none
  | .publish _ => some (.ok (), db)

/-- Calls are answered by the database; meanwhile others run their transactions. -/
def stage : Stage (.logged Answers Db.Moves) Unit (ℕ × Query) where
  answer w a c _ := (reply w.state c).map fun (r, db) =>
    (r, { state := db, log := ⟨a, ⟨c, r⟩, w.state, db⟩ :: w.log })
  answer_exec {w a c _ r w'} h := by
    obtain ⟨⟨r, db⟩, hreply, heq⟩ := Option.map_eq_some_iff.mp h
    cases heq
    refine ⟨db, ?_, rfl⟩
    unfold reply at hreply
    split at hreply
    · split at hreply
      · cases hreply
        exact .done ‹_›
      · cases hreply
    · cases hreply
      exact .published
  tick w t :=
    match t.2.run t.1 w.state with
    | .ok (_, db) => some { w with state := db }
    | .error _ => none
  tick_drift {w t w'} h := by
    cases hrun : t.2.run t.1 w.state with
    | error _ =>
      simp only [hrun, reduceCtorEq] at h
    | ok out =>
      simp only [hrun, Option.some.injEq] at h
      obtain rfl := h
      exact ⟨_, .run hrun, rfl⟩

/-- A receiver that is pushed one task. -/
def oneTask : Deployment where
  parse _ := some (some (.task 3 9 3))
  sha256 _ := "digest"
  taskIdFits _ := true
  contextIdFits _ := true
  registered _ := true
  stateName state := if state = 3 then some "TASK_STATE_COMPLETED" else none

/-- A push for a thread that is bound. -/
theorem updates_routed_one : ∃ s : Receivers, Reachable oneTask s ∧ ∃ p ∈ s.world.log,
    ∃ update, p.said.1 = .publish update ∧ update.taskState = some "COMPLETED" ∧
      Routed s.world.state update := by
  have hplay : (stage.play (works oneTask) { state := {} }
      [.tick (1, .createThread 7 1 none), .tick (2, .recordLogicalSend 1 1 5),
        .tick (4, .claimContextInitialization 1 30), .tick (0, .bindContext 1 4 9),
        .tick (0, .bindTaskId 1 5 3),
        .start
          { agentId := 1
            request := { contentType := " application/A2A+json; charset=utf-8" } },
        .call 0 (), .call 0 (), .call 0 ()]).map
      (fun s : Receivers => s.world.log.head?.map fun p =>
        match p.said.1 with
        | .publish update => update.taskState
        | .query _ => none) = some (some (some "COMPLETED")) := by
    decide +kernel
  obtain ⟨s, -, hs, hval⟩ := stage.played _ hplay
  obtain ⟨p, hp, hval⟩ := Option.map_eq_some_iff.mp hval
  have hmem : p ∈ s.world.log := List.mem_of_head? hp
  cases hcall : p.said.1 with
  | query q =>
    rw [hcall] at hval
    cases hval
  | publish update =>
    rw [hcall] at hval
    exact ⟨s, hs, p, hmem, update, hcall, hval,
      (updates_routed hs hmem hmem hcall hcall rfl rfl).1⟩

end ManagedAgents.Threads.EventSink
