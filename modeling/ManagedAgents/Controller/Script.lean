import ManagedAgents.Controller.System

/-!
Runs that are written down: a script says which program is started, whose call is answered next
and with what. Playing a script either fails or ends in a reachable state, which is then
computed.
-/

namespace ManagedAgents.Controller

open ManagedAgents.Lib

/-- An answer as a script names it. The first three are for queries and the pending-input store:
done, done with the reply lost, and not done. -/
inductive Said
  | run | lost | fail
  | session (sessionId : Option SessionId)
  | created (sessionId : SessionId)
  | events (events : List Event)
  | sent (eventId : Option EventId)
  | done
  | decided (decision : ToolPolicyDecision)
  | time (t : Time)
  | raised (e : Exn)

/-- The answer of an external call. -/
def Said.reply : (c : Call) → Said → Option (Except Exn c.Reply)
  | .findSession _ _, session s => some (.ok s)
  | .createSession _ _ _ _, created s => some (.ok s)
  | .listEvents _, events l => some (.ok l)
  | .sendMessage _ _ _, sent e => some (.ok e)
  | .confirmTool _ _ _ _ _, done => some (.ok ())
  | .sendCustomToolResult _ _ _ _ _, done => some (.ok ())
  | .interrupt _, done => some (.ok ())
  | .schedule _ _, done => some (.ok ())
  | .schedulePush _, done => some (.ok ())
  | .policyExchange _ _, decided d => some (.ok d)
  | .clock, time t => some (.ok t)
  | c, raised e => if c.external && e.external then some (.error e) else none
  | _, _ => none

/-- Events appended to sessions, in order. -/
def append (history : SessionId → List Event) (new : List (SessionId × Event)) :
    SessionId → List Event :=
  new.foldl (fun h e => Function.update h e.1 (h e.1 ++ [e.2])) history

/-- The world's answer to a call, with the events the provider appends meanwhile. -/
def World.answer (w : World) (new : List (SessionId × Event)) :
    (c : Call) → Said → Option (Except Exn c.Reply × Bool × World)
  | .query q, .run =>
    match q.run w.uuid w.db with
    | .ok (v, db) => some (.ok v, true, { w with db := db, uuid := w.uuid + 1 })
    | .error e => some (.error e, false, w)
  | .query q, .lost =>
    match q.run w.uuid w.db with
    | .ok (_, db) => some (.error .other, true, { w with db := db, uuid := w.uuid + 1 })
    | .error _ => none
  | .query _, .fail => some (.error .other, false, w)
  | .pendingPut key text, .run =>
    some (.ok (), false, { w with objects := Function.update w.objects key (some text) })
  | .pendingGet key, .run =>
    match w.objects key with
    | some text => some (.ok text, false, w)
    | none => none
  | .pendingDelete key, .run =>
    some (.ok (), false, { w with objects := Function.update w.objects key none })
  | .pendingPut _ _, .fail => some (.error .other, false, w)
  | .pendingGet _, .fail => some (.error .other, false, w)
  | .pendingDelete _, .fail => some (.error .other, false, w)
  | .uuid4, .run => some (.ok w.uuid, false, { w with uuid := w.uuid + 1 })
  | c, said =>
    if c.external then
      (said.reply c).map fun r => (r, false, { w with history := append w.history new })
    else none

lemma Said.reply_external {c : Call} {said : Said} {r : Except Exn c.Reply}
    (h : said.reply c = some r) : ∀ e, r = .error e → e.external = true := by
  rintro e rfl
  unfold Said.reply at h
  split at h
  case h_12 e' =>
    split at h
    · rename_i hext
      cases h
      exact (Bool.and_eq_true _ _ ▸ hext).2
    · cases h
  all_goals cases h

lemma World.answer_answers {w w₁ : World} {new : List (SessionId × Event)} {c : Call} {said : Said}
    {r : Except Exn c.Reply} {committed : Bool}
    (h : w.answer new c said = some (r, committed, w₁)) : Answers w c r committed w₁ := by
  unfold World.answer at h
  split at h
  · split at h <;> cases h
    · exact .done ‹_›
    · exact .refused ‹_›
  · split at h <;> cases h
    exact .unacknowledged ‹_›
  · cases h; exact .unavailable
  · cases h; exact .put
  · split at h <;> cases h
    exact .get ‹_›
  · cases h; exact .delete
  · cases h; exact .putFailed
  · cases h; exact .getFailed
  · cases h; exact .deleteFailed
  · cases h; exact .uuid4
  · split at h
    · rename_i hc
      obtain ⟨r', hr', heq⟩ := Option.map_eq_some_iff.mp h
      cases heq
      exact .external _ hc (Said.reply_external hr')
    · cases h

/-- One line of a script. -/
inductive Act
  | wake (cfg : Config) (contextId : ContextId)
  | admin (cfg : Config) (taskId : TaskId) (resolution : Resolution) (verified : Bool)
  | call (i : ℕ) (said : Said) (new : List (SessionId × Event) := [])
  | ask (c : Call) (said : Said := .run)
  | crash (i : ℕ)
  | tick (now : Time) (new : List (SessionId × Event) := [])

def Call.isClient : Call → Bool
  | query q =>
    match q with
    | .admitTurn _ | .cancelTask _ | .recordHumanRuling _ _ _ | .decideClarificationRequest _ _ _
    | .getContext _ | .getTask _ | .listInputRequests _ | .getInputRequest _ _ => true
    | _ => false
  | pendingPut _ _ | pendingDelete _ => true
  | _ => false

lemma Call.client_of_isClient {c : Call} (h : c.isClient = true) : Client c := by
  cases c with
  | query q => cases q <;> cases h <;> constructor
  | _ => cases h <;> constructor

/-- What a script makes sure of, call by call. -/
abbrev Check := World → Call → World → Bool

def Act.play (check : Check) (s : System) : Act → Option System
  | wake cfg contextId =>
    some ⟨s.world, Function.update s.thread s.spawned (some (runOnce cfg contextId)),
      s.spawned + 1⟩
  | admin cfg taskId resolution verified =>
    some ⟨s.world, Function.update s.thread s.spawned
      (some (resolve cfg taskId resolution verified)), s.spawned + 1⟩
  | call i said new =>
    match s.thread i with
    | some (.call c next) =>
      match s.world.answer new c said with
      | some (r, committed, w) =>
        let w := s.world.note (.worker i) c r committed w
        if check s.world c w then
          some ⟨w, Function.update s.thread i (some (next r)), s.spawned⟩
        else none
      | none => none
    | _ => none
  | ask c said =>
    if c.isClient then
      match s.world.answer [] c said with
      | some (r, committed, w) =>
        let w := s.world.note .client c r committed w
        if check s.world c w then some ⟨w, s.thread, s.spawned⟩ else none
      | none => none
    else none
  | crash i => some ⟨s.world, Function.update s.thread i none, s.spawned⟩
  | tick now new =>
    if s.world.db.now ≤ now then
      some ⟨{ s.world with
        db := { s.world.db with now := now }
        history := append s.world.history new }, s.thread, s.spawned⟩
    else none

/-- Playing a script from the start. -/
def play (check : Check) (script : List Act) : Option System :=
  script.foldlM (Act.play check) ⟨{}, fun _ => none, 0⟩

variable {check : Check} {okCall : World → (c : Call) → Except Exn c.Reply → World → Prop}
  {okDrift : World → World → Prop}

lemma Act.play_step {s s' : System} {act : Act} (h : act.play check s = some s')
    (hcheck : ∀ w c r w', check w c w' = true → okCall w c r w')
    (hdrift : ∀ w w', okDrift w w') :
    Pool.Step (environment.restrict okCall okDrift) Job Client s s' := by
  cases act with
  | wake cfg contextId =>
    cases h
    exact .spawn (.inl ⟨cfg, contextId, rfl⟩)
  | admin cfg taskId resolution verified =>
    cases h
    exact .spawn (.inr ⟨cfg, taskId, resolution, verified, rfl⟩)
  | call i said new =>
    simp only [Act.play] at h
    split at h
    · rename_i c next hthread
      split at h
      · rename_i r committed w hanswer
        split at h
        · rename_i hok
          cases h
          exact .call hthread ⟨⟨_, _, World.answer_answers hanswer, rfl⟩, hcheck _ _ _ _ hok⟩
        · cases h
      · cases h
    · cases h
  | ask c said =>
    simp only [Act.play] at h
    split at h
    · rename_i hclient
      split at h
      · rename_i r committed w hanswer
        split at h
        · rename_i hok
          cases h
          exact .outside (Call.client_of_isClient hclient)
            ⟨⟨_, _, World.answer_answers hanswer, rfl⟩, hcheck _ _ _ _ hok⟩
        · cases h
      · cases h
    · cases h
  | crash i =>
    cases h
    exact .crash i
  | tick now new =>
    simp only [Act.play] at h
    split at h
    · cases h
      exact .drift ⟨⟨now, _, ‹_›, rfl⟩, hdrift _ _⟩
    · cases h

/-- **A script that can be played ends in a reachable state.** -/
theorem play_reachableIf {script : List Act} {s : System} (h : play check script = some s)
    (hcheck : ∀ w c r w', check w c w' = true → okCall w c r w')
    (hdrift : ∀ w w', okDrift w w') : ReachableIf okCall okDrift s := by
  have hplay : ∀ (script : List Act) (s₀ : System), ReachableIf okCall okDrift s₀ →
      script.foldlM (Act.play check) s₀ = some s → ReachableIf okCall okDrift s := by
    intro script
    induction script with
    | nil =>
      intro s₀ hs₀ h
      cases h
      exact hs₀
    | cons act rest ih =>
      intro s₀ hs₀ h
      rw [List.foldlM_cons] at h
      obtain ⟨s₁, hact, hrest⟩ := Option.bind_eq_some_iff.mp h
      exact ih s₁ (.step hs₀ (Act.play_step hact hcheck hdrift)) hrest
  exact hplay script _ .init h

/-- Any answer will do. -/
abbrev unchecked : Check := fun _ _ _ => true

lemma play_reachable {script : List Act} {s : System} (h : play unchecked script = some s) :
    Reachable s := by
  have hs : ReachableIf (fun _ _ _ _ => True) (fun _ _ => True) s :=
    play_reachableIf h (fun _ _ _ _ _ => trivial) fun _ _ => trivial
  exact hs.reachable

/-- What is computed from a played script is a fact about a reachable state. -/
lemma played {α : Type} (f : System → α) {v : α} {script : List Act}
    (h : (play unchecked script).map f = some v) :
    ∃ s, play unchecked script = some s ∧ Reachable s ∧ f s = v := by
  obtain ⟨s, hs, hval⟩ := Option.map_eq_some_iff.mp h
  exact ⟨s, hs, play_reachable hs, hval⟩

/-! ### Fragments -/

/-- A worker's next calls, answered in turn. -/
def calls (i : ℕ) (answers : List Said) : List Act := answers.map fun said => .call i said

def demo : Config := { appName := "app", policyEngine := true, pushTrigger := false }

def message (id : EventId) : Event := { type := .userMessage, id := some id }

def idle (id : EventId) (stop : StopKind) (ids : List EventId := []) : Event :=
  { type := .status .idle, id := some id, stopReason := some ⟨stop, ids⟩ }

def toolUse (id : EventId) : Event :=
  { type := .agentToolUse, id := some id, name := some (.literal "bash"), input := .obj [] }

/-- A client stores an input and has it admitted, to a new context or to context 1. -/
def sendTurn (requested : Option ContextId) (taskId : TaskId) : List Act :=
  [.ask (.pendingPut taskId "hello"),
    .ask (.query (.admitTurn
      { proposedContextId := 1
        requestedContextId := requested
        messageId := taskId
        proposedTaskId := taskId
        inputObjectKey := taskId }))]

/-- Worker `i` claims context 1 and activates the next task, having listed the session if there
is one. -/
def activateNext (i : ℕ) (listed : List Said) : List Act :=
  .wake demo 1 :: calls i ([.run, .run, .run] ++ listed ++ [.run, .run])

/-- The first turn, up to the binding of its message: session 5, event 50. -/
def firstTurn (i : ℕ) : List Act :=
  sendTurn none 100 ++ activateNext i [] ++
    calls i [.session none, .created 5, .run, .events [message 50], .run, .run]

/-- The rest of the first turn: the session is idle, the task is completed and the lease given
back. -/
def firstTurnDone (i : ℕ) : List Act :=
  firstTurn i ++ calls i
    [.run, .run, .events [message 50, idle 51 .endTurn], .run, .run, .run,
      .events [message 50, idle 51 .endTurn], .run, .run, .run, .run, .run, .run]

/-- Session 5 once the first turn waits for tool use 52. -/
def waitsForTool : List Event := [message 50, toolUse 52, idle 53 .requiresAction [52]]

/-- The first turn, up to the engine's evaluation of the tool use. -/
def firstTurnAsks (i : ℕ) : List Act :=
  firstTurn i ++ calls i
    [.run, .run, .events waitsForTool, .run, .run, .run, .events waitsForTool, .run, .run,
      .run, .run, .run, .time 0]

end ManagedAgents.Controller
