import ManagedAgents.Threads.Bindings
import ManagedAgents.Threads.Conduct

/-!
However often Slack delivers a message, one task comes of it and is shown in its place.

A handler's file says what it was told. It asks for a projection only of the thread that the
message's place was seen to be bound to, and of the task that it had bound to the message's logical
send; and both bindings are permanent.
-/

namespace ManagedAgents.Threads.Events

open ManagedAgents.Lib
open ManagedAgents.Controller (ContextId TaskId MessageId ClaimId Text)

/-! ### What the database says -/

lemma exec_possible {w w' : World} {a : Actor} {c : Call} {r : Except Exn c.Reply}
    (h : environment.exec w a c r w') : possible c r := by
  obtain ⟨w₁, hw, -⟩ := h
  unfold possible
  split
  · rename_i threadId row
    cases hw with
    | done hrun => exact Table.get?_key (congrArg Prod.fst (Except.ok.inj hrun))
    | external hc => exact absurd rfl (hc _)
  · rename_i row b
    cases hw with
    | done hrun =>
      simp only [Query.run, insertSurfaceThread] at hrun
      split at hrun
      · cases hrun
      · rename_i inserted created hinsert
        obtain ⟨-, rfl, -, -⟩ : Effect (.getThread 0) 0 w.db created ∧ _ :=
          Effect.insertThread rfl rfl hinsert
        split at hrun
        · cases hrun
          rfl
        · cases hrun
    | external hc => exact absurd rfl (hc _)
  · trivial

/-- What was bound is bound. -/
lemma Reachable.stays {s : Handlers} (hs : Reachable s) :
    ∀ e ∈ s.world.log, e.after.Stays s.world.db := by
  refine (Crew.Reachable.world (P := fun w : World =>
    w.db.Settled ∧ ∀ e ∈ w.log, e.after.Stays w.db) ⟨?_, ?_⟩ ?_ ?_ hs).2
  · exact fun _ _ h => by cases h
  · exact fun _ h => by cases h
  · intro w a c r w' ⟨hsettled, hlog⟩ hexec
    have hmoves := environment_moves hexec
    obtain ⟨w₁, hw, rfl⟩ := hexec
    refine ⟨hmoves.settled hsettled, fun e he => ?_⟩
    rcases List.mem_cons.mp he with rfl | he
    · exact .refl _
    · exact (hlog e he).trans (hmoves.stays hsettled)
  · intro w w' ⟨hsettled, hlog⟩ hdrift
    have hmoves := environment_drifts hdrift
    refine ⟨hmoves.settled hsettled, fun e he => ?_⟩
    have hold : e ∈ w.log := by
      rcases hdrift with ⟨now, -, rfl⟩ | ⟨q, v, db, -, rfl⟩ <;> exact he
    exact (hlog e hold).trans (hmoves.stays hsettled)

lemma shown {e : Entry} (h : Honest e) {place : String × String × String} {b : SurfaceBinding}
    (hshows : Shows place b e.said) : e.after.bindings.get? place = some b := by
  obtain ⟨surface, tenantId, externalThreadId⟩ := place
  generalize hsaid : e.said = x at hshows
  cases hshows with
  | read =>
    obtain ⟨fresh, hrun⟩ := h _ _ hsaid
    obtain ⟨hfound, hdb⟩ := Prod.mk.inj (Except.ok.inj hrun)
    rw [← hdb]
    exact hfound
  | joined =>
    obtain ⟨fresh, hrun⟩ := h _ _ hsaid
    obtain ⟨hjoined, hdb⟩ := Prod.mk.inj (Except.ok.inj hrun)
    obtain ⟨b', hbound, hrow⟩ := Option.bind_eq_some_iff.mp hjoined
    obtain ⟨row', -, hpair⟩ := Option.map_eq_some_iff.mp hrow
    cases hpair
    rw [← hdb]
    exact hbound
  | created =>
    obtain ⟨fresh, hrun⟩ := h _ _ hsaid
    simp only [Query.run, insertSurfaceThread] at hrun
    generalize e.after = after at hrun ⊢
    split at hrun
    · cases hrun
    · split at hrun
      · rename_i hbindings
        cases hrun
        exact (Table.get?_insert hbindings _).trans (if_pos rfl)
      · cases hrun

/-- The place of the message is bound to this thread, and its logical send there to this task. -/
def Projected (db : Db) (detail : SlackMessageReceived) (t : ThreadId) (taskId : TaskId)
    (bindingId : BindingId) : Prop :=
  ∃ b r, db.bindings.get? (placeOf detail) = some b ∧ b.threadId = t ∧ b.bindingId = bindingId ∧
    db.tasks.get? (t, sendOf detail) = some r ∧ r.taskId = some taskId

/-- In this entry a handler of this message asks for a projection. -/
def Projects (s : Handlers) (e : Entry) (detail : SlackMessageReceived) (t : ThreadId)
    (taskId : TaskId) (bindingId : BindingId) : Prop :=
  e ∈ s.world.log ∧ ∃ i config, e.actor = .worker i ∧ s.job i = some (.message config detail) ∧
    e.said.1 = .publish (.projection detail.slackEventId t taskId bindingId)

lemma projected {s : Handlers} (hs : Reachable s) {e : Entry} {detail : SlackMessageReceived}
    {t : ThreadId} {x : TaskId} {bindingId : BindingId} (h : Projects s e detail t x bindingId) :
    Projected s.world.db detail t x bindingId := by
  obtain ⟨he, i, config, hactor, hjob, hcall⟩ := h
  obtain ⟨knows, htracked, -⟩ := Crew.tracks conforms_errand
    (fun _ hexec => exec_possible hexec) hs
  have hchronicled : Chronicled World.log allowed s knows := by
    refine Crew.Tracked.chronicled ?_ ?_ rfl htracked
    · rintro w i c r w' ⟨w₁, hw, rfl⟩
      refine ⟨_, congrArg (List.cons _) ?_, rfl, rfl⟩
      cases hw <;> rfl
    · rintro w w' (⟨now, -, rfl⟩ | ⟨q, v, db, -, rfl⟩) <;> rfl
  obtain ⟨later, earlier, hlog⟩ := List.append_of_mem he
  obtain ⟨l, hl, hallowed⟩ := hchronicled.allowed later e earlier i hlog hactor
  rw [hjob] at hl
  cases hl
  rw [hcall] at hallowed
  obtain ⟨config', detail', b, hmessage, -, rfl, rfl, ⟨y, hy, hshows⟩, r, hbound⟩ := hallowed
  cases hmessage
  have hin : ∀ {e'}, e' ∈ earlier → e' ∈ s.world.log := by
    intro e' he'
    rw [hlog]
    exact List.mem_append_right _ (List.mem_cons_of_mem _ he')
  obtain ⟨e₁, he₁, -, rfl⟩ := Chronicle.mem_of.mp hy
  obtain ⟨e₂, he₂, -, hsaid⟩ := Chronicle.mem_of.mp hbound
  have hplace := shown (hs.chained.honest e₁ (hin he₁)) hshows
  obtain ⟨fresh, hrun⟩ := hs.chained.honest e₂ (hin he₂) _ _ hsaid
  obtain ⟨r₂, hr₂, hx⟩ := run_bindTaskId hrun
  obtain ⟨r₃, hr₃, -, hkeep⟩ := (Reachable.stays hs e₂ (hin he₂)).grows.send _ r₂ hr₂
  exact ⟨b, r₃, (Reachable.stays hs e₁ (hin he₁)).place hplace, rfl, rfl, hr₃, hkeep x hx⟩

/-- **One message, one task.** However often a message is delivered and whatever runs beside its
handlers, every projection that is asked for is, then and from then on, for the thread its place is
bound to and for the task its logical send is bound to; so all are for the same thread, task and
binding. -/
theorem message_projected_once {s : Handlers} (hs : Reachable s) {e e' : Entry}
    {detail detail' : SlackMessageReceived} {t t' : ThreadId} {x x' : TaskId} {b b' : BindingId}
    (h : Projects s e detail t x b) (h' : Projects s e' detail' t' x' b')
    (hplace : placeOf detail' = placeOf detail) (hsend : sendOf detail' = sendOf detail) :
    Projected s.world.db detail t x b ∧ t' = t ∧ x' = x ∧ b' = b := by
  have hprojected := projected hs h
  obtain ⟨bound, r, hbound, rfl, rfl, hr, hx⟩ := projected hs h
  obtain ⟨bound', r', hbound', rfl, rfl, hr', hx'⟩ := projected hs h'
  rw [hplace, hbound] at hbound'
  cases hbound'
  rw [hsend, hr] at hr'
  cases hr'
  exact ⟨hprojected, rfl, Option.some.inj (hx'.symm.trans hx), rfl⟩

/-! ### A run -/

def reply (w : World) : (c : Call) → Option (Except Exn c.Reply × World)
  | .query q =>
    match q.run w.uuid w.db with
    | .ok (v, db) => some (.ok v, { w with db := db, uuid := w.uuid + 1 })
    | .error e => some (.error e, w)
  | .sendMessage _ _ _ => some (.ok { id := 3, contextId := 9, state := .working }, w)
  | .claimIngress _ _ => some (.ok (.acquired 0), w)
  | .getAgentCard _ => some (.ok (), w)
  | .createPushConfig _ _ => some (.ok (), w)
  | .ensureProjection _ _ _ => some (.ok (), w)
  | .publish _ => some (.ok (), w)
  | .faultsHit _ _ => some (.ok (), w)
  | _ => none

lemma reply_answers {w w₁ : World} {c : Call} {r : Except Exn c.Reply}
    (h : reply w c = some (r, w₁)) : Answers w c r w₁ := by
  unfold reply at h
  split at h
  · split at h
    · cases h
      exact .done ‹_›
    · cases h
      exact .refused ‹_›
  all_goals first
    | (cases h; exact .external fun _ h => by cases h)
    | cases h

/-- Calls are answered by the database and by a controller with one task. -/
def stage : Stage environment Unit Query where
  answer w a c _ := (reply w c).map fun (r, w₁) => (r, w.note a c r w₁)
  answer_exec h := by
    obtain ⟨⟨r, w₁⟩, hreply, heq⟩ := Option.map_eq_some_iff.mp h
    cases heq
    exact ⟨_, reply_answers hreply, rfl⟩
  tick w q :=
    match q.run w.uuid w.db with
    | .ok (_, db) => some { w with db := db, uuid := w.uuid + 1 }
    | .error _ => none
  tick_drift h := others_drift h

deriving instance DecidableEq for SlackMessageReceived

/-- A mention in a channel. -/
def mention : SlackMessageReceived where
  slackEventId := "event-1"
  teamId := "T"
  channelId := "C"
  threadTs := "1"
  userId := "U"
  text := "hello"

def isMention : Option Errand → Bool
  | some (.message _ detail) => detail = mention
  | _ => false

/-- What a handler of the mention asks a projection for. -/
def asks (s : Handlers) (e : Entry) : Option (ThreadId × TaskId × BindingId) :=
  match e with
  | ⟨.worker i, ⟨.publish (.projection eventId t x b), _⟩, _, _⟩ =>
    if eventId = mention.slackEventId ∧ isMention (s.job i) then some (t, x, b) else none
  | _ => none

lemma projects_of_asks {s : Handlers} {e : Entry} {t : ThreadId} {x : TaskId} {b : BindingId}
    (he : e ∈ s.world.log) (h : asks s e = some (t, x, b)) : Projects s e mention t x b := by
  unfold asks at h
  split at h
  · rename_i i eventId t' x' b' r before after
    split at h
    · rename_i hmention
      obtain ⟨rfl, hjob⟩ := hmention
      cases h
      unfold isMention at hjob
      split at hjob
      · rename_i config detail hmessage
        rw [decide_eq_true_eq] at hjob
        exact ⟨he, i, config, rfl, hjob ▸ hmessage, rfl⟩
      · cases hjob
    · cases h
  · cases h

/-- The mention is delivered twice. -/
theorem message_projected_once_twice : ∃ s e e' later between earlier, Reachable s ∧
    s.world.log = later ++ e :: (between ++ e' :: earlier) ∧ Projects s e mention 4 3 4 ∧
    Projects s e' mention 4 3 4 ∧ Projected s.world.db mention 4 3 4 := by
  have hplay : (stage.play works {}
      ([.tick (.mapExternalIdentity 7 "slack" "T" "U"),
        .start (.message { agentId := some 1 } mention)] ++ List.replicate 18 (.call 0 ()) ++
        [.start (.message { agentId := some 1 } mention)] ++ List.replicate 17 (.call 1 ()))).map
      (fun s : Handlers => s.world.log.filterMap (asks s)) = some [(4, 3, 4), (4, 3, 4)] := by
    decide +kernel
  obtain ⟨s, -, hs, hval⟩ := stage.played _ hplay
  obtain ⟨later, e, rest, hlog, -, hasks, hrest⟩ := List.filterMap_eq_cons_iff.mp hval
  obtain ⟨between, e', earlier, rfl, -, hasks', -⟩ := List.filterMap_eq_cons_iff.mp hrest
  have hprojects := projects_of_asks (by simp [hlog]) hasks
  have hprojects' := projects_of_asks (by simp [hlog]) hasks'
  exact ⟨s, e, e', later, between, earlier, hs, hlog, hprojects, hprojects',
    (message_projected_once hs hprojects hprojects' rfl rfl).1⟩

end ManagedAgents.Threads.Events
