import ManagedAgents.Lib.Replay
import ManagedAgents.Slack.Items

/-!
Agent messages are posted in order, as long as no item is lost to another projector.

An item's lease can end while its projector is still at it. Another one then takes the item over;
the first one's end of it has no effect, and it goes on to the next message all the same. In every
run in which that does not happen, the posted messages are a beginning of the agent's.
-/

namespace ManagedAgents.Slack

open ManagedAgents.Lib
open ManagedAgents.Controller (A2aState Time Text)

/-- What one projector knows of the messages: the ones it read, and which of them are posted. -/
structure Seen where
  messages : List AgentMessage := []
  posted : List ℕ := []

namespace Seen

/-- The message is the first of those read that is not known to be posted. -/
def Ready (k : Seen) (messageId : ℕ) : Prop :=
  ∃ before m after, k.messages = before ++ m :: after ∧ m.messageId = messageId ∧
    ∀ x ∈ before, x.messageId ∈ k.posted

def learn (k : Seen) : (c : Call) → Except Text c.Reply → Seen
  | .getTask, .ok task => { messages := task.agentMessages }
  | .claimItem (.agentMessage id), .ok .completed => { k with posted := id :: k.posted }
  | .finishItem (.agentMessage id) _ _ none, .ok _ => { k with posted := id :: k.posted }
  | _, _ => k

/-- It claims and finishes messages in the order it read them. -/
def allowed (k : Seen) : Call → Prop
  | .claimItem (.agentMessage id) | .finishItem (.agentMessage id) _ _ _ => k.Ready id
  | _ => True

end Seen

def orderContract : Contract Call Call.Reply Text Seen where
  possible _ _ _ := True
  allowed := Seen.allowed
  learn := Seen.learn

/-! ### The programs keep the contract -/

section

variable {k : Seen} {α : Type}

/-- Calls that teach nothing about the messages, and need no turn. -/
def Aside : Call → Prop
  | .getTask | .claimItem (.agentMessage _) | .finishItem (.agentMessage _) _ _ _ => False
  | _ => True

lemma Aside.allowed {c : Call} (h : Aside c) : k.allowed c := by
  cases c with
  | claimItem item | finishItem item => cases item <;> first | exact trivial | cases h
  | _ => trivial

lemma Aside.learn {c : Call} {r : Except Text c.Reply} (h : Aside c) : k.learn c r = k := by
  cases c with
  | claimItem item | finishItem item => cases item <;> first | rfl | cases h
  | getTask => cases h
  | _ => rfl

/-- A program that makes such calls only leaves what is known as it was. -/
lemma conforms_aside {p : Program α} (h : p.Every Aside) :
    orderContract.Conforms p (fun _ k' => k' = k) (fun k' => k' = k) k :=
  h.conforms rfl (fun _ hc => hc.allowed) fun hk hc _ => by rw [hk]; exact hc.learn

lemma aside_projectHumanInput {request : HumanRequest} :
    (projectHumanInput request).Every Aside := by
  refine .bind (Prog.every_perform trivial) fun claim => ?_
  cases claim with
  | busy => exact .throw
  | completed => exact .pure
  | acquired token =>
    refine .tryCatch (.bind (Prog.every_perform trivial) fun _ => Prog.every_perform trivial)
      fun e => ?_
    exact .bind (Prog.every_perform trivial) fun _ => .throw

/-- The loops of a program whose bodies do. -/
lemma aside_loop {ι β : Type} {body : ι → Program (Option β)} {is : List ι}
    (h : ∀ i ∈ is, (body i).Every Aside) : (Prog.loop body is).Every Aside :=
  Contract.conforms_loop trivial fun i hi _ _ => h i hi

lemma aside_closeSettled {pending : List HumanRequest} {id : Controller.RequestId} :
    (closeSettled pending id).Every Aside := by
  unfold closeSettled
  split
  · exact .pure
  · exact .bind (Prog.every_perform trivial) fun _ => .bind (Prog.every_perform trivial) fun _ =>
      .pure

lemma aside_showStatus {streamTs : Option MessageTs} {task : Task} :
    (showStatus streamTs task).Every Aside := by
  unfold showStatus
  split
  · exact .bind (Prog.every_perform trivial) fun _ => Prog.every_perform trivial
  · exact Prog.every_perform trivial

lemma aside_openStream {projection : ProjectionRow} {token : Token} :
    (openStream projection token).Every Aside := by
  unfold openStream
  split
  · refine .bind (Prog.every_perform trivial) fun receipt => ?_
    cases receipt with
    | true => exact .pure
    | false =>
      refine .tryCatch ?_ fun _ => .pure
      exact .bind (Prog.every_perform trivial) fun ts => .bind (Prog.every_perform trivial)
        fun _ => .pure
  · exact .pure

lemma aside_giveUp {token : Token} {state : Option A2aState} {e : Text} :
    (giveUp token state e : Program α).Every Aside :=
  .bind (Prog.every_perform trivial) fun _ => .throw

lemma aside_hintPreview {wanted : Bool} : (hintPreview wanted).Every Aside := by
  unfold hintPreview
  split
  · exact .tryCatch (Prog.every_perform trivial) fun _ => .pure
  · exact .pure

/-- After the turn of a message its projector knows it posted, or raises. -/
lemma conforms_projectMessage {streamTs : Option MessageTs} {m : AgentMessage}
    (h : k.Ready m.messageId) :
    orderContract.Conforms (projectMessage streamTs m)
      (fun _ k' => k' = { k with posted := m.messageId :: k.posted }) (fun _ => True) k := by
  have hfinish : ∀ token messageTs, orderContract.Conforms
      (perform (.finishItem (.agentMessage m.messageId) token messageTs none))
      (fun _ k' => k' = { k with posted := m.messageId :: k.posted }) (fun k' => k' = k) k :=
    fun token messageTs => Contract.conforms_perform h (fun _ _ => rfl) fun _ _ => rfl
  refine Contract.Conforms.bind
    (Q := fun claim k' => (claim = ItemClaim.completed ∧
      k' = { k with posted := m.messageId :: k.posted }) ∨ (claim ≠ .completed ∧ k' = k))
    (Contract.conforms_perform h (fun claim _ => ?_) fun _ _ => trivial) fun claim k' hk => ?_
  · cases claim with
    | completed => exact .inl ⟨rfl, rfl⟩
    | _ => exact .inr ⟨nofun, rfl⟩
  cases claim with
  | busy => exact Contract.conforms_throw trivial
  | completed =>
    obtain ⟨-, rfl⟩ | ⟨hne, -⟩ := hk
    · exact Contract.conforms_pure rfl
    · exact absurd rfl hne
  | acquired token =>
    obtain ⟨hc, -⟩ | ⟨-, rfl⟩ := hk
    · cases hc
    dsimp only
    split
    · exact (hfinish token none).mono (fun _ _ h => h) fun _ _ => trivial
    · refine Contract.Conforms.tryCatch (H := fun k'' => k'' = k') ?_ fun e k'' hk'' => ?_
      · refine Contract.Conforms.bind (Q := fun _ k'' => k'' = k') (conforms_aside ?_)
          fun ts k'' hk'' => hk'' ▸ hfinish token (some ts)
        cases streamTs with
        | none => exact Prog.every_perform trivial
        | some ts => exact .bind (Prog.every_perform trivial) fun _ => .pure
      · rw [hk'']
        exact Contract.Conforms.bind (Q := fun _ _ => True)
          (Contract.conforms_perform h (fun _ _ => trivial) fun _ _ => trivial)
          fun _ _ _ => Contract.conforms_throw trivial

/-- The messages are taken in order: the ones before the next are known to be posted. -/
lemma conforms_messages {streamTs : Option MessageTs} {before rest : List AgentMessage}
    (hk : k.messages = before ++ rest) (hposted : ∀ x ∈ before, x.messageId ∈ k.posted) :
    orderContract.Conforms
      (Prog.loop (fun m => do projectMessage streamTs m; pure (none : Option Unit)) rest)
      (fun _ _ => True) (fun _ => True) k := by
  induction rest generalizing k before with
  | nil => exact Contract.conforms_pure trivial
  | cons m rest ih =>
    have hready : k.Ready m.messageId := ⟨before, m, rest, hk, rfl, hposted⟩
    refine Contract.Conforms.bind
      (Q := fun o k' => o = none ∧ k' = { k with posted := m.messageId :: k.posted }) ?_ ?_
    · exact Contract.Conforms.bind (conforms_projectMessage hready)
        fun _ _ hk' => Contract.conforms_pure ⟨rfl, hk'⟩
    · rintro o k' ⟨rfl, rfl⟩
      have hnext : k.messages = (before ++ [m]) ++ rest := by simp [hk]
      refine ih (k := { k with posted := m.messageId :: k.posted }) hnext fun x hx => ?_
      rcases List.mem_append.1 hx with hx | hx
      · exact List.mem_cons_of_mem _ (hposted x hx)
      · rw [List.mem_singleton.1 hx]
        exact List.mem_cons_self

lemma conforms_projectTask {streamTs : Option MessageTs} {task : Task}
    (hk : k.messages = task.agentMessages) :
    orderContract.Conforms (projectTask streamTs task) (fun _ _ => True) (fun _ => True) k := by
  have hnone : k.messages = [] ++ task.agentMessages := hk
  refine Contract.Conforms.bind (conforms_messages hnone (by simp)) fun _ k' _ => ?_
  refine (conforms_aside ?_).mono (fun _ _ _ => trivial) fun _ _ => trivial
  refine .bind (aside_loop fun r _ => aside_projectHumanInput.bind fun _ => .pure) fun _ => ?_
  refine .bind (Prog.every_perform trivial) fun posted => ?_
  refine .bind (aside_loop fun id _ => aside_closeSettled) fun _ => ?_
  exact aside_showStatus.bind fun _ => Prog.every_perform trivial

lemma ordered_reconcileProjection {previewEnabled : Bool} :
    orderContract.Conforms (reconcileProjection previewEnabled) (fun _ _ => True) (fun _ => True)
      k := by
  refine Contract.Conforms.bind (Q := fun _ _ => True)
    (Contract.conforms_perform trivial (fun _ _ => trivial) fun _ _ => trivial) fun claim k _ => ?_
  cases claim with
  | busy | completed => exact Contract.conforms_throw trivial
  | acquired token projection =>
    refine Contract.Conforms.bind (Q := fun task k' => k'.messages = task.agentMessages)
      (Contract.Conforms.tryCatch (H := fun _ => True)
        (Contract.conforms_perform trivial (fun _ _ => rfl) fun _ _ => trivial) fun e k _ => ?_)
      fun task k hk => ?_
    · exact Contract.Conforms.bind (Q := fun _ _ => True)
        (Contract.conforms_perform trivial (fun _ _ => trivial) fun _ _ => trivial)
        fun _ _ _ => Contract.conforms_throw trivial
    · refine Contract.Conforms.bind (Q := fun _ _ => True) (Contract.Conforms.tryCatch
        (H := fun _ => True) ?_ fun e k _ => ?_) fun newStream k _ => ?_
      · refine Contract.Conforms.bind ((conforms_aside aside_openStream).mono (fun _ _ h => h)
          fun _ _ => trivial) ?_
        rintro ⟨streamTs, newStream⟩ k' rfl
        refine Contract.Conforms.bind (conforms_projectTask hk) fun _ _ _ => ?_
        exact Contract.Conforms.bind (Q := fun _ _ => True)
          (Contract.conforms_perform trivial (fun _ _ => trivial) fun _ _ => trivial)
          fun _ _ _ => Contract.conforms_pure trivial
      · exact (conforms_aside aside_giveUp).mono (fun _ _ _ => trivial) fun _ _ => trivial
      · exact (conforms_aside aside_hintPreview).mono (fun _ _ _ => trivial) fun _ _ => trivial

lemma ordered_job {p : Program Unit} (h : Job p) :
    orderContract.Conforms p (fun _ _ => True) (fun _ => True) {} := by
  obtain ⟨requestEventId, sourceMessageTs, initiatorUserId, previewEnabled, rfl⟩ := h
  exact Contract.Conforms.bind (Q := fun _ _ => True)
    (Contract.conforms_perform trivial (fun _ _ => trivial) fun _ _ => trivial)
    fun _ _ _ => ordered_reconcileProjection

end

/-! ### What the projectors make of the items -/

/-- The posted messages are a beginning of the agent's. -/
def Board.PostedInOrder (b : Board) : Prop :=
  ∃ n, ∀ id, b.Posted (.agentMessage id) ↔ id ∈ (b.messages.take n).map (·.messageId)

/-- The projector still has the message it sends, or notes as sent. -/
def held (b : Board) (a : Actor) : (c : Call) → Except Text c.Reply → Bool
  | .slackWrite, _ | .postReply, _ =>
    match sending b.heard a with
    | some (.agentMessage id, token) => b.claimOf (.agentMessage id) == some token
    | _ => true
  | .finishItem (.agentMessage id) token _ none, .ok _ =>
    b.claimOf (.agentMessage id) == some token
  | _, _ => true

/-- The runs in which no message is lost to another projector. -/
def heldEnvironment : Environment Call Call.Reply Text Board where
  exec b a c r b' := boardEnvironment.exec b a c r b' ∧ held b a c r = true
  drift := boardEnvironment.drift

section

variable {b b' : Board} {k : Seen} {a : Actor} {c : Call} {r : Except Text c.Reply}
  {committed : Bool} {row : Option ProjectionRow} {items : Items}

/-- What a projector knows is so: it read a beginning of the messages, and the ones it knows to be
posted are. -/
def Board.Bears (b : Board) (k : Seen) : Prop :=
  k.messages <+: b.messages ∧ ∀ id ∈ k.posted, b.Posted (.agentMessage id)

/-- What is known of a board: nothing posted is claimed, the posted messages are in order, and each
projector's knowledge is right. -/
structure InOrder (b : Board) (knows : ℕ → Option Seen) : Prop where
  idle : Idle b.items
  posted : b.PostedInOrder
  right : Parties.All b.Bears knows

/-- The next message in order joins the posted ones. -/
lemma postedInOrder_next {messages before after : List AgentMessage} {m : AgentMessage}
    {posted : ℕ → Prop} {n : ℕ}
    (hposted : ∀ id, posted id ↔ id ∈ (messages.take n).map (·.messageId))
    (hmessages : messages = before ++ m :: after) (hbefore : ∀ x ∈ before, posted x.messageId) :
    ∃ n', ∀ id, (posted id ∨ id = m.messageId) ↔ id ∈ (messages.take n').map (·.messageId) := by
  by_cases hm : posted m.messageId
  · refine ⟨n, fun id => ?_⟩
    rw [← hposted]
    exact ⟨fun h => h.elim (fun h => h) fun h => h ▸ hm, .inl⟩
  -- the message is not among the first n, so all of these come before it
  have hlen : n ≤ before.length := by
    by_contra hlt
    refine hm ((hposted _).2 (List.mem_map.2 ⟨m, ?_, rfl⟩))
    rw [hmessages]
    exact List.mem_take_iff_getElem.2 ⟨before.length, by simp; omega, by simp⟩
  refine ⟨before.length + 1, fun id => ?_⟩
  have htake : messages.take (before.length + 1) = before ++ [m] := by
    simp [hmessages, List.take_append]
  have hfirst : messages.take n = before.take n := by
    rw [hmessages, List.take_append_of_le_length hlen]
  rw [htake, hposted, hfirst]
  simp only [List.map_append, List.mem_append, List.map_cons, List.map_nil, List.mem_singleton]
  constructor
  · rintro (h | h)
    · exact .inl ((List.take_sublist n before).map _ |>.subset h)
    · exact .inr h
  · rintro (h | h)
    · obtain ⟨x, hx, rfl⟩ := List.mem_map.1 h
      exact .inl (hfirst ▸ (hposted _).1 (hbefore x hx))
    · exact .inr h

lemma InOrder.posted_after {knows : ℕ → Option Seen} (h : InOrder b knows) (hallow : k.allowed c)
    (hright : b.Bears k) (hanswer : b.Answers c r committed row items) :
    (b.note a c r committed row items).PostedInOrder := by
  obtain ⟨n, hn⟩ := h.posted
  obtain ⟨hread, hknew⟩ := hright
  by_cases hnew : ∃ id, ¬ b.Posted (.agentMessage id) ∧
      (b.note a c r committed row items).Posted (.agentMessage id)
  · obtain ⟨id, hold, r', hr', hstatus⟩ := hnew
    rcases posted_new hanswer hr' hstatus with h' | ⟨token, messageTs, error, rfl⟩
    · exact absurd h' hold
    obtain ⟨before, m, after, hmessages, rfl, hbefore⟩ := hallow
    obtain ⟨more, hmore⟩ := hread
    have hshown : b.messages = before ++ m :: (after ++ more) := by simp [← hmore, hmessages]
    obtain ⟨n', hn'⟩ := postedInOrder_next hn hshown fun x hx => hknew _ (hbefore x hx)
    refine ⟨n', fun id => (Iff.intro ?_ ?_).trans (hn' id)⟩
    · rintro ⟨r'', hr'', hstatus''⟩
      rcases posted_new hanswer hr'' hstatus'' with h' | ⟨_, _, _, heq⟩
      · exact .inl h'
      · cases heq
        exact .inr rfl
    · rintro (h' | rfl)
      · exact posted_stays h.idle hanswer h'
      · exact ⟨r', hr', hstatus⟩
  · refine ⟨n, fun id => (Iff.intro (fun hafter => ?_) (posted_stays h.idle hanswer)).trans (hn id)⟩
    by_contra hold
    exact hnew ⟨id, hold, hafter⟩

/-- What a projector learns is right. -/
lemma learn_right (hidle : Idle b.items) (hright : b.Bears k)
    (hanswer : b.Answers c r committed row items) (hheld : held b a c r = true) :
    (b.note a c r committed row items).Bears (k.learn c r) := by
  obtain ⟨hread, hknew⟩ := hright
  have hstill : ∀ id ∈ k.posted, (b.note a c r committed row items).Posted (.agentMessage id) :=
    fun id hid => posted_stays hidle hanswer (hknew id hid)
  have hcons : ∀ id, (b.note a c r committed row items).Posted (.agentMessage id) →
      ∀ id' ∈ id :: k.posted, (b.note a c r committed row items).Posted (.agentMessage id') := by
    intro id hid id' hmem
    rcases List.mem_cons.1 hmem with rfl | hmem
    · exact hid
    · exact hstill id' hmem
  unfold Seen.learn
  split
  · cases hanswer with
    | row h => cases h
    | item h => cases h
    | task hstate hmessages =>
      rw [hmessages]
      exact ⟨List.prefix_rfl, by simp⟩
    | slack h => cases h
  · exact ⟨hread, hcons _ (posted_stays hidle hanswer (completed_posted hanswer))⟩
  · exact ⟨hread, hcons _ (finish_posts hanswer (by simpa [held] using hheld))⟩
  · exact ⟨hread, hstill⟩

lemma Board.Bears.note (h : b.Bears k) (hidle : Idle b.items)
    (hanswer : b.Answers c r committed row items) :
    (b.note a c r committed row items).Bears k :=
  ⟨h.1, fun id hid => posted_stays hidle hanswer (h.2 id hid)⟩

/-- A call keeps the order. -/
lemma InOrder.call {knows : ℕ → Option Seen} {i : ℕ} (h : InOrder b knows) (hk : knows i = some k)
    (hallow : k.allowed c) (hanswer : b.Answers c r committed row items)
    (hheld : held b (.worker i) c r = true) :
    InOrder (b.note (.worker i) c r committed row items)
      (Function.update knows i (some (k.learn c r))) where
  idle := idle_stays h.idle hanswer
  posted := h.posted_after hallow (h.right i k hk) hanswer
  right := by
    refine (h.right.imp fun k' hk' => hk'.note h.idle hanswer).update fun k' hk' => ?_
    cases hk'
    exact learn_right h.idle (h.right i k hk) hanswer hheld

lemma bears_nothing : b.Bears {} := ⟨List.nil_prefix, fun _ h => by cases h⟩

lemma inOrder {s : Parties Seen Board}
    (hs : Parties.Reachable orderContract heldEnvironment {} Outside {} s) :
    InOrder s.world s.knows := by
  induction hs with
  | init =>
    refine ⟨fun item r h => ?_, ⟨0, fun id => ?_⟩, .none⟩
    · cases h
    · simp [Board.Posted]
  | @step s _ hs h ih =>
    cases h with
    | join =>
      exact ⟨ih.idle, ih.posted, ih.right.update fun k hk => by cases hk; exact bears_nothing⟩
    | leave i => exact ⟨ih.idle, ih.posted, ih.right.update fun k hk => by cases hk⟩
    | call hk hallow hexec =>
      obtain ⟨⟨committed, row, items, hanswer, rfl⟩, hheld⟩ := hexec
      exact ih.call hk hallow hanswer hheld
    | @outside c r w' ho hexec =>
      obtain ⟨⟨committed, row, items, hanswer, rfl⟩, -⟩ := hexec
      have hallow : Seen.allowed {} c := by
        cases ho
        trivial
      exact ⟨idle_stays ih.idle hanswer, ih.posted_after hallow bears_nothing hanswer,
        ih.right.imp fun k hk => hk.note ih.idle hanswer⟩
    | drift hd =>
      obtain ⟨now, state, more, -, -, rfl⟩ := hd
      obtain ⟨n, hn⟩ := ih.posted
      refine ⟨ih.idle, ⟨min n s.world.messages.length, fun id => (hn id).trans ?_⟩,
        ih.right.imp fun k hk => ⟨hk.1.trans (List.prefix_append _ _), hk.2⟩⟩
      dsimp only
      rw [List.take_append_of_le_length (Nat.min_le_right _ _), ← List.take_eq_take_min]

end

/-- **Agent messages are posted in order.** In every run in which no projector sends a message, or
notes that it is sent, after another one took its item over, the posted messages are a beginning of
the agent's; what is posted stays so; and nothing is sent for a message that is posted. -/
theorem posted_in_order {s : BoardSystem}
    (hs : Pool.Reachable heldEnvironment Job Outside {} s) :
    s.world.PostedInOrder ∧
    ∀ a c r b', heldEnvironment.exec s.world a c r b' →
      (∀ item, s.world.Posted item → b'.Posted item) ∧
      (c.sends = true → ∀ id token, sending s.world.heard a = some (.agentMessage id, token) →
        ¬ s.world.Posted (.agentMessage id)) := by
  have hconforms : ∀ p, Job p → orderContract.Conforms p (fun _ _ => True) (fun _ => True) {} :=
    fun _ => ordered_job
  obtain ⟨knows, hknows, -⟩ :=
    Parties.simulates hconforms (fun _ _ _ _ _ _ _ _ _ _ => trivial) hs
  have hinv := inOrder hknows
  refine ⟨hinv.posted, ?_⟩
  rintro a c r b' ⟨⟨committed, row, items, hanswer, rfl⟩, hheld⟩
  refine ⟨fun item => posted_stays hinv.idle hanswer, fun hsends id token hsending => ?_⟩
  rintro ⟨row, hrow, hposted⟩
  have hclaim : s.world.claimOf (.agentMessage id) = some token := by
    cases c with
    | slackWrite | postReply => simpa [held, hsending] using hheld
    | _ => cases hsends
  rw [Board.claimOf, hrow, Option.bind_some, hinv.idle _ _ hrow hposted] at hclaim
  cases hclaim

/-! ### A message that is overtaken -/

deriving instance DecidableEq for AgentMessage

/-- What a script's line answers: a statement done, a task, or the stamp of a message sent. -/
inductive Told
  | done | task (t : Task) | sent (messageTs : MessageTs)

def Board.answer (b : Board) (a : Actor) :
    (c : Call) → Told → Option (Except Text c.Reply × Board)
  | .getTask, .task t =>
    if t.state = b.state ∧ t.agentMessages = b.messages then
      some (.ok t, b.note a .getTask (.ok t) false b.row b.items)
    else none
  | .postReply, .sent ts => some (.ok ts, b.note a .postReply (.ok ts) false b.row b.items)
  | c, .done =>
    match c.run b.toWorld with
    | some (v, row) => some (.ok v, b.note a c (.ok v) true row b.items)
    | none => (c.touch b).map fun (v, items) => (.ok v, b.note a c (.ok v) true b.row items)
  | _, _ => none

lemma Board.answer_exec {b b' : Board} {a : Actor} {c : Call} {told : Told}
    {r : Except Text c.Reply} (h : b.answer a c told = some (r, b')) :
    boardEnvironment.exec b a c r b' := by
  unfold Board.answer at h
  split at h
  · split at h <;> cases h
    exact ⟨_, _, _, .task ‹_ ∧ _›.1 ‹_ ∧ _›.2, rfl⟩
  · cases h
    exact ⟨_, _, _, .slack rfl, rfl⟩
  · split at h
    · cases h
      exact ⟨_, _, _, .row ‹_›, rfl⟩
    · obtain ⟨⟨v, items⟩, htouch, heq⟩ := Option.map_eq_some_iff.1 h
      cases heq
      exact ⟨_, _, _, .item htouch, rfl⟩
  · cases h

/-- Scripts start standard updates; a tick moves the clock on and adds messages. -/
def boardPlayer : Player boardEnvironment Job Outside Told Unit (Time × List AgentMessage) where
  job _ := do
    perform (.ensureProjection none none none)
    reconcileProjection false
  job_entry := update_job
  answer := Board.answer
  answer_exec := Board.answer_exec
  isOutside _ := false
  outside_of h := outside_of_false h
  tick b t :=
    if b.now ≤ t.1 then
      some { b with toWorld := { b.toWorld with now := t.1 }, messages := b.messages ++ t.2 }
    else none
  tick_drift {b t b'} h := by
    split at h
    · cases h
      exact ⟨t.1, b.state, t.2, ‹_›, fun _ => rfl, rfl⟩
    · cases h

/-- The same, where no message is lost to another projector. -/
def heldPlayer : Player heldEnvironment Job Outside Told Unit (Time × List AgentMessage) where
  job := boardPlayer.job
  job_entry := update_job
  answer b a c told := (b.answer a c told).filter fun (r, _) => held b a c r
  answer_exec h := by
    obtain ⟨hanswer, hheld⟩ := Option.filter_eq_some_iff.1 h
    exact ⟨Board.answer_exec hanswer, hheld⟩
  isOutside _ := false
  outside_of h := outside_of_false h
  tick := boardPlayer.tick
  tick_drift := boardPlayer.tick_drift

abbrev BoardScript := List (Line Call Told Unit (Time × List AgentMessage))

def twoMessages : List AgentMessage := [⟨0, "first"⟩, ⟨1, "second"⟩]

/-- Projector `i` reads the task and claims its first message. -/
def takes (i : ℕ) : BoardScript :=
  [.start (), .call i .done, .call i .done,
    .call i (.task { state := .submitted, agentMessages := twoMessages }), .call i .done]

/-- It sends a message and notes that. -/
def posts (i ts : ℕ) : BoardScript := [.call i (.sent ts), .call i .done]

/-- The first projector's leases end as it sends the first message; a second one takes it over. The
first one's end of it has no effect, and it posts the second message. -/
def overtakenMessage : BoardScript :=
  [.tick (0, twoMessages)] ++ takes 0 ++ [.tick (90, [])] ++ takes 1 ++ posts 0 1 ++
    [.call 0 .done] ++ posts 0 2

theorem overtaken_out_of_order :
    ∃ s, Pool.Reachable boardEnvironment Job Outside {} s ∧ ¬ s.world.PostedInOrder := by
  obtain ⟨s, -, hreach, hval⟩ := boardPlayer.played
    (fun s => (s.world.messages, (s.world.items (.agentMessage 0)).map (·.status),
      (s.world.items (.agentMessage 1)).map (·.status)))
    (show (boardPlayer.play {} overtakenMessage).map _ =
      some (twoMessages, some .posting, some .posted) by decide +kernel)
  simp only [Prod.mk.injEq, Option.map_eq_some_iff] at hval
  obtain ⟨hmessages, ⟨first, hfirst, hposting⟩, second, hsecond, hposted⟩ := hval
  refine ⟨s, hreach, ?_⟩
  rintro ⟨n, hn⟩
  have hmem : 1 ∈ (s.world.messages.take n).map (·.messageId) := (hn 1).1 ⟨second, hsecond, hposted⟩
  have hzero : 0 ∈ (s.world.messages.take n).map (·.messageId) := by
    rcases n with _ | n
    · simp at hmem
    · simp [hmessages, twoMessages]
  obtain ⟨row, hrow, hstatus⟩ := (hn 0).2 hzero
  rw [hfirst] at hrow
  cases hrow
  rw [hposting] at hstatus
  cases hstatus

/-- One projector posts both messages. -/
def undisturbed : BoardScript :=
  [.tick (0, twoMessages)] ++ takes 0 ++ posts 0 1 ++ [.call 0 .done] ++ posts 0 2

theorem posted_in_order_undisturbed :
    ∃ s, heldPlayer.play {} undisturbed = some s ∧ s.world.PostedInOrder ∧
      s.world.Posted (.agentMessage 1) := by
  obtain ⟨s, hs, hreach, hval⟩ := heldPlayer.played
    (fun s => (s.world.items (.agentMessage 1)).map (·.status))
    (show (heldPlayer.play {} undisturbed).map _ = some (some .posted) by decide +kernel)
  obtain ⟨row, hrow, hstatus⟩ := Option.map_eq_some_iff.1 hval
  exact ⟨s, hs, (posted_in_order hreach).1, row, hrow, hstatus⟩

end ManagedAgents.Slack
