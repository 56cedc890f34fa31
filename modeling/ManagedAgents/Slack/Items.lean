import Mathlib.Logic.Function.Basic
import ManagedAgents.Slack.Projector

/-!
The items of one binding and task, the rows of `slack_projection_items`, and projectors over them.

An item is claimed under a lease of its own before it is sent to Slack. The task that is read shows
the agent's messages, which only grow. Every exchange of a projector is heard; what was heard is a
ghost no program reads.
-/

namespace ManagedAgents.Slack

open ManagedAgents.Lib
open ManagedAgents.Controller (A2aState RequestId Time Text)

deriving instance DecidableEq for Item

inductive ItemStatus
  | failed | posting | posted
  deriving DecidableEq

structure ItemRow where
  status : ItemStatus := .failed
  slackMessageTs : Option MessageTs := none
  claimId : Option Token := none
  leaseExpiresAt : Option Time := none
  attempts : ℕ := 0
  lastError : Option Text := none
  deriving DecidableEq

/-! ### Statements on an item -/

def itemLeaseSeconds : ℕ := 60

def ItemRow.claimable (r : ItemRow) (now : Time) : Bool :=
  r.status == .failed || (r.status == .posting && r.leaseExpiresAt.any (· ≤ now))

/-- The row is made where it is missing, and claimed where it is free. -/
def claimItem (fresh : Token) (now : Time) (row : Option ItemRow) : ItemClaim × ItemRow :=
  let r := row.getD {}
  if r.claimable now then
    (.acquired fresh,
      { r with
        status := .posting
        claimId := some fresh
        leaseExpiresAt := some (now + itemLeaseSeconds)
        attempts := r.attempts + 1 })
  else (if r.status = .posted then .completed else .busy, r)

/-- Only the item's claim is finished; an empty error counts as none. -/
def finishItem (token : Token) (messageTs : Option MessageTs) (error : Option Text) (r : ItemRow) :
    ItemRow :=
  if r.claimId = some token then
    { r with
      status := if (errorText error).isSome then .failed else .posted
      slackMessageTs := messageTs
      lastError := errorText error
      claimId := none
      leaseExpiresAt := none }
  else r

def closeHumanInput (r : ItemRow) : ItemRow := { r with slackMessageTs := none }

/-! ### The system -/

structure Heard where
  actor : Actor
  call : Call
  reply : Except Text call.Reply

/-- The world with the items, and the agent's messages as the control plane shows them. -/
structure Board extends World where
  items : Item → Option ItemRow := fun _ => none
  messages : List AgentMessage := []
  heard : List Heard := []

abbrev Items := Item → Option ItemRow

/-- What a statement on an item answers and makes of the items; nothing for the other calls. -/
def Call.touch (b : Board) : (c : Call) → Option (c.Reply × Items)
  | claimItem item =>
    let claimed := Slack.claimItem b.uuid b.now (b.items item)
    some (claimed.1, Function.update b.items item (some claimed.2))
  | finishItem item token messageTs error =>
    some ((), Function.update b.items item
      ((b.items item).map (Slack.finishItem token messageTs error)))
  | closeHumanInput requestId =>
    some ((), Function.update b.items (.humanInput requestId)
      ((b.items (.humanInput requestId)).map Slack.closeHumanInput))
  | _ => none

/-- A call to Slack, or the hint to the preview. -/
def Call.leaves : Call → Bool
  | startStream | postReply | slackWrite | previewHint => true
  | _ => false

def Board.Posted (b : Board) (item : Item) : Prop :=
  ∃ r, b.items item = some r ∧ r.status = .posted

/-- The claim an item is under. -/
def Board.claimOf (b : Board) (item : Item) : Option Token := (b.items item).bind (·.claimId)

/-- A statement is answered, committed with its reply lost, or not done; reads answer what is
there; Slack answers anything. -/
inductive Board.Answers (b : Board) : (c : Call) → Except Text c.Reply → Bool →
    Option ProjectionRow → Items → Prop
  | row {c v row} (h : c.run b.toWorld = some (v, row)) : Answers b c (.ok v) true row b.items
  | rowUnacknowledged {c v row} (h : c.run b.toWorld = some (v, row)) (e : Text) :
    Answers b c (.error e) true row b.items
  | item {c v items} (h : c.touch b = some (v, items)) : Answers b c (.ok v) true b.row items
  | itemUnacknowledged {c v items} (h : c.touch b = some (v, items)) (e : Text) :
    Answers b c (.error e) true b.row items
  | failed {c} (e : Text) : Answers b c (.error e) false b.row b.items
  | task {t : Task} (hstate : t.state = b.state) (hmessages : t.agentMessages = b.messages) :
    Answers b .getTask (.ok t) false b.row b.items
  | receipt {v} (h : v = true ↔ ∃ id, b.Posted (.humanInput id)) :
    Answers b .hasHumanInputReceipt (.ok v) false b.row b.items
  | shown {ids} (h : ∀ id, id ∈ ids ↔ ∃ r, b.items (.humanInput id) = some r ∧
      r.status = .posted ∧ r.slackMessageTs.isSome) :
    Answers b .humanInputMessages (.ok ids) false b.row b.items
  | slack {c v} (h : c.leaves = true) : Answers b c (.ok v) false b.row b.items

/-- The board with a call noted and what it left. -/
def Board.note (b : Board) (a : Actor) (c : Call) (r : Except Text c.Reply) (committed : Bool)
    (row : Option ProjectionRow) (items : Items) : Board :=
  { b with
    toWorld := b.toWorld.note a c committed row
    items := items
    heard := ⟨a, c, r⟩ :: b.heard }

/-- In between the clock moves on, the agent writes more, and the task goes on until it ends. -/
def boardEnvironment : Environment Call Call.Reply Text Board where
  exec b a c r b' := ∃ committed row items, b.Answers c r committed row items ∧
    b' = b.note a c r committed row items
  drift b b' := ∃ now state more, b.now ≤ now ∧ (terminal b.state = true → state = b.state) ∧
    b' = { b with
      toWorld := { b.toWorld with now := now, state := state }
      messages := b.messages ++ more }

abbrev BoardSystem := Pool Call Call.Reply Text Board

/-! ### What is sent -/

/-- The item a projector is about to send: the one it has just claimed. -/
def sending (heard : List Heard) (a : Actor) : Option (Item × Token) :=
  match heard.find? (·.actor = a) with
  | some ⟨_, .claimItem item, .ok (.acquired token)⟩ => some (item, token)
  | _ => none

/-- A call that puts something on Slack. -/
def Call.sends : Call → Bool
  | slackWrite | postReply => true
  | _ => false

/-! ### What a call does to the items -/

section

variable {b : Board} {c : Call} {r : Except Text c.Reply} {committed : Bool}
  {row : Option ProjectionRow} {items : Items} {item : Item}

/-- A posted item is under no claim. -/
def Idle (items : Items) : Prop :=
  ∀ item r, items item = some r → r.status = .posted → r.claimId = none

lemma claimItem_posted {fresh : Token} {now : Time} {r : ItemRow} (h : r.status = .posted) :
    claimItem fresh now (some r) = (.completed, r) := by
  simp [claimItem, ItemRow.claimable, h]

lemma finishItem_stale {token : Token} {messageTs : Option MessageTs} {error : Option Text}
    {r : ItemRow} (h : r.claimId ≠ some token) : finishItem token messageTs error r = r := if_neg h

/-- What a statement makes of one item: nothing, a claim, an end, or a closed control. -/
inductive ItemWrite (b : Board) (c : Call) (items : Items) (item : Item) : Prop
  | kept (h : items item = b.items item)
  | claimed (hcall : c = .claimItem item)
    (h : items item = some (claimItem b.uuid b.now (b.items item)).2)
  | finished {token messageTs error} (hcall : c = .finishItem item token messageTs error)
    (h : items item = (b.items item).map (finishItem token messageTs error))
  | closed {requestId} (hitem : item = .humanInput requestId)
    (h : items item = (b.items item).map closeHumanInput)

lemma touch_cases {v : c.Reply} (h : c.touch b = some (v, items)) (item : Item) :
    ItemWrite b c items item := by
  cases c with
  | claimItem item' =>
    cases h
    by_cases hi : item = item'
    · subst hi
      exact .claimed rfl (Function.update_self _ _ _)
    · exact .kept (Function.update_of_ne hi _ _)
  | finishItem item' token messageTs error =>
    cases h
    by_cases hi : item = item'
    · subst hi
      exact .finished rfl (Function.update_self _ _ _)
    · exact .kept (Function.update_of_ne hi _ _)
  | closeHumanInput requestId =>
    cases h
    by_cases hi : item = .humanInput requestId
    · subst hi
      exact .closed rfl (Function.update_self _ _ _)
    · exact .kept (Function.update_of_ne hi _ _)
  | _ => cases h

lemma item_cases (h : b.Answers c r committed row items) (item : Item) :
    ItemWrite b c items item := by
  cases h with
  | item h | itemUnacknowledged h => exact touch_cases h item
  | _ => exact .kept rfl

/-- What is posted stays posted. -/
lemma posted_stays (hidle : Idle b.items) (h : b.Answers c r committed row items)
    (hposted : b.Posted item) : ∃ r, items item = some r ∧ r.status = .posted := by
  obtain ⟨r, hr, hstatus⟩ := hposted
  cases item_cases h item with
  | kept h => exact ⟨r, h.trans hr, hstatus⟩
  | claimed hcall h =>
    rw [hr, claimItem_posted hstatus] at h
    exact ⟨r, h, hstatus⟩
  | finished hcall h =>
    rw [hr, Option.map_some, finishItem_stale (by simp [hidle item r hr hstatus])] at h
    exact ⟨r, h, hstatus⟩
  | closed hitem h =>
    rw [hr, Option.map_some] at h
    exact ⟨_, h, hstatus⟩

/-- What a call posts, it finishes. -/
lemma posted_new {r' : ItemRow} (h : b.Answers c r committed row items)
    (hr' : items item = some r') (hstatus : r'.status = .posted) :
    b.Posted item ∨ ∃ token messageTs error, c = .finishItem item token messageTs error := by
  cases item_cases h item with
  | kept h => exact .inl ⟨r', h ▸ hr', hstatus⟩
  | claimed hcall h =>
    rw [hr'] at h
    obtain rfl := Option.some.inj h
    rcases hold : b.items item with _ | old
    · simp [claimItem, hold, ItemRow.claimable] at hstatus
    · simp only [claimItem, hold, Option.getD_some] at hstatus
      split at hstatus
      · cases hstatus
      · exact .inl ⟨old, hold, hstatus⟩
  | finished hcall h => exact .inr ⟨_, _, _, hcall⟩
  | closed hitem h =>
    rw [hr'] at h
    obtain ⟨old, hold, heq⟩ := Option.map_eq_some_iff.1 h.symm
    exact .inl ⟨old, hold, by rw [← hstatus, ← heq]; rfl⟩

lemma idle_stays (hidle : Idle b.items) (h : b.Answers c r committed row items) : Idle items := by
  intro item r' hr' hstatus
  cases item_cases h item with
  | kept h => exact hidle item r' (h ▸ hr') hstatus
  | claimed hcall h =>
    rw [hr'] at h
    obtain rfl := Option.some.inj h
    rcases hold : b.items item with _ | old
    · simp [claimItem, hold, ItemRow.claimable] at hstatus
    · simp only [claimItem, hold, Option.getD_some] at hstatus ⊢
      split at hstatus
      · cases hstatus
      · rw [if_neg ‹_›]
        exact hidle item old hold hstatus
  | @finished token messageTs error hcall h =>
    rw [hr'] at h
    obtain ⟨old, hold, rfl⟩ := Option.map_eq_some_iff.1 h.symm
    by_cases hclaim : old.claimId = some token
    · simp [finishItem, hclaim]
    · rw [finishItem_stale hclaim] at hstatus ⊢
      exact hidle item old hold hstatus
  | closed hitem h =>
    rw [hr'] at h
    obtain ⟨old, hold, rfl⟩ := Option.map_eq_some_iff.1 h.symm
    exact hidle item old hold hstatus

/-- A finished item was posted, if it was still held and there was no error. -/
lemma finish_posts {token : Token} {messageTs : Option MessageTs}
    (h : b.Answers (.finishItem item token messageTs none) (.ok ()) committed row items)
    (hheld : b.claimOf item = some token) : ∃ r, items item = some r ∧ r.status = .posted := by
  obtain ⟨old, hold, hclaim⟩ := Option.bind_eq_some_iff.1 hheld
  have htouch : ∀ items, items = Function.update b.items item
      ((b.items item).map (finishItem token messageTs none)) →
      ∃ r, items item = some r ∧ r.status = .posted := by
    rintro items rfl
    rw [Function.update_self, hold]
    exact ⟨_, rfl, by simp [finishItem, hclaim, errorText]⟩
  cases h with
  | row h => cases h
  | item h => exact htouch _ (Prod.mk.inj (Option.some.inj h)).2.symm
  | slack h => cases h

/-- An item answered as completed is posted. -/
lemma completed_posted
    (h : b.Answers (.claimItem item) (.ok .completed) committed row items) : b.Posted item := by
  cases h with
  | row h => cases h
  | item h =>
    have hclaim := (Prod.mk.inj (Option.some.inj h)).1
    simp only [claimItem] at hclaim
    split at hclaim
    · cases hclaim
    · split at hclaim
      · rename_i hposted
        rcases hrow : b.items item with _ | old
        · simp [hrow] at hposted
        · exact ⟨old, hrow, by simpa [hrow] using hposted⟩
      · cases hclaim
  | slack h => cases h

end

end ManagedAgents.Slack
