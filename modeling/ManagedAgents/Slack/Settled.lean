import ManagedAgents.Lib.Alone
import ManagedAgents.Slack.Fencing
import ManagedAgents.Slack.Items

/-!
A card that was settled is not opened again, as long as its settlement leaves a mark.

Projections run one after the other and nothing fails. A task that ended stays so, and the row says
it. A task that waits for input goes on; then only a posted request keeps its card shut, so a
projection that reads such a task without any request leaves nothing behind.
-/

namespace ManagedAgents.Slack

open ManagedAgents.Lib
open ManagedAgents.Controller (A2aState RequestId Time Text)

/-- A request was posted, open or closed. -/
def Board.Receipt (b : Board) : Prop := ∃ id, b.Posted (.humanInput id)

/-- The row says that the task ended. -/
def Board.Ended (b : Board) : Prop := ∃ st, lastOf b.row = some st ∧ terminal st = true

/-- A projection has ended with a settled state. -/
def Heard.settles : Heard → Bool
  | ⟨_, .finishStream _ false (some st) _, _⟩ => settled st
  | _ => false

def Heard.starts : Heard → Bool
  | ⟨_, .startStream, _⟩ => true
  | _ => false

/-- Of what was heard, newest first: a stream was started after a projection ended settled. -/
def reopens : List Heard → Bool
  | [] => false
  | h :: earlier => (h.starts && earlier.any (·.settles)) || reopens earlier

/-- A task that waits for input shows a request, or one was posted before. -/
def Leaves (b : Board) (t : Task) : Prop :=
  t.state = .inputRequired → t.requests ≠ [] ∨ b.Receipt

/-- Nothing fails. -/
def smooth {c : Call} (r : Except Text c.Reply) : Prop := ∃ v, r = .ok v

/-- The runs without failures. -/
def smoothEnvironment : Environment Call Call.Reply Text Board where
  exec b a c r b' := boardEnvironment.exec b a c r b' ∧ smooth r
  drift := boardEnvironment.drift

/-- Those in which every task that is read as waiting for input leaves a mark. -/
def markedEnvironment : Environment Call Call.Reply Text Board where
  exec b a c r b' := smoothEnvironment.exec b a c r b' ∧
    ∀ t : Task, (⟨a, c, r⟩ : Heard) = ⟨a, .getTask, .ok t⟩ → Leaves b t
  drift := boardEnvironment.drift

/-- What a projector knows of the card. -/
structure Course where
  token : Option Token := none
  /-- The state its copy of the row shows, while the row shows it too. -/
  last : Option (Option A2aState) := none
  unreceipted : Bool := false
  read : Option Task := none
  /-- The item it is at. -/
  item : Option (Item × Token) := none
  receipt : Bool := false

namespace Course

def learn (k : Course) : (c : Call) → Except Text c.Reply → Course
  | .claimTaskStream, .ok (.acquired token row) =>
    { token := some token, last := some row.lastTaskState }
  | .claimTaskStream, _ => {}
  | .getTask, .ok task => { k with read := some task }
  | .hasHumanInputReceipt, .ok false => { k with unreceipted := true }
  | .claimItem item, .ok (.acquired token) =>
    { k with item := some (item, token), unreceipted := false }
  | .claimItem (.humanInput _), .ok .completed =>
    { k with receipt := true, item := none, unreceipted := false }
  | .claimItem _, _ => { k with item := none, unreceipted := false }
  | .finishItem (.humanInput _) _ _ none, .ok _ =>
    { k with receipt := true, item := none, unreceipted := false }
  | .finishItem _ _ _ _, _ => { k with item := none, unreceipted := false }
  | .markProjection _ _, _ => { k with last := none }
  | .finishStream _ _ _ _, _ => { read := k.read }
  | _, _ => k

/-- A card is opened only after an unsettled state, and without a receipt; what is written to the
row is what was read; a task that waits is left with a receipt. -/
def allowed (k : Course) : Call → Prop
  | .startStream => (∃ l, k.last = some l ∧ l.all (!settled ·) = true) ∧ k.unreceipted = true
  | .markProjection state _ => ∃ t, k.read = some t ∧ state = t.state
  | .finishItem item token _ none => k.item = some (item, token)
  | .finishStream token fallback state _ => k.token = some token ∧ ∃ t, k.read = some t ∧
    state = some t.state ∧
    (fallback = false → t.state = .inputRequired → t.requests ≠ [] → k.receipt = true)
  | _ => True

/-- What a projector keeps knowing while it works on the items. -/
def Goes (k k' : Course) : Prop :=
  k'.token = k.token ∧ k'.read = k.read ∧ (k.receipt = true → k'.receipt = true)

lemma Goes.refl {k : Course} : k.Goes k := ⟨rfl, rfl, id⟩

lemma Goes.trans {k k' k'' : Course} (h : k.Goes k') (h' : k'.Goes k'') : k.Goes k'' :=
  ⟨h'.1.trans h.1, h'.2.1.trans h.2.1, fun hr => h'.2.2 (h.2.2 hr)⟩

end Course

def courseContract : Contract Call Call.Reply Text Course where
  possible _ _ r := smooth r
  allowed := Course.allowed
  learn := Course.learn

/-! ### The programs keep the contract -/

section

variable {k k₀ : Course} {α : Type}

lemma conforms_smooth {c : Call} {Q : c.Reply → Course → Prop} {P : Course → Prop}
    (hallow : k.allowed c) (hok : ∀ v, Q v (k.learn c (.ok v))) :
    courseContract.Conforms (perform c) Q P k :=
  Contract.conforms_perform hallow (fun v _ => hok v) fun e h => by
    obtain ⟨v, h⟩ := h
    cases h

/-- A part that goes on with what was known, also when it raises. -/
abbrev Going (k₀ : Course) (p : Program α) (k : Course) : Prop :=
  courseContract.Conforms p (fun _ k' => k₀.Goes k') (fun k' => k₀.Goes k') k

lemma going_perform {c : Call} (hk : k₀.Goes k) (hallow : k.allowed c)
    (hgoes : ∀ v, k.Goes (k.learn c (.ok v))) : Going k₀ (perform c) k :=
  conforms_smooth hallow fun v => hk.trans (hgoes v)

lemma goes_claimItem {item : Item} {v : ItemClaim} :
    k.Goes (k.learn (.claimItem item) (.ok v)) := by
  cases item <;> cases v <;> exact ⟨rfl, rfl, fun h => by first | exact h | rfl⟩

lemma goes_finishItem {item : Item} {token : Token} {ts : Option MessageTs} {e : Option Text} :
    k.Goes (k.learn (.finishItem item token ts e) (.ok ())) := by
  cases item <;> cases e <;> exact ⟨rfl, rfl, fun h => by first | exact h | rfl⟩

/-- An item is claimed, and posted under that claim. -/
lemma going_projectItem {item : Item} {busy : Text} {post : Token → Program Unit}
    {P : Course → Prop} (hk : k₀.Goes k)
    (hcompleted : P (k.learn (.claimItem item) (.ok .completed)))
    (hpost : ∀ token k', k₀.Goes k' → k'.item = some (item, token) →
      courseContract.Conforms (post token) (fun _ k' => k₀.Goes k' ∧ P k')
        (fun k' => k₀.Goes k') k') :
    courseContract.Conforms (projectItem item busy post) (fun _ k' => k₀.Goes k' ∧ P k')
      (fun k' => k₀.Goes k') k := by
  refine Contract.Conforms.bind (Q := fun claim k' => k' = k.learn (.claimItem item) (.ok claim))
    (conforms_smooth trivial fun _ => rfl) ?_
  rintro claim k' rfl
  cases claim with
  | busy => exact Contract.conforms_throw (hk.trans goes_claimItem)
  | completed => exact Contract.conforms_pure ⟨hk.trans goes_claimItem, hcompleted⟩
  | acquired token =>
    refine hpost token _ (hk.trans goes_claimItem) ?_
    cases item <;> rfl

lemma going_postItem {item : Item} {token : Token} {post : Program MessageTs} {P : Course → Prop}
    (hk : k₀.Goes k) (hitem : k.item = some (item, token))
    (hpost : courseContract.Conforms post (fun _ k' => k' = k) (fun _ => False) k)
    (hP : ∀ ts, P (k.learn (.finishItem item token (some ts) none) (.ok ()))) :
    courseContract.Conforms (postItem item token post) (fun _ k' => k₀.Goes k' ∧ P k')
      (fun k' => k₀.Goes k') k := by
  refine Contract.Conforms.tryCatch (H := fun _ => False) ?_ fun _ _ h => h.elim
  refine Contract.Conforms.bind hpost ?_
  rintro ts k' rfl
  exact conforms_smooth hitem fun _ => ⟨hk.trans goes_finishItem, hP ts⟩

lemma going_projectMessage {streamTs : Option MessageTs} {m : AgentMessage} (hk : k₀.Goes k) :
    Going k₀ (projectMessage streamTs m) k := by
  refine Contract.Conforms.mono (going_projectItem (P := fun _ => True) hk trivial
    fun token k' hk' hitem => ?_) (fun _ _ h => h.1) fun _ h => h
  split
  · exact conforms_smooth hitem fun _ => ⟨hk'.trans goes_finishItem, trivial⟩
  · refine going_postItem hk' hitem ?_ fun _ => trivial
    cases streamTs with
    | none => exact conforms_smooth trivial fun _ => rfl
    | some ts =>
      exact Contract.Conforms.bind (Q := fun _ k'' => k'' = k')
        (conforms_smooth trivial fun _ => rfl) fun _ _ h => Contract.conforms_pure h

/-- After a request's turn there is a receipt. -/
lemma receipt_projectHumanInput {request : HumanRequest} (hk : k₀.Goes k) :
    courseContract.Conforms (projectHumanInput request)
      (fun _ k' => k₀.Goes k' ∧ k'.receipt = true) (fun k' => k₀.Goes k') k :=
  going_projectItem hk rfl fun _ _ hk' hitem =>
    going_postItem hk' hitem (conforms_smooth trivial fun _ => rfl) fun _ => rfl

lemma going_requests {requests : List HumanRequest} (hk : k₀.Goes k) :
    courseContract.Conforms
      (Prog.loop (fun r => do projectHumanInput r; pure (none : Option Unit)) requests)
      (fun _ k' => k₀.Goes k' ∧ (requests ≠ [] → k'.receipt = true)) (fun k' => k₀.Goes k') k := by
  have hbody : ∀ request k, k₀.Goes k → courseContract.Conforms
      (do projectHumanInput request; pure (none : Option Unit))
      (fun o k' => o = none ∧ k₀.Goes k' ∧ k'.receipt = true ∧ k.Goes k')
      (fun k' => k₀.Goes k') k := by
    intro request k hk
    refine Contract.Conforms.bind (Q := fun _ k' => k.Goes k' ∧ k'.receipt = true)
      ((receipt_projectHumanInput .refl).mono (fun _ _ h => h) fun _ h => hk.trans h)
      fun _ k' h => Contract.conforms_pure ⟨rfl, hk.trans h.1, h.2, h.1⟩
  cases requests with
  | nil => exact Contract.conforms_pure ⟨hk, fun h => absurd rfl h⟩
  | cons r rest =>
    refine Contract.Conforms.bind (hbody r k hk) ?_
    rintro o k₁ ⟨rfl, hk₁, hreceipt, -⟩
    refine (Contract.conforms_loop (Q := fun _ k' => k₀.Goes k' ∧ k'.receipt = true)
      ⟨hk₁, hreceipt⟩ fun r _ k' hk' => ?_).mono (fun _ _ h => ⟨h.1, fun _ => h.2⟩) fun _ h => h
    exact (hbody r k' hk'.1).mono (fun _ _ h => ⟨h.2.1, h.2.2.1⟩) fun _ h => h

lemma Going.bind {β : Type} {p : Program α} {f : α → Program β} (hp : Going k₀ p k)
    (hf : ∀ a k', k₀.Goes k' → Going k₀ (f a) k') : Going k₀ (p >>= f) k :=
  Contract.Conforms.bind hp hf

lemma Going.loop {ι β : Type} {body : ι → Program (Option β)} {is : List ι} (hk : k₀.Goes k)
    (hbody : ∀ i k', k₀.Goes k' → Going k₀ (body i) k') : Going k₀ (Prog.loop body is) k :=
  Contract.conforms_loop hk fun i _ k' hk' => hbody i k' hk'

lemma going_closeSettled {pending : List HumanRequest} {id : RequestId} (hk : k₀.Goes k) :
    Going k₀ (closeSettled pending id) k := by
  unfold closeSettled
  split
  · exact Contract.conforms_pure hk
  · refine Going.bind (going_perform hk trivial fun _ => .refl) fun _ k hk => ?_
    exact Going.bind (going_perform hk trivial fun _ => .refl) fun _ k hk =>
      Contract.conforms_pure hk

lemma going_showStatus {streamTs : Option MessageTs} {task : Task} (hk : k₀.Goes k) :
    Going k₀ (showStatus streamTs task) k := by
  unfold showStatus
  split
  · exact Going.bind (going_perform hk trivial fun _ => .refl) fun _ k hk =>
      going_perform hk trivial fun _ => .refl
  · exact going_perform hk trivial fun _ => .refl

/-- A task that waits for input with a request is left with a receipt. -/
def Course.Receipted (k : Course) (task : Task) : Prop :=
  task.state = .inputRequired → task.requests ≠ [] → k.receipt = true

lemma receipted_projectTask {streamTs : Option MessageTs} {task : Task}
    (hread : k.read = some task) :
    courseContract.Conforms (projectTask streamTs task)
      (fun _ k' => k.Goes k' ∧ k'.Receipted task) (fun k' => k.Goes k') k := by
  unfold projectTask
  have hmessages : Going k (Prog.loop
      (fun m => do projectMessage streamTs m; pure (none : Option Unit)) task.agentMessages) k :=
    .loop .refl fun m k' hk' => (going_projectMessage hk').bind fun _ k'' hk'' =>
      Contract.conforms_pure hk''
  refine Contract.Conforms.bind hmessages fun _ k₁ hk₁ => ?_
  refine Contract.Conforms.bind (going_requests hk₁) ?_
  rintro _ k₂ ⟨hk₂, hreceipt⟩
  have hreceipted : k₂.Receipted task := fun hstate hrequests =>
    hreceipt (by simpa [Task.pending, hstate] using hrequests)
  -- what follows keeps the receipt
  have hrest : Going k₂ (do
      let posted ← perform .humanInputMessages
      let _ ← Prog.loop (closeSettled task.pending) posted
      showStatus streamTs task
      perform (.markProjection task.state (if settled task.state then .completed else .pending)))
      k₂ := by
    refine Going.bind (going_perform .refl trivial fun _ => .refl) fun posted k₃ hk₃ => ?_
    refine Going.bind (.loop hk₃ fun id k' hk' => going_closeSettled hk') fun _ k₄ hk₄ => ?_
    refine Going.bind (going_showStatus hk₄) fun _ k₅ hk₅ => ?_
    refine going_perform hk₅ ⟨task, ?_, rfl⟩ fun _ => ⟨rfl, rfl, id⟩
    rw [hk₅.2.1, hk₂.2.1, hread]
  exact hrest.mono (fun _ k' hk' =>
    ⟨hk₂.trans hk', fun hstate hrequests => hk'.2.2 (hreceipted hstate hrequests)⟩)
    fun k' hk' => hk₂.trans hk'

lemma going_openStream {projection : ProjectionRow} {token : Token}
    (hlast : k.last = some projection.lastTaskState) :
    Going k (openStream projection token) k := by
  unfold openStream
  split
  · rename_i hstart
    have hunsettled : projection.lastTaskState.all (!settled ·) = true := by
      simp only [ProjectionRow.canStart, Bool.and_eq_true] at hstart
      exact hstart.1.1
    refine Contract.Conforms.bind (Q := fun receipt k' =>
      k' = k.learn .hasHumanInputReceipt (.ok receipt)) (conforms_smooth trivial fun _ => rfl) ?_
    rintro receipt k' rfl
    cases receipt with
    | true => exact Contract.conforms_pure .refl
    | false =>
      refine Contract.Conforms.tryCatch (H := fun _ => False) ?_ fun _ _ h => h.elim
      refine Contract.Conforms.bind (Q := fun _ k' => k.Goes k')
        (conforms_smooth ⟨⟨_, hlast, hunsettled⟩, rfl⟩ fun _ => ⟨rfl, rfl, id⟩) fun ts k' hk' => ?_
      exact Contract.Conforms.bind (Q := fun _ k' => k.Goes k')
        (conforms_smooth trivial fun _ => hk') fun _ k' hk' => Contract.conforms_pure hk'
  · exact Contract.conforms_pure .refl

/-- A projector that finished forgot its claim. -/
theorem settles_reconcileProjection {previewEnabled : Bool} :
    courseContract.Conforms (reconcileProjection previewEnabled) (fun _ _ => True) (fun _ => True)
      k := by
  refine Contract.Conforms.bind (Q := fun claim k' => ∀ token row,
      claim = Claim.acquired token row →
        k' = { token := some token, last := some row.lastTaskState })
    (conforms_smooth trivial fun claim => ?_) ?_
  · rintro token row rfl
    rfl
  intro claim k' hk
  cases claim with
  | busy | completed => exact Contract.conforms_throw trivial
  | acquired token projection =>
    rw [hk token projection rfl]
    refine Contract.Conforms.bind (Q := fun task k' => k' =
        { token := some token, last := some projection.lastTaskState, read := some task })
      (Contract.Conforms.tryCatch (H := fun _ => False)
        (conforms_smooth trivial fun _ => rfl) fun _ _ h => h.elim) ?_
    intro task k₀ hk₀
    have htoken : k₀.token = some token := by rw [hk₀]
    have hread : k₀.read = some task := by rw [hk₀]
    refine Contract.Conforms.bind (Q := fun _ _ => True) (Contract.Conforms.tryCatch
      (H := fun k' => k₀.Goes k') ?_ fun e k' hk' => ?_) fun newStream k _ => ?_
    · refine Contract.Conforms.bind (going_openStream (by rw [hk₀])) ?_
      rintro ⟨streamTs, newStream⟩ k₁ hk₁
      refine Contract.Conforms.bind ((receipted_projectTask (hk₁.2.1.trans hread)).mono
        (fun _ _ h => h) fun _ h => hk₁.trans h) ?_
      rintro _ k₂ ⟨hk₂, hreceipted⟩
      have hgoes := hk₁.trans hk₂
      refine Contract.Conforms.bind (Q := fun _ _ => True)
        (conforms_smooth ⟨hgoes.1.trans htoken, task, hgoes.2.1.trans hread, rfl,
          fun _ => hreceipted⟩ fun _ => trivial) fun _ _ _ => Contract.conforms_pure trivial
    · refine Contract.Conforms.bind (Q := fun _ _ => True)
        (conforms_smooth ⟨hk'.1.trans htoken, task, hk'.2.1.trans hread, rfl, fun h => ?_⟩
          fun _ => trivial) fun _ _ _ => Contract.conforms_throw trivial
      cases h
    · unfold hintPreview
      split
      · exact Contract.Conforms.tryCatch (H := fun _ => False)
          (conforms_smooth trivial fun _ => trivial) fun _ _ h => h.elim
      · exact Contract.conforms_pure trivial

lemma settles_job {p : Program Unit} (h : Job p) :
    courseContract.Conforms p (fun _ _ => True) (fun _ => True) k := by
  obtain ⟨requestEventId, sourceMessageTs, initiatorUserId, previewEnabled, rfl⟩ := h
  exact Contract.Conforms.bind (Q := fun _ _ => True) (conforms_smooth trivial fun _ => trivial)
    fun _ _ _ => settles_reconcileProjection

end

/-! ### What a projector makes of the card -/

section

variable {b b' : Board} {k : Course} {a : Actor} {c : Call} {r : Except Text c.Reply}
  {committed : Bool} {row : Option ProjectionRow} {items : Items}

/-- What a call makes of the claim and the state in the row. -/
inductive CardWrite (b : Board) (c : Call) (row : Option ProjectionRow) : Prop
  | kept (hclaim : claimOf row = claimOf b.row) (hlast : lastOf row = lastOf b.row)
  | claimed (hcall : c = .claimTaskStream) (hlast : lastOf row = lastOf b.row)
  | marked {state status} (hcall : c = .markProjection state status)
    (hclaim : claimOf row = claimOf b.row) (hlast : lastOf row = some state)
  | finished {token fallback state error} (hcall : c = .finishStream token fallback state error)
    (hlast : lastOf row = state)

lemma run_cases {v : c.Reply} (h : c.run b.toWorld = some (v, row)) : CardWrite b c row := by
  cases c with
  | ensureProjection requestEventId sourceMessageTs initiatorUserId =>
    cases h
    cases hrow : b.row with
    | none | some r =>
      exact .kept (by simp [hrow, ensureProjection, claimOf])
        (by simp [hrow, ensureProjection, lastOf])
  | claimTaskStream =>
    have hrow : row = (claimTaskStream b.uuid b.now b.row).2 := by rw [Option.some.inj h]
    refine .claimed rfl ?_
    rw [hrow]
    cases hold : b.row with
    | none => rfl
    | some r => cases hfree : r.claimable b.now <;> simp [claimTaskStream, hfree, lastOf]
  | updateStreamMessage token messageTs =>
    cases h
    cases hrow : b.row with
    | none => exact .kept (by rw [hrow]; rfl) (by rw [hrow]; rfl)
    | some r =>
      by_cases hclaim : r.claimId = some token <;>
        exact .kept (by simp [hrow, updateStreamMessage, hclaim, claimOf])
          (by simp [hrow, updateStreamMessage, hclaim, lastOf])
  | markProjection state status =>
    cases h
    cases hrow : b.row with
    | none => exact .kept (by rw [hrow]; rfl) (by rw [hrow]; rfl)
    | some r =>
      cases hfree : r.claimable b.now with
      | false =>
        exact .kept (by simp [hrow, markProjection, hfree]) (by simp [hrow, markProjection, hfree])
      | true =>
        exact .marked rfl (by simp [hrow, markProjection, hfree, claimOf])
          (by simp [markProjection, hfree, lastOf])
  | finishStream token fallback state error =>
    cases h
    by_cases hclaim : claimOf b.row = some token
    · cases hrow : b.row with
      | none => simp [hrow, claimOf] at hclaim
      | some r =>
        have hclaim : r.claimId = some token := by simpa [hrow, claimOf] using hclaim
        exact .finished rfl (by simp [finishStream, hclaim, lastOf])
    · exact .kept (by rw [finishStream_stale hclaim]) (by rw [finishStream_stale hclaim])
  | _ => cases h

lemma card_cases (h : b.Answers c r committed row items) : CardWrite b c row := by
  cases h with
  | row h | rowUnacknowledged h => exact run_cases h
  | _ => exact .kept rfl rfl

/-- What is so whenever no projector is at work: the row is right about a task that ended, and a
card that was settled has left a mark. -/
structure Shut (b : Board) : Prop where
  idle : Idle b.items
  told : ∀ st, lastOf b.row = some st → terminal st = true → b.state = st
  closed : (∃ h ∈ b.heard, h.settles = true) → b.Receipt ∨ b.Ended
  never : reopens b.heard = false

/-- What a projector knows is so. -/
structure Knows (b : Board) (k : Course) : Prop where
  claim : ∀ token, k.token = some token → claimOf b.row = some token
  last : ∀ l, k.last = some l → lastOf b.row = l
  free : k.unreceipted = true → ¬ b.Receipt
  receipt : k.receipt = true → b.Receipt
  held : ∀ item token, k.item = some (item, token) → b.claimOf item = some token
  ended : ∀ t, k.read = some t → terminal t.state = true → b.state = t.state
  stays : ∀ t, k.read = some t → b.Ended → t.state = b.state
  shown : ∀ t, k.read = some t → t.state = .inputRequired → t.requests = [] → b.Receipt

lemma knows_nothing : Knows b {} := by
  constructor <;> simp

lemma receipt_stays (h : Idle b.items) (hanswer : b.Answers c r committed row items) :
    b.Receipt → (b.note a c r committed row items).Receipt
  | ⟨id, hid⟩ => ⟨id, posted_stays h hanswer hid⟩

lemma terminal_settled {st : A2aState} (h : terminal st = true) : settled st = true := by
  cases st <;> first | rfl | cases h

/-- A settled state that is not the end of the task waits for input. -/
lemma waits_of_settled {st : A2aState} (h : settled st = true) (hrun : terminal st = false) :
    st = .inputRequired := by
  cases st <;> simp_all [settled, terminal]

/-- A claim that is held is finished in the row. -/
lemma finish_writes {token : Token} {fallback : Bool} {state : Option A2aState}
    {error : Option Text}
    (h : b.Answers (.finishStream token fallback state error) (.ok ()) committed row items)
    (hclaim : claimOf b.row = some token) : lastOf row = state := by
  cases h with
  | row h =>
    cases h
    cases hrow : b.row with
    | none => simp [hrow, claimOf] at hclaim
    | some r =>
      have hclaim : r.claimId = some token := by simpa [hrow, claimOf] using hclaim
      simp [finishStream, hclaim, lastOf]
  | item h => cases h
  | slack h => cases h

/-- What the row says is what was there, or what the projector read. -/
lemma last_cases (hallow : k.allowed c) (h : b.Answers c r committed row items) :
    lastOf row = lastOf b.row ∨ ∃ t, k.read = some t ∧ lastOf row = some t.state := by
  cases card_cases h with
  | kept _ hlast => exact .inl hlast
  | claimed _ hlast => exact .inl hlast
  | marked hcall _ hlast =>
    subst hcall
    obtain ⟨t, hread, rfl⟩ := hallow
    exact .inr ⟨t, hread, hlast⟩
  | finished hcall hlast =>
    subst hcall
    obtain ⟨-, t, hread, rfl, -⟩ := hallow
    exact .inr ⟨t, hread, hlast⟩

lemma ended_stays (hread : ∀ t, k.read = some t → b.Ended → t.state = b.state)
    (htold : ∀ st, lastOf b.row = some st → terminal st = true → b.state = st)
    (hallow : k.allowed c) (h : b.Answers c r committed row items) (hended : b.Ended) :
    (b.note a c r committed row items).Ended := by
  obtain ⟨st, hst, hterminal⟩ := hended
  rcases last_cases hallow h with hlast | ⟨t, ht, hlast⟩
  · exact ⟨st, hlast.trans hst, hterminal⟩
  · have hstate : t.state = st := (hread t ht ⟨st, hst, hterminal⟩).trans (htold st hst hterminal)
    exact ⟨st, hlast.trans (congrArg some hstate), hterminal⟩

/-- A call of the projector leaves a settled card shut. -/
lemma Shut.call (h : Shut b) (hk : Knows b k) (hallow : k.allowed c)
    (hanswer : b.Answers c r committed row items) (hsmooth : smooth r) :
    Shut (b.note a c r committed row items) where
  idle := idle_stays h.idle hanswer
  told := by
    intro st hst hterminal
    rcases last_cases hallow hanswer with hlast | ⟨t, ht, hlast⟩
    · exact h.told st (hlast ▸ hst) hterminal
    · obtain rfl : t.state = st := Option.some.inj (hlast.symm.trans hst)
      exact hk.ended t ht hterminal
  closed := by
    rintro ⟨f, hf, hsettles⟩
    rcases List.mem_cons.1 hf with rfl | hf
    · -- the projection ends settled: with a receipt, or with the task's end in the row
      obtain ⟨v, rfl⟩ := hsmooth
      unfold Heard.settles at hsettles
      split at hsettles
      · rename_i heq
        cases heq
        obtain ⟨htoken, t, hread, hstate, hreceipt⟩ := hallow
        cases hstate
        cases hrun : terminal t.state with
        | true => exact .inr ⟨t.state, finish_writes hanswer (hk.claim _ htoken), hrun⟩
        | false =>
          have hwaits := waits_of_settled hsettles hrun
          refine .inl (receipt_stays h.idle hanswer ?_)
          by_cases hrequests : t.requests = []
          · exact hk.shown t hread hwaits hrequests
          · exact hk.receipt (hreceipt rfl hwaits hrequests)
      · cases hsettles
    · exact (h.closed ⟨f, hf, hsettles⟩).imp (receipt_stays h.idle hanswer)
        (ended_stays hk.stays h.told hallow hanswer)
  never := by
    change ((⟨a, c, r⟩ : Heard).starts && b.heard.any (·.settles) || reopens b.heard) = false
    rw [h.never, Bool.or_false]
    by_contra hreopens
    simp only [Bool.not_eq_false, Bool.and_eq_true, List.any_eq_true] at hreopens
    obtain ⟨hstarts, hsettled⟩ := hreopens
    obtain ⟨⟨l, hlast, hunsettled⟩, hfree⟩ : k.allowed .startStream := by
      cases c with
      | startStream => exact hallow
      | _ => cases hstarts
    rcases h.closed hsettled with hreceipt | ⟨st, hst, hterminal⟩
    · exact hk.free hfree hreceipt
    · rw [hk.last l hlast] at hst
      simp [hst, terminal_settled hterminal] at hunsettled

lemma row_same (h : b.Answers c r committed row items) (hrun : c.run b.toWorld = none) :
    row = b.row := by
  cases h with
  | row h | rowUnacknowledged h => cases hrun.symm.trans h
  | _ => rfl

lemma items_same (h : b.Answers c r committed row items) (htouch : c.touch b = none) :
    items = b.items := by
  cases h with
  | item h | itemUnacknowledged h => cases htouch.symm.trans h
  | _ => rfl

/-- What the row and the items still show is still known. -/
lemma Knows.keep (hk : Knows b k) (hclaim : claimOf row = claimOf b.row)
    (hlast : lastOf row = lastOf b.row) : Knows (b.note a c r committed row b.items) k where
  claim token h := hclaim.trans (hk.claim token h)
  last l h := hlast.trans (hk.last l h)
  free := hk.free
  receipt := hk.receipt
  held := hk.held
  ended := hk.ended
  stays t ht := fun ⟨st, hst, hterminal⟩ => hk.stays t ht ⟨st, hlast.symm.trans hst, hterminal⟩
  shown := hk.shown

/-- After a call that is about an item, the row shows what it showed. -/
lemma Knows.touched (hk : Knows b k) (hidle : Idle b.items)
    (hanswer : b.Answers c r committed b.row items) {k' : Course} (htoken : k'.token = k.token)
    (hlast : k'.last = k.last) (hread : k'.read = k.read) (hfree : k'.unreceipted = false)
    (hreceipt : k'.receipt = true → k.receipt = true ∨ ∃ id r, items (.humanInput id) = some r ∧
      r.status = .posted)
    (hheld : ∀ item token, k'.item = some (item, token) →
      (items item).bind (·.claimId) = some token) :
    Knows (b.note a c r committed b.row items) k' where
  claim token h := hk.claim token (htoken ▸ h)
  last l h := hk.last l (hlast ▸ h)
  free h := by
    rw [hfree] at h
    cases h
  receipt h := by
    rcases hreceipt h with h | h
    · exact receipt_stays hidle hanswer (hk.receipt h)
    · exact h
  held := hheld
  ended t ht := hk.ended t (hread ▸ ht)
  stays t ht := hk.stays t (hread ▸ ht)
  shown t ht hstate hrequests :=
    receipt_stays hidle hanswer (hk.shown t (hread ▸ ht) hstate hrequests)

/-- After a call that writes what was read, the row is no better known than the task. -/
lemma Knows.written (hk : Knows b k) (hallow : k.allowed c)
    (hanswer : b.Answers c r committed row b.items) {k' : Course}
    (htoken : ∀ token, k'.token = some token → claimOf row = some token) (hlast : k'.last = none)
    (hread : k'.read = k.read) (hfree : k'.unreceipted = true → k.unreceipted = true)
    (hreceipt : k'.receipt = true → k.receipt = true)
    (hitem : ∀ item token, k'.item = some (item, token) → k.item = some (item, token)) :
    Knows (b.note a c r committed row b.items) k' where
  claim := htoken
  last l h := by
    rw [hlast] at h
    cases h
  free h := hk.free (hfree h)
  receipt h := hk.receipt (hreceipt h)
  held item token h := hk.held item token (hitem item token h)
  ended t ht := hk.ended t (hread ▸ ht)
  stays t ht := by
    rintro ⟨st, hst, hterminal⟩
    have ht : k.read = some t := hread ▸ ht
    rcases last_cases hallow hanswer with hsame | ⟨t', ht', hsame⟩
    · exact hk.stays t ht ⟨st, hsame.symm.trans hst, hterminal⟩
    · obtain rfl : t = t' := Option.some.inj (ht.symm.trans ht')
      obtain rfl : t.state = st := Option.some.inj (hsame.symm.trans hst)
      exact (hk.ended t ht hterminal).symm
  shown t ht := hk.shown t (hread ▸ ht)

/-- A claim that is answered as acquired is the item's. -/
lemma acquired_held {item : Item} {token : Token}
    (h : b.Answers (.claimItem item) (.ok (.acquired token)) committed row items) :
    (items item).bind (·.claimId) = some token := by
  cases h with
  | row h => cases h
  | item h =>
    obtain ⟨hclaim, rfl⟩ := Prod.mk.inj (Option.some.inj h)
    simp only [claimItem] at hclaim
    split at hclaim
    · rename_i hfree
      obtain rfl : b.uuid = token := by simpa using hclaim
      simp [claimItem, hfree]
    · split at hclaim <;> cases hclaim
  | slack h => cases h

lemma acquired_row {token : Token} {r : ProjectionRow}
    (h : b.Answers .claimTaskStream (.ok (.acquired token r)) committed row items) :
    claimOf row = some token ∧ lastOf row = r.lastTaskState := by
  cases h with
  | row h =>
    have hpair := Option.some.inj h
    cases hold : b.row with
    | none =>
      rw [hold] at hpair
      cases hpair
    | some old =>
      rw [hold] at hpair
      simp only [claimTaskStream] at hpair
      split at hpair
      · cases hpair
        exact ⟨rfl, rfl⟩
      · cases hpair
  | item h => cases h
  | slack h => cases h

lemma knows_close {requestId : RequestId} {r : Except Text Unit} (h : Shut b) (hk : Knows b k)
    (hanswer : b.Answers (.closeHumanInput requestId) r committed row items) :
    Knows (b.note a (.closeHumanInput requestId) r committed row items) k := by
  obtain rfl := row_same hanswer rfl
  refine ⟨hk.claim, hk.last, fun hfree => ?_,
    fun hr => receipt_stays h.idle hanswer (hk.receipt hr),
    fun item token hitem => ?_, hk.ended, hk.stays,
    fun t ht hstate hrequests => receipt_stays h.idle hanswer (hk.shown t ht hstate hrequests)⟩
  · rintro ⟨id, r', hr', hstatus⟩
    rcases posted_new hanswer hr' hstatus with hposted | ⟨_, _, _, heq⟩
    · exact hk.free hfree ⟨id, hposted⟩
    · cases heq
  · have hheld := hk.held item token hitem
    change (items item).bind _ = _
    cases item_cases hanswer item with
    | kept hsame => rwa [hsame]
    | claimed hcall | finished hcall => cases hcall
    | closed _ hsame =>
      obtain ⟨old, hold, hclaim⟩ := Option.bind_eq_some_iff.1 hheld
      rw [hsame, hold]
      exact hclaim

/-- What a projector learns is so. -/
lemma Knows.call (h : Shut b) (hk : Knows b k) (hallow : k.allowed c)
    (hanswer : b.Answers c r committed row items) (hsmooth : smooth r)
    (hleaves : ∀ t : Task, (⟨a, c, r⟩ : Heard) = ⟨a, .getTask, .ok t⟩ → Leaves b t) :
    Knows (b.note a c r committed row items) (k.learn c r) := by
  obtain ⟨v, rfl⟩ := hsmooth
  cases c with
  | ensureProjection | updateStreamMessage =>
    obtain rfl := items_same hanswer rfl
    cases card_cases hanswer with
    | kept hclaim hlast => exact hk.keep hclaim hlast
    | claimed hcall | marked hcall | finished hcall => cases hcall
  | claimTaskStream =>
    cases v with
    | busy | completed => exact knows_nothing
    | acquired token r =>
      obtain ⟨hclaim, hlast⟩ := acquired_row hanswer
      refine ⟨fun t ht => ?_, fun l hl => ?_, by simp [Course.learn], by simp [Course.learn],
        by simp [Course.learn], by simp [Course.learn], by simp [Course.learn],
        by simp [Course.learn]⟩
      · cases ht
        exact hclaim
      · cases hl
        exact hlast
  | getTask =>
    obtain rfl := row_same hanswer rfl
    obtain rfl := items_same hanswer rfl
    have hstate : v.state = b.state := by
      cases hanswer with
      | row h | item h | slack h => cases h
      | task hstate _ => exact hstate
    have hkeep : Knows (b.note a .getTask (.ok v) committed b.row b.items) k := hk.keep rfl rfl
    refine ⟨hkeep.claim, hkeep.last, hkeep.free, hkeep.receipt, hkeep.held, fun t ht _ => ?_,
      fun t ht _ => ?_, fun t ht hwaits hrequests => ?_⟩
    · cases ht
      exact hstate.symm
    · cases ht
      exact hstate
    · cases ht
      exact (hleaves v rfl hwaits).resolve_left fun hne => hne hrequests
  | hasHumanInputReceipt =>
    obtain rfl := row_same hanswer rfl
    obtain rfl := items_same hanswer rfl
    have hkeep : Knows (b.note a .hasHumanInputReceipt (.ok v) committed b.row b.items) k :=
      hk.keep rfl rfl
    cases v with
    | true => exact hkeep
    | false =>
      refine ⟨hkeep.claim, hkeep.last, fun _ hreceipt => ?_, hkeep.receipt, hkeep.held, hkeep.ended,
        hkeep.stays, hkeep.shown⟩
      cases hanswer with
      | row h | item h | slack h => cases h
      | receipt hiff => exact Bool.false_ne_true (hiff.2 hreceipt)
  | claimItem item =>
    obtain rfl := row_same hanswer rfl
    refine hk.touched h.idle hanswer ?_ ?_ ?_ ?_ (fun hr => ?_) fun item' token' hitem => ?_
    any_goals cases item <;> cases v <;> rfl
    · cases item <;> cases v <;> first
        | exact .inl hr
        | exact .inr ⟨_, posted_stays h.idle hanswer (completed_posted hanswer)⟩
    · cases item <;> cases v <;> cases hitem <;> exact acquired_held hanswer
  | finishItem item token messageTs error =>
    obtain rfl := row_same hanswer rfl
    refine hk.touched h.idle hanswer ?_ ?_ ?_ ?_ (fun hr => ?_) fun item' token' hitem => ?_
    any_goals cases item <;> cases error <;> rfl
    · cases item <;> cases error <;> first
        | exact .inl hr
        | exact .inr ⟨_, finish_posts hanswer (hk.held _ _ hallow)⟩
    · cases item <;> cases error <;> cases hitem
  | closeHumanInput requestId => exact knows_close h hk hanswer
  | markProjection state status =>
    obtain rfl := items_same hanswer rfl
    refine hk.written hallow hanswer (fun token htoken => ?_) rfl rfl (fun hr => hr) (fun hr => hr)
      fun _ _ hitem => hitem
    cases card_cases hanswer with
    | kept hclaim | marked _ hclaim => exact hclaim.trans (hk.claim token htoken)
    | claimed hcall | finished hcall => cases hcall
  | finishStream token fallback state error =>
    obtain rfl := items_same hanswer rfl
    exact hk.written hallow hanswer (by simp [Course.learn]) rfl rfl (by simp [Course.learn])
      (by simp [Course.learn]) (by simp [Course.learn])
  | _ =>
    obtain rfl := row_same hanswer rfl
    obtain rfl := items_same hanswer rfl
    exact hk.keep rfl rfl

lemma Shut.drift (h : Shut b) (hd : boardEnvironment.drift b b') : Shut b' := by
  obtain ⟨now, state, more, -, hstays, rfl⟩ := hd
  refine ⟨h.idle, fun st hst hterminal => ?_, h.closed, h.never⟩
  have hstate := h.told st hst hterminal
  exact (hstays (hstate ▸ hterminal)).trans hstate

lemma Knows.drift (h : Shut b) (hk : Knows b k) (hd : boardEnvironment.drift b b') :
    Knows b' k := by
  obtain ⟨now, state, more, -, hstays, rfl⟩ := hd
  refine ⟨hk.claim, hk.last, hk.free, hk.receipt, hk.held, fun t ht hterminal => ?_,
    fun t ht hended => ?_, hk.shown⟩
  · have hstate := hk.ended t ht hterminal
    exact (hstays (hstate ▸ hterminal)).trans hstate
  · obtain ⟨st, hst, hterminal⟩ := hended
    have hstate := h.told st hst hterminal
    rw [hk.stays t ht ⟨st, hst, hterminal⟩]
    exact (hstays (hstate ▸ hterminal)).symm

lemma shut (hb : Serial markedEnvironment Job Outside {} b) : Shut b := by
  induction hb with
  | init =>
    exact ⟨fun _ _ h => (by cases h), fun _ h => (by cases h), fun ⟨_, h, _⟩ => (by cases h), rfl⟩
  | drift _ hd ih => exact ih.drift hd
  | @client b b' c r _ hc he ih =>
    obtain ⟨⟨⟨committed, row, items, hanswer, rfl⟩, hsmooth⟩, -⟩ := he
    have hallow : Course.allowed {} c := by
      cases hc
      trivial
    exact ih.call knows_nothing hallow hanswer hsmooth
  | @run b b' a p _ hp hrun ih =>
    have halone := Alone.of_conforms (E := markedEnvironment) (a := a)
      (I := fun k b => Shut b ∧ Knows b k) (settles_job (k := {}) hp) ⟨ih, knows_nothing⟩
      (fun h hd => ⟨h.1.drift hd, h.2.drift h.1 hd⟩) fun h hallow he => ?_
    · obtain ⟨k, h, -⟩ := halone.solo hrun
      exact h.1
    · obtain ⟨⟨⟨committed, row, items, hanswer, rfl⟩, hsmooth⟩, hleaves⟩ := he
      exact ⟨hsmooth, h.1.call h.2 hallow hanswer hsmooth,
        h.2.call h.1 hallow hanswer hsmooth hleaves⟩

end

/-- **A settled card stays shut.** In every sequence of task updates and of projections that run one
after the other without a failure, where every projection that reads the task as waiting for input
shows a request of it or finds one posted, no stream is started after a projection ended settled. -/
theorem settled_card_stays_shut {b : Board} (hb : Serial markedEnvironment Job Outside {} b) :
    reopens b.heard = false := (shut hb).never

/-! ### A task that asks for nothing -/

/-- How a projector is answered where no item was ever claimed and the task shows no request. -/
def Board.frank (a : Actor) : (c : Call) → Board → Option (Except Text c.Reply × Board)
  | .getTask, b =>
    let r := .ok { state := b.state, agentMessages := b.messages }
    some (r, b.note a .getTask r false b.row b.items)
  | .hasHumanInputReceipt, b =>
    some (.ok false, b.note a .hasHumanInputReceipt (.ok false) false b.row b.items)
  | .humanInputMessages, b =>
    some (.ok [], b.note a .humanInputMessages (.ok []) false b.row b.items)
  | .startStream, b => some (.ok 1, b.note a .startStream (.ok 1) false b.row b.items)
  | .slackWrite, b => some (.ok (), b.note a .slackWrite (.ok ()) false b.row b.items)
  | .previewHint, b => some (.ok (), b.note a .previewHint (.ok ()) false b.row b.items)
  | c, b => (c.run b.toWorld).map fun (v, row) => (.ok v, b.note a c (.ok v) true row b.items)

/-- No item was ever claimed, and the task is in that state. -/
def Board.Blank (state : A2aState) (b : Board) : Prop :=
  b.items = (fun _ => none) ∧ b.state = state

lemma frank_exec {b b' : Board} {a : Actor} {c : Call} {r : Except Text c.Reply}
    {state : A2aState} (hb : b.Blank state) (h : Board.frank a c b = some (r, b')) :
    smoothEnvironment.exec b a c r b' ∧ b'.Blank state := by
  have hitem : ∀ item, b.items item = none := fun item => congrFun hb.1 item
  unfold Board.frank at h
  split at h
  · cases h
    exact ⟨⟨⟨_, _, _, .task rfl rfl, rfl⟩, _, rfl⟩, hb⟩
  · cases h
    refine ⟨⟨⟨_, _, _, .receipt ?_, rfl⟩, _, rfl⟩, hb⟩
    simp [Board.Posted, hitem]
  · cases h
    refine ⟨⟨⟨_, _, _, .shown ?_, rfl⟩, _, rfl⟩, hb⟩
    simp [hitem]
  · cases h
    exact ⟨⟨⟨_, _, _, .slack rfl, rfl⟩, _, rfl⟩, hb⟩
  · cases h
    exact ⟨⟨⟨_, _, _, .slack rfl, rfl⟩, _, rfl⟩, hb⟩
  · cases h
    exact ⟨⟨⟨_, _, _, .slack rfl, rfl⟩, _, rfl⟩, hb⟩
  · obtain ⟨⟨v, row⟩, hrun, heq⟩ := Option.map_eq_some_iff.1 h
    cases heq
    exact ⟨⟨⟨_, _, _, .row hrun, rfl⟩, v, rfl⟩, hb⟩

/-- A task that does not wait for input leaves what it need not. -/
lemma marked_exec {b b' : Board} {a : Actor} {c : Call} {r : Except Text c.Reply}
    (hstate : b.state ≠ .inputRequired) (h : smoothEnvironment.exec b a c r b') :
    markedEnvironment.exec b a c r b' := by
  refine ⟨h, fun t ht hwaits => absurd ?_ hstate⟩
  obtain ⟨⟨committed, row, items, hanswer, -⟩, -⟩ := h
  cases ht
  cases hanswer with
  | row h | item h | slack h => cases h
  | task h _ => exact h.symm.trans hwaits

/-- The task goes to each of the states in turn, and is projected there. -/
def projections : List A2aState → Board → Option Board
  | [], b => some b
  | state :: rest, b =>
    if terminal b.state && state != b.state then none
    else
      let job : Program Unit := do
        perform (.ensureProjection none none (some 1))
        reconcileProjection false
      match job.answered (Board.frank (.worker 0))
        { b with toWorld := { b.toWorld with state := state } } with
      | some (.ok (), b') => projections rest b'
      | _ => none

/-- They are a run of any environment that allows such answers. -/
lemma serial_projections {E : Environment Call Call.Reply Text Board} {states : List A2aState}
    {b b' : Board} (hdrift : ∀ {b b'}, boardEnvironment.drift b b' → E.drift b b')
    (hexec : ∀ {b a c r b'}, b.state ∈ states → smoothEnvironment.exec b a c r b' →
      E.exec b a c r b')
    (hb : Serial E Job Outside {} b) (hblank : b.items = fun _ => none)
    (h : projections states b = some b') : Serial E Job Outside {} b' := by
  induction states generalizing b with
  | nil =>
    cases h
    exact hb
  | cons state rest ih =>
    rw [projections] at h
    split at h
    · cases h
    · rename_i hmay
      dsimp only at h
      split at h
      · rename_i b₁ hrun
        have hstart : Board.Blank state { b with toWorld := { b.toWorld with state := state } } :=
          ⟨hblank, rfl⟩
        obtain ⟨hsolo, hblank₁⟩ := Solo.answered (E := E) (a := .worker 0) (fun hI hanswer =>
          have hframe := frank_exec hI hanswer
          ⟨hexec (by simp [hI.2]) hframe.1, hframe.2⟩) hstart hrun
        refine ih (fun hmem => hexec (List.mem_cons_of_mem _ hmem)) ?_ hblank₁.1 h
        refine .run (.drift hb (hdrift ⟨b.now, state, [], le_rfl, fun hterminal => ?_, ?_⟩))
          ⟨none, none, some 1, false, rfl⟩ hsolo
        · simpa [hterminal] using hmay
        · simp
      · cases h

/-- The task waits for input without showing a request, and then goes on. -/
theorem reopened_without_a_request :
    ∃ b, Serial smoothEnvironment Job Outside {} b ∧ reopens b.heard = true := by
  obtain ⟨b, hplayed, hreopens⟩ := Option.map_eq_some_iff.1
    (show (projections [.inputRequired, .working, .working] {}).map (reopens ·.heard) = some true
      by decide +kernel)
  exact ⟨b, serial_projections id (fun _ h => h) .init rfl hplayed, hreopens⟩

theorem settled_card_stays_shut_completed :
    ∃ b, projections [.working, .completed, .completed] {} = some b ∧
      b.heard.any (·.settles) = true ∧ reopens b.heard = false := by
  obtain ⟨b, hplayed, hsettled⟩ := Option.map_eq_some_iff.1
    (show (projections [.working, .completed, .completed] {}).map (·.heard.any (·.settles)) =
      some true by decide +kernel)
  refine ⟨b, hplayed, hsettled, settled_card_stays_shut
    (serial_projections id ?_ .init rfl hplayed)⟩
  intro b a c r b' hstate
  refine marked_exec fun hwaits => ?_
  rw [hwaits] at hstate
  revert hstate
  decide

end ManagedAgents.Slack
