import ManagedAgents.Slack.Projector
import ManagedAgents.Lib.Replay

/-!
The preview worker of the Slack preview beside the projectors, from its `repository.ts` and
`worker.ts`: it borrows the row of `slack_task_projections` while it shows a draft's title.

A statement that is given up after its time limit is one whose reply is lost. What the clock, the
subscription and Slack say is arbitrary, but that Slack stamps no two messages alike.
-/

namespace ManagedAgents.Slack

open ManagedAgents.Lib
open ManagedAgents.Controller (A2aState Time Text)

/-! ### Statements on the row -/

structure Projection where
  slackMessageTs : MessageTs
  status : ProjectionStatus
  lastTaskState : A2aState

/-- `read`; `bound` says that the task is still one of the binding's thread. -/
def readProjection (bound : Bool) (row : Option ProjectionRow) : Option Projection := do
  let r ← row
  let messageTs ← r.slackMessageTs
  let state ← r.lastTaskState
  if bound && r.initiatorUserId.isSome && !settled state
      && (r.status == .pending || r.status == .streaming) then
    some ⟨messageTs, r.status, state⟩
  else none

def previewLeaseSeconds : ℕ := 8

/-- The rows a preview may borrow. -/
def ProjectionRow.lendable (r : ProjectionRow) (messageTs : MessageTs) : Bool :=
  r.status == .pending && r.claimId.isNone && r.lastTaskState.any (!settled ·)
    && r.slackMessageTs == some messageTs

/-- `claim`. -/
def claimPreview (fresh : Token) (now : Time) (bound : Bool) (messageTs : MessageTs)
    (row : Option ProjectionRow) : Option Token × Option ProjectionRow :=
  match row with
  | none => (none, none)
  | some r =>
    if bound && r.lendable messageTs then
      (some fresh, some
        { r with
          status := .streaming
          claimId := some fresh
          leaseExpiresAt := some (now + previewLeaseSeconds) })
    else (none, some r)

/-- `release`. -/
def releasePreview (token : Token) (row : Option ProjectionRow) : Bool × Option ProjectionRow :=
  match row with
  | none => (false, none)
  | some r =>
    if r.status == .streaming && r.claimId == some token then
      (true, some { r with status := .pending, claimId := none, leaseExpiresAt := none })
    else (false, some r)

/-! ### The worker -/

inductive PreviewCall
  | read
  /-- `usable`, which looks at the clock and at how the stamps are written. -/
  | usable (row : Projection)
  | aborted
  | sleep
  /-- The title of the draft so far. -/
  | title
  | claim (row : Projection)
  /-- Whether the claim took too long. -/
  | late
  /-- Whether Slack took the title. -/
  | update (title : Text)
  | release (token : Token)

@[reducible] def PreviewCall.Reply : PreviewCall → Type
  | read => Option Projection
  | usable _ | aborted | late | update _ | release _ => Bool
  | title => Text
  | claim _ => Option Token
  | sleep => Unit

abbrev PreviewProgram (α : Type) := Prog PreviewCall PreviewCall.Reply Text α

namespace Preview

def perform (c : PreviewCall) : PreviewProgram c.Reply := Prog.perform c

/-- Show a title under a claim, and give the claim back whatever comes of it. Nothing is returned
when the worker stops. -/
def showTitle (token : Token) (title : Text) : PreviewProgram (Option Text) := do
  let shown ← tryCatch
    (do
      if (← perform .aborted) || (← perform .late) then pure (Except.ok none)
      else if ← perform (.update title) then pure (.ok (some title))
      else pure (.ok none))
    fun e => pure (.error e)
  let released ← perform (.release token)
  match shown with
  | .error e => throw e
  | .ok next => pure (if released then next else none)

/-- One round: the title that is displayed after it, unless the worker stops. -/
def round (initial : Projection) (displayed : Text) : PreviewProgram (Option Text) := do
  perform .sleep
  match ← perform .read with
  | none => pure none
  | some row =>
    if !(← perform (.usable row)) || row.slackMessageTs != initial.slackMessageTs
        || (← perform .aborted) then pure none
    else
      let title ← perform .title
      if title.isEmpty || title == displayed then pure (some displayed)
      else match ← perform (.claim row) with
        | none => pure (some displayed)
        | some token => showTitle token title

/-- The rounds of a subscription that lasts for this many at most. -/
def watch (initial : Projection) : ℕ → Text → ℕ → PreviewProgram Unit
  | 0, _, _ => pure ()
  | rounds + 1, displayed, updates => do
    if (← perform .aborted) || updates ≥ 40 then pure ()
    else match ← round initial displayed with
      | none => pure ()
      | some shown =>
        watch initial rounds shown (if shown == displayed then updates else updates + 1)

/-- `observe`. -/
def observe (rounds : ℕ) : PreviewProgram Unit :=
  tryCatch
    (do
      match ← perform .read with
      | none => pure ()
      | some initial =>
        if !(← perform (.usable initial)) || (← perform .aborted) then pure ()
        else watch initial rounds "" 0)
    fun _ => pure ()

end Preview

/-! ### The system -/

/-- A call of either side. -/
inductive AnyCall
  | canonical (c : Call)
  | preview (c : PreviewCall)

@[reducible] def AnyCall.Reply : AnyCall → Type
  | canonical c => c.Reply
  | preview c => c.Reply

/-- One call, with the row before and after it. -/
structure Write where
  actor : Actor
  call : AnyCall
  committed : Bool
  now : Time
  before : Option ProjectionRow
  after : Option ProjectionRow

structure Shared where
  row : Option ProjectionRow := none
  now : Time := 0
  /-- The next fresh token or stamp. -/
  uuid : ℕ := 0
  /-- The state the control plane shows the task in. -/
  state : A2aState := .submitted
  bound : Bool := true
  log : List Write := []

/-- What a statement answers and makes of the row; nothing for the other calls. -/
def AnyCall.run (w : Shared) : (c : AnyCall) → Option (c.Reply × Option ProjectionRow)
  | canonical c => c.run { row := w.row, now := w.now, uuid := w.uuid }
  | preview .read => some (readProjection w.bound w.row, w.row)
  | preview (.claim row) => some (claimPreview w.uuid w.now w.bound row.slackMessageTs w.row)
  | preview (.release token) => some (releasePreview token w.row)
  | preview _ => none

/-- The world with a call noted and the row it left. -/
def Shared.note (w : Shared) (a : Actor) (c : AnyCall) (committed : Bool)
    (row : Option ProjectionRow) : Shared :=
  { w with
    row := row
    uuid := w.uuid + 1
    log := ⟨a, c, committed, w.now, w.row, row⟩ :: w.log }

/-- A statement is answered, committed with its reply lost, or not done; a message is stamped
afresh; anything else is answered at will. -/
inductive Shared.Answers (w : Shared) : (c : AnyCall) → Except Text c.Reply → Bool →
    Option ProjectionRow → Prop
  | done {c v row} (h : c.run w = some (v, row)) : Shared.Answers w c (.ok v) true row
  | unacknowledged {c v row} (h : c.run w = some (v, row)) (e : Text) :
    Shared.Answers w c (.error e) true row
  | failed {c} (e : Text) : Shared.Answers w c (.error e) false w.row
  | task {t : Task} (h : t.state = w.state) :
    Shared.Answers w (.canonical .getTask) (.ok t) false w.row
  | stream : Shared.Answers w (.canonical .startStream) (.ok w.uuid) false w.row
  | reply : Shared.Answers w (.canonical .postReply) (.ok w.uuid) false w.row
  | other {c v} (h : c.run w = none) (hc : c ≠ .canonical .getTask)
    (hstream : c ≠ .canonical .startStream) (hreply : c ≠ .canonical .postReply) :
    Shared.Answers w c (.ok v) false w.row

/-- In between the clock moves on, the task until it ends, and the binding may change. -/
def sharedEnvironment : Environment AnyCall AnyCall.Reply Text Shared where
  exec w a c r w' := ∃ committed row, w.Answers c r committed row ∧ w' = w.note a c committed row
  drift w w' := ∃ now state bound, w.now ≤ now ∧ (terminal w.state = true → state = w.state) ∧
    w' = { w with now := now, state := state, bound := bound }

/-- Projectors, and previews that watch for any number of rounds. -/
inductive SharedJob : Prog AnyCall AnyCall.Reply Text Unit → Prop
  | projector {p} (hp : Job p) : SharedJob (p.embed .canonical fun _ r => r)
  | preview (rounds) : SharedJob ((Preview.observe rounds).embed .preview fun _ r => r)

/-- Ingress makes the row before any projector runs. -/
inductive SharedOutside : AnyCall → Prop
  | ensureProjection (requestEventId sourceMessageTs initiatorUserId) :
    SharedOutside (.canonical (.ensureProjection requestEventId sourceMessageTs initiatorUserId))

abbrev SharedSystem := Pool AnyCall AnyCall.Reply Text Shared

abbrev SharedReachable : SharedSystem → Prop :=
  Pool.Reachable sharedEnvironment SharedJob SharedOutside {}

/-! ### What a call does to the row -/

/-- The row but for who has it. -/
def ProjectionRow.content (r : ProjectionRow) : ProjectionRow :=
  { r with status := .pending, claimId := none, leaseExpiresAt := none }

/-- What a statement does to a row that is there. -/
inductive Change (w : Shared) (r : ProjectionRow) : AnyCall → ProjectionRow → Prop
  | same {c} : Change w r c r
  | ensured {requestEventId sourceMessageTs initiatorUserId requestEventId' sourceMessageTs'
      initiatorUserId'} :
    Change w r (.canonical (.ensureProjection requestEventId sourceMessageTs initiatorUserId))
      { r with
        requestEventId := requestEventId'
        sourceMessageTs := sourceMessageTs'
        initiatorUserId := initiatorUserId' }
  | claimed (hfree : r.claimable w.now = true) : Change w r (.canonical .claimTaskStream)
      { r with
        status := .streaming
        claimId := some w.uuid
        leaseExpiresAt := some (w.now + streamLeaseSeconds)
        attempts := r.attempts + 1
        updatedAt := w.now }
  | written {token messageTs} (hheld : r.claimId = some token) :
    Change w r (.canonical (.updateStreamMessage token messageTs))
      { r with slackMessageTs := some messageTs, updatedAt := w.now }
  | finished {token fallback state error status error'} {messageTs : Option MessageTs}
    (hheld : r.claimId = some token) (hts : messageTs = none ∨ messageTs = r.slackMessageTs) :
    Change w r (.canonical (.finishStream token fallback state error))
      { r with
        status := status
        lastTaskState := state
        slackMessageTs := messageTs
        lastError := error'
        claimId := none
        leaseExpiresAt := none
        updatedAt := w.now }
  | marked {state status} {messageTs : Option MessageTs} (hfree : r.claimable w.now = true)
    (hts : messageTs = none ∨ messageTs = r.slackMessageTs) :
    Change w r (.canonical (.markProjection state status))
      { r with
        lastTaskState := some state
        status := status
        slackMessageTs := messageTs
        updatedAt := w.now }
  | lent {row} (hfree : r.lendable row.slackMessageTs = true) :
    Change w r (.preview (.claim row))
      { r with
        status := .streaming
        claimId := some w.uuid
        leaseExpiresAt := some (w.now + previewLeaseSeconds) }
  | released {token} (hheld : r.status = .streaming ∧ r.claimId = some token) :
    Change w r (.preview (.release token))
      { r with status := .pending, claimId := none, leaseExpiresAt := none }

/-- A row that ingress makes has nothing yet. -/
structure ProjectionRow.New (r : ProjectionRow) : Prop where
  status : r.status = .pending
  claimId : r.claimId = none
  leaseExpiresAt : r.leaseExpiresAt = none
  slackMessageTs : r.slackMessageTs = none

section

variable {w : Shared} {c : AnyCall} {r : ProjectionRow} {row : Option ProjectionRow}

/-- **Every statement.** On a row that is there it does one of these; a new row is empty. -/
lemma change {v : c.Reply} (h : c.run w = some (v, row)) :
    (∀ r, w.row = some r → ∃ r', row = some r' ∧ Change w r c r') ∧
      (w.row = none → (∀ r', row = some r' → r'.New) ∧ ∀ q, c = .preview q → row = none) := by
  cases c with
  | canonical c =>
    cases c with
    | ensureProjection requestEventId sourceMessageTs initiatorUserId =>
      cases h
      refine ⟨fun r hr => ?_, fun hnone => ⟨fun r' hr' => ?_, nofun⟩⟩
      · rw [hr]
        exact ⟨_, rfl, .ensured⟩
      · rw [hnone] at hr'
        cases hr'
        exact ⟨rfl, rfl, rfl, rfl⟩
    | claimTaskStream =>
      have hpair : claimTaskStream w.uuid w.now w.row = (v, row) := Option.some.inj h
      have hrow : row = (claimTaskStream w.uuid w.now w.row).2 := by rw [hpair]
      subst hrow
      refine ⟨fun r hr => ?_, fun hnone => ⟨by simp [hnone, claimTaskStream], nofun⟩⟩
      rw [hr]
      cases hfree : r.claimable w.now with
      | true => exact ⟨_, by simp [claimTaskStream, hfree], .claimed hfree⟩
      | false => exact ⟨_, by simp [claimTaskStream, hfree], .same⟩
    | updateStreamMessage token messageTs =>
      cases h
      refine ⟨fun r hr => ?_, fun hnone => ⟨by simp [hnone, updateStreamMessage], nofun⟩⟩
      rw [hr]
      by_cases hheld : r.claimId = some token
      · exact ⟨_, by simp [updateStreamMessage, hheld], .written hheld⟩
      · exact ⟨_, by simp [updateStreamMessage, hheld], .same⟩
    | finishStream token fallback state error =>
      cases h
      refine ⟨fun r hr => ?_, fun hnone => ⟨by simp [hnone, finishStream], nofun⟩⟩
      rw [hr]
      by_cases hheld : r.claimId = some token
      · refine ⟨_, by simp only [finishStream, hheld, Option.map_some, BEq.rfl, if_true]; rfl,
          .finished hheld ?_⟩
        split
        · exact .inl rfl
        · exact .inr rfl
      · exact ⟨_, by simp [finishStream, hheld], .same⟩
    | markProjection state status =>
      cases h
      refine ⟨fun r hr => ?_, fun hnone => ⟨by simp [hnone, markProjection], nofun⟩⟩
      rw [hr]
      cases hfree : r.claimable w.now with
      | true =>
        refine ⟨_, by simp only [markProjection, hfree, Option.map_some, if_true]; rfl,
          .marked hfree ?_⟩
        split
        · exact .inl rfl
        · exact .inr rfl
      | false => exact ⟨_, by simp [markProjection, hfree], .same⟩
    | _ => cases h
  | preview c =>
    cases c with
    | read =>
      cases h
      exact ⟨fun r hr => ⟨r, hr, .same⟩, fun hnone => ⟨by simp [hnone], fun _ _ => hnone⟩⟩
    | claim asked =>
      have hpair : claimPreview w.uuid w.now w.bound asked.slackMessageTs w.row = (v, row) :=
        Option.some.inj h
      have hrow : row = (claimPreview w.uuid w.now w.bound asked.slackMessageTs w.row).2 := by
        rw [hpair]
      subst hrow
      refine ⟨fun r hr => ?_, fun hnone => ⟨by simp [hnone, claimPreview], fun _ _ => by
        simp [hnone, claimPreview]⟩⟩
      rw [hr]
      cases hfree : w.bound && r.lendable asked.slackMessageTs with
      | true =>
        refine ⟨_, by simp only [claimPreview, hfree, if_true], .lent ?_⟩
        exact ((Bool.and_eq_true _ _).mp hfree).2
      | false => exact ⟨_, by simp only [claimPreview, hfree, Bool.false_eq_true, if_false], .same⟩
    | release token =>
      have hpair : releasePreview token w.row = (v, row) := Option.some.inj h
      have hrow : row = (releasePreview token w.row).2 := by rw [hpair]
      subst hrow
      refine ⟨fun r hr => ?_, fun hnone => ⟨by simp [hnone, releasePreview], fun _ _ => by
        simp [hnone, releasePreview]⟩⟩
      rw [hr]
      by_cases hheld : r.status = .streaming ∧ r.claimId = some token
      · exact ⟨_, by simp [releasePreview, hheld.1, hheld.2], .released hheld⟩
      · exact ⟨_, by simp [releasePreview, hheld], .same⟩
    | _ => cases h

end

/-- What a call may do to the row, committed or not. -/
structure Moves (w : Shared) (c : AnyCall) (committed : Bool) (row : Option ProjectionRow) :
    Prop where
  there : ∀ r, w.row = some r → ∃ r', row = some r' ∧ Change w r c r'
  made : w.row = none → ∀ r', row = some r' → r'.New
  spared : w.row = none → ∀ q, c = .preview q → row = none
  idle : committed = false → row = w.row
  ran : committed = true → ∃ v, c.run w = some (v, row)

lemma Shared.Answers.moves {w : Shared} {c : AnyCall} {r : Except Text c.Reply} {committed : Bool}
    {row : Option ProjectionRow} (h : w.Answers c r committed row) : Moves w c committed row := by
  have hidle : Moves w c false w.row :=
    ⟨fun r hr => ⟨r, hr, .same⟩, fun hnone r' hr' => by simp [hnone] at hr',
      fun hnone _ _ => hnone, fun _ => rfl, nofun⟩
  have hrun : ∀ {v row}, c.run w = some (v, row) → Moves w c true row := fun h =>
    ⟨(change h).1, fun hnone => ((change h).2 hnone).1, fun hnone => ((change h).2 hnone).2, nofun,
      fun _ => ⟨_, h⟩⟩
  cases h with
  | done h | unacknowledged h => exact hrun h
  | failed | task | stream | reply | other => exact hidle

lemma moves {w w' : Shared} {a : Actor} {c : AnyCall} {r : Except Text c.Reply}
    (h : sharedEnvironment.exec w a c r w') :
    ∃ committed row, w' = w.note a c committed row ∧ Moves w c committed row := by
  obtain ⟨committed, row, h, rfl⟩ := h
  exact ⟨committed, row, rfl, h.moves⟩

/-! ### One token -/

/-- The call gave somebody this claim, up to the deadline. -/
def Write.Grants (e : Write) (token : Token) (deadline : Time) : Prop :=
  e.before.bind (·.claimId) ≠ some token ∧
    ∃ r, e.after = some r ∧ r.claimId = some token ∧ r.leaseExpiresAt = some deadline

/-- The token whose claim the call gives back. -/
def AnyCall.returns : AnyCall → Option Token
  | canonical (.finishStream token _ _ _) => some token
  | preview (.release token) => some token
  | _ => none

/-- The claim was given, and was neither given back nor is its lease over. -/
def Shared.Unexpired (w : Shared) (token : Token) : Prop :=
  ∃ later e earlier deadline, w.log = later ++ e :: earlier ∧ e.Grants token deadline ∧
    w.now < deadline ∧ ∀ x ∈ later, x.committed = true → x.call.returns ≠ some token

/-- The row is the token's until the deadline. -/
def Shared.Holds (w : Shared) (token : Token) (deadline : Time) : Prop :=
  deadline ≤ w.now ∨ ∃ r, w.row = some r ∧ r.status = .streaming ∧ r.claimId = some token ∧
    r.leaseExpiresAt = some deadline

section

variable {w : Shared} {a : Actor} {c : AnyCall} {committed : Bool} {row : Option ProjectionRow}
  {token : Token} {deadline : Time}

/-- Only who has the row gives it away while the lease runs. -/
lemma Shared.Holds.exec (h : w.Holds token deadline) (hmoves : Moves w c committed row)
    (hreturns : committed = true → c.returns ≠ some token) :
    (w.note a c committed row).Holds token deadline := by
  rcases h with h | ⟨r, hr, hstatus, hclaim, hlease⟩
  · exact .inl h
  by_cases hover : deadline ≤ w.now
  · exact .inl hover
  have hbusy : r.claimable w.now = false := by
    simp [ProjectionRow.claimable, hstatus, hlease, hover]
  cases committed with
  | false => exact .inr ⟨r, (hmoves.idle rfl).trans hr, hstatus, hclaim, hlease⟩
  | true =>
    obtain ⟨r', hr', hchange⟩ := hmoves.there r hr
    refine .inr ⟨r', hr', ?_⟩
    cases hchange with
    | same | ensured | written => exact ⟨hstatus, hclaim, hlease⟩
    | claimed hfree | marked hfree =>
      rw [hbusy] at hfree
      cases hfree
    | lent hfree => simp [ProjectionRow.lendable, hstatus] at hfree
    | finished hheld => exact absurd (hheld.symm.trans hclaim) (hreturns rfl)
    | released hheld => exact absurd (hheld.2.symm.trans hclaim) (hreturns rfl)

/-- A claim that was just given. -/
lemma holds_granted (hmoves : Moves w c committed row)
    (h : Write.Grants ⟨a, c, committed, w.now, w.row, row⟩ token deadline) :
    (w.note a c committed row).Holds token deadline := by
  obtain ⟨hnew, r', hr', hclaim, hlease⟩ := h
  refine .inr ⟨r', hr', ?_, hclaim, hlease⟩
  dsimp only at hnew hr'
  cases hrow : w.row with
  | none =>
    have hempty := hmoves.made hrow r' hr'
    rw [hempty.claimId] at hclaim
    cases hclaim
  | some r =>
    obtain ⟨r'', hr'', hchange⟩ := hmoves.there r hrow
    have hsame : r'' = r' := Option.some.inj (hr''.symm.trans hr')
    subst hsame
    rw [hrow] at hnew
    cases hchange with
    | claimed | lent => rfl
    | same | ensured | written | marked => exact absurd hclaim hnew
    | finished | released => cases hclaim

/-- Every claim that was given is the row's, while it runs and is not given back. -/
def Shared.Honest (w : Shared) : Prop :=
  ∀ later e earlier token deadline, w.log = later ++ e :: earlier → e.Grants token deadline →
    (∀ x ∈ later, x.committed = true → x.call.returns ≠ some token) → w.Holds token deadline

lemma Shared.Honest.exec {w' : Shared} {r : Except Text c.Reply} (h : w.Honest)
    (hexec : sharedEnvironment.exec w a c r w') : w'.Honest := by
  obtain ⟨committed, row, rfl, hmoves⟩ := moves hexec
  intro later e earlier token deadline hlog hgrants hkept
  rcases List.cons_eq_append_iff.mp hlog with ⟨rfl, hnow⟩ | ⟨later', rfl, hbefore⟩
  · cases hnow
    exact holds_granted hmoves hgrants
  · obtain ⟨hhead, hrest⟩ := List.forall_mem_cons.mp hkept
    exact (h later' e earlier token deadline hbefore hgrants hrest).exec hmoves hhead

lemma honest_reachable {s : SharedSystem} (hs : SharedReachable s) : s.world.Honest := by
  refine Pool.Reachable.world (P := Shared.Honest) (by simp [Shared.Honest])
    (fun h hexec => h.exec hexec) ?_ hs
  rintro w w' h ⟨now, state, bound, hnow, -, rfl⟩ later e earlier token deadline hlog hgrants hkept
  exact (h later e earlier token deadline hlog hgrants hkept).imp_left fun hover =>
    le_trans hover hnow

lemma unexpired_unique {s : SharedSystem} (hs : SharedReachable s) {token token' : Token}
    (h : s.world.Unexpired token) (h' : s.world.Unexpired token') : token = token' := by
  have hheld : ∀ {token}, s.world.Unexpired token → ∃ r, s.world.row = some r ∧
      r.claimId = some token := by
    rintro token ⟨later, e, earlier, deadline, hlog, hgrants, hrunning, hkept⟩
    rcases honest_reachable hs later e earlier token deadline hlog hgrants hkept with
      hover | ⟨r, hr, -, hclaim, -⟩
    · exact absurd hrunning (Nat.not_lt.mpr hover)
    · exact ⟨r, hr, hclaim⟩
  obtain ⟨r, hr, hclaim⟩ := hheld h
  obtain ⟨r', hr', hclaim'⟩ := hheld h'
  rw [hr, Option.some.injEq] at hr'
  subst hr'
  exact Option.some.inj (hclaim.symm.trans hclaim')

end

/-! ### What a preview leaves alone -/

/-- A preview changes nothing but who has the row. -/
lemma preview_content {w : Shared} {c : PreviewCall} {committed : Bool}
    {row : Option ProjectionRow} (hmoves : Moves w (.preview c) committed row) :
    row.map (·.content) = w.row.map (·.content) := by
  cases hrow : w.row with
  | none => rw [hmoves.spared hrow c rfl]
  | some r =>
    obtain ⟨r', rfl, hchange⟩ := hmoves.there r hrow
    cases hchange <;> rfl

/-- The entries follow one another, each as its call may, and no row has a lease without a claim. -/
structure Shared.Sane (w : Shared) : Prop where
  moved : ∀ e ∈ w.log, ∃ w₀ : Shared, w₀.row = e.before ∧ Moves w₀ e.call e.committed e.after
  chained : ∀ later e e' earlier, w.log = later ++ e :: e' :: earlier → e.before = e'.after
  last : ∀ e earlier, w.log = e :: earlier → w.row = e.after
  leased : ∀ r, w.row = some r → (r.claimId = none ↔ r.leaseExpiresAt = none)
  before : ∀ e ∈ w.log, ∀ r, e.before = some r → (r.claimId = none ↔ r.leaseExpiresAt = none)

lemma Moves.leased {w : Shared} {c : AnyCall} {committed : Bool} {row : Option ProjectionRow}
    (h : Moves w c committed row)
    (hleased : ∀ r, w.row = some r → (r.claimId = none ↔ r.leaseExpiresAt = none)) :
    ∀ r, row = some r → (r.claimId = none ↔ r.leaseExpiresAt = none) := by
  intro r' hr'
  cases hrow : w.row with
  | none =>
    have hempty := h.made hrow r' hr'
    simp [hempty.claimId, hempty.leaseExpiresAt]
  | some r =>
    obtain ⟨r'', hr'', hchange⟩ := h.there r hrow
    have hsame : r'' = r' := Option.some.inj (hr''.symm.trans hr')
    subst hsame
    cases hchange with
    | same | ensured | written | marked => exact hleased r hrow
    | claimed | lent | finished | released => simp

lemma sane_reachable {s : SharedSystem} (hs : SharedReachable s) : s.world.Sane := by
  refine Pool.Reachable.world (P := Shared.Sane)
    ⟨by simp, by simp, by simp, by simp, by simp⟩ ?_ ?_ hs
  · intro w a c r w' h hexec
    obtain ⟨committed, row, rfl, hmoves⟩ := moves hexec
    refine ⟨List.forall_mem_cons.mpr ⟨⟨w, rfl, hmoves⟩, h.moved⟩, ?_, ?_, hmoves.leased h.leased,
      List.forall_mem_cons.mpr ⟨h.leased, h.before⟩⟩
    · intro later e e' earlier hlog
      rcases List.cons_eq_append_iff.mp hlog with ⟨rfl, hnow⟩ | ⟨later', rfl, hbefore⟩
      · obtain ⟨rfl, hrest⟩ := List.cons.inj hnow
        exact h.last e' earlier hrest.symm
      · exact h.chained later' e e' earlier hbefore
    · rintro e earlier hlog
      cases hlog
      rfl
  · rintro w w' h ⟨now, state, bound, -, -, rfl⟩
    exact ⟨h.moved, h.chained, h.last, h.leased, h.before⟩

/-- Entries that change nothing hand the row on. -/
lemma Shared.Sane.across {w : Shared} (h : w.Sane) {later between earlier : List Write}
    {e e' : Write}
    (hlog : w.log = later ++ e :: (between ++ e' :: earlier))
    (hquiet : ∀ x ∈ between, x.after = x.before) : e.before = e'.after := by
  induction between generalizing later e with
  | nil => exact h.chained later e e' earlier hlog
  | cons x rest ih =>
    obtain ⟨hx, hrest⟩ := List.forall_mem_cons.mp hquiet
    have hnext := h.chained later e x (rest ++ e' :: earlier) hlog
    rw [hnext, hx]
    have hlog' : w.log = (later ++ [e]) ++ x :: (rest ++ e' :: earlier) := by simpa using hlog
    exact ih hlog' hrest

/-- A claim that is given back before anything else changes the row leaves it as it was. -/
lemma Shared.Sane.restored {w : Shared} (h : w.Sane) {later between earlier : List Write}
    {claimed released : Write} {asked : Projection} {token : Token} {deadline : Time}
    (hlog : w.log = later ++ released :: (between ++ claimed :: earlier))
    (hcall : claimed.call = .preview (.claim asked)) (hgrants : claimed.Grants token deadline)
    (hquiet : ∀ x ∈ between, x.after = x.before)
    (hback : released.call = .preview (.release token)) (hdone : released.committed = true) :
    released.after = claimed.before := by
  obtain ⟨hnew, r', hr', hclaim, -⟩ := hgrants
  have hbefore := (h.across hlog hquiet).trans hr'
  obtain ⟨w₀, hrow₀, hmoves⟩ := h.moved claimed (by rw [hlog]; simp)
  rw [hcall] at hmoves
  cases hrow : claimed.before with
  | none =>
    rw [hmoves.spared (hrow₀.trans hrow) _ rfl] at hr'
    cases hr'
  | some r =>
    have hleased := h.before claimed (by rw [hlog]; simp) r hrow
    obtain ⟨r'', hr'', hchange⟩ := hmoves.there r (hrow₀.trans hrow)
    have hsame : r'' = r' := Option.some.inj (hr''.symm.trans hr')
    subst hsame
    cases hchange with
    | same => exact absurd (by rw [hrow]; exact hclaim) hnew
    | lent hfree =>
      simp only [ProjectionRow.lendable, Bool.and_eq_true, beq_iff_eq,
        Option.isNone_iff_eq_none] at hfree
      obtain ⟨⟨⟨hstatus, hnone⟩, -⟩, -⟩ := hfree
      obtain ⟨w₁, hrow₁, hmoves₁⟩ := h.moved released (by rw [hlog]; simp)
      rw [hback] at hmoves₁
      obtain ⟨v, hran⟩ := hmoves₁.ran hdone
      have hpair := Option.some.inj hran
      have hafter : released.after = (releasePreview token w₁.row).2 := by rw [hpair]
      have htoken : w₀.uuid = token := Option.some.inj hclaim
      subst htoken
      rw [hafter, hrow₁.trans hbefore]
      simp only [releasePreview, BEq.rfl, Bool.and_self, if_true]
      obtain ⟨_, _, _, status, _, _, _, claimId, leaseExpiresAt, _⟩ := r
      dsimp only at hstatus hnone hleased
      rw [hstatus, hnone, hleased.mp hnone]

/-! ### The stamps that projectors write -/

/-- Who knows a stamp was just given it by Slack, and writes it next if at all. -/
def streamContract : Contract Call Call.Reply Text (Option MessageTs) where
  possible _ _ _ := True
  allowed k c := ∀ token messageTs, c = .updateStreamMessage token messageTs → k = some messageTs
  learn _ c r :=
    match c, r with
    | .startStream, .ok messageTs => some messageTs
    | _, _ => none

/-- The same, beside previews, who write no stamps. -/
def stampContract : Contract AnyCall AnyCall.Reply Text (Option MessageTs) where
  possible _ _ _ := True
  allowed k c := ∀ c', c = .canonical c' → streamContract.allowed k c'
  learn k c r :=
    match c with
    | .canonical c => streamContract.learn k c r
    | .preview _ => none

section

variable {α : Type} {k : Option MessageTs}

/-- A program that keeps to the contract, whatever it is told. -/
abbrev Stamps (p : Program α) : Prop :=
  ∀ k, streamContract.Conforms p (fun _ _ => True) (fun _ => True) k

/-- A call that writes no stamp. -/
def Unstamped (c : Call) : Prop := ∀ token messageTs, c ≠ .updateStreamMessage token messageTs

lemma stamps_unstamped {p : Program α} (h : p.Every Unstamped) : Stamps p := fun _ =>
  h.conforms (I := fun _ => True) trivial (fun _ hc token ts heq => absurd heq (hc token ts))
    fun _ _ _ => trivial

lemma Stamps.bind {β : Type} {p : Program α} {f : α → Program β} (hp : Stamps p)
    (hf : ∀ a, Stamps (f a)) : Stamps (p >>= f) := fun k =>
  (hp k).bind fun a k' _ => hf a k'

lemma Stamps.tryCatch {p : Program α} {handler : Text → Program α} (hp : Stamps p)
    (hh : ∀ e, Stamps (handler e)) : Stamps (tryCatch p handler) := fun k =>
  (hp k).tryCatch fun e k' _ => hh e k'

lemma unstamped_postItem {item : Item} {token : Token} {post : Program MessageTs}
    (h : post.Every Unstamped) : (postItem item token post).Every Unstamped :=
  .tryCatch (.bind h fun _ => Prog.every_perform nofun) fun _ =>
    .bind (Prog.every_perform nofun) fun _ => .throw

lemma unstamped_projectItem {item : Item} {busy : Text} {post : Token → Program Unit}
    (h : ∀ token, (post token).Every Unstamped) : (projectItem item busy post).Every Unstamped := by
  refine .bind (Prog.every_perform nofun) fun claim => ?_
  cases claim with
  | busy => exact .throw
  | completed => exact .pure
  | acquired token => exact h token

lemma unstamped_projectMessage {streamTs : Option MessageTs} {message : AgentMessage} :
    (projectMessage streamTs message).Every Unstamped := by
  refine unstamped_projectItem fun token => ?_
  split
  · exact Prog.every_perform nofun
  · refine unstamped_postItem ?_
    cases streamTs with
    | none => exact Prog.every_perform nofun
    | some ts => exact .bind (Prog.every_perform nofun) fun _ => .pure

lemma unstamped_closeSettled {pending : List HumanRequest} {requestId : Controller.RequestId} :
    (closeSettled pending requestId).Every Unstamped := by
  unfold closeSettled
  split
  · exact .pure
  · exact .bind (Prog.every_perform nofun) fun _ => .bind (Prog.every_perform nofun) fun _ => .pure

lemma unstamped_projectTask {streamTs : Option MessageTs} {task : Task} :
    (projectTask streamTs task).Every Unstamped := by
  have hmessages : ∀ m, (do projectMessage streamTs m; pure (none : Option Unit)).Every Unstamped :=
    fun m => unstamped_projectMessage.bind fun _ => .pure
  have hrequests : ∀ r, (do projectHumanInput r; pure (none : Option Unit)).Every Unstamped :=
    fun r => .bind (unstamped_projectItem fun token =>
      unstamped_postItem (Prog.every_perform nofun)) fun _ => .pure
  refine .bind (Contract.conforms_loop trivial fun m _ _ _ => hmessages m) fun _ => ?_
  refine .bind (Contract.conforms_loop trivial fun r _ _ _ => hrequests r) fun _ => ?_
  refine .bind (Prog.every_perform nofun) fun posted => ?_
  refine .bind (Contract.conforms_loop trivial fun id _ _ _ => unstamped_closeSettled) fun _ => ?_
  refine .bind ?_ fun _ => Prog.every_perform nofun
  unfold showStatus
  split
  · exact .bind (Prog.every_perform nofun) fun _ => Prog.every_perform nofun
  · exact Prog.every_perform nofun

lemma stamps_giveUp {token : Token} {state : Option A2aState} {e : Text} :
    Stamps (giveUp token state e : Program α) :=
  stamps_unstamped (.bind (Prog.every_perform nofun) fun _ => .throw)

lemma stamps_startStream {token : Token} : Stamps (startStream token) := by
  refine .tryCatch (fun k => ?_) fun _ => stamps_unstamped .pure
  refine Contract.Conforms.bind (Q := fun ts k' => k' = some ts)
    (Contract.conforms_perform nofun (fun _ _ => rfl) fun _ _ => trivial) ?_
  rintro ts k' rfl
  have hwrite : streamContract.allowed (some ts) (.updateStreamMessage token ts) := by
    rintro token' ts' heq
    cases heq
    rfl
  exact Contract.Conforms.bind (Q := fun _ _ => True)
    (Contract.conforms_perform hwrite (fun _ _ => trivial) fun _ _ => trivial)
    fun _ _ _ => Contract.conforms_pure trivial

lemma stamps_openStream {projection : ProjectionRow} {token : Token} :
    Stamps (openStream projection token) := by
  unfold openStream
  split
  · refine Stamps.bind (stamps_unstamped (Prog.every_perform nofun)) fun receipt => ?_
    cases receipt with
    | true => exact stamps_unstamped .pure
    | false => exact stamps_startStream
  · exact stamps_unstamped .pure

lemma stamps_job {p : Program Unit} (h : Job p) : Stamps p := by
  obtain ⟨requestEventId, sourceMessageTs, initiatorUserId, previewEnabled, rfl⟩ := h
  refine Stamps.bind (stamps_unstamped (Prog.every_perform nofun)) fun _ => ?_
  refine Stamps.bind (stamps_unstamped (Prog.every_perform nofun)) fun claim => ?_
  cases claim with
  | busy | completed => exact stamps_unstamped .throw
  | acquired token projection =>
    refine Stamps.bind (.tryCatch (stamps_unstamped (Prog.every_perform nofun)) fun _ =>
      stamps_giveUp) fun task => ?_
    refine Stamps.bind (.tryCatch ?_ fun _ => stamps_giveUp) fun newStream => ?_
    · refine stamps_openStream.bind fun streams => ?_
      refine Stamps.bind (stamps_unstamped unstamped_projectTask) fun _ => ?_
      exact stamps_unstamped (.bind (Prog.every_perform nofun) fun _ => .pure)
    · unfold hintPreview
      split
      · exact stamps_unstamped (.tryCatch (Prog.every_perform nofun) fun _ => .pure)
      · exact stamps_unstamped .pure

lemma stamps_preview (p : PreviewProgram α) (k : Option MessageTs) :
    stampContract.Conforms (p.embed .preview fun _ r => r) (fun _ _ => True) (fun _ => True) k := by
  induction p generalizing k with
  | ret | raise => trivial
  | call c next ih => exact ⟨nofun, fun r _ => ih r _⟩

lemma stamps_sharedJob {p : Prog AnyCall AnyCall.Reply Text Unit} (h : SharedJob p) :
    stampContract.Conforms p (fun _ _ => True) (fun _ => True) none := by
  cases h with
  | projector hp =>
    exact (stamps_job hp none).embed (fun hallowed c heq => by cases heq; exact hallowed)
      (fun _ => trivial) rfl
  | preview rounds => exact stamps_preview _ _

end

/-! ### A stamp that is cleared -/

def stampOf (row : Option ProjectionRow) : Option MessageTs := row.bind (·.slackMessageTs)

/-- Some row had the stamp. -/
def Shared.Shown (w : Shared) (ts : MessageTs) : Prop :=
  stampOf w.row = some ts ∨ ∃ e ∈ w.log, stampOf e.before = some ts ∨ stampOf e.after = some ts

/-- The call takes the stamp out of the row. -/
def Write.Clears (e : Write) (ts : MessageTs) : Prop :=
  stampOf e.before = some ts ∧ stampOf e.after ≠ some ts

/-- What is known of the stamps: one that a projector was just given is its own, and was in no row
yet; one that was cleared does not come back. -/
structure Stamped (w : Shared) (knows : ℕ → Option (Option MessageTs)) : Prop where
  old : ∀ ts, w.Shown ts → ts < w.uuid
  given : ∀ i ts, knows i = some (some ts) → ts < w.uuid ∧ ¬ w.Shown ts
  single : ∀ i j ts, knows i = some (some ts) → knows j = some (some ts) → i = j
  gone : ∀ later e earlier ts, w.log = later ++ e :: earlier → e.Clears ts →
    stampOf w.row ≠ some ts ∧ ∀ x ∈ later, stampOf x.before ≠ some ts

section

variable {w w' : Shared} {a : Actor} {c : AnyCall} {committed : Bool} {row : Option ProjectionRow}
  {knows : ℕ → Option (Option MessageTs)} {k : Option MessageTs} {ts : MessageTs} {i : ℕ}

/-- Only one statement puts a stamp into the row. -/
lemma Moves.stamp (h : Moves w c committed row) (hts : stampOf row = some ts) :
    stampOf w.row = some ts ∨ ∃ token, c = .canonical (.updateStreamMessage token ts) := by
  obtain ⟨r', rfl, hr'⟩ := Option.bind_eq_some_iff.mp hts
  cases hrow : w.row with
  | none =>
    rw [(h.made hrow r' rfl).slackMessageTs] at hr'
    cases hr'
  | some r =>
    obtain ⟨r'', hr'', hchange⟩ := h.there r hrow
    have hsame : r'' = r' := Option.some.inj hr''.symm
    subst hsame
    cases hchange with
    | same | ensured | claimed | lent | released => exact .inl hr'
    | @written token messageTs hheld =>
      cases hr'
      exact .inr ⟨token, rfl⟩
    | finished _ hkept | marked _ hkept =>
      dsimp only at hr'
      subst hr'
      rcases hkept with hkept | hkept
      · cases hkept
      · exact .inl hkept.symm

lemma shown_note (h : Moves w c committed row) (hshown : (w.note a c committed row).Shown ts) :
    w.Shown ts ∨ ∃ token, c = .canonical (.updateStreamMessage token ts) := by
  rcases hshown with hrow | ⟨e, he, hts⟩
  · exact (h.stamp hrow).imp_left .inl
  rcases List.mem_cons.mp he with rfl | he
  · rcases hts with hbefore | hafter
    · exact .inl (.inl hbefore)
    · exact (h.stamp hafter).imp_left .inl
  · exact .inl (.inr ⟨e, he, hts⟩)

/-- Slack stamps a stream afresh. -/
lemma learn_fresh {r : Except Text c.Reply} (h : w.Answers c r committed row)
    (hlearn : stampContract.learn k c r = some ts) : ts = w.uuid ∧
      ∀ token ts', c ≠ .canonical (.updateStreamMessage token ts') := by
  cases c with
  | preview c => cases hlearn
  | canonical c =>
    cases c with
    | startStream =>
      refine ⟨?_, nofun⟩
      cases h with
      | done h => cases h
      | unacknowledged | failed => cases hlearn
      | stream => exact (Option.some.inj hlearn).symm
      | other _ _ hstream => exact absurd rfl hstream
    | _ => cases hlearn

/-- A call under which nothing cleared comes back. -/
lemma Stamped.gone_note (h : Stamped w knows) (hmoves : Moves w c committed row)
    (hwrites : ∀ token ts, c = .canonical (.updateStreamMessage token ts) → ¬ w.Shown ts) :
    ∀ later e earlier ts, (w.note a c committed row).log = later ++ e :: earlier → e.Clears ts →
      stampOf row ≠ some ts ∧ ∀ x ∈ later, stampOf x.before ≠ some ts := by
  intro later e earlier ts hlog hclears
  rcases List.cons_eq_append_iff.mp hlog with ⟨rfl, hnow⟩ | ⟨later', rfl, hbefore⟩
  · cases hnow
    exact ⟨hclears.2, by simp⟩
  · obtain ⟨hrow, hlater⟩ := h.gone later' e earlier ts hbefore hclears
    refine ⟨fun hts => ?_, List.forall_mem_cons.mpr ⟨hrow, hlater⟩⟩
    rcases hmoves.stamp hts with hold | ⟨token, hwrite⟩
    · exact hrow hold
    · exact hwrites token ts hwrite (.inr ⟨e, by rw [hbefore]; simp, .inl hclears.1⟩)

lemma Stamped.call {r : Except Text c.Reply} (h : Stamped w knows) (hk : knows i = some k)
    (hallow : stampContract.allowed k c) (hanswer : w.Answers c r committed row)
    (hmoves : Moves w c committed row) :
    Stamped (w.note a c committed row)
      (Function.update knows i (some (stampContract.learn k c r))) := by
  -- a stamp that is written was just given to who writes it
  have hwrites : ∀ token ts, c = .canonical (.updateStreamMessage token ts) →
      knows i = some (some ts) := by
    rintro token ts rfl
    rw [hk, hallow _ rfl token ts rfl]
  have hknows : ∀ {j ts}, Function.update knows i (some (stampContract.learn k c r)) j =
      some (some ts) → (j = i ∧ ts = w.uuid ∧
        ∀ token ts', c ≠ .canonical (.updateStreamMessage token ts')) ∨
      (j ≠ i ∧ knows j = some (some ts)) := by
    intro j ts hj
    by_cases hji : j = i
    · subst hji
      rw [Function.update_self, Option.some.injEq] at hj
      exact .inl ⟨rfl, learn_fresh hanswer hj⟩
    · rw [Function.update_of_ne hji] at hj
      exact .inr ⟨hji, hj⟩
  refine ⟨fun ts hshown => ?_, fun j ts hj => ?_, fun j j' ts hj hj' => ?_,
    h.gone_note hmoves fun token ts heq => (h.given i ts (hwrites token ts heq)).2⟩
  · rcases shown_note hmoves hshown with hshown | ⟨token, heq⟩
    · exact Nat.lt_succ_of_lt (h.old ts hshown)
    · exact Nat.lt_succ_of_lt (h.given i ts (hwrites token ts heq)).1
  · rcases hknows hj with ⟨rfl, rfl, hno⟩ | ⟨hji, hj⟩
    · refine ⟨Nat.lt_succ_self _, fun hshown => ?_⟩
      rcases shown_note hmoves hshown with hshown | ⟨token, heq⟩
      · exact absurd (h.old _ hshown) (Nat.lt_irrefl _)
      · exact hno token _ heq
    · refine ⟨Nat.lt_succ_of_lt (h.given j ts hj).1, fun hshown => ?_⟩
      rcases shown_note hmoves hshown with hshown | ⟨token, heq⟩
      · exact (h.given j ts hj).2 hshown
      · exact hji (h.single j i ts hj (hwrites token ts heq))
  · rcases hknows hj with ⟨hji, hts, -⟩ | ⟨-, hheld⟩ <;>
      rcases hknows hj' with ⟨hji', hts', -⟩ | ⟨-, hheld'⟩
    · rw [hji, hji']
    · exact absurd (h.given j' ts hheld').1 (hts ▸ Nat.lt_irrefl _)
    · exact absurd (h.given j ts hheld).1 (hts' ▸ Nat.lt_irrefl _)
    · exact h.single j j' ts hheld hheld'

end

/-- Parties that forget a stamp, or join without one. -/
lemma Stamped.update {w : Shared} {knows : ℕ → Option (Option MessageTs)} (h : Stamped w knows)
    {i : ℕ} {v : Option (Option MessageTs)} (hv : ∀ ts, v ≠ some (some ts)) :
    Stamped w (Function.update knows i v) := by
  have hknows : ∀ {j ts},
      Function.update knows i v j = some (some ts) → knows j = some (some ts) := by
    intro j ts hj
    by_cases hji : j = i
    · rw [hji, Function.update_self] at hj
      exact absurd hj (hv ts)
    · rwa [Function.update_of_ne hji] at hj
  exact ⟨h.old, fun j ts hj => h.given j ts (hknows hj),
    fun j j' ts hj hj' => h.single j j' ts (hknows hj) (hknows hj'), h.gone⟩

lemma Stamped.outside {w : Shared} {knows : ℕ → Option (Option MessageTs)} (h : Stamped w knows)
    {a : Actor} {c : AnyCall} {committed : Bool} {row : Option ProjectionRow} (ho : SharedOutside c)
    (hmoves : Moves w c committed row) : Stamped (w.note a c committed row) knows := by
  have hno : ∀ token ts, c ≠ .canonical (.updateStreamMessage token ts) := by
    cases ho
    exact nofun
  have hshown : ∀ ts, (w.note a c committed row).Shown ts → w.Shown ts := fun ts h =>
    (shown_note hmoves h).resolve_right fun ⟨token, heq⟩ => hno token ts heq
  refine ⟨fun ts h' => Nat.lt_succ_of_lt (h.old ts (hshown ts h')), fun i ts hi => ?_, h.single,
    h.gone_note hmoves fun token ts heq => absurd heq (hno token ts)⟩
  obtain ⟨hlt, hnot⟩ := h.given i ts hi
  exact ⟨Nat.lt_succ_of_lt hlt, fun h' => hnot (hshown ts h')⟩

lemma stamped {s : Parties (Option MessageTs) Shared}
    (hs : Parties.Reachable stampContract sharedEnvironment none SharedOutside {} s) :
    Stamped s.world s.knows := by
  induction hs with
  | init => exact ⟨by simp [Shared.Shown, stampOf], nofun, nofun, by simp⟩
  | @step s _ hs h ih =>
    cases h with
    | join | leave => exact ih.update nofun
    | call hk hallow hexec =>
      obtain ⟨committed, row, hanswer, rfl⟩ := hexec
      exact ih.call hk hallow hanswer hanswer.moves
    | @outside c r _ ho hexec =>
      obtain ⟨committed, row, hanswer, rfl⟩ := hexec
      exact ih.outside ho hanswer.moves
    | drift hd =>
      obtain ⟨now, state, bound, -, -, rfl⟩ := hd
      exact ⟨ih.old, ih.given, ih.single, ih.gone⟩

/-- A claim needs the stamp to be the row's. -/
lemma Moves.spurned {w : Shared} {asked : Projection} {committed : Bool}
    {row : Option ProjectionRow}
    (h : Moves w (.preview (.claim asked)) committed row)
    (hts : stampOf w.row ≠ some asked.slackMessageTs) : row = w.row := by
  cases hrow : w.row with
  | none => exact h.spared hrow _ rfl
  | some r =>
    obtain ⟨r', rfl, hchange⟩ := h.there r hrow
    cases hchange with
    | same => rfl
    | lent hfree =>
      simp only [ProjectionRow.lendable, Bool.and_eq_true, beq_iff_eq] at hfree
      exact absurd (by rw [hrow]; exact hfree.2) hts

/-- **Previews disturb nothing.** At most one claim is unexpired. A preview's call changes nothing
but who has the row, and a claim that is given back before anything else changes the row leaves the
row as it was. Once a stamp is cleared, no preview claims the row for it. -/
theorem previews_undisturbing {s : SharedSystem} (hs : SharedReachable s) :
    (∀ token token', s.world.Unexpired token → s.world.Unexpired token' → token = token') ∧
    (∀ e ∈ s.world.log, ∀ c, e.call = .preview c →
      e.after.map (·.content) = e.before.map (·.content)) ∧
    (∀ later released between claimed earlier asked token deadline,
      s.world.log = later ++ released :: (between ++ claimed :: earlier) →
      claimed.call = .preview (.claim asked) → claimed.Grants token deadline →
      (∀ x ∈ between, x.after = x.before) →
      released.call = .preview (.release token) → released.committed = true →
      released.after = claimed.before) ∧
    ∀ later e earlier ts, s.world.log = later ++ e :: earlier → e.Clears ts →
      ∀ x ∈ later, ∀ asked, x.call = .preview (.claim asked) → asked.slackMessageTs = ts →
        x.after = x.before := by
  have hsane := sane_reachable hs
  refine ⟨fun _ _ => unexpired_unique hs, fun e he c hc => ?_,
    fun _ _ _ _ _ _ _ _ hlog hcall hgrants hquiet hback hdone =>
      hsane.restored hlog hcall hgrants hquiet hback hdone, ?_⟩
  · obtain ⟨w₀, hrow₀, hmoves⟩ := hsane.moved e he
    rw [hc] at hmoves
    rw [← hrow₀]
    exact preview_content hmoves
  · intro later e earlier ts hlog hclears x hx asked hcall hts
    obtain ⟨knows, hknows, -⟩ :=
      Parties.simulates (fun _ hp => stamps_sharedJob hp) (fun _ _ _ _ _ _ _ _ _ _ => trivial) hs
    obtain ⟨w₀, hrow₀, hmoves⟩ := hsane.moved x (by rw [hlog]; simp [hx])
    rw [hcall] at hmoves
    rw [← hrow₀]
    refine hmoves.spurned ?_
    rw [hrow₀, hts]
    exact ((stamped hknows).gone later e earlier ts hlog hclears).2 x hx

/-! ### A draft that is shown -/

/-- What a script's line answers: a statement or a write done, a task, the stamp of a stream, the
posted requests, or what the preview is told. -/
inductive Spoken
  | done | task (t : Task) | stamp | posted (requestIds : List Controller.RequestId)
  | flag (b : Bool)
  | title (t : Text)

def Shared.answer (w : Shared) (a : Actor) :
    (c : AnyCall) → Spoken → Option (Except Text c.Reply × Shared)
  | .canonical .getTask, .task t =>
    if t.state = w.state then some (.ok t, w.note a (.canonical .getTask) false w.row) else none
  | .canonical .startStream, .stamp =>
    some (.ok w.uuid, w.note a (.canonical .startStream) false w.row)
  | .canonical .hasHumanInputReceipt, .flag b =>
    some (.ok b, w.note a (.canonical .hasHumanInputReceipt) false w.row)
  | .canonical .humanInputMessages, .posted ids =>
    some (.ok ids, w.note a (.canonical .humanInputMessages) false w.row)
  | .canonical .slackWrite, .done =>
    some (.ok (), w.note a (.canonical .slackWrite) false w.row)
  | .preview (.usable row), .flag b => some (.ok b, w.note a (.preview (.usable row)) false w.row)
  | .preview .aborted, .flag b => some (.ok b, w.note a (.preview .aborted) false w.row)
  | .preview .late, .flag b => some (.ok b, w.note a (.preview .late) false w.row)
  | .preview (.update t), .flag b => some (.ok b, w.note a (.preview (.update t)) false w.row)
  | .preview .title, .title t => some (.ok t, w.note a (.preview .title) false w.row)
  | .preview .sleep, .done => some (.ok (), w.note a (.preview .sleep) false w.row)
  | c, .done => (c.run w).map fun (v, row) => (.ok v, w.note a c true row)
  | _, _ => none

lemma Shared.answer_exec {w w' : Shared} {a : Actor} {c : AnyCall} {said : Spoken}
    {r : Except Text c.Reply} (h : w.answer a c said = some (r, w')) :
    sharedEnvironment.exec w a c r w' := by
  unfold Shared.answer at h
  split at h
  case h_1 =>
    split at h <;> cases h
    exact ⟨_, _, .task ‹_›, rfl⟩
  case h_2 =>
    cases h
    exact ⟨_, _, .stream, rfl⟩
  case h_12 =>
    obtain ⟨⟨v, row⟩, hrun, heq⟩ := Option.map_eq_some_iff.mp h
    cases heq
    exact ⟨_, _, .done hrun, rfl⟩
  case h_13 => cases h
  all_goals
    cases h
    exact ⟨_, _, .other rfl nofun nofun nofun, rfl⟩

/-- Scripts start projectors of one user's request, and previews; a tick changes the task. -/
def sharedPlayer : Player sharedEnvironment SharedJob SharedOutside Spoken Bool A2aState where
  job preview :=
    if preview then (Preview.observe 3).embed .preview fun _ r => r
    else
      Prog.embed .canonical (fun _ r => r) do
        perform (.ensureProjection none none (some 0))
        reconcileProjection false
  job_entry preview := by
    cases preview with
    | true => exact .preview 3
    | false => exact .projector ⟨none, none, some 0, false, rfl⟩
  answer := Shared.answer
  answer_exec := Shared.answer_exec
  isOutside _ := false
  outside_of h := by cases h
  tick w state := if terminal w.state then none else some { w with state := state }
  tick_drift {w state w'} h := by
    split at h
    · cases h
    · cases h
      exact ⟨w.now, state, w.bound, Nat.le_refl _, fun hend => absurd hend ‹_›, rfl⟩

/-- The preview finds the row as it was, and reads the title. -/
def drafts (i : ℕ) (title : Text) : List (Line AnyCall Spoken Bool A2aState) :=
  [.call i (.flag false), .call i .done, .call i .done, .call i (.flag true), .call i (.flag false),
    .call i (.title title)]

/-- A projector opens a card; a preview shows a title in it and is about to show another one when
the task ends, and its projector settles the card. -/
def drafted : List (Line AnyCall Spoken Bool A2aState) :=
  [.tick .working, .start false, .call 0 .done, .call 0 .done,
    .call 0 (.task { state := .working }),
    .call 0 (.flag false), .call 0 .stamp, .call 0 .done, .call 0 (.posted []), .call 0 .done,
    .call 0 .done, .call 0 .done,
    .start true, .call 1 .done, .call 1 (.flag true), .call 1 (.flag false)] ++ drafts 1 "draft" ++
  [.call 1 .done, .call 1 (.flag false), .call 1 (.flag false), .call 1 (.flag true),
    .call 1 .done] ++ drafts 1 "more" ++
  [.tick .completed, .start false, .call 2 .done, .call 2 .done,
    .call 2 (.task { state := .completed }), .call 2 (.posted []), .call 2 .done, .call 2 .done,
    .call 2 .done, .call 2 .done, .call 1 .done]

/-- The stamp a preview claims the row for. -/
def Write.claimed (e : Write) : Option MessageTs :=
  match e.call with
  | .preview (.claim asked) => some asked.slackMessageTs
  | _ => none

theorem previews_undisturbing_drafted :
    ∃ s settled last earlier ts, sharedPlayer.play {} drafted = some s ∧
      s.world.log = last :: settled :: earlier ∧ settled.Clears ts ∧ last.claimed = some ts ∧
      last.after = last.before ∧ ∀ token token', s.world.Unexpired token →
        s.world.Unexpired token' → token = token' := by
  obtain ⟨s, hs, hreach, hval⟩ := sharedPlayer.played
    (fun s => s.world.log.take 2 |>.map fun e => (e.claimed, stampOf e.before, stampOf e.after))
    (show (sharedPlayer.play {} drafted).map _ =
      some [(some 4, none, none), (none, some 4, none)] by decide +kernel)
  obtain ⟨hone, -, -, hgone⟩ := previews_undisturbing hreach
  match hlog : s.world.log with
  | last :: settled :: earlier =>
    simp only [hlog, List.take_succ_cons, List.take_zero, List.map_cons, List.map_nil,
      List.cons.injEq, Prod.mk.injEq, and_true] at hval
    obtain ⟨⟨hclaimed, -, -⟩, -, hbefore, hafter⟩ := hval
    have hclears : settled.Clears 4 := ⟨hbefore, by rw [hafter]; exact nofun⟩
    refine ⟨s, settled, last, earlier, 4, hs, hlog, hclears, hclaimed, ?_, hone⟩
    have hcall : ∃ asked, last.call = .preview (.claim asked) ∧ asked.slackMessageTs = 4 := by
      unfold Write.claimed at hclaimed
      split at hclaimed
      · exact ⟨_, ‹_›, Option.some.inj hclaimed⟩
      · cases hclaimed
    obtain ⟨asked, hcall, hts⟩ := hcall
    exact hgone [last] settled earlier 4 hlog hclears last (by simp) asked hcall hts
  | [] => simp [hlog] at hval
  | [_] => simp [hlog] at hval

end ManagedAgents.Slack
