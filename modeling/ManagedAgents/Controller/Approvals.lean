import ManagedAgents.Controller.Runs

/-!
Approval rows over runs: what a query does to one row, which ids rows have, and what the copies
that workers hold say about the rows in the store.

An id names one row and one offer: the first id of a row is made from its key, and every later
one is fresh.
-/

namespace ManagedAgents.Controller

open ManagedAgents.Lib

/-- What a committed query does to one approval row. -/
inductive RowChange (fresh : ℕ) (db : Db) (r : ApprovalRow) : Query → ApprovalRow → Prop
  | same {q} : RowChange fresh db r q r
  | decided {contextId taskId claim requestId decision}
    (h : db.undecided contextId taskId claim requestId r = true) :
    RowChange fresh db r (.recordPolicyDecision contextId taskId claim requestId decision)
      { r with decision := some decision, status := .resolving }
  | rotated {contextId taskId claim requestId offer}
    (h : db.undecided contextId taskId claim requestId r = true) :
    RowChange fresh db r (.recordHumanReview contextId taskId claim requestId offer)
      (r.rotate offer fresh)
  | ruled {requestId taskId ruling} (hid : r.requestId = requestId)
    (hdigest : r.reviewDigest.isSome = true) (hnew : r.humanRuling = none)
    (hpending : r.status = .pending) :
    RowChange fresh db r (.recordHumanRuling requestId taskId ruling)
      { r with humanRuling := some ruling }
  | denied {requestId contextId claim} (h : db.deniable requestId contextId claim r = true) :
    RowChange fresh db r (.denyCancelledInputRequest requestId contextId claim)
      { r with status := .resolving, decision := some .deny }
  | resolved {requestId contextId claim} (h : db.resolvable requestId contextId claim r = true) :
    RowChange fresh db r (.resolveInputRequest requestId contextId claim)
      { r with status := .resolved }
  | marked {requestId contextId claim} (h : db.confirmable requestId contextId claim r = true) :
    RowChange fresh db r (.markConfirmationAttempted requestId contextId claim)
      { r with confirmationAttemptedAt := some db.now }

lemma Db.undecided_row {db : Db} {contextId : ContextId} {taskId : TaskId} {claim : ClaimId}
    {requestId : RequestId} {r : ApprovalRow}
    (h : db.undecided contextId taskId claim requestId r = true) :
    r.requestId = requestId ∧ r.taskId = taskId ∧ r.status = .pending ∧
      r.confirmationAttemptedAt = none := by
  simp only [Db.undecided, Bool.and_eq_true, beq_iff_eq, Option.isNone_iff_eq_none] at h
  exact ⟨h.1.1.1.1.1.1, h.1.1.1.1.1.2, h.1.1.1.1.2, h.1.1.2⟩

/-- A row as `add_input_request` inserts it. -/
def Db.newApproval (db : Db) (requestId : RequestId) (key : TaskId × EventId) : ApprovalRow :=
  { requestId := requestId
    taskId := key.1
    cmaEventId := key.2
    createdAt := db.now }

/-- The id of a row is made from its key, or was drawn. -/
def ApprovalRow.Named (r : ApprovalRow) (uuid : ℕ) : Prop :=
  match r.requestId with
  | .approval task event => r.key = (task, event)
  | .random n => n < uuid

/-- The invariant of the approval rows. -/
structure Tidy (uuid : ℕ) (db : Db) : Prop where
  named : ∀ {key r}, db.approval key = some r → r.Named uuid
  unique : ∀ {key key' r r'}, db.approval key = some r → db.approval key' = some r' →
    r.requestId = r'.requestId → key = key'
  /-- A row is decided when it leaves the pending state. -/
  decided : ∀ {key r}, db.approval key = some r → (r.status = .pending ↔ r.decision = none)
  attempted : ∀ {key r}, db.approval key = some r → r.confirmationAttemptedAt.isSome = true →
    r.decision.isSome = true
  /-- Rulings are given on offers, while the row is pending. -/
  offered : ∀ {key r}, db.approval key = some r → r.humanRuling.isSome = true →
    r.reviewDigest.isSome = true

variable {db db' : Db} {fresh uuid : ℕ} {q : Query} {key : TaskId × EventId}
  {r r' : ApprovalRow}

lemma Db.approval_key (h : db.approval key = some r) : r.key = key := Table.get?_key h

lemma Db.mapApprovals_some {guard : Guard} {f : ApprovalRow → ApprovalRow}
    (hr : db.approval key = some r) :
    db.mapApprovals guard f key = some (if guard r then f r else r) := by
  simp [Db.mapApprovals, hr]

lemma Db.mapApprovals_none {guard : Guard} {f : ApprovalRow → ApprovalRow}
    (hr : db.approval key = none) : db.mapApprovals guard f key = none := by
  simp [Db.mapApprovals, hr]

/-- A guarded update that found a row changed it. -/
lemma Db.setApprovals_ok {guard : Guard} {f : ApprovalRow → ApprovalRow}
    {hf : ∀ r, (f r).key = r.key} (h : ¬(db.approvals.select guard).isEmpty = true) :
    ∃ r, db.approval r.key = some r ∧ guard r = true ∧
      (db.setApprovals guard f hf).approval r.key = some (f r) := by
  obtain ⟨r, hr, hguard⟩ := exists_of_select h
  refine ⟨r, hr, hguard, (congrFun (Db.approval_setApprovals _ _ hf) _).trans ?_⟩
  rw [Db.mapApprovals_some hr, if_pos hguard]

namespace ApprovalEffect

/-- What happens to a row that is there. -/
lemma row (heff : ApprovalEffect fresh db db' q) (h : Tidy uuid db)
    (hr : db.approval key = some r) :
    ∃ r', db'.approval key = some r' ∧ RowChange fresh db r q r' := by
  cases heff with
  | same ha => exact ⟨r, by rw [ha]; exact hr, .same⟩
  | added hnone hunique ha =>
    refine ⟨r, ?_, .same⟩
    rw [ha, Function.update_of_ne]
    · exact hr
    · rintro rfl
      rw [hnone] at hr
      cases hr
  | decided hsome ha =>
    refine ⟨_, by rw [ha, Db.mapApprovals_some hr], ?_⟩
    split
    · exact .decided ‹_›
    · exact .same
  | rotated hsome ha =>
    refine ⟨_, by rw [ha, Db.mapApprovals_some hr], ?_⟩
    split
    · exact .rotated ‹_›
    · exact .same
  | @ruled requestId taskId ruling r₀ hrow hid hdigest hnew hpending ha =>
    refine ⟨_, by rw [ha, Db.mapApprovals_some hr], ?_⟩
    split
    · rename_i hsame
      have hsame : r.requestId = requestId := by simpa using hsame
      have hkey := h.unique hr hrow (hsame.trans hid.symm)
      subst hkey
      rw [hr, Option.some.injEq] at hrow
      subst hrow
      exact .ruled hid hdigest hnew hpending
    · exact .same
  | denied ha =>
    refine ⟨_, by rw [ha, Db.mapApprovals_some hr], ?_⟩
    split
    · exact .denied ‹_›
    · exact .same
  | resolved ha =>
    refine ⟨_, by rw [ha, Db.mapApprovals_some hr], ?_⟩
    split
    · exact .resolved ‹_›
    · exact .same
  | marked ha =>
    refine ⟨_, by rw [ha, Db.mapApprovals_some hr], ?_⟩
    split
    · exact .marked ‹_›
    · exact .same

/-- A row that was not there was added. -/
lemma new (heff : ApprovalEffect fresh db db' q) (hr : db.approval key = none)
    (hr' : db'.approval key = some r') :
    ∃ requestId contextId claim,
      q = .addInputRequest requestId key.1 key.2 contextId claim ∧
      r' = db.newApproval requestId key ∧
      ∀ r, db.approval r.key = some r → r.requestId ≠ requestId := by
  cases heff with
  | same ha =>
    rw [ha, hr] at hr'
    cases hr'
  | @added requestId taskId eventId contextId claim hnone hunique ha =>
    rw [ha, Function.update_apply] at hr'
    split at hr'
    · rename_i hkey
      subst hkey
      cases hr'
      exact ⟨requestId, contextId, claim, rfl, rfl, hunique⟩
    · rw [hr] at hr'
      cases hr'
  | decided _ ha | rotated _ ha | ruled _ _ _ _ _ ha | denied ha | resolved ha | marked ha =>
    rw [ha, Db.mapApprovals_none hr] at hr'
    cases hr'

end ApprovalEffect

lemma ApprovalRow.Named.mono {r : ApprovalRow} (h : r.Named uuid) (hle : uuid ≤ fresh) :
    r.Named fresh := by
  unfold Named at *
  split <;> simp_all
  omega

/-- The id a query replaces. -/
def Query.rotates? : Query → Option RequestId
  | .recordHumanReview _ _ _ requestId _ => some requestId
  | _ => none

/-- A row keeps its id, or has it replaced by a fresh one. -/
lemma RowChange.id_cases (h : RowChange fresh db r q r') :
    r'.requestId = r.requestId ∨
      r'.requestId = .random fresh ∧ q.rotates? = some r.requestId := by
  cases h with
  | rotated hguard =>
    obtain ⟨hid, -⟩ := Db.undecided_row hguard
    exact .inr ⟨rfl, by rw [hid]; rfl⟩
  | same | decided | ruled | denied | resolved | marked => exact .inl rfl

lemma RowChange.same_key (h : RowChange fresh db r q r') : r'.key = r.key := by
  cases h <;> rfl

/-- Once its confirmation was attempted, a row keeps its id, its decision and the mark. -/
lemma RowChange.attempted (h : RowChange fresh db r q r')
    (hattempted : r.confirmationAttemptedAt.isSome = true) :
    r'.requestId = r.requestId ∧ r'.decision = r.decision ∧
      r'.confirmationAttemptedAt.isSome = true := by
  have hsome : r.confirmationAttemptedAt ≠ none := by
    intro hnone
    rw [hnone] at hattempted
    cases hattempted
  cases h with
  | same | ruled | resolved => exact ⟨rfl, rfl, hattempted⟩
  | marked => exact ⟨rfl, rfl, rfl⟩
  | decided hguard | rotated hguard => exact absurd (Db.undecided_row hguard).2.2.2 hsome
  | denied hguard =>
    simp only [Db.deniable, Bool.and_eq_true, Option.isNone_iff_eq_none] at hguard
    exact absurd hguard.1.1.2 hsome

/-- Adding a request names it after its key. -/
def Query.Names : Query → Prop
  | .addInputRequest requestId taskId eventId _ _ =>
    requestId = approvalRequestId taskId eventId
  | _ => True

/-- **Every query keeps the approval rows tidy.** -/
theorem Tidy.step (h : Tidy uuid db) (heff : ApprovalEffect uuid db db' q) (hnames : q.Names) :
    Tidy (uuid + 1) db' := by
  -- a row of the new store is an old one changed, or new
  have hrows : ∀ {key r'}, db'.approval key = some r' →
      (∃ r, db.approval key = some r ∧ RowChange uuid db r q r') ∨
      db.approval key = none ∧ r' = db.newApproval (.approval key.1 key.2) key ∧
        ∀ r, db.approval r.key = some r → r.requestId ≠ .approval key.1 key.2 := by
    intro key r' hr'
    cases hr : db.approval key with
    | none =>
      right
      obtain ⟨requestId, contextId, claim, rfl, rfl, hunique⟩ := heff.new hr hr'
      cases hnames
      exact ⟨rfl, rfl, hunique⟩
    | some r =>
      left
      obtain ⟨r'', hr'', hchange⟩ := heff.row h hr
      rw [hr', Option.some.injEq] at hr''
      subst hr''
      exact ⟨r, rfl, hchange⟩
  refine ⟨fun {key r'} hr' => ?_, fun {key₁ key₂ r₁ r₂} hr₁ hr₂ hid => ?_, fun {key r'} hr' => ?_,
    fun {key r'} hr' hattempted => ?_, fun {key r'} hr' hruling => ?_⟩
  · rcases hrows hr' with ⟨r, hr, hchange⟩ | ⟨-, rfl, -⟩
    · have hnamed := (h.named hr).mono (Nat.le_succ uuid)
      rcases hchange.id_cases with hsame | ⟨hfresh, -⟩
      · unfold ApprovalRow.Named at *
        rw [hsame, hchange.same_key]
        exact hnamed
      · unfold ApprovalRow.Named
        rw [hfresh]
        exact Nat.lt_succ_self _
    · rfl
  · -- a fresh id is nobody else's, and an id made from a key is that key's
    have hfresh : ∀ {key r}, db.approval key = some r → r.requestId ≠ .random uuid := by
      intro key r hr hid
      have hnamed := h.named hr
      unfold ApprovalRow.Named at hnamed
      rw [hid] at hnamed
      exact Nat.lt_irrefl _ hnamed
    rcases hrows hr₁ with ⟨r, hr, hchange⟩ | ⟨-, rfl, hnew⟩ <;>
    rcases hrows hr₂ with ⟨r', hr', hchange'⟩ | ⟨-, rfl, hnew'⟩
    · rcases hchange.id_cases with hsame | ⟨hrandom, hrotated⟩ <;>
      rcases hchange'.id_cases with hsame' | ⟨hrandom', hrotated'⟩
      · exact h.unique hr hr' (hsame.symm.trans (hid.trans hsame'))
      · exact absurd (hsame.symm.trans (hid.trans hrandom')) (hfresh hr)
      · exact absurd (hsame'.symm.trans (hid.symm.trans hrandom)) (hfresh hr')
      · exact h.unique hr hr' (Option.some.inj (hrotated.symm.trans hrotated'))
    · rcases hchange.id_cases with hsame | ⟨hrandom, -⟩
      · have hkey := Db.approval_key hr
        exact absurd (hsame.symm.trans hid) (hnew' r (hkey ▸ hr))
      · exact absurd (hrandom.symm.trans hid) nofun
    · rcases hchange'.id_cases with hsame | ⟨hrandom, -⟩
      · have hkey := Db.approval_key hr'
        exact absurd (hsame.symm.trans hid.symm) (hnew r' (hkey ▸ hr'))
      · exact absurd (hrandom.symm.trans hid.symm) nofun
    · have hkeys : RequestId.approval key₁.1 key₁.2 = .approval key₂.1 key₂.2 := hid
      obtain ⟨h₁, h₂⟩ := RequestId.approval.inj hkeys
      exact Prod.ext h₁ h₂
  · rcases hrows hr' with ⟨r, hr, hchange⟩ | ⟨-, rfl, -⟩
    · have hdecided := h.decided hr
      cases hchange with
      | same => exact hdecided
      | decided => exact ⟨nofun, nofun⟩
      | rotated => exact hdecided
      | ruled => exact hdecided
      | denied => exact ⟨nofun, nofun⟩
      | resolved hguard =>
        simp only [Db.resolvable, Bool.and_eq_true, beq_iff_eq] at hguard
        have hne : r.decision ≠ none := fun hnone => by
          rw [hdecided.mpr hnone] at hguard
          cases hguard.1.2
        simp [hne]
      | marked => exact hdecided
    · exact ⟨fun _ => rfl, fun _ => rfl⟩
  · rcases hrows hr' with ⟨r, hr, hchange⟩ | ⟨-, rfl, -⟩
    · have hbefore := h.attempted hr
      cases hchange with
      | same => exact hbefore hattempted
      | decided => rfl
      | rotated => exact hbefore hattempted
      | ruled => exact hbefore hattempted
      | denied => rfl
      | resolved => exact hbefore hattempted
      | marked hguard =>
        simp only [Db.confirmable, Bool.and_eq_true] at hguard
        exact hguard.1.2
    · cases hattempted
  · rcases hrows hr' with ⟨r, hr, hchange⟩ | ⟨-, rfl, -⟩
    · have hbefore := h.offered hr
      cases hchange with
      | rotated => cases hruling
      | ruled _ hdigest => exact hdigest
      | same | decided | denied | resolved | marked => exact hbefore hruling
    · cases hruling

lemma Asked.names {knows : ℕ → Option Known} {a : Actor} (h : Asked knows q a) : q.Names := by
  cases a with
  | worker i =>
    obtain ⟨k, -, hallow⟩ := h
    cases q with
    | addInputRequest requestId taskId eventId contextId claim => exact hallow.2
    | _ => trivial
  | client =>
    cases q with
    | addInputRequest => cases h
    | _ => trivial

variable {E : Environment Call Call.Reply Exn World} {s : Parties Known World}

lemma Tidy.mono (h : Tidy uuid db) (hle : uuid ≤ fresh) : Tidy fresh db :=
  ⟨fun hr => (h.named hr).mono hle, h.unique, h.decided, h.attempted, h.offered⟩

lemma Knowing.tidy (hE : Within E) (hs : Knowing E s) : Tidy s.world.uuid s.world.db := by
  refine Knowing.invariant (P := fun s => Tidy s.world.uuid s.world.db) hE
    ⟨nofun, nofun, nofun, nofun, nofun⟩ ?_ hs
  intro s s' hs h turn
  cases turn with
  | join | leave | refuse => exact h
  | drift => exact ⟨h.named, h.unique, h.decided, h.attempted, h.offered⟩
  | commit hask hrun hr hexec => exact h.step (Query.run_approvals hrun) hask.names
  | other hc hk hallow hexec hdb huuid hlog | client hc hclient hexec hdb huuid hlog =>
    rw [hdb]
    exact h.mono huuid

/-! ### Copies -/

lemma Db.requestsOf_approval {taskId : TaskId} {row : ApprovalRow}
    (h : Request.approval row ∈ db.requestsOf taskId) : db.approval row.key = some row := by
  rw [Db.requestsOf, List.mem_append] at h
  rcases h with h | h
  · obtain ⟨row', hrow, heq⟩ := List.mem_map.mp h
    cases heq
    exact (Table.mem_select.mp hrow).1
  · obtain ⟨row', hrow, heq⟩ := List.mem_map.mp h
    cases heq

/-- A copy of a row and the row as it is now: under the same id it shows the same offer, and once
the row was decided it keeps its id. -/
structure Version (row r : ApprovalRow) : Prop where
  offer : r.requestId = row.requestId → r.reviewDigest = row.reviewDigest ∧
    r.reviewAuthority = row.reviewAuthority ∧
    ∀ ruling, row.humanRuling = some ruling → r.humanRuling = some ruling
  settled : row.status ≠ .pending → r.requestId = row.requestId ∧ r.status ≠ .pending

lemma Version.refl (r : ApprovalRow) : Version r r :=
  ⟨fun _ => ⟨rfl, rfl, fun _ h => h⟩, fun h => ⟨rfl, h⟩⟩

lemma Version.step {row : ApprovalRow} (h : Version row r) (hnamed : row.Named fresh)
    (hchange : RowChange fresh db r q r') : Version row r' := by
  obtain ⟨hoffer, hsettled⟩ := h
  cases hchange with
  | same => exact ⟨hoffer, hsettled⟩
  | decided => exact ⟨hoffer, fun hs => ⟨(hsettled hs).1, nofun⟩⟩
  | rotated hguard =>
    refine ⟨fun hid => ?_, fun hs => ?_⟩
    · have hid' : row.requestId = .random fresh := hid.symm
      unfold ApprovalRow.Named at hnamed
      rw [hid'] at hnamed
      exact absurd hnamed (Nat.lt_irrefl _)
    · exact absurd (Db.undecided_row hguard).2.2.1 (hsettled hs).2
  | ruled hid hdigest hnew hpending =>
    refine ⟨fun hid' => ?_, hsettled⟩
    obtain ⟨hd, ha, hruling⟩ := hoffer hid'
    exact ⟨hd, ha, fun ruling hr => absurd ((hruling ruling hr).symm.trans hnew) nofun⟩
  | denied => exact ⟨hoffer, fun hs => ⟨(hsettled hs).1, nofun⟩⟩
  | resolved => exact ⟨hoffer, fun hs => ⟨(hsettled hs).1, nofun⟩⟩
  | marked => exact ⟨hoffer, hsettled⟩

/-- The context's row carries the worker's claim. -/
def Known.Holds (k : Known) (db : Db) (contextId : ContextId) : Prop :=
  ∃ claim c, k.lease = some (contextId, claim) ∧ db.context contextId = some c ∧
    c.schedulerClaimId = some claim

/-- A task stays in its context. -/
lemma CoreEffect.task_stays {taskId : TaskId} {t : TaskRow} (heff : CoreEffect fresh db db' q)
    (ht : db.task taskId = some t) :
    ∃ t', db'.task taskId = some t' ∧ t'.contextId = t.contextId := by
  -- a change of one task that leaves it in its context
  have hset : ∀ {taskId' t₀ t₀'}, db.task taskId' = some t₀ →
      db'.task = Function.update db.task taskId' (some t₀') → t₀'.contextId = t₀.contextId →
      ∃ t', db'.task taskId = some t' ∧ t'.contextId = t.contextId := by
    intro taskId' t₀ t₀' ht₀ htask hid
    rw [htask, Function.update_apply]
    split
    · rename_i hsame
      rw [hsame, ht₀, Option.some.injEq] at ht
      subst ht
      exact ⟨t₀', rfl, hid⟩
    · exact ⟨t, ht, rfl⟩
  cases heff with
  | same _ htask | opened _ _ _ htask | claimed _ _ _ htask | released _ _ _ htask
  | wroteContext _ _ _ _ htask => exact ⟨t, by rw [htask]; exact ht, rfl⟩
  | @admitted a c t₀ hctx hfresh hmessage hrow hc htask =>
    refine ⟨t, ?_, rfl⟩
    rw [htask, Function.update_of_ne]
    · exact ht
    · rintro rfl
      rw [hfresh] at ht
      cases ht
  | wroteTask _ _ ht₀ _ htask => exact hset ht₀ htask rfl
  | retried ht₀ _ _ _ _ _ _ _ _ htask => exact hset ht₀ htask rfl
  | failed ht₀ _ _ _ _ _ htask => exact hset ht₀ htask rfl
  | activated _ _ _ ht₀ _ _ _ htask => exact hset ht₀ htask rfl
  | canceled ht₀ _ _ htask => exact hset ht₀ htask rfl
  | cancelRequested ht₀ _ _ _ htask => exact hset ht₀ htask rfl

/-- What a worker's copies and permits say about the store. -/
structure Copies (k : Known) (uuid : ℕ) (db : Db) : Prop where
  blank : k.lease = none → k.rows = []
  named : ∀ {row}, row ∈ k.rows → row.Named uuid
  version : ∀ {row}, row ∈ k.rows → ∃ r, db.approval row.key = some r ∧ Version row r
  /-- Under the lease a decision that is being carried out does not change. -/
  decision : ∀ {row r}, row ∈ k.rows → row.status = .resolving →
    db.approval row.key = some r →
    r.decision = row.decision ∨ ∃ t, db.task row.taskId = some t ∧ ¬ k.Holds db t.contextId
  permit : ∀ {requestId}, k.permit = some (.confirm requestId) →
    ∃ key r, db.approval key = some r ∧ r.requestId = requestId ∧
      r.confirmationAttemptedAt.isSome = true ∧
      ∀ row ∈ k.rows, row.requestId = requestId → row.status = .resolving →
        row.decision = r.decision

namespace Copies

variable {k k' : Known}

lemma mono (h : Copies k uuid db) (hle : uuid ≤ fresh) : Copies k fresh db :=
  ⟨h.blank, fun hrow => (h.named hrow).mono hle, h.version, h.decision, h.permit⟩

/-- The rest of the store is not looked at. -/
lemma frame (h : Copies k uuid db) (hc : db'.context = db.context) (ht : db'.task = db.task)
    (ha : db'.approval = db.approval) : Copies k uuid db' := by
  obtain ⟨hblank, hnamed, hversion, hdecision, hpermit⟩ := h
  rw [← ha] at hversion hpermit
  refine ⟨hblank, hnamed, hversion, fun {row r} hrow hs hr => ?_, hpermit⟩
  unfold Known.Holds
  rw [hc, ht]
  exact hdecision hrow hs (ha ▸ hr)

/-- Knowing as much about copies and permits. -/
lemma relearn (h : Copies k uuid db) (hlease : k'.lease = k.lease) (hrows : k'.rows = k.rows)
    (hpermit : ∀ requestId, k'.permit = some (.confirm requestId) →
      k.permit = some (.confirm requestId)) : Copies k' uuid db := by
  obtain ⟨hblank, hnamed, hversion, hdecision, hpermits⟩ := h
  rw [← hlease, ← hrows] at hblank
  rw [← hrows] at hnamed hversion hdecision hpermits
  refine ⟨hblank, hnamed, hversion, fun {row r} hrow hs hr => ?_, fun {requestId} hp => ?_⟩
  · have := hdecision hrow hs hr
    unfold Known.Holds at this ⊢
    rwa [hlease]
  · exact hpermits (hpermit _ hp)

/-- Nothing is copied. -/
lemma drop (h : Copies k uuid db) (hrows : k'.rows = [])
    (hpermit : ∀ requestId, k'.permit = some (.confirm requestId) →
      k.permit = some (.confirm requestId)) : Copies k' uuid db := by
  have hnone : ∀ {row}, row ∉ k'.rows := by
    intro row hrow
    rw [hrows] at hrow
    cases hrow
  refine ⟨fun _ => hrows, fun hrow => absurd hrow hnone, fun hrow => absurd hrow hnone,
    fun hrow => absurd hrow hnone, fun {requestId} hp => ?_⟩
  obtain ⟨key, r, hr, hid, hattempted, -⟩ := h.permit (hpermit _ hp)
  exact ⟨key, r, hr, hid, hattempted, fun row hrow => absurd hrow hnone⟩

/-- **A query keeps copies and permits true**, unless the worker itself denies a request. -/
lemma step (h : Copies k uuid db) (htidy : Tidy uuid db) (hcore : CoreEffect uuid db db' q)
    (heff : ApprovalEffect uuid db db' q)
    (hlease : ∀ {contextId claim}, k.lease = some (contextId, claim) → claim < uuid)
    (hdeny : ∀ {requestId contextId claim},
      q = .denyCancelledInputRequest requestId contextId claim →
      k.rows ≠ [] → ∀ contextId', k.lease ≠ some (contextId', claim)) :
    Copies k (uuid + 1) db' := by
  have hkey : ∀ {key r r₀}, db'.approval key = some r → db.approval key = some r₀ →
      RowChange uuid db r₀ q r := by
    intro key r r₀ hr hr₀
    obtain ⟨r', hr', hchange⟩ := heff.row htidy hr₀
    rw [hr, Option.some.injEq] at hr'
    exact hr' ▸ hchange
  refine ⟨h.blank, fun hrow => (h.named hrow).mono (Nat.le_succ _), fun {row} hrow => ?_,
    fun {row r} hrow hresolving hr => ?_, fun {requestId} hp => ?_⟩
  · obtain ⟨r, hr, hversion⟩ := h.version hrow
    obtain ⟨r', hr', hchange⟩ := heff.row htidy hr
    exact ⟨r', hr', hversion.step (h.named hrow) hchange⟩
  · obtain ⟨r₀, hr₀, hversion⟩ := h.version hrow
    have hchange := hkey hr hr₀
    have hsettled := (hversion.settled (by rw [hresolving]; nofun)).2
    -- a lease that has ended does not come back
    have hended : ∀ contextId, ¬ k.Holds db contextId → ¬ k.Holds db' contextId := by
      rintro contextId hnot ⟨claim, c, hl, hc, hclaim⟩
      rcases hcore.claim_cases hc hclaim with ⟨rfl, -⟩ | ⟨c₀, hc₀, hclaim₀⟩
      · exact Nat.lt_irrefl _ (hlease hl)
      · exact hnot ⟨claim, c₀, hl, hc₀, hclaim₀⟩
    rcases h.decision hrow hresolving hr₀ with hsame | ⟨t, ht, hnot⟩
    · cases hchange with
      | same | ruled | resolved | marked | rotated => exact .inl hsame
      | decided hguard => exact absurd (Db.undecided_row hguard).2.2.1 hsettled
      | @denied requestId contextId claim hguard =>
        -- another worker denied it, so it is the one that holds the lease
        right
        simp only [Db.deniable, Db.leasedActive, Bool.and_eq_true, Option.any_eq_true] at hguard
        obtain ⟨⟨-, ⟨t, c⟩, hjoined, hactive⟩, -⟩ := hguard
        obtain ⟨ht, hc⟩ := Db.joined_eq_some.mp hjoined
        have htask : r₀.taskId = row.taskId := congrArg Prod.fst (Db.approval_key hr₀)
        rw [htask] at ht
        obtain ⟨t', ht', hof⟩ := hcore.task_stays ht
        refine ⟨t', ht', hended _ ?_⟩
        rintro ⟨claim', c', hl, hc', hclaim'⟩
        rw [hof, hc, Option.some.injEq] at hc'
        subst hc'
        have hheld := ContextRow.holds_claim hactive.2
        rw [hheld, Option.some.injEq] at hclaim'
        subst hclaim'
        exact hdeny rfl (List.ne_nil_of_mem hrow) _ hl
    · obtain ⟨t', ht', hof⟩ := hcore.task_stays ht
      exact .inr ⟨t', ht', hended _ (hof ▸ hnot)⟩
  · obtain ⟨key, r, hr, hid, hattempted, hrows⟩ := h.permit hp
    obtain ⟨r', hr', hchange⟩ := heff.row htidy hr
    -- nothing is decided or replaced once it was attempted
    obtain ⟨hid', hdecision, hattempted'⟩ := hchange.attempted hattempted
    refine ⟨key, r', hr', hid'.trans hid, hattempted', fun row hrow hrid hresolving => ?_⟩
    exact (hrows row hrow hrid hresolving).trans hdecision.symm

/-- The rows a worker lists are copies of themselves. -/
lemma list (h : Copies k uuid db) (htidy : Tidy uuid db) (hlease : k.lease ≠ none)
    {rows : List ApprovalRow} (hrows : ∀ row ∈ rows, db.approval row.key = some row)
    {verdict : Option Verdict} : Copies { k with rows := rows, verdict := verdict } uuid db := by
  refine ⟨fun hnone => absurd hnone hlease, fun hrow => htidy.named (hrows _ hrow),
    fun hrow => ⟨_, hrows _ hrow, .refl _⟩, fun {row r} hrow _ hr => ?_, fun {requestId} hp => ?_⟩
  · rw [hrows row hrow, Option.some.injEq] at hr
    exact .inl (hr ▸ rfl)
  · obtain ⟨key, r, hr, hid, hattempted, -⟩ := h.permit hp
    refine ⟨key, r, hr, hid, hattempted, fun row hrow hid' _ => ?_⟩
    have hkey := htidy.unique (hrows row hrow) hr (hid'.trans hid.symm)
    have hrow' := hrows row hrow
    rw [hkey, hr, Option.some.injEq] at hrow'
    exact hrow' ▸ rfl

/-- The mark a worker sets gives a permit for the decision its copies show. -/
lemma mark (h : Copies k uuid db) (htidy : Tidy uuid db) {contextId : ContextId}
    {claim : ClaimId} {requestId : RequestId} (hl : k.lease = some (contextId, claim))
    (hsome : ∃ r, db.approval r.key = some r ∧
      db.confirmable requestId contextId claim r = true)
    (hafter : Copies k (uuid + 1) db')
    (ha : db'.approval = db.mapApprovals (db.confirmable requestId contextId claim)
      fun r => { r with confirmationAttemptedAt := some db.now }) :
    Copies { k with permit := some (.confirm requestId) } (uuid + 1) db' := by
  refine ⟨hafter.blank, hafter.named, hafter.version, hafter.decision, fun {rid} hp => ?_⟩
  cases hp
  obtain ⟨r, hr, hguard⟩ := hsome
  have hr' : db'.approval r.key = some { r with confirmationAttemptedAt := some db.now } := by
    rw [ha, Db.mapApprovals_some hr, if_pos hguard]
  simp only [Db.confirmable, Db.leasedActive, Bool.and_eq_true, beq_iff_eq,
    Option.any_eq_true] at hguard
  obtain ⟨⟨⟨⟨⟨hid, hstatus⟩, -⟩, -⟩, -⟩, ⟨t, c⟩, hjoined, hactive⟩ := hguard
  obtain ⟨ht, hc⟩ := Db.joined_eq_some.mp hjoined
  refine ⟨r.key, _, hr', hid, rfl, fun row hrow hid' hresolving => ?_⟩
  obtain ⟨r₁, hr₁, hversion⟩ := h.version hrow
  -- the copy is of the row that was marked, and the lease is still the worker's
  obtain ⟨hsame, -⟩ := hversion.settled (by rw [hresolving]; nofun)
  have hkey := htidy.unique hr₁ hr (hsame.trans (hid'.trans hid.symm))
  have hr₂ := hr₁
  rw [hkey, hr, Option.some.injEq] at hr₂
  subst hr₂
  rcases h.decision hrow hresolving hr₁ with hd | ⟨t', ht', hnot⟩
  · exact hd.symm
  · have htask : row.taskId = r.taskId := congrArg Prod.fst hkey
    rw [htask, ht, Option.some.injEq] at ht'
    subst ht'
    have hcid : c.contextId = contextId := hactive.1.1.1
    have hof := Db.context_id hc
    refine absurd ⟨claim, c, ?_, hc, ContextRow.holds_claim hactive.2⟩ hnot
    rw [hl, ← hcid, hof]

lemma start : Copies {} uuid db := ⟨fun _ => rfl, nofun, nofun, nofun, nofun⟩

/-- What a worker learns from its own query. -/
lemma own (h : Copies k uuid db) (htidy : Tidy uuid db) {v : q.Reply} {r : Except Exn q.Reply}
    (hallow : k.allowedQuery q) (hrun : q.run uuid db = .ok (v, db'))
    (hr : r = .ok v ∨ r = .error .other)
    (hlease : ∀ {contextId claim}, k.lease = some (contextId, claim) → claim < uuid) :
    Copies (k.learnQuery q r) (uuid + 1) db' := by
  have hcore := Query.run_effect hrun
  have heff := Query.run_approvals hrun
  have hpermit := Known.learnQuery_permit (k := k) hrun hr
  have hstep : (∀ requestId contextId claim,
      q ≠ .denyCancelledInputRequest requestId contextId claim) → Copies k (uuid + 1) db' :=
    fun hne => h.step htidy hcore heff hlease fun hq => absurd hq (hne _ _ _)
  cases hplain : Known.plain q with
  | true =>
    obtain ⟨view, task, lost, finished, picked, hk⟩ := Known.learnQuery_plain hplain k r
    rw [hk]
    refine (hstep fun _ _ _ hq => ?_).relearn rfl rfl fun _ => id
    rw [hq] at hplain
    cases hplain
  | false =>
    cases q with
    | claimScheduler contextId =>
      refine (hstep fun _ _ _ => by rintro ⟨⟩).drop ?_ fun rid hp => ?_
      · have hrows := h.blank hallow
        rcases hr with rfl | rfl
        · cases v <;> exact hrows
        · exact hrows
      · rcases hr with rfl | rfl
        · cases v <;> exact hp
        · exact hp
    | activateTask contextId taskId claim predecessor =>
      refine (hstep fun _ _ _ => by rintro ⟨⟩).relearn ?_ ?_ fun rid hp => ?_
      · rcases hr with rfl | rfl
        · simp only [Known.learnQuery, Known.activated]
          split <;> rfl
        · rfl
      · rcases hr with rfl | rfl
        · simp only [Known.learnQuery, Known.activated]
          split <;> rfl
        · rfl
      · rcases hpermit with hsame | ⟨_, _, _, _, w, -, -, hnew⟩ | ⟨_, _, _, hq, -⟩
        · exact hsame ▸ hp
        · rw [hnew, Known.dispatchPermit] at hp
          split at hp <;> cases hp
        · cases hq
    | markConfirmationAttempted requestId contextId claim =>
      have hafter := hstep fun _ _ _ => by rintro ⟨⟩
      rcases hr with rfl | rfl
      · cases v with
        | false => exact hafter
        | true =>
          change Controller.markConfirmationAttempted _ _ _ _ = _ at hrun
          simp only [markConfirmationAttempted, Except.ok.injEq, Prod.mk.injEq,
            Bool.not_eq_true'] at hrun
          obtain ⟨hsome, hdb⟩ := hrun
          refine h.mark htidy hallow (exists_of_select (by simpa using hsome)) hafter ?_
          rw [← hdb]
          exact Db.approval_setApprovals _ _ _
      · exact hafter
    | listInputRequests taskId =>
      obtain ⟨contextId, claim, hl⟩ := hallow
      cases hrun
      rcases hr with rfl | rfl
      · refine ((h.mono (Nat.le_succ uuid)).list (htidy.mono (Nat.le_succ uuid)) ?_ ?_)
        · exact fun hnone => by cases hl.symm.trans hnone
        · intro row hrow
          obtain ⟨request, hmem, hrequest⟩ := List.mem_filterMap.mp hrow
          rw [List.mem_insertionSort] at hmem
          cases request with
          | approval row' =>
            cases hrequest
            exact Db.requestsOf_approval hmem
          | clarification row' => cases hrequest
      · exact h.mono (Nat.le_succ uuid)
    | denyCancelledInputRequest requestId contextId claim =>
      have hdropped : Copies { k with rows := [] } uuid db := h.drop rfl fun _ => id
      have hkeep := hdropped.step htidy hcore heff hlease fun _ hne => absurd rfl hne
      rcases hr with rfl | rfl <;> exact hkeep
    | _ => cases hplain

end Copies

/-- **Copies and permits are true in every run.** -/
theorem Knowing.copies (hE : Within E) (hs : Knowing E s) {i : ℕ} {k : Known}
    (hk : s.knows i = some k) : Copies k s.world.uuid s.world.db := by
  refine Knowing.worker (Q := fun _ k _ uuid db => Copies k uuid db) hE (fun _ _ _ _ => .start)
    (fun _ h => h.frame rfl rfl rfl) (fun _ h huuid => h.mono huuid) ?_ ?_ ?_ ?_ hs hk
  · intro s i k a q v r db' hs hk ha h hask hrun hr
    refine h.step (Knowing.tidy hE hs) (Query.run_effect hrun) (Query.run_approvals hrun)
      ((Knowing.coherent hE hs).leases hk) fun {rid contextId claim} hq _ contextId' hl => ?_
    exact (Knowing.coherent hE hs).fenced hask hk ha hl (by rw [hq]; rfl)
  · intro s i k q v r db' hs hk h hallow hrun hr
    exact h.own (Knowing.tidy hE hs) hallow hrun hr ((Knowing.coherent hE hs).leases hk)
  · intro i k log uuid db q e h hallow
    have hpermit : ∀ rid, (k.learnQuery q (.error e)).permit = some (.confirm rid) →
        k.permit = some (.confirm rid) := by
      intro rid hp
      rwa [Known.learnQuery_permit_error] at hp
    rcases k.learnQuery_rows_error q e with hrows | hrows
    · exact h.relearn (k.learnQuery_lease_error q e) hrows hpermit
    · exact h.drop hrows hpermit
  · intro i k log uuid db c r uuid' h hc hallow huuid
    refine (h.relearn (k.learn_lease_other hc r) (k.learn_rows_other hc r)
      fun rid hp => ?_).mono huuid
    rcases k.learn_permit hc r with hsame | hnone
    · exact hsame ▸ hp
    · rw [hnone] at hp
      cases hp

end ManagedAgents.Controller
