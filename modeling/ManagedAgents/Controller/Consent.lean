import ManagedAgents.Controller.Confirm
import ManagedAgents.Controller.Discipline

/-!
Consent is given to one offer.

An `allow` rests on what the engine said about the row as its worker had listed it, asked about the
tool use that a history had shown under the row's event: without an offer, or with the ruling a
human gave under the id of the very offer the row showed. An id stands for one row and one offer for
good; when the offer is replaced the id dies with it.
-/

namespace ManagedAgents.Controller

open ManagedAgents.Lib

variable {db db' : Db} {fresh uuid : ℕ} {q : Query} {k k' : Known} {key : TaskId × EventId}
  {r r' : ApprovalRow} {requestId : RequestId} {P : ApprovalRow → Prop}
  {E : Environment Call Call.Reply Exn World} {s : Parties Known World}

/-! ### Ids -/

/-- The id was given to some row, now or before. -/
def RequestId.Used (requestId : RequestId) (uuid : ℕ) (db : Db) : Prop :=
  match requestId with
  | .approval task event => ∃ r, db.approval (task, event) = some r
  | .random n => n < uuid

/-- The id was given away, and the row that has it, if any, is as `P` says. -/
structure Fixed (requestId : RequestId) (P : ApprovalRow → Prop) (uuid : ℕ) (db : Db) : Prop where
  rows : ∀ {key r}, db.approval key = some r → r.requestId = requestId → P r
  used : requestId.Used uuid db

lemma Tidy.used (h : Tidy uuid db) (hr : db.approval key = some r) : r.requestId.Used uuid db := by
  have hnamed := h.named hr
  unfold ApprovalRow.Named at hnamed
  cases hid : r.requestId with
  | approval task event =>
    rw [hid] at hnamed
    exact ⟨r, by rw [← hnamed, Db.approval_key hr]; exact hr⟩
  | random n =>
    rw [hid] at hnamed
    exact hnamed

lemma Fixed.mono (h : Fixed requestId P uuid db) (hle : uuid ≤ fresh) :
    Fixed requestId P fresh db := by
  refine ⟨h.rows, ?_⟩
  have hused := h.used
  unfold RequestId.Used at *
  cases requestId with
  | approval task event => exact hused
  | random n => exact Nat.lt_of_lt_of_le hused hle

/-- No query gives an id away a second time. -/
lemma Fixed.step (h : Fixed requestId P uuid db) (htidy : Tidy uuid db)
    (heff : ApprovalEffect uuid db db' q) (hnames : q.Names)
    (hkeep : ∀ {r r'}, r'.requestId ≠ .random uuid → RowChange uuid db r q r' → P r → P r') :
    Fixed requestId P (uuid + 1) db' := by
  have hused := h.used
  refine ⟨fun {key r'} hr' hid => ?_, ?_⟩
  · cases hr : db.approval key with
    | none =>
      -- a new row is named after its key, and no row had that key before
      obtain ⟨rid, contextId, claim, rfl, rfl, -⟩ := heff.new hr hr'
      cases hnames
      have hid' : requestId = .approval key.1 key.2 := hid.symm
      rw [hid'] at hused
      obtain ⟨r, hthere⟩ := hused
      rw [show (key.1, key.2) = key from rfl, hr] at hthere
      cases hthere
    | some r =>
      obtain ⟨r'', hr'', hchange⟩ := heff.row htidy hr
      have hsame : r'' = r' := Option.some.inj (hr''.symm.trans hr')
      subst hsame
      have hold : r''.requestId ≠ .random uuid := by
        intro hrandom
        rw [← hid, hrandom] at hused
        exact Nat.lt_irrefl _ hused
      rcases hchange.id_cases with hkept | ⟨hrandom, -⟩
      · exact hkeep hold hchange (h.rows hr (hkept.symm.trans hid))
      · exact absurd hrandom hold
  · unfold RequestId.Used at *
    cases requestId with
    | approval task event =>
      obtain ⟨r, hr⟩ := hused
      obtain ⟨r', hr', -⟩ := heff.row htidy hr
      exact ⟨r', hr'⟩
    | random n => exact Nat.lt_succ_of_lt hused

/-! ### Entries -/

/-- The entry listed requests for its worker. -/
def Entry.Relists (e : Entry) (actor : Actor) : Prop :=
  ∃ taskId requests before after, e = ⟨actor, .query (.listInputRequests taskId), .ok requests,
    true, before, after⟩

/-- The row was among them. -/
def Entry.Lists (e : Entry) (actor : Actor) (row : ApprovalRow) : Prop :=
  ∃ taskId requests before after, e = ⟨actor, .query (.listInputRequests taskId), .ok requests,
    true, before, after⟩ ∧ .approval row ∈ requests

/-- The engine gave the worker this verdict. -/
def Entry.Says (e : Entry) (actor : Actor) (verdict : Verdict) : Prop :=
  ∃ before after, e = ⟨actor, .policyExchange verdict.request verdict.resolution,
    .ok verdict.decision, false, before, after⟩

/-- A history showed the worker this event under the id. -/
def Entry.Shows (e : Entry) (actor : Actor) (eventId : EventId) (source : Event) : Prop :=
  e.actor = actor ∧ ∃ sessionId events, e.said = ⟨.listEvents sessionId, .ok events⟩ ∧
    byId events eventId = some source

/-- The engine allowed the row's call, asked with the resolution: the tool, the arguments and the
ids it was asked about are those of the event that the worker had seen under the row's id. -/
def Entry.Evaluates (e : Entry) (old : List Entry) (actor : Actor) (contextId : ContextId)
    (row : ApprovalRow) (resolution : Option PolicyResolution) : Prop :=
  ∃ verdict source agentId, e.Says actor verdict ∧
    (∃ shown ∈ old, shown.Shows actor row.cmaEventId source) ∧
    toolPolicyRequest contextId agentId row.cmaEventId (some source) = .ok verdict.request ∧
    verdict.resolution = resolution ∧ verdict.decision.decision = .allow

/-- The ruling was recorded in the row, under its id and on the offer it shows. -/
def Entry.Rules (e : Entry) (row : ApprovalRow) (ruling : Ruling) : Prop :=
  ∃ taskId r, e.transaction = some (.recordHumanRuling row.requestId taskId ruling) ∧
    e.before.approval row.key = some r ∧ r.requestId = row.requestId ∧
    r.reviewDigest = row.reviewDigest ∧ r.reviewAuthority = row.reviewAuthority ∧
    r.humanRuling = none ∧ e.after.approval row.key = some { r with humanRuling := some ruling }

/-- The id's offer was replaced or withdrawn. -/
def Entry.Rotates (e : Entry) (requestId : RequestId) : Prop :=
  ∃ contextId taskId claim offer,
    e.transaction = some (.recordHumanReview contextId taskId claim requestId offer)

/-- The ruling was submitted under the id, and `record_human_ruling` said yes. -/
def Entry.Accepts (e : Entry) (requestId : RequestId) (ruling : Ruling) : Prop :=
  ∃ taskId, e.transaction = some (.recordHumanRuling requestId taskId ruling) ∧
    recordHumanRuling requestId taskId ruling e.before = .ok (true, e.after)

lemma Entry.transaction_eq {e : Entry} (h : e.transaction = some q) :
    ∃ actor reply before after, e = ⟨actor, .query q, reply, true, before, after⟩ := by
  obtain ⟨actor, call, reply, committed, before, after⟩ := e
  cases call with
  | query q' =>
    cases committed with
    | true =>
      cases h
      exact ⟨_, _, _, _, rfl⟩
    | false => cases h
  | _ => cases h

lemma Entry.transaction_idle {actor : Actor} {c : Call} {reply : Except Exn c.Reply}
    {before after : Db} : Entry.transaction ⟨actor, c, reply, false, before, after⟩ = none := by
  cases c <;> rfl

/-- What replacing an offer found, and what it left. -/
lemma recordHumanReview_rotates {contextId : ContextId} {taskId : TaskId} {claim : ClaimId}
    {offer : Offer} {v : Unit}
    (h : recordHumanReview contextId taskId claim requestId offer fresh db = .ok (v, db')) :
    ∃ r, db.approval r.key = some r ∧ db.undecided contextId taskId claim requestId r = true ∧
      db'.approval r.key = some (r.rotate offer fresh) := by
  simp only [recordHumanReview] at h
  split at h
  · cases h
  · cases h
    exact Db.setApprovals_ok ‹_›

/-- What recording a decision found, and what it left. -/
lemma recordPolicyDecision_decides {contextId : ContextId} {taskId : TaskId} {claim : ClaimId}
    {decision : Ruling} {v : Unit}
    (h : recordPolicyDecision contextId taskId claim requestId decision db = .ok (v, db')) :
    ∃ r, db.approval r.key = some r ∧ db.undecided contextId taskId claim requestId r = true ∧
      db'.approval r.key = some { r with decision := some decision, status := .resolving } := by
  simp only [recordPolicyDecision] at h
  split at h
  · cases h
  · cases h
    exact Db.setApprovals_ok ‹_›

/-! ### What an id stands for -/

/-- A listed id belongs to the row it was listed with. -/
lemma listed_id (hE : Within E) (hs : Knowing E s) {e : Entry} (he : e ∈ s.world.log)
    {actor : Actor} {row : ApprovalRow} (h : e.Lists actor row) :
    Fixed row.requestId (·.key = row.key) s.world.uuid s.world.db := by
  refine Knowing.history (P := fun log uuid db => ∀ e ∈ log, ∀ actor row, e.Lists actor row →
    Fixed row.requestId (·.key = row.key) uuid db) hE (by simp)
    (fun _ h e he actor row hlist => ⟨(h e he actor row hlist).rows, (h e he actor row hlist).used⟩)
    ?_ ?_ hs e he actor row h
  · intro log uuid db a c r uuid' h huuid
    refine List.forall_mem_cons.mpr ⟨?_, fun e he a' row hlist => (h e he a' row hlist).mono huuid⟩
    rintro actor row ⟨taskId, requests, before, after, heq, -⟩
    cases heq
  · intro s a q v r db' hs h hask hrun hr
    have htidy := Knowing.tidy hE hs
    have hstep : ∀ {row : ApprovalRow},
        Fixed row.requestId (·.key = row.key) s.world.uuid s.world.db →
        Fixed row.requestId (·.key = row.key) (s.world.uuid + 1) db' := fun hfixed =>
      hfixed.step htidy (Query.run_approvals hrun) hask.names
        fun _ hchange hkey => hchange.same_key.trans hkey
    refine List.forall_mem_cons.mpr ⟨?_, fun e he a' row hlist => hstep (h e he a' row hlist)⟩
    rintro actor row ⟨taskId, requests, before, after, heq, hrow⟩
    cases heq
    cases hrun
    have hrow : s.world.db.approval row.key = some row := by
      rcases hr with hr | hr
      · cases hr
        exact Db.requestsOf_approval (List.mem_insertionSort _ |>.mp hrow)
      · cases hr
    refine hstep ⟨fun hr' hid => ?_, htidy.used hrow⟩
    exact (Db.approval_key hr').trans (htidy.unique hr' hrow hid)

/-- The id of a replaced offer is nobody's. -/
lemma rotated_dead (hE : Within E) (hs : Knowing E s) {e : Entry} (he : e ∈ s.world.log)
    (h : e.Rotates requestId) : Fixed requestId (fun _ => False) s.world.uuid s.world.db := by
  refine Knowing.history (P := fun log uuid db => ∀ e ∈ log, ∀ requestId, e.Rotates requestId →
    Fixed requestId (fun _ => False) uuid db) hE (by simp)
    (fun _ h e he rid hrotate => ⟨(h e he rid hrotate).rows, (h e he rid hrotate).used⟩)
    ?_ ?_ hs e he requestId h
  · intro log uuid db a c r uuid' h huuid
    refine List.forall_mem_cons.mpr ⟨?_, fun e he rid hrotate => (h e he rid hrotate).mono huuid⟩
    rintro rid ⟨contextId, taskId, claim, offer, hq⟩
    rw [Entry.transaction_idle] at hq
    cases hq
  · intro s a q v r db' hs h hask hrun hr
    have htidy := Knowing.tidy hE hs
    refine List.forall_mem_cons.mpr ⟨?_, fun e he rid hrotate =>
      (h e he rid hrotate).step htidy (Query.run_approvals hrun) hask.names fun _ _ => id⟩
    rintro rid ⟨contextId, taskId, claim, offer, hq⟩
    cases hq
    -- the row that had the id has a fresh one now
    obtain ⟨r₀, hr₀, hguard, hrotated⟩ := recordHumanReview_rotates hrun
    have hid₀ : r₀.requestId = rid := (Db.undecided_row hguard).1
    have hfixed : Fixed rid (fun r => r.key = r₀.key) (s.world.uuid + 1) db' := by
      refine Fixed.step ⟨fun hr' hid => ?_, hid₀ ▸ htidy.used hr₀⟩ htidy
        (Query.run_approvals hrun) hask.names fun _ hchange hkey => hchange.same_key.trans hkey
      exact (Db.approval_key hr').trans (htidy.unique hr' hr₀ (hid.trans hid₀.symm))
    refine ⟨fun {key r'} hr' hid => ?_, hfixed.used⟩
    have hkey := hfixed.rows hr' hid
    rw [Db.approval_key hr'] at hkey
    rw [hkey, hrotated, Option.some.injEq] at hr'
    rw [← hr'] at hid
    have hnamed := htidy.named hr₀
    unfold ApprovalRow.Named at hnamed
    rw [hid₀, ← hid] at hnamed
    exact Nat.lt_irrefl _ hnamed

/-- What a ruling that was accepted found, and what it left. -/
lemma Entry.Accepts.row {e : Entry} {ruling : Ruling} (h : e.Accepts requestId ruling) :
    (∃ r, e.after.approval r.key = some r ∧ r.requestId = requestId ∧
      r.humanRuling = some ruling) ∧
    ∃ r, e.before.approval r.key = some r ∧ r.requestId = requestId ∧
      (r.humanRuling = none ∨ r.humanRuling = some ruling) := by
  obtain ⟨taskId, -, hrun⟩ := h
  rcases (recordHumanRuling_ok hrun).2 with ⟨hsame, hrow⟩ | ⟨-, r, hr, hid, -, hnew, -, ha⟩
  · obtain ⟨r, hr, hid, hruling⟩ := hrow rfl
    exact ⟨⟨r, hsame ▸ hr, hid, hruling⟩, r, hr, hid, .inr hruling⟩
  · refine ⟨⟨{ r with humanRuling := some ruling }, ?_, hid, rfl⟩, r, hr, hid, .inl hnew⟩
    change e.after.approval r.key = _
    rw [ha, Db.mapApprovals_some hr, if_pos (beq_iff_eq.mpr hid)]

/-- A ruling that is there stays, as long as its offer does. -/
lemma RowChange.ruling (h : RowChange fresh db r q r') (hold : r'.requestId ≠ .random fresh)
    {ruling : Ruling} (hruling : r.humanRuling = some ruling) : r'.humanRuling = some ruling := by
  cases h with
  | rotated => exact absurd rfl hold
  | ruled _ _ hnew =>
    rw [hnew] at hruling
    cases hruling
  | same | decided | denied | resolved | marked => exact hruling

/-- What was accepted under an id is what its row says. -/
lemma accepted_stays (hE : Within E) (hs : Knowing E s) {e : Entry} (he : e ∈ s.world.log)
    {ruling : Ruling} (h : e.Accepts requestId ruling) :
    Fixed requestId (·.humanRuling = some ruling) s.world.uuid s.world.db := by
  refine Knowing.history (P := fun log uuid db => ∀ e ∈ log, ∀ requestId ruling,
    e.Accepts requestId ruling → Fixed requestId (·.humanRuling = some ruling) uuid db) hE (by simp)
    (fun _ h e he rid ruling hacc => ⟨(h e he rid ruling hacc).rows, (h e he rid ruling hacc).used⟩)
    ?_ ?_ hs e he requestId ruling h
  · intro log uuid db a c r uuid' h huuid
    refine List.forall_mem_cons.mpr
      ⟨?_, fun e he rid ruling hacc => (h e he rid ruling hacc).mono huuid⟩
    rintro rid ruling ⟨taskId, hq, -⟩
    rw [Entry.transaction_idle] at hq
    cases hq
  · intro s a q v r db' hs h hask hrun hr
    have htidy := Knowing.tidy hE hs
    have heff := Query.run_approvals hrun
    refine List.forall_mem_cons.mpr ⟨fun rid ruling hacc => ?_, fun e he rid ruling hacc =>
      (h e he rid ruling hacc).step htidy heff hask.names fun hold hchange hruling =>
        hchange.ruling hold hruling⟩
    have htidy' := htidy.step heff hask.names
    obtain ⟨r₀, hr₀, hid₀, hruling⟩ := hacc.row.1
    refine ⟨fun hr' hid => ?_, hid₀ ▸ htidy'.used hr₀⟩
    have hkey := htidy'.unique hr' hr₀ (hid.trans hid₀.symm)
    have hthere : db'.approval r₀.key = some r₀ := hr₀
    rw [hkey, hthere, Option.some.injEq] at hr'
    rw [← hr']
    exact hruling

/-- Two rulings accepted under one id are the same. -/
lemma accepted_agree (hE : Within E) (hs : Knowing E s) {e e' : Entry} (he : e ∈ s.world.log)
    (he' : e' ∈ s.world.log) {ruling ruling' : Ruling} (h : e.Accepts requestId ruling)
    (h' : e'.Accepts requestId ruling') : ruling = ruling' := by
  refine Knowing.history (P := fun log _ _ => ∀ e ∈ log, ∀ e' ∈ log, ∀ ruling ruling',
    e.Accepts requestId ruling → e'.Accepts requestId ruling' → ruling = ruling') hE (by simp)
    (fun _ h => h) ?_ ?_ hs e he e' he' ruling ruling' h h'
  · intro log uuid db a c r uuid' h _ e he e' he' ruling ruling' hacc hacc'
    have hidle : ∀ {ruling}, ¬ Entry.Accepts ⟨a, c, r, false, db, db⟩ requestId ruling := by
      rintro ruling ⟨taskId, hq, -⟩
      rw [Entry.transaction_idle] at hq
      cases hq
    rcases List.mem_cons.mp he with rfl | he
    · exact absurd hacc hidle
    rcases List.mem_cons.mp he' with rfl | he'
    · exact absurd hacc' hidle
    exact h e he e' he' ruling ruling' hacc hacc'
  · intro s a q v r db' hs h hask hrun hr e he e' he' ruling ruling' hacc hacc'
    -- a ruling that is accepted now is the one accepted before
    have hnow : ∀ {e ruling ruling'}, e ∈ s.world.log → e.Accepts requestId ruling →
        Entry.Accepts ⟨a, .query q, r, true, s.world.db, db'⟩ requestId ruling' →
        ruling = ruling' := by
      intro e ruling ruling' he hacc hacc'
      have hfixed := accepted_stays hE hs he hacc
      obtain ⟨r₀, hr₀, hid, hruling⟩ := hacc'.row.2
      have hbefore := hfixed.rows hr₀ hid
      rcases hruling with hnone | hsome
      · exact absurd (hbefore.symm.trans hnone) nofun
      · exact Option.some.inj (hbefore.symm.trans hsome)
    rcases List.mem_cons.mp he with rfl | he <;> rcases List.mem_cons.mp he' with rfl | he'
    · obtain ⟨taskId, hq, -⟩ := hacc
      obtain ⟨taskId', hq', -⟩ := hacc'
      have hsame := hq.symm.trans hq'
      cases hsame
      rfl
    · exact (hnow he' hacc' hacc).symm
    · exact hnow he hacc hacc'
    · exact h e he e' he' ruling ruling' hacc hacc'

/-! ### What a decision rests on -/

/-- A row's ruling was recorded under its id, on the offer it shows. -/
lemma ruled_before (hE : Within E) (hs : Knowing E s) (hr : s.world.db.approval key = some r)
    {ruling : Ruling} (hruling : r.humanRuling = some ruling) :
    ∃ e ∈ s.world.log, e.Rules r ruling := by
  have hmore : ∀ {e : Entry} {log : List Entry} {r : ApprovalRow},
      (∃ e ∈ log, e.Rules r ruling) → ∃ e' ∈ e :: log, e'.Rules r ruling := by
    rintro e log r ⟨e', he', hrules⟩
    exact ⟨e', List.mem_cons_of_mem _ he', hrules⟩
  refine Knowing.history (P := fun log _ db => ∀ key r, db.approval key = some r →
    r.humanRuling = some ruling → ∃ e ∈ log, e.Rules r ruling) hE
    (fun key r hr => by cases hr) (fun _ h => h) ?_ ?_ hs key r hr hruling
  · exact fun h _ key r hr hruling => hmore (h key r hr hruling)
  · intro s a q v r₁ db' hs h hask hrun hr₁ key r' hr' hruling
    have heff := Query.run_approvals hrun
    cases hr : s.world.db.approval key with
    | none =>
      obtain ⟨requestId, contextId, claim, -, rfl, -⟩ := heff.new hr hr'
      cases hruling
    | some r =>
      obtain ⟨r'', hr'', hchange⟩ := heff.row (Knowing.tidy hE hs) hr
      have hsame : r'' = r' := Option.some.inj (hr''.symm.trans hr')
      subst hsame
      have hkey := Db.approval_key hr
      cases hchange with
      | same | decided | denied | resolved | marked =>
        obtain ⟨e, he, hrules⟩ := h key r hr hruling
        exact hmore ⟨e, he, hrules⟩
      | rotated => cases hruling
      | @ruled requestId taskId ruling' hid hdigest hnew hpending =>
        cases hruling
        subst hid hkey
        exact ⟨_, List.mem_cons_self, taskId, r, rfl, hr, rfl, rfl, rfl, hnew, hr'⟩

/-- Where a worker's copies come from, and its verdict about them. -/
def Sourced (i : ℕ) (k : Known) (log : List Entry) : Prop :=
  ∀ row ∈ k.rows, ∃ mid listing old, log = mid ++ listing :: old ∧
    listing.Lists (.worker i) row ∧ (∀ e ∈ mid, ¬ e.Relists (.worker i)) ∧
    ∀ verdict, k.verdict = some verdict → ∃ e ∈ mid, e.Says (.worker i) verdict

/-- Later entries that are not listings of the worker's keep its copies. -/
lemma Sourced.keep {i : ℕ} {log : List Entry} (h : Sourced i k log) {e : Entry}
    (hrows : k'.rows = k.rows) (he : ¬ e.Relists (.worker i))
    (hverdict : ∀ verdict, k'.verdict = some verdict →
      k.verdict = some verdict ∨ e.Says (.worker i) verdict) : Sourced i k' (e :: log) := by
  intro row hrow
  obtain ⟨mid, listing, old, hlog, hlists, hmid, hverdicts⟩ := h row (hrows ▸ hrow)
  refine ⟨e :: mid, listing, old, by rw [hlog, List.cons_append], hlists,
    List.forall_mem_cons.mpr ⟨he, hmid⟩, fun verdict hv => ?_⟩
  rcases hverdict verdict hv with hbefore | hnow
  · obtain ⟨x, hx, hsaid⟩ := hverdicts verdict hbefore
    exact ⟨x, List.mem_cons_of_mem _ hx, hsaid⟩
  · exact ⟨e, List.mem_cons_self, hnow⟩

/-- Nothing is copied. -/
lemma Sourced.none {i : ℕ} {log : List Entry} (h : k.rows = []) : Sourced i k log := by
  intro row hrow
  rw [h] at hrow
  cases hrow

/-- Only a listing brings copies. -/
lemma Known.learnQuery_rows (k : Known) (q : Query) (r : Except Exn q.Reply) :
    (k.learnQuery q r).rows = [] ∨
    (∃ taskId requests, (⟨q, r⟩ : Σ q : Query, Except Exn q.Reply) =
      ⟨.listInputRequests taskId, .ok requests⟩) ∨
    ((k.learnQuery q r).rows = k.rows ∧ (k.learnQuery q r).verdict = k.verdict) ∧
      ∀ taskId requests, (⟨q, r⟩ : Σ q : Query, Except Exn q.Reply) ≠
        ⟨.listInputRequests taskId, .ok requests⟩ := by
  cases hplain : plain q with
  | true =>
    obtain ⟨view, task, lost, finished, picked, hk⟩ := learnQuery_plain hplain k r
    refine .inr (.inr ⟨by rw [hk]; exact ⟨rfl, rfl⟩, fun taskId requests heq => ?_⟩)
    cases heq
    cases hplain
  | false =>
    cases q with
    | claimScheduler contextId =>
      refine .inr (.inr ⟨?_, fun _ _ heq => by cases heq⟩)
      rcases r with e | _ | claim <;> exact ⟨rfl, rfl⟩
    | activateTask contextId taskId claim predecessor =>
      refine .inr (.inr ⟨?_, fun _ _ heq => by cases heq⟩)
      cases r with
      | error e => exact ⟨rfl, rfl⟩
      | ok t =>
        simp only [learnQuery, activated]
        split <;> exact ⟨rfl, rfl⟩
    | markConfirmationAttempted requestId contextId claim =>
      refine .inr (.inr ⟨?_, fun _ _ heq => by cases heq⟩)
      rcases r with e | _ | _ <;> exact ⟨rfl, rfl⟩
    | listInputRequests taskId =>
      cases r with
      | error e => exact .inr (.inr ⟨⟨rfl, rfl⟩, fun _ _ heq => by cases heq⟩)
      | ok requests => exact .inr (.inl ⟨taskId, requests, rfl⟩)
    | denyCancelledInputRequest requestId contextId claim => cases r <;> exact .inl rfl
    | _ => cases hplain

/-- Only an exchange brings a verdict. -/
lemma Known.learn_verdict {c : Call} (k : Known) (hc : ∀ q, c ≠ .query q) (r : Except Exn c.Reply)
    {verdict : Verdict} (h : (k.learn c r).verdict = some verdict) :
    k.verdict = some verdict ∨ (⟨c, r⟩ : Σ c : Call, Except Exn c.Reply) =
      ⟨.policyExchange verdict.request verdict.resolution, .ok verdict.decision⟩ := by
  cases c with
  | query q => exact absurd rfl (hc q)
  | policyExchange request resolution =>
    cases r with
    | error e => cases h
    | ok decision =>
      cases h
      exact .inr rfl
  | _ => cases r <;> exact .inl h

/-- **Every copy was listed by its worker, and every verdict came after that.** -/
theorem sourced (hE : Within E) (hs : Knowing E s) {i : ℕ} (hk : s.knows i = some k) :
    Sourced i k s.world.log := by
  refine Knowing.worker (Q := fun i k log _ _ => Sourced i k log) hE
    (fun _ _ _ _ => .none rfl) (fun _ h => h) ?_ ?_ ?_ ?_ ?_ hs hk
  · intro i k log uuid db a c r uuid' ha h _
    refine h.keep rfl ?_ fun _ => .inl
    rintro ⟨taskId, requests, before, after, heq⟩
    cases heq
  · intro s i k a q v r db' hs hk ha h hask hrun hr
    refine h.keep rfl ?_ fun _ => .inl
    rintro ⟨taskId, requests, before, after, heq⟩
    cases heq
    exact ha rfl
  · intro s i k q v r db' hs hk h hallow hrun hr
    rcases k.learnQuery_rows q r with hnone | ⟨taskId, requests, heq⟩ | ⟨⟨hrows, hverdict⟩, hne⟩
    · exact .none hnone
    · cases heq
      intro row hrow
      obtain ⟨request, hmem, hrequest⟩ := List.mem_filterMap.mp hrow
      cases request with
      | clarification row' => cases hrequest
      | approval row' =>
        cases hrequest
        exact ⟨[], _, s.world.log, rfl, ⟨taskId, requests, _, _, rfl, hmem⟩, by simp,
          fun verdict hv => by cases hv⟩
    · refine h.keep hrows ?_ fun verdict hv => .inl (hverdict ▸ hv)
      rintro ⟨taskId, requests, before, after, heq⟩
      cases heq
      exact hne _ _ rfl
  · intro i k log uuid db q e h hallow
    rcases k.learnQuery_rows q (.error e) with hnone | ⟨taskId, requests, heq⟩ |
      ⟨⟨hrows, hverdict⟩, hne⟩
    · exact .none hnone
    · cases heq
    · refine h.keep hrows ?_ fun verdict hv => .inl (hverdict ▸ hv)
      rintro ⟨taskId, requests, before, after, heq⟩
      cases heq
  · intro i k log uuid db c r uuid' h hc hallow _
    refine h.keep (k.learn_rows_other hc r) ?_ fun verdict hv => ?_
    · rintro ⟨taskId, requests, before, after, heq⟩
      cases heq
    · rcases k.learn_verdict hc r hv with hsame | heq
      · exact .inl hsame
      · cases heq
        exact .inr ⟨_, _, rfl⟩

/-- A ruling that a listed row has was recorded before, on the offer the row shows: the copy was the
row in the store when it was listed. -/
lemma listed_ruling (hE : Within E) (hs : Knowing E s) {mid old : List Entry} {listing : Entry}
    {actor : Actor} {row : ApprovalRow} {ruling : Ruling}
    (hlog : s.world.log = mid ++ listing :: old) (hlists : listing.Lists actor row)
    (hruling : row.humanRuling = some ruling) :
    ∃ digest, row.reviewDigest = some digest ∧ ∃ ruled ∈ old, ruled.Rules row ruling := by
  obtain ⟨taskId, requests, before, after, rfl, hmem⟩ := hlists
  obtain ⟨s₀, hs₀, hlog₀, hdb₀, -, v, hrun, hr⟩ := Knowing.moment_commit hE hs hlog
  cases hrun
  have hlisted : s₀.world.db.approval row.key = some row := by
    rcases hr with hr | hr
    · cases hr
      rw [hdb₀]
      exact Db.requestsOf_approval ((List.mem_insertionSort _).mp hmem)
    · cases hr
  have hoffered := (Knowing.tidy hE hs₀).offered hlisted (by rw [hruling]; rfl)
  obtain ⟨digest, hdigest⟩ := Option.isSome_iff_exists.mp hoffered
  refine ⟨digest, hdigest, ?_⟩
  rw [← hlog₀]
  exact ruled_before hE hs₀ hlisted hruling

/-- What the engine is asked is what a history showed. -/
lemma asked_shown {s : System} (hs : Reachable s) {later earlier : List Entry} {e : Entry} {i : ℕ}
    {verdict : Verdict} (hlog : s.world.log = later ++ e :: earlier)
    (hgave : e.Says (.worker i) verdict) :
    ∃ source, (∃ shown ∈ earlier, shown.Shows (.worker i) verdict.request.invocationId source) ∧
      toolPolicyRequest verdict.request.rootId verdict.request.agentId verdict.request.invocationId
        (some source) = .ok verdict.request := by
  obtain ⟨knows, hknows, -⟩ := Parties.simulates (fun p hp => grounded_job hp)
    (fun _ _ _ _ _ _ _ _ _ _ => trivial) hs
  have hchronicled : Parties.Chronicled (fun w : World => w.log.map Entry.deed) Record.Disciplined
      ⟨s.world, knows, s.spawned⟩ := by
    refine hknows.chronicled ?_ ?_ rfl
    · intro w a c r w' hexec
      obtain ⟨committed, hnoted⟩ := exec_noted hexec
      exact ⟨_, by rw [hnoted, List.map_cons], rfl, rfl⟩
    · rintro w w' ⟨now, history, -, rfl⟩
      rfl
  obtain ⟨before, after, rfl⟩ := hgave
  have hallowed := hchronicled.allowed (later.map Entry.deed) _ (earlier.map Entry.deed) i
    (by rw [hlog, List.map_append, List.map_cons]) rfl
  obtain ⟨source, ⟨sessionId, events, hheard, hsource⟩, hrequest⟩ := hallowed
  obtain ⟨d, hd, hactor, hsaid⟩ := Chronicle.mem_of.mp hheard
  obtain ⟨shown, hshown, rfl⟩ := List.mem_map.mp hd
  exact ⟨source, ⟨shown, hshown, hactor, sessionId, events, hsaid, hsource⟩, hrequest⟩

/-- The row a decision is recorded in, and the copy it rests on. -/
lemma decided_row (hE : Within E) (hs : Knowing E s) {i : ℕ} {contextId : ContextId}
    {taskId : TaskId} {claim : ClaimId} {decision : Ruling} (hk : s.knows i = some k)
    (hallow : k.allowedQuery (.recordPolicyDecision contextId taskId claim requestId decision)) :
    ∃ row ∈ k.rows, row.requestId = requestId ∧ row.taskId = taskId ∧
      (∃ verdict, k.verdict = some verdict ∧ verdict.request.rootId = contextId ∧
        verdict.request.invocationId = row.cmaEventId ∧
        (decision = .allow → verdict.decision.decision = .allow) ∧
        (verdict.resolution = none ∧ row.reviewDigest = none ∨
          ∃ ruling, row.humanRuling = some ruling ∧
            verdict.resolution = some ⟨row.reviewDigest, row.reviewAuthority, ruling⟩ ∧
            (ruling = .deny → verdict.decision.decision = .deny))) ∧
      ∀ {key r}, s.world.db.approval key = some r → r.requestId = requestId →
        key = row.key ∧ r.reviewDigest = row.reviewDigest ∧
        ∀ ruling, row.humanRuling = some ruling → r.humanRuling = some ruling := by
  obtain ⟨row, hrow, hid, htask, hrests⟩ := hallow.2.rests
  refine ⟨row, hrow, hid, htask, hrests, fun {key r} hr hid' => ?_⟩
  obtain ⟨mid, listing, old, hlog, hlists, -, -⟩ := sourced hE hs hk row hrow
  have hlisting : listing ∈ s.world.log := by rw [hlog]; simp
  have hkey := (listed_id hE hs hlisting hlists).rows hr (hid'.trans hid.symm)
  rw [Db.approval_key hr] at hkey
  obtain ⟨r', hr', hversion⟩ := (Knowing.copies hE hs hk).version hrow
  rw [← hkey, hr, Option.some.injEq] at hr'
  subst hr'
  obtain ⟨hdigest, -, hruling⟩ := hversion.offer (hid'.trans hid.symm)
  exact ⟨hkey, hdigest, hruling⟩

/-- A row that a human denied is not one a worker may allow. -/
lemma denied_not_allowed (hE : Within E) (hs : Knowing E s) {i : ℕ} {contextId : ContextId}
    {taskId : TaskId} {claim : ClaimId} (hk : s.knows i = some k)
    (hallow : k.allowedQuery (.recordPolicyDecision contextId taskId claim requestId .allow))
    (hr : s.world.db.approval key = some r) (hid : r.requestId = requestId) :
    r.humanRuling ≠ some .deny := by
  intro hruling
  obtain ⟨row, hrow, -, -, ⟨verdict, -, -, -, hyes, hoffer⟩, hsame⟩ := decided_row hE hs hk hallow
  obtain ⟨-, hdigest, hkept⟩ := hsame hr hid
  have hallowed := hyes rfl
  rcases hoffer with ⟨-, hnone⟩ | ⟨ruling, hrow, -, hdeny⟩
  · -- a row without an offer has no ruling
    have hoffered := (Knowing.tidy hE hs).offered hr (by rw [hruling]; rfl)
    rw [hdigest, hnone] at hoffered
    cases hoffered
  · have hsame := (hkept ruling hrow).symm.trans hruling
    cases hsame
    rw [hdeny rfl] at hallowed
    cases hallowed

/-- A denial stays until the row's offer is replaced. -/
lemma denial_stays (hE : Within E) (hs : Knowing E s) {row : ApprovalRow}
    {between old : List Entry} {ruled : Entry} (hlog : s.world.log = between ++ ruled :: old)
    (h : ruled.Rules row .deny) :
    (∃ x ∈ between, ∃ r, x.before.approval row.key = some r ∧ x.Rotates r.requestId) ∨
      ∃ r, s.world.db.approval row.key = some r ∧ r.humanRuling = some .deny := by
  refine Knowing.history (P := fun log _ db => ∀ (between : List Entry) (ruled : Entry) old,
    log = between ++ ruled :: old → ruled.Rules row .deny →
    (∃ x ∈ between, ∃ r, x.before.approval row.key = some r ∧ x.Rotates r.requestId) ∨
      ∃ r, db.approval row.key = some r ∧ r.humanRuling = some .deny) hE
    (by simp) (fun _ h => h) ?_ ?_ hs between ruled old hlog h
  · intro log uuid db a c r uuid' h _ between ruled old hsplit hrules
    rcases List.cons_eq_append_iff.mp hsplit with ⟨rfl, hnow⟩ | ⟨between', rfl, hbefore⟩
    · cases hnow
      obtain ⟨taskId, r, hq, -⟩ := hrules
      rw [Entry.transaction_idle] at hq
      cases hq
    · rcases h between' ruled old hbefore hrules with ⟨x, hx, hrotates⟩ | hrow
      · exact .inl ⟨x, List.mem_cons_of_mem _ hx, hrotates⟩
      · exact .inr hrow
  · intro s a q v r db' hs h hask hrun hr between ruled old hsplit hrules
    rcases List.cons_eq_append_iff.mp hsplit with ⟨rfl, hnow⟩ | ⟨between', rfl, hbefore⟩
    · cases hnow
      obtain ⟨taskId, r, -, -, -, -, -, -, hafter⟩ := hrules
      exact .inr ⟨_, hafter, rfl⟩
    · rcases h between' ruled old hbefore hrules with ⟨x, hx, hrotates⟩ | ⟨r₀, hr₀, hdeny⟩
      · exact .inl ⟨x, List.mem_cons_of_mem _ hx, hrotates⟩
      · obtain ⟨r', hr', hchange⟩ := (Query.run_approvals hrun).row (Knowing.tidy hE hs) hr₀
        cases hchange with
        | same | decided | denied | resolved | marked => exact .inr ⟨_, hr', hdeny⟩
        | ruled _ _ hnew =>
          rw [hnew] at hdeny
          cases hdeny
        | @rotated contextId taskId claim requestId offer hguard =>
          have hid : r₀.requestId = requestId := (Db.undecided_row hguard).1
          subst hid
          exact .inl ⟨_, List.mem_cons_self, r₀, hr₀, contextId, taskId, claim, offer, rfl⟩

/-- **Consent integrity.** An `allow` is recorded in a row only by a worker that had listed it,
under the id it still has, and to which the engine had then allowed the row's call, asked about the
very tool use that a history had shown under the row's event: without an offer in the copy, or with
the copy's offer and the `allow` that a human had recorded under that id, on that offer. A ruling
under the id of a replaced offer changes nothing; a row that a human denied is not allowed before
its offer is replaced; and two rulings accepted under one id are the same. -/
theorem consent_integrity {s : System} (hs : Reachable s) :
    (∀ later e earlier contextId taskId claim requestId, s.world.log = later ++ e :: earlier →
      e.transaction = some (.recordPolicyDecision contextId taskId claim requestId .allow) →
      ∃ row r mid listing old, e.before.approval row.key = some r ∧
        row.requestId = requestId ∧ r.requestId = requestId ∧
        earlier = mid ++ listing :: old ∧ listing.Lists e.actor row ∧
        (∀ x ∈ mid, ¬ x.Relists e.actor) ∧
        ∃ since asked ago, mid = since ++ asked :: ago ∧
          (row.reviewDigest = none ∧
            asked.Evaluates (ago ++ listing :: old) e.actor contextId row none ∨
          ∃ digest, row.reviewDigest = some digest ∧
            asked.Evaluates (ago ++ listing :: old) e.actor contextId row
              (some ⟨some digest, row.reviewAuthority, .allow⟩) ∧
            ∃ ruled ∈ old, ruled.Rules row .allow)) ∧
    (∀ later e earlier x requestId taskId ruling, s.world.log = later ++ e :: earlier →
      x ∈ earlier → x.Rotates requestId →
      e.transaction = some (.recordHumanRuling requestId taskId ruling) → e.after = e.before) ∧
    (∀ later e between ruled old row, s.world.log = later ++ e :: (between ++ ruled :: old) →
      ruled.Rules row .deny → e.Allows row.key →
      ∃ x ∈ between, ∃ r, x.before.approval row.key = some r ∧ x.Rotates r.requestId) ∧
    ∀ e ∈ s.world.log, ∀ e' ∈ s.world.log, ∀ requestId ruling ruling',
      e.Accepts requestId ruling → e'.Accepts requestId ruling' → ruling = ruling' := by
  obtain ⟨knows, hknows⟩ := parties .environment hs
  refine ⟨?_, ?_, ?_, fun e he e' he' _ _ _ => accepted_agree .environment hknows he he'⟩
  · intro later e earlier contextId taskId claim requestId hlog hq
    obtain ⟨actor, reply, before, after, rfl⟩ := Entry.transaction_eq hq
    obtain ⟨s₁, hs₁, hlog₁, hdb₁, hask, v, hrun, -⟩ :=
      Knowing.moment_commit .environment hknows hlog
    cases actor with
    | client => cases hask
    | worker i =>
      obtain ⟨k, hk, hallow⟩ := hask
      obtain ⟨row, hrow, hid, htask, ⟨verdict, hverdict, hroot, hcall, hyes, hoffer⟩, hsame⟩ :=
        decided_row .environment hs₁ hk hallow
      obtain ⟨mid, listing, old, hsplit, hlists, hmid, hverdicts⟩ :=
        sourced .environment hs₁ hk row hrow
      obtain ⟨x, hx, hsaid⟩ := hverdicts verdict hverdict
      obtain ⟨since, ago, hsplit'⟩ := List.append_of_mem hx
      have hlog' : s.world.log = (later ++ ⟨.worker i, .query
          (.recordPolicyDecision contextId taskId claim requestId .allow), reply, true, before,
          after⟩ :: since) ++ x :: (ago ++ listing :: old) := by
        rw [hlog, ← hlog₁, hsplit, hsplit']
        simp
      obtain ⟨source, hshown, hrequest⟩ := asked_shown hs hlog' hsaid
      rw [hroot, hcall] at hrequest
      rw [hcall] at hshown
      -- the row that was decided is the one that was listed
      obtain ⟨r, hr, hguard, -⟩ := recordPolicyDecision_decides hrun
      have hid' : r.requestId = requestId := (Db.undecided_row hguard).1
      have hkey := (hsame (hdb₁ ▸ hr) hid').1
      refine ⟨row, r, mid, listing, old, hkey ▸ hr, hid, hid', by rw [← hlog₁, hsplit], hlists,
        hmid, since, x, ago, hsplit', ?_⟩
      have hevaluates : ∀ resolution, verdict.resolution = resolution →
          x.Evaluates (ago ++ listing :: old) (.worker i) contextId row resolution :=
        fun _ h => ⟨verdict, source, _, hsaid, hshown, hrequest, h, hyes rfl⟩
      rcases hoffer with ⟨hresolution, hnone⟩ | ⟨ruling, hruling, hresolution, hdeny⟩
      · exact .inl ⟨hnone, hevaluates _ hresolution⟩
      · right
        cases ruling with
        | deny =>
          have hno := hdeny rfl
          rw [hyes rfl] at hno
          cases hno
        | allow =>
          obtain ⟨digest, hdigest, hruled⟩ := listed_ruling .environment hs₁ hsplit hlists hruling
          exact ⟨digest, hdigest, hevaluates _ (by rw [hresolution, hdigest]), hruled⟩
  · intro later e earlier x requestId taskId ruling hlog hx hrotates hq
    obtain ⟨actor, reply, before, after, rfl⟩ := Entry.transaction_eq hq
    obtain ⟨s₁, hs₁, hlog₁, hdb₁, -, v, hrun, -⟩ := Knowing.moment_commit .environment hknows hlog
    have hdead := rotated_dead .environment hs₁ (hlog₁ ▸ hx) hrotates
    rw [hdb₁] at hdead
    rcases (recordHumanRuling_ok hrun).2 with ⟨hsame, -⟩ | ⟨-, r, hr, hid, -⟩
    · exact hsame
    · exact (hdead.rows hr hid).elim
  · intro later e between ruled old row hlog hrules hallows
    obtain ⟨contextId, claim, requestId, r, hq, hr, hguard⟩ := hallows
    obtain ⟨actor, reply, before, after, rfl⟩ := Entry.transaction_eq hq
    obtain ⟨s₁, hs₁, hlog₁, hdb₁, hask, v, hrun, -⟩ :=
      Knowing.moment_commit .environment hknows hlog
    rcases denial_stays .environment hs₁ hlog₁ hrules with hrotated | ⟨r', hr', hdeny⟩
    · exact hrotated
    · cases actor with
      | client => cases hask
      | worker i =>
        obtain ⟨k, hk, hallow⟩ := hask
        have hid : r.requestId = requestId := (Db.undecided_row hguard).1
        rw [← hdb₁, hr', Option.some.injEq] at hr
        subst hr
        exact absurd hdeny (denied_not_allowed .environment hs₁ hk hallow hr' hid)

/-- The tool use is offered for review under id 18, a client allows it, and the next wakeup
resolves and records that. -/
def ruledTool : List Act :=
  firstTurnAsks 0 ++ calls 0
    [.decided { decision := .humanReview, review := some ⟨7, 8, "Run bash"⟩ }, .run, .run, .run,
      .run, .run, .run, .run, .run, .run, .run, .run, .done, .run] ++
  [.ask (.query (.recordHumanRuling (.random 18) 100 .allow)), .wake demo 1] ++ calls 1
    [.run, .run, .run, .events waitsForTool, .run, .run, .run, .events waitsForTool, .run, .run,
      .run, .run, .run, .time 0, .decided { decision := .allow }, .run]

def Query.decides? : Query → Option (ContextId × TaskId × ClaimId × RequestId × Ruling)
  | .recordPolicyDecision contextId taskId claim requestId decision =>
    some (contextId, taskId, claim, requestId, decision)
  | _ => none

/-- The decision recorded last rests on the copy that was listed under the offer's id. -/
theorem consent_integrity_ruled :
    ∃ s, play unchecked ruledTool = some s ∧ ∃ e ∈ s.world.log, ∃ listing ∈ s.world.log, ∃ row,
      listing.Lists e.actor row ∧ row.requestId = .random 18 := by
  obtain ⟨s, hs, hreach, hval⟩ := played
    (fun s => s.world.log.head?.bind fun e => e.transaction.bind Query.decides?)
    (show (play unchecked ruledTool).map _ = some (some (1, 100, 29, .random 18, .allow)) by
      decide +kernel)
  obtain ⟨e, he, hq⟩ := Option.bind_eq_some_iff.mp hval
  obtain ⟨q, htransaction, hdecides⟩ := Option.bind_eq_some_iff.mp hq
  obtain ⟨earlier, hlog⟩ := List.head?_eq_some_iff.mp he
  cases q with
  | recordPolicyDecision contextId taskId claim requestId decision =>
    cases hdecides
    obtain ⟨row, r, mid, listing, old, -, hid, -, hsplit, hlists, -⟩ :=
      (consent_integrity hreach).1 [] e earlier _ _ _ _ hlog htransaction
    refine ⟨s, hs, e, by rw [hlog]; simp, listing, ?_, row, hlists, hid⟩
    rw [hlog, hsplit]
    simp
  | _ => cases hdecides

end ManagedAgents.Controller
