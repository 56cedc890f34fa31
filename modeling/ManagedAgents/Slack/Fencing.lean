import ManagedAgents.Slack.Projector
import ManagedAgents.Lib.Replay

/-!
Stale projectors are fenced by their token, except where `mark_projection` looks at the lease
alone.

A projector that lost the stream's claim to another one changes the row no more and a task shown
as ended stays so, in every run in which no such projector marks the row while nobody streams
under a running lease.
-/

namespace ManagedAgents.Slack

open ManagedAgents.Lib
open ManagedAgents.Controller (A2aState Time Text)

/-- What one projector knows. -/
structure Known where
  claimed : Bool := false
  token : Option Token := none
  /-- The state its copy of the row shows. -/
  last : Option A2aState := none
  /-- The state of the task it read. -/
  read : Option A2aState := none
  finished : Bool := false

namespace Known

/-- The state it will leave in the row. -/
def state (k : Known) : Option A2aState := k.read <|> k.last

def learn (k : Known) : (c : Call) → Except Text c.Reply → Known
  | .claimTaskStream, .ok (.acquired token row) =>
    { claimed := true, token := some token, last := row.lastTaskState }
  | .claimTaskStream, _ => { claimed := true }
  | .getTask, .ok task => { k with read := some task.state }
  | .finishStream _ _ _ _, _ => { k with finished := true }
  | _, _ => k

/-- It claims once, writes under its token and marks what it read before it finishes. -/
def allowed (k : Known) : Call → Prop
  | .ensureProjection _ _ _ | .claimTaskStream => k.claimed = false
  | .updateStreamMessage token _ => k.token = some token
  | .markProjection state _ => k.token ≠ none ∧ k.read = some state ∧ k.finished = false
  | .finishStream token _ state _ => k.token = some token ∧ state = k.state
  | _ => True

end Known

def contract : Contract Call Call.Reply Text Known where
  possible _ _ _ := True
  allowed := Known.allowed
  learn := Known.learn

/-! ### The programs keep the contract -/

variable {k : Known} {α : Type}

/-- A call that teaches nothing. -/
lemma conforms_quiet {c : Call} {Q : c.Reply → Known → Prop} {P : Known → Prop}
    (hallow : k.allowed c) (hsame : ∀ r, k.learn c r = k) (hQ : ∀ v, Q v k) (hP : P k) :
    contract.Conforms (perform c) Q P k := by
  refine Contract.conforms_perform hallow (fun v _ => ?_) fun e _ => ?_
  · rw [show contract.learn k c (.ok v) = k from hsame _]
    exact hQ v
  · rw [show contract.learn k c (.error e) = k from hsame _]
    exact hP

/-- A program after which the projector knows what it knew, also when it raises. -/
abbrev Quiet (p : Program α) (k : Known) : Prop :=
  contract.Conforms p (fun _ k' => k' = k) (fun k' => k' = k) k

lemma quiet_perform {c : Call} (hallow : k.allowed c) (hsame : ∀ r, k.learn c r = k) :
    Quiet (perform c) k := conforms_quiet hallow hsame (fun _ => rfl) rfl

lemma Quiet.bind {β : Type} {p : Program α} {f : α → Program β} (hp : Quiet p k)
    (hf : ∀ a, Quiet (f a) k) : Quiet (p >>= f) k :=
  Contract.Conforms.bind hp fun a _ hk => hk ▸ hf a

lemma Quiet.tryCatch {p : Program α} {handler : Text → Program α} (hp : Quiet p k)
    (hh : ∀ e, Quiet (handler e) k) : Quiet (tryCatch p handler) k :=
  Contract.Conforms.tryCatch hp fun e _ hk => hk ▸ hh e

lemma Quiet.loop {ι β : Type} {body : ι → Program (Option β)} {is : List ι}
    (h : ∀ i, Quiet (body i) k) : Quiet (Prog.loop body is) k :=
  Contract.conforms_loop rfl fun i _ _ hk => hk ▸ h i

lemma quiet_pure {a : α} : Quiet (pure a : Program α) k := Contract.conforms_pure rfl

lemma quiet_throw {e : Text} : Quiet (throw e : Program α) k := Contract.conforms_throw rfl

lemma quiet_projectItem {item : Item} {busy : Text} {post : Token → Program Unit}
    (h : ∀ token, Quiet (post token) k) : Quiet (projectItem item busy post) k := by
  refine Quiet.bind (quiet_perform trivial fun _ => rfl) fun claim => ?_
  cases claim with
  | busy => exact quiet_throw
  | completed => exact quiet_pure
  | acquired token => exact h token

lemma quiet_postItem {item : Item} {token : Token} {post : Program MessageTs}
    (h : Quiet post k) : Quiet (postItem item token post) k := by
  refine Quiet.tryCatch (h.bind fun _ => quiet_perform trivial fun _ => rfl) fun e => ?_
  exact Quiet.bind (quiet_perform trivial fun _ => rfl) fun _ => quiet_throw

lemma quiet_projectMessage {streamTs : Option MessageTs} {message : AgentMessage} :
    Quiet (projectMessage streamTs message) k := by
  refine quiet_projectItem fun token => ?_
  split
  · exact quiet_perform trivial fun _ => rfl
  · refine quiet_postItem ?_
    cases streamTs with
    | none => exact quiet_perform trivial fun _ => rfl
    | some ts => exact Quiet.bind (quiet_perform trivial fun _ => rfl) fun _ => quiet_pure

lemma quiet_projectHumanInput {request : HumanRequest} :
    Quiet (projectHumanInput request) k :=
  quiet_projectItem fun _ => quiet_postItem (quiet_perform trivial fun _ => rfl)

/-- The stream's part marks the state that was read. -/
lemma quiet_projectTask {streamTs : Option MessageTs} {task : Task} (htoken : k.token ≠ none)
    (hread : k.read = some task.state) (hopen : k.finished = false) :
    Quiet (projectTask streamTs task) k := by
  unfold projectTask
  refine Quiet.bind (Quiet.loop fun m => quiet_projectMessage.bind fun _ => quiet_pure) fun _ => ?_
  refine Quiet.bind (Quiet.loop fun r => quiet_projectHumanInput.bind fun _ => quiet_pure)
    fun _ => ?_
  refine Quiet.bind (quiet_perform trivial fun _ => rfl) fun posted => ?_
  refine Quiet.bind (Quiet.loop fun id => ?_) fun _ => ?_
  · unfold closeSettled
    split
    · exact quiet_pure
    · refine Quiet.bind (quiet_perform trivial fun _ => rfl) fun _ => ?_
      exact Quiet.bind (quiet_perform trivial fun _ => rfl) fun _ => quiet_pure
  · refine Quiet.bind ?_ fun _ => quiet_perform ⟨htoken, hread, hopen⟩ fun _ => rfl
    unfold showStatus
    split
    · exact Quiet.bind (quiet_perform trivial fun _ => rfl)
        fun _ => quiet_perform trivial fun _ => rfl
    · exact quiet_perform trivial fun _ => rfl

lemma quiet_openStream {projection : ProjectionRow} {token : Token}
    (htoken : k.token = some token) : Quiet (openStream projection token) k := by
  unfold openStream
  split
  · refine Quiet.bind (quiet_perform trivial fun _ => rfl) fun receipt => ?_
    cases receipt with
    | true => exact quiet_pure
    | false =>
      refine Quiet.tryCatch ?_ fun _ => quiet_pure
      refine Quiet.bind (quiet_perform trivial fun _ => rfl) fun ts => ?_
      exact Quiet.bind (quiet_perform htoken fun _ => rfl) fun _ => quiet_pure
  · exact quiet_pure

/-- Giving up writes the state that was known, and raises. -/
lemma conforms_giveUp {token : Token} {state : Option A2aState} {e : Text}
    {Q : α → Known → Prop} (htoken : k.token = some token) (hstate : state = k.state) :
    contract.Conforms (giveUp token state e : Program α) Q (fun _ => True) k :=
  Contract.Conforms.bind (Q := fun _ _ => True)
    (Contract.conforms_perform ⟨htoken, hstate⟩ (fun _ _ => trivial) fun _ _ => trivial)
    fun _ _ _ => Contract.conforms_throw trivial

theorem conforms_reconcileProjection {previewEnabled : Bool} (hnew : k = {}) :
    contract.Conforms (reconcileProjection previewEnabled) (fun _ _ => True) (fun _ => True) k := by
  subst hnew
  refine Contract.Conforms.bind
    (Q := fun claim k' => ∀ token row, claim = Claim.acquired token row →
      k' = { claimed := true, token := some token, last := row.lastTaskState })
    (Contract.conforms_perform rfl (fun claim _ => ?_) fun _ _ => trivial) ?_
  · rintro token row rfl
    rfl
  intro claim k' hk
  cases claim with
  | busy | completed => exact Contract.conforms_throw trivial
  | acquired token projection =>
    rw [hk token projection rfl]
    refine Contract.Conforms.bind
      (Q := fun task k' => k' =
        { claimed := true
          token := some token
          last := projection.lastTaskState
          read := some task.state })
      (Contract.Conforms.tryCatch (H := fun k' => k' =
        { claimed := true, token := some token, last := projection.lastTaskState })
        (Contract.conforms_perform trivial (fun task _ => rfl) fun _ _ => rfl)
        fun e k' hk => hk ▸ conforms_giveUp rfl rfl) ?_
    rintro task k' rfl
    refine Contract.Conforms.bind (Q := fun _ _ => True) (Contract.Conforms.tryCatch
      (H := fun k' => k'.token = some token ∧ k'.state = some task.state) ?_
      fun e k' ⟨htoken, hstate⟩ => conforms_giveUp htoken hstate.symm) ?_
    · -- the body raises with what it read, finished or not
      refine Contract.Conforms.bind ((quiet_openStream rfl).mono (fun _ _ h => h) ?_) ?_
      · rintro k' rfl
        exact ⟨rfl, rfl⟩
      rintro ⟨streamTs, newStream⟩ k' rfl
      refine Contract.Conforms.bind ((quiet_projectTask (by simp) rfl rfl).mono
        (fun _ _ h => h) ?_) ?_
      · rintro k' rfl
        exact ⟨rfl, rfl⟩
      rintro _ k' rfl
      refine Contract.Conforms.bind (Q := fun _ _ => True)
        (Contract.conforms_perform ⟨rfl, rfl⟩ (fun _ _ => trivial) fun _ _ => ⟨rfl, rfl⟩) ?_
      exact fun _ _ _ => Contract.conforms_pure trivial
    · intro newStream k' _
      unfold hintPreview
      split
      · exact Contract.Conforms.tryCatch (H := fun _ => True)
          (Contract.conforms_perform trivial (fun _ _ => trivial) fun _ _ => trivial)
          fun _ _ _ => Contract.conforms_pure trivial
      · exact Contract.conforms_pure trivial

lemma conforms_job {p : Program Unit} (h : Job p) :
    contract.Conforms p (fun _ _ => True) (fun _ => True) {} := by
  obtain ⟨requestEventId, sourceMessageTs, initiatorUserId, previewEnabled, rfl⟩ := h
  refine Contract.Conforms.bind (Q := fun _ k' => k' = {})
    (Contract.conforms_perform rfl (fun _ _ => rfl) fun _ _ => trivial) ?_
  exact fun _ k' hk => conforms_reconcileProjection hk

/-! ### What a call does to the row -/

variable {w w' : World} {a : Actor} {i : ℕ} {row row' : Option ProjectionRow} {token : Token}
  {log : List Entry}

def claimOf (row : Option ProjectionRow) : Option Token := row.bind (·.claimId)
def lastOf (row : Option ProjectionRow) : Option A2aState := row.bind (·.lastTaskState)

/-- The entry a call leaves. -/
def World.entry (w : World) (a : Actor) (c : Call) (committed : Bool)
    (row : Option ProjectionRow) : Entry :=
  ⟨a, c, committed, w.now, w.row, row⟩

lemma holder_cons (e : Entry) (log : List Entry) :
    holder (e :: log) = if e.acquires then some e.actor else holder log := by
  unfold holder
  cases h : e.acquires <;> simp [h]

/-- A stale token changes nothing. -/
lemma updateStreamMessage_stale {messageTs : MessageTs} {now : Time}
    (h : claimOf row ≠ some token) : updateStreamMessage token messageTs now row = row := by
  cases row with
  | none => rfl
  | some r =>
    have hne : r.claimId ≠ some token := h
    simp [updateStreamMessage, hne]

lemma finishStream_stale {fallback : Bool} {state : Option A2aState} {error : Option Text}
    {now : Time} (h : claimOf row ≠ some token) :
    finishStream token fallback state error now row = row := by
  cases row with
  | none => rfl
  | some r =>
    have hne : r.claimId ≠ some token := h
    simp [finishStream, hne]

/-- A mark changes nothing while someone streams under a running lease. -/
lemma markProjection_held {state : A2aState} {status : ProjectionStatus} {now : Time}
    (h : row.any (·.claimable now) = false) : markProjection state status now row = row := by
  cases row with
  | none => rfl
  | some r =>
    have hheld : r.claimable now = false := h
    simp [markProjection, hheld]

/-- What one call makes of the claim and the state in the row. -/
inductive RowWrite (w : World) (k : Known) (a : Actor) (c : Call) (committed : Bool)
    (row : Option ProjectionRow) : Prop
  | kept (hclaim : claimOf row = claimOf w.row) (hlast : lastOf row = lastOf w.row)
    (hidle : (w.entry a c committed row).acquires = false)
  | claimed (hcall : c = .claimTaskStream) (hclaim : claimOf row = some w.uuid)
    (hlast : lastOf row = lastOf w.row) (hacquires : (w.entry a c committed row).acquires = true)
  | marked {state status} (hcall : c = .markProjection state status)
    (hfree : w.row.any (·.claimable w.now) = true)
    (hclaim : claimOf row = claimOf w.row) (hlast : lastOf row = some state)
    (hidle : (w.entry a c committed row).acquires = false)
  | finished {token : Token} (hdone : ∀ r, (k.learn c r).finished = true)
    (htoken : k.token = some token) (hheld : claimOf w.row = some token)
    (hclaim : claimOf row = none) (hlast : lastOf row = k.state)
    (hidle : (w.entry a c committed row).acquires = false)

lemma acquires_iff {c : Call} {committed : Bool} :
    (w.entry a c committed row).acquires = true ↔
      c = .claimTaskStream ∧ committed = true ∧ w.row.any (·.claimable w.now) = true := by
  unfold Entry.acquires World.entry
  cases c <;> simp

lemma acquires_other {c : Call} {committed : Bool} (hc : c ≠ .claimTaskStream) :
    (w.entry a c committed row).acquires = false := by
  rw [← Bool.not_eq_true, acquires_iff]
  exact fun h => hc h.1

/-- **Every write of an allowed call.** -/
theorem rowWrite {c : Call} {r : Except Text c.Reply} {committed : Bool} (hallow : k.allowed c)
    (h : Answers w c r committed row) : RowWrite w k a c committed row := by
  -- a call that was not committed
  have hfailed : RowWrite w k a c false w.row := by
    refine .kept rfl rfl ?_
    rw [← Bool.not_eq_true, acquires_iff]
    rintro ⟨-, h, -⟩
    cases h
  have hrun : ∀ {v row}, c.run w = some (v, row) → RowWrite w k a c true row := by
    intro v row hrun
    cases c with
    | ensureProjection requestEventId sourceMessageTs initiatorUserId =>
      cases hrun
      refine .kept ?_ ?_ (acquires_other nofun)
      · cases w.row <;> rfl
      · cases w.row <;> rfl
    | claimTaskStream =>
      have hpair : claimTaskStream w.uuid w.now w.row = (v, row) := Option.some.inj hrun
      have hrow : row = (claimTaskStream w.uuid w.now w.row).2 := by rw [hpair]
      subst hrow
      cases hw : w.row with
      | none =>
        refine .kept (by rw [hw]; rfl) (by rw [hw]; rfl) ?_
        rw [← Bool.not_eq_true, acquires_iff, hw]
        simp
      | some r =>
        cases hfree : r.claimable w.now with
        | false =>
          refine .kept (by rw [hw]; simp [claimTaskStream, hfree])
            (by rw [hw]; simp [claimTaskStream, hfree]) ?_
          rw [← Bool.not_eq_true, acquires_iff, hw]
          simp [hfree]
        | true =>
          refine .claimed rfl (by simp [claimTaskStream, hfree, claimOf])
            (by rw [hw]; simp [claimTaskStream, hfree, lastOf]) ?_
          rw [acquires_iff, hw]
          exact ⟨rfl, rfl, hfree⟩
    | updateStreamMessage token messageTs =>
      cases hrun
      refine .kept ?_ ?_ (acquires_other nofun)
      · cases w.row with
        | none => rfl
        | some r => simp only [claimOf, updateStreamMessage, Option.map_some]; split <;> rfl
      · cases w.row with
        | none => rfl
        | some r => simp only [lastOf, updateStreamMessage, Option.map_some]; split <;> rfl
    | markProjection state status =>
      cases hrun
      cases hheld : w.row.any (·.claimable w.now) with
      | false =>
        rw [markProjection_held hheld]
        exact .kept rfl rfl (acquires_other nofun)
      | true =>
        obtain ⟨r, hr, hfree⟩ := (Option.any_eq_true _ _).mp hheld
        refine .marked rfl hheld ?_ ?_ (acquires_other nofun)
        · rw [hr]
          simp [markProjection, hfree, claimOf]
        · rw [hr]
          simp [markProjection, hfree, lastOf]
    | finishStream token fallback state error =>
      cases hrun
      obtain ⟨htoken, rfl⟩ := hallow
      by_cases hheld : claimOf w.row = some token
      · cases hw : w.row with
        | none =>
          rw [hw] at hheld
          cases hheld
        | some r =>
          have hclaim : r.claimId = some token := by
            rw [hw] at hheld
            exact hheld
          refine .finished (fun r => by cases r <;> rfl) htoken hheld ?_ ?_ (acquires_other nofun)
          · simp [finishStream, hclaim, claimOf]
          · simp [finishStream, hclaim, lastOf]
      · rw [finishStream_stale hheld]
        exact .kept rfl rfl (acquires_other nofun)
    | _ => cases hrun
  cases h with
  | done h => exact hrun h
  | unacknowledged h => exact hrun h
  | failed e => exact hfailed
  | task h => exact hfailed
  | other h hc => exact hfailed

/-- What a reply taught. -/
inductive Learned (w : World) (k k' : Known) (c : Call) (row : Option ProjectionRow) : Prop
  | same (hc : c ≠ .claimTaskStream) (hk : k' = k)
  | read (hc : c ≠ .claimTaskStream) (hk : k' = { k with read := some w.state })
  | finished (hc : c ≠ .claimTaskStream) (hk : k' = { k with finished := true })
  | claimed (hc : c = .claimTaskStream) (hk : k' = { claimed := true })
  | acquired (hc : c = .claimTaskStream) (hclaim : claimOf row = some w.uuid)
    (hfree : w.row.any (·.claimable w.now) = true)
    (hk : k' = { claimed := true, token := some w.uuid, last := lastOf row })

lemma learned {c : Call} {r : Except Text c.Reply} {committed : Bool}
    (h : Answers w c r committed row) : Learned w k (k.learn c r) c row := by
  cases c with
  | claimTaskStream =>
    cases h with
    | done h =>
      have hpair := Option.some.inj h
      cases hw : w.row with
      | none =>
        rw [hw] at hpair
        cases hpair
        exact .claimed rfl rfl
      | some r =>
        cases hfree : r.claimable w.now with
        | false =>
          rw [hw] at hpair
          simp only [claimTaskStream, hfree, Bool.false_eq_true, if_false] at hpair
          cases hpair
          exact .claimed rfl rfl
        | true =>
          rw [hw] at hpair
          simp only [claimTaskStream, hfree, if_true] at hpair
          cases hpair
          exact .acquired rfl rfl (by rw [hw]; exact hfree) rfl
    | unacknowledged h e => exact .claimed rfl rfl
    | failed e => exact .claimed rfl rfl
    | other h hc => cases h
  | getTask =>
    cases h with
    | done h => cases h
    | unacknowledged h e => cases h
    | failed e => exact .same nofun rfl
    | task h => exact .read nofun (by rw [← h]; rfl)
    | other h hc => exact absurd rfl hc
  | finishStream => cases r <;> exact .finished nofun rfl
  | _ => cases r <;> exact .same nofun rfl

/-! ### The invariant -/

/-- Tokens are unique, the last one to acquire the claim holds it until it finishes, and nobody
who can write believes less of the task than the row shows. -/
structure Fenced (s : Parties Known World) : Prop where
  freshRow : ∀ {t}, claimOf s.world.row = some t → t < s.world.uuid
  fresh : ∀ {i k t}, s.knows i = some k → k.token = some t → t < s.world.uuid
  distinct : ∀ {i j k k' t}, s.knows i = some k → s.knows j = some k' → k.token = some t →
    k'.token = some t → i = j
  claims : ∀ {e}, e ∈ s.world.log → e.acquires = true → ∃ i, e.actor = .worker i ∧ i < s.joined ∧
    ∀ k, s.knows i = some k → k.claimed = true
  acquired : ∀ {i k t}, s.knows i = some k → k.token = some t →
    s.world.log.any (fun e => e.acquires && e.actor == .worker i) = true
  held : ∀ {i k t}, s.knows i = some k → k.token = some t → claimOf s.world.row = some t →
    holder s.world.log = some (.worker i)
  holds : ∀ {i k t}, s.knows i = some k → k.token = some t →
    holder s.world.log = some (.worker i) → k.finished = false →
    claimOf s.world.row = some t
  ended : ∀ {st}, lastOf s.world.row = some st → terminal st = true →
    terminal s.world.state = true
  knew : ∀ {i k st}, s.knows i = some k → k.state = some st → terminal st = true →
    terminal s.world.state = true
  keeps : ∀ {i k t st}, s.knows i = some k → k.token = some t → claimOf s.world.row = some t →
    lastOf s.world.row = some st → terminal st = true →
    ∃ st', k.state = some st' ∧ terminal st' = true

variable {s s' : Parties Known World}

/-- A mark that has an effect is the holder's. -/
def Unstale (w : World) (a : Actor) (c : Call) : Prop :=
  ∀ state status, c = .markProjection state status → superseded a w.log = true →
    w.row.any (·.claimable w.now) = false

/-- The projector whose mark has an effect holds the claim. -/
lemma Fenced.marker (h : Fenced s) (hk : s.knows i = some k) {state : A2aState}
    {status : ProjectionStatus} (hallow : k.allowed (.markProjection state status))
    (hok : Unstale s.world (.worker i) (.markProjection state status))
    (hfree : s.world.row.any (·.claimable s.world.now) = true) :
    ∃ t, k.token = some t ∧ holder s.world.log = some (.worker i) ∧
      claimOf s.world.row = some t := by
  obtain ⟨htoken, -, hopen⟩ := hallow
  obtain ⟨t, ht⟩ := Option.ne_none_iff_exists'.mp htoken
  have hacquired := h.acquired hk ht
  have hholder : holder s.world.log = some (.worker i) := by
    by_contra hne
    have hstale : superseded (.worker i) s.world.log = true := by
      simp only [superseded, hacquired, Bool.true_and, bne_iff_ne, ne_eq]
      exact hne
    rw [hok state status rfl hstale] at hfree
    cases hfree
  exact ⟨t, ht, hholder, h.holds hk ht hholder hopen⟩

lemma update_some {knows : ℕ → Option Known} {k' kj : Known} {j : ℕ}
    (h : Function.update knows i (some k') j = some kj) :
    j = i ∧ kj = k' ∨ j ≠ i ∧ knows j = some kj := by
  by_cases hj : j = i
  · subst hj
    rw [Function.update_self, Option.some.injEq] at h
    exact .inl ⟨rfl, h.symm⟩
  · rw [Function.update_of_ne hj] at h
    exact .inr ⟨hj, h⟩

/-- **A projector's call keeps the claim fenced**, unless it is a stale mark that has an effect. -/
theorem Fenced.call (h : Fenced s) (hk : s.knows i = some k) (hjoined : i < s.joined) {c : Call}
    {r : Except Text c.Reply} {committed : Bool} (hallow : k.allowed c)
    (hanswer : Answers s.world c r committed row) (hok : Unstale s.world (.worker i) c) :
    Fenced ⟨s.world.note (.worker i) c committed row,
      Function.update s.knows i (some (k.learn c r)), s.joined⟩ := by
  have hwrite := rowWrite (a := .worker i) hallow hanswer
  have hlearn := learned (k := k) hanswer
  have hholder := holder_cons (s.world.entry (.worker i) c committed row) s.world.log
  -- the claim in the row is never the next token
  have hnext : claimOf s.world.row ≠ some s.world.uuid := fun hc =>
    Nat.lt_irrefl _ (h.freshRow hc)
  have hended : ∀ {st}, lastOf row = some st → terminal st = true →
      terminal s.world.state = true := by
    intro st hst hterminal
    cases hwrite with
    | kept hclaim hlast | claimed hcall hclaim hlast => exact h.ended (hlast ▸ hst) hterminal
    | marked hcall hfree hclaim hlast =>
      subst hcall
      rw [hlast, Option.some.injEq] at hst
      subst hst
      exact h.knew hk (by rw [Known.state, hallow.2.1]; rfl) hterminal
    | finished hdone htoken hheld hclaim hlast => exact h.knew hk (hlast ▸ hst) hterminal
  refine ⟨?_, ?_, ?_, ?_, ?_, ?_, ?_, hended, ?_, ?_⟩
  · intro t ht
    change claimOf row = some t at ht
    change t < s.world.uuid + 1
    cases hwrite with
    | kept hclaim | marked _ _ hclaim => exact Nat.lt_succ_of_lt (h.freshRow (hclaim ▸ ht))
    | claimed hcall hclaim =>
      rw [hclaim, Option.some.injEq] at ht
      exact ht ▸ Nat.lt_succ_self _
    | finished _ _ _ hclaim =>
      rw [hclaim] at ht
      cases ht
  · intro j kj t hj ht
    change t < s.world.uuid + 1
    rcases update_some hj with ⟨rfl, rfl⟩ | ⟨-, hj⟩
    · cases hlearn with
      | same _ hk' | read _ hk' | finished _ hk' =>
        rw [hk'] at ht
        exact Nat.lt_succ_of_lt (h.fresh hk ht)
      | claimed _ hk' =>
        rw [hk'] at ht
        cases ht
      | acquired _ _ _ hk' =>
        rw [hk'] at ht
        cases ht
        exact Nat.lt_succ_self _
    · exact Nat.lt_succ_of_lt (h.fresh hj ht)
  · -- the projector's token, old or new, is nobody else's
    have hown : ∀ {j kj t}, j ≠ i → s.knows j = some kj → kj.token = some t →
        (k.learn c r).token ≠ some t := by
      intro j kj t hne hj ht hsame
      cases hlearn with
      | same _ hk' | read _ hk' | finished _ hk' =>
        rw [hk'] at hsame
        exact hne (h.distinct hj hk ht hsame)
      | claimed _ hk' =>
        rw [hk'] at hsame
        cases hsame
      | acquired _ _ _ hk' =>
        rw [hk'] at hsame
        cases hsame
        exact Nat.lt_irrefl _ (h.fresh hj ht)
    intro a b ka kb t ha hb hta htb
    rcases update_some ha with ⟨rfl, rfl⟩ | ⟨hna, ha'⟩ <;>
    rcases update_some hb with ⟨rfl, rfl⟩ | ⟨hnb, hb'⟩
    · rfl
    · exact absurd hta (hown hnb hb' htb)
    · exact absurd htb (hown hna ha' hta)
    · exact h.distinct ha' hb' hta htb
  · have hclaimed : k.claimed = true → (k.learn c r).claimed = true := by
      intro hbefore
      cases hlearn with
      | same _ hk' | read _ hk' | finished _ hk' => rw [hk']; exact hbefore
      | claimed _ hk' | acquired _ _ _ hk' => rw [hk']
    intro e he hacquires
    rcases List.mem_cons.mp he with rfl | he
    · refine ⟨i, rfl, hjoined, fun kj hj => ?_⟩
      have hc := (acquires_iff.mp hacquires).1
      rcases update_some hj with ⟨-, rfl⟩ | ⟨hne, -⟩
      · cases hlearn with
        | same hne | read hne | finished hne => exact absurd hc hne
        | claimed _ hk' | acquired _ _ _ hk' => rw [hk']
      · exact absurd rfl hne
    · obtain ⟨j, hactor, hlt, hsaid⟩ := h.claims he hacquires
      refine ⟨j, hactor, hlt, fun kj hj => ?_⟩
      rcases update_some hj with ⟨rfl, rfl⟩ | ⟨-, hj⟩
      · exact hclaimed (hsaid k hk)
      · exact hsaid kj hj
  · intro j kj t hj ht
    change ((_ :: s.world.log).any _) = true
    rw [List.any_cons, Bool.or_eq_true]
    rcases update_some hj with ⟨rfl, rfl⟩ | ⟨-, hj⟩
    · cases hlearn with
      | same _ hk' | read _ hk' | finished _ hk' =>
        rw [hk'] at ht
        exact .inr (h.acquired hk ht)
      | claimed _ hk' =>
        rw [hk'] at ht
        cases ht
      | acquired hc hclaim hfree hk' =>
        left
        cases hwrite with
        | claimed _ _ _ hacquires =>
          change (Entry.acquires (s.world.entry _ _ _ _) && _) = true
          rw [hacquires]
          simp
        | kept hsame | marked _ _ hsame => exact absurd (hsame.symm.trans hclaim) hnext
        | finished _ _ _ hnone =>
          rw [hnone] at hclaim
          cases hclaim
    · exact .inr (h.acquired hj ht)
  · intro j kj t hj ht hheld
    change claimOf row = some t at hheld
    refine hholder.trans ?_
    cases hwrite with
    | kept hclaim _ hidle | marked _ _ hclaim _ hidle =>
      rw [hidle]
      rw [hclaim] at hheld
      rcases update_some hj with ⟨rfl, rfl⟩ | ⟨-, hj⟩
      · cases hlearn with
        | same _ hk' | read _ hk' | finished _ hk' =>
          rw [hk'] at ht
          exact h.held hk ht hheld
        | claimed _ hk' =>
          rw [hk'] at ht
          cases ht
        | acquired _ _ _ hk' =>
          rw [hk'] at ht
          cases ht
          exact absurd hheld hnext
      · exact h.held hj ht hheld
    | claimed _ hclaim _ hacquires =>
      rw [hacquires]
      rcases update_some hj with ⟨rfl, rfl⟩ | ⟨-, hj⟩
      · rfl
      · rw [hclaim, Option.some.injEq] at hheld
        exact absurd (hheld ▸ h.fresh hj ht) (Nat.lt_irrefl _)
    | finished _ _ _ hclaim =>
      rw [hclaim] at hheld
      cases hheld
  · intro j kj t hj ht hlast hopen
    change claimOf row = some t
    have hlast := hholder.symm.trans hlast
    cases hwrite with
    | kept hclaim _ hidle | marked _ _ hclaim _ hidle =>
      rw [hidle] at hlast
      rcases update_some hj with ⟨rfl, rfl⟩ | ⟨-, hj⟩
      · cases hlearn with
        | same _ hk' | read _ hk' =>
          rw [hk'] at ht hopen
          rw [hclaim]
          exact h.holds hk ht hlast hopen
        | finished _ hk' =>
          rw [hk'] at hopen
          cases hopen
        | claimed _ hk' =>
          rw [hk'] at ht
          cases ht
        | acquired _ hnew _ hk' =>
          rw [hk'] at ht
          exact hnew.trans ht
      · rw [hclaim]
        exact h.holds hj ht hlast hopen
    | claimed hc hclaim _ hacquires =>
      rw [hacquires, if_pos rfl, Option.some.injEq] at hlast
      have hij : j = i := (Actor.worker.inj hlast).symm
      rcases update_some hj with ⟨-, rfl⟩ | ⟨hne, -⟩
      · cases hlearn with
        | same hne | read hne | finished hne => exact absurd hc hne
        | claimed _ hk' =>
          rw [hk'] at ht
          cases ht
        | acquired _ hnew _ hk' =>
          rw [hk'] at ht
          exact hnew.trans ht
      · exact absurd hij hne
    | finished hdone htoken hheld hclaim _ hidle =>
      rw [hidle] at hlast
      rcases update_some hj with ⟨rfl, rfl⟩ | ⟨hne, hj⟩
      · rw [hdone r] at hopen
        cases hopen
      · have hother := (h.holds hj ht hlast hopen).symm.trans hheld
        rw [Option.some.injEq] at hother
        exact absurd (h.distinct hj hk ht (hother ▸ htoken)) hne
  · intro j kj st hj hst hterminal
    rcases update_some hj with ⟨rfl, rfl⟩ | ⟨-, hj⟩
    · cases hlearn with
      | same _ hk' | finished _ hk' =>
        rw [hk'] at hst
        exact h.knew hk hst hterminal
      | read _ hk' =>
        rw [hk'] at hst
        cases hst
        exact hterminal
      | claimed _ hk' =>
        rw [hk'] at hst
        cases hst
      | acquired _ _ _ hk' =>
        rw [hk'] at hst
        exact hended hst hterminal
    · exact h.knew hj hst hterminal
  · intro j kj t st hj ht hheld hst hterminal
    change claimOf row = some t at hheld
    change lastOf row = some st at hst
    rcases update_some hj with ⟨rfl, rfl⟩ | ⟨hne, hj'⟩
    · cases hlearn with
      | read _ hk' =>
        rw [hk']
        exact ⟨_, rfl, hended hst hterminal⟩
      | claimed _ hk' =>
        rw [hk'] at ht
        cases ht
      | acquired _ _ _ hk' =>
        rw [hk']
        exact ⟨st, hst, hterminal⟩
      | same hc hk' | finished hc hk' =>
        rw [hk'] at ht ⊢
        cases hwrite with
        | kept hclaim hlast =>
          have hkept := h.keeps hk ht (hclaim ▸ hheld) (hlast ▸ hst) hterminal
          exact hkept
        | claimed hcall => exact absurd hcall hc
        | marked hcall _ _ hlast =>
          subst hcall
          rw [hlast, Option.some.injEq] at hst
          subst hst
          exact ⟨_, by rw [Known.state, hallow.2.1]; rfl, hterminal⟩
        | finished _ _ _ hnone =>
          rw [hnone] at hheld
          cases hheld
    · cases hwrite with
      | kept hclaim hlast => exact h.keeps hj' ht (hclaim ▸ hheld) (hlast ▸ hst) hterminal
      | claimed _ hclaim =>
        rw [hclaim, Option.some.injEq] at hheld
        exact absurd (hheld ▸ h.fresh hj' ht) (Nat.lt_irrefl _)
      | marked hcall hfree hclaim =>
        -- a mark that has an effect is the holder's
        subst hcall
        obtain ⟨-, -, hholder, -⟩ := h.marker hk hallow hok hfree
        have hother := (h.held hj' ht (hclaim ▸ hheld)).symm.trans hholder
        exact absurd (Actor.worker.inj (Option.some.inj hother)) hne
      | finished _ _ _ hnone =>
        rw [hnone] at hheld
        cases hheld

/-- An entry that leaves claim and state alone, and acquires nothing. -/
lemma Fenced.keep (h : Fenced s) {c : Call} {committed : Bool}
    (hclaim : claimOf row = claimOf s.world.row)
    (hlast : lastOf row = lastOf s.world.row)
    (hidle : (s.world.entry a c committed row).acquires = false) :
    Fenced ⟨s.world.note a c committed row, s.knows, s.joined⟩ := by
  have hholder : holder (s.world.entry a c committed row :: s.world.log) = holder s.world.log := by
    rw [holder_cons, hidle]
    rfl
  refine ⟨fun ht => Nat.lt_succ_of_lt (h.freshRow (hclaim ▸ ht)),
    fun hk ht => Nat.lt_succ_of_lt (h.fresh hk ht), h.distinct, fun he hacquires => ?_,
    fun hk ht => ?_, fun hk ht hheld => hholder.trans (h.held hk ht (hclaim ▸ hheld)),
    fun hk ht hlast hopen => hclaim.trans (h.holds hk ht (hholder.symm.trans hlast) hopen),
    fun hst => h.ended (hlast ▸ hst), h.knew,
    fun hk ht hheld hst => h.keeps hk ht (hclaim ▸ hheld) (hlast ▸ hst)⟩
  · rcases List.mem_cons.mp he with rfl | he
    · change Entry.acquires (s.world.entry a c committed row) = true at hacquires
      rw [hidle] at hacquires
      cases hacquires
    · exact h.claims he hacquires
  · change ((_ :: s.world.log).any _) = true
    rw [List.any_cons, Bool.or_eq_true]
    exact .inr (h.acquired hk ht)

/-- What a superseded projector does leaves the row as it was. -/
lemma Fenced.stale (h : Fenced s) (hk : s.knows i = some k) {c : Call} {r : Except Text c.Reply}
    {committed : Bool} (hallow : k.allowed c) (hanswer : Answers s.world c r committed row)
    (hok : Unstale s.world (.worker i) c)
    (hstale : superseded (.worker i) s.world.log = true) : row = s.world.row := by
  simp only [superseded, Bool.and_eq_true, bne_iff_ne, ne_eq] at hstale
  obtain ⟨hacquired, hlost⟩ := hstale
  have hclaimed : k.claimed = true := by
    obtain ⟨e, he, hmine⟩ := List.any_eq_true.mp hacquired
    simp only [Bool.and_eq_true, beq_iff_eq] at hmine
    obtain ⟨j, hactor, -, hsaid⟩ := h.claims he hmine.1
    rw [hmine.2, Actor.worker.injEq] at hactor
    exact hsaid k (hactor ▸ hk)
  have hother : ∀ {t}, k.token = some t → claimOf s.world.row ≠ some t := fun ht hheld =>
    hlost (h.held hk ht hheld)
  have hrun : ∀ {v row}, c.run s.world = some (v, row) → row = s.world.row := by
    intro v row hrun
    cases c with
    | ensureProjection | claimTaskStream =>
      have hnew : k.claimed = false := hallow
      rw [hclaimed] at hnew
      cases hnew
    | updateStreamMessage token messageTs =>
      cases hrun
      exact updateStreamMessage_stale (hother hallow)
    | markProjection state status =>
      cases hrun
      refine markProjection_held (hok state status rfl ?_)
      simp only [superseded, hacquired, Bool.true_and, bne_iff_ne, ne_eq]
      exact hlost
    | finishStream token fallback state error =>
      cases hrun
      exact finishStream_stale (hother hallow.1)
    | _ => cases hrun
  cases hanswer with
  | done h => exact hrun h
  | unacknowledged h => exact hrun h
  | failed | task | other => rfl

/-- What a projector does leaves an ended task ended. -/
lemma Fenced.stays_ended (h : Fenced s) (hk : s.knows i = some k) {c : Call}
    {r : Except Text c.Reply} {committed : Bool} (hallow : k.allowed c)
    (hanswer : Answers s.world c r committed row) (hok : Unstale s.world (.worker i) c)
    {st : A2aState} (hst : lastOf s.world.row = some st) (hterminal : terminal st = true) :
    ∃ st', lastOf row = some st' ∧ terminal st' = true := by
  cases rowWrite (a := .worker i) hallow hanswer with
  | kept hclaim hlast | claimed hcall hclaim hlast => exact ⟨st, hlast.trans hst, hterminal⟩
  | marked hcall hfree hclaim hlast =>
    subst hcall
    obtain ⟨t, ht, -, hheld⟩ := h.marker hk hallow hok hfree
    obtain ⟨st', hst', hterminal'⟩ := h.keeps hk ht hheld hst hterminal
    rw [Known.state, hallow.2.1] at hst'
    cases hst'
    exact ⟨_, hlast, hterminal'⟩
  | finished hdone htoken hheld hclaim hlast =>
    obtain ⟨st', hst', hterminal'⟩ := h.keeps hk htoken hheld hst hterminal
    exact ⟨st', hlast.trans hst', hterminal'⟩

/-! ### Runs -/

/-- A superseded projector marks the row only while someone streams under a running lease. -/
def heldBack (w : World) (c : Call) (w' : World) : Bool :=
  match c, w'.log.head? with
  | .markProjection _ _, some e =>
    !superseded e.actor w.log || !w.row.any (·.claimable w.now)
  | _, _ => true

/-- Runs in which that is so. -/
abbrev fencedEnvironment : Environment Call Call.Reply Text World :=
  environment.restrict (fun w c _ w' => heldBack w c w' = true) fun _ _ => True

lemma unstale_of_heldBack {c : Call} {committed : Bool}
    (h : heldBack w c (w.note a c committed row) = true) : Unstale w a c := by
  rintro state status rfl hstale
  change (!superseded a w.log || !w.row.any (·.claimable w.now)) = true at h
  rw [hstale] at h
  simpa using h

/-- What holds of every entry: superseded projectors change nothing, and what ended stays so. -/
structure Sound (log : List Entry) : Prop where
  stale : ∀ later e earlier, log = later ++ e :: earlier → superseded e.actor earlier = true →
    e.after = e.before
  ended : ∀ e ∈ log, ∀ st, lastOf e.before = some st → terminal st = true →
    ∃ st', lastOf e.after = some st' ∧ terminal st' = true

lemma Sound.cons (h : Sound log) {e : Entry}
    (hstale : superseded e.actor log = true → e.after = e.before)
    (hended : ∀ st, lastOf e.before = some st → terminal st = true →
      ∃ st', lastOf e.after = some st' ∧ terminal st' = true) : Sound (e :: log) := by
  refine ⟨fun later x earlier hlog hx => ?_, List.forall_mem_cons.mpr ⟨hended, h.ended⟩⟩
  rcases List.cons_eq_append_iff.mp hlog with ⟨-, hnow⟩ | ⟨later', -, hbefore⟩
  · cases hnow
    exact hstale hx
  · exact h.stale later' x earlier hbefore hx

/-- **Fencing in every run.** -/
theorem fenced (hs : Parties.Reachable contract fencedEnvironment {} Outside {} s) :
    Fenced s ∧ Sound s.world.log := by
  induction hs with
  | init =>
    refine ⟨⟨nofun, nofun, nofun, nofun, nofun, nofun, nofun, nofun, nofun, nofun⟩, ?_, by simp⟩
    intro later e earlier hlog
    simp at hlog
  | @step s _ hs h ih =>
    obtain ⟨hfenced, hsound⟩ := ih
    cases h with
    | join =>
      have hold : ∀ {j kj}, Function.update s.knows s.joined (some ({} : Known)) j = some kj →
          kj.token ≠ none ∨ kj.state ≠ none → s.knows j = some kj := by
        intro j kj hj hne
        rcases update_some hj with ⟨-, rfl⟩ | ⟨-, hj⟩
        · rcases hne with hne | hne <;> exact absurd rfl hne
        · exact hj
      have htoken : ∀ {k : Known} {t}, k.token = some t → k.token ≠ none ∨ k.state ≠ none :=
        fun ht => .inl (by rw [ht]; nofun)
      refine ⟨⟨hfenced.freshRow, fun hk ht => hfenced.fresh (hold hk (htoken ht)) ht,
        fun hi hj hti htj => hfenced.distinct (hold hi (htoken hti)) (hold hj (htoken htj)) hti htj,
        fun he hacquires => ?_, fun hk ht => hfenced.acquired (hold hk (htoken ht)) ht,
        fun hk ht => hfenced.held (hold hk (htoken ht)) ht,
        fun hk ht => hfenced.holds (hold hk (htoken ht)) ht, hfenced.ended,
        fun hk hst => hfenced.knew (hold hk (.inr (by rw [hst]; nofun))) hst,
        fun hk ht => hfenced.keeps (hold hk (htoken ht)) ht⟩, hsound⟩
      obtain ⟨i, hactor, hlt, hsaid⟩ := hfenced.claims he hacquires
      refine ⟨i, hactor, Nat.lt_succ_of_lt hlt, fun kj hj => ?_⟩
      rcases update_some hj with ⟨rfl, -⟩ | ⟨-, hj⟩
      · exact absurd hlt (Nat.lt_irrefl _)
      · exact hsaid kj hj
    | leave i =>
      have hold : ∀ {j kj}, Function.update s.knows i none j = some kj → s.knows j = some kj := by
        intro j kj hj
        by_cases hji : j = i
        · rw [hji, Function.update_self] at hj
          cases hj
        · rwa [Function.update_of_ne hji] at hj
      refine ⟨⟨hfenced.freshRow, fun hk => hfenced.fresh (hold hk),
        fun hi hj => hfenced.distinct (hold hi) (hold hj), fun he hacquires => ?_,
        fun hk => hfenced.acquired (hold hk), fun hk => hfenced.held (hold hk),
        fun hk => hfenced.holds (hold hk), hfenced.ended, fun hk => hfenced.knew (hold hk),
        fun hk => hfenced.keeps (hold hk)⟩, hsound⟩
      obtain ⟨j, hactor, hlt, hsaid⟩ := hfenced.claims he hacquires
      exact ⟨j, hactor, hlt, fun kj hj => hsaid kj (hold hj)⟩
    | @call i k c r w' hk hallow hexec =>
      obtain ⟨⟨committed, row, hanswer, rfl⟩, hok⟩ := hexec
      have hunstale := unstale_of_heldBack hok
      exact ⟨hfenced.call hk (hs.joined hk) hallow hanswer hunstale,
        hsound.cons (hfenced.stale hk hallow hanswer hunstale)
          fun st => hfenced.stays_ended hk hallow hanswer hunstale⟩
    | @outside c r w' ho hexec =>
      obtain ⟨⟨committed, row, hanswer, rfl⟩, hok⟩ := hexec
      have hallow : Known.allowed {} c := by
        cases ho
        rfl
      have hnever : superseded .client s.world.log = false := by
        rw [superseded, Bool.and_eq_false_iff]
        left
        rw [← Bool.not_eq_true, List.any_eq_true]
        rintro ⟨e, he, hmine⟩
        simp only [Bool.and_eq_true, beq_iff_eq] at hmine
        obtain ⟨j, hactor, -⟩ := hfenced.claims he hmine.1
        rw [hmine.2] at hactor
        cases hactor
      cases rowWrite (a := .client) hallow hanswer with
      | kept hclaim hlast hidle =>
        refine ⟨hfenced.keep hclaim hlast hidle, hsound.cons (fun hstale => ?_)
          fun st hst hterminal => ⟨st, hlast.trans hst, hterminal⟩⟩
        rw [show superseded .client s.world.log = true from hstale] at hnever
        cases hnever
      | claimed hcall => cases ho; cases hcall
      | marked hcall => cases ho; cases hcall
      | finished _ htoken => cases htoken
    | drift hd =>
      obtain ⟨⟨now, state, -, hstays, rfl⟩, -⟩ := hd
      have hterminal : terminal s.world.state = true → terminal state = true := fun h =>
        (hstays h).symm ▸ h
      exact ⟨⟨hfenced.freshRow, hfenced.fresh, hfenced.distinct, hfenced.claims, hfenced.acquired,
        hfenced.held, hfenced.holds, fun hst h => hterminal (hfenced.ended hst h),
        fun hk hst h => hterminal (hfenced.knew hk hst h), hfenced.keeps⟩, hsound⟩

/-- **Stale projectors are fenced.** In every run in which no superseded projector marks the row
while nobody streams under a running lease, a superseded projector changes no column of it, and a
row that shows its task as ended goes on doing so. -/
theorem superseded_projector_fenced {s : System}
    (hs : Pool.Reachable fencedEnvironment Job Outside {} s) :
    (∀ later e earlier, s.world.log = later ++ e :: earlier →
      superseded e.actor earlier = true → e.after = e.before) ∧
    ∀ e ∈ s.world.log, ∀ st, lastOf e.before = some st → terminal st = true →
      ∃ st', lastOf e.after = some st' ∧ terminal st' = true := by
  have hconforms : ∀ p, Job p → contract.Conforms p (fun _ _ => True) (fun _ => True) {} :=
    fun _ => conforms_job
  obtain ⟨knows, hknows, -⟩ :=
    Parties.simulates hconforms (fun _ _ _ _ _ _ _ _ _ _ => trivial) hs
  obtain ⟨-, hsound⟩ := fenced hknows
  exact ⟨hsound.stale, hsound.ended⟩

/-! ### A stale mark -/

/-- What a script's line answers: a statement or a write to Slack done, a task, no receipt, no
posted requests. -/
inductive Said
  | done | task (t : Task) | unreceipted | unposted

def World.answer (w : World) (a : Actor) :
    (c : Call) → Said → Option (Except Text c.Reply × World)
  | .getTask, .task t =>
    if t.state = w.state then some (.ok t, w.note a .getTask false w.row) else none
  | .hasHumanInputReceipt, .unreceipted =>
    some (.ok false, w.note a .hasHumanInputReceipt false w.row)
  | .humanInputMessages, .unposted => some (.ok [], w.note a .humanInputMessages false w.row)
  | .slackWrite, .done => some (.ok (), w.note a .slackWrite false w.row)
  | c, .done => (c.run w).map fun (v, row) => (.ok v, w.note a c true row)
  | _, _ => none

lemma World.answer_exec {c : Call} {said : Said} {r : Except Text c.Reply}
    (h : w.answer a c said = some (r, w')) : environment.exec w a c r w' := by
  unfold World.answer at h
  split at h
  · split at h <;> cases h
    exact ⟨_, _, .task ‹_›, rfl⟩
  · cases h
    exact ⟨_, _, .other rfl nofun, rfl⟩
  · cases h
    exact ⟨_, _, .other rfl nofun, rfl⟩
  · cases h
    exact ⟨_, _, .other rfl nofun, rfl⟩
  · obtain ⟨⟨v, row⟩, hrun, heq⟩ := Option.map_eq_some_iff.mp h
    cases heq
    exact ⟨_, _, .done hrun, rfl⟩
  · cases h

/-- Scripts start standard updates; a tick moves the clock on and the task with it. -/
def player : Player environment Job Outside Said Unit (Time × A2aState) where
  job _ := do
    perform (.ensureProjection none none none)
    reconcileProjection false
  job_entry := update_job
  answer := World.answer
  answer_exec := World.answer_exec
  isOutside _ := false
  outside_of h := outside_of_false h
  tick w t :=
    if w.now ≤ t.1 ∧ (terminal w.state = true → t.2 = w.state) then
      some { w with now := t.1, state := t.2 }
    else none
  tick_drift {w t w'} h := by
    split at h
    · cases h
      exact ⟨t.1, t.2, ‹_ ∧ _›.1, ‹_ ∧ _›.2, rfl⟩
    · cases h

abbrev Script := List (Line Call Said Unit (Time × A2aState))

/-- Projector `i` claims the row and reads the task; then it projects it and, but for the claim's
end, is done. -/
def reads (i : ℕ) (state : A2aState) : Script :=
  [.start (), .call i .done, .call i .done, .call i (.task { state := state })]

def shows (i : ℕ) : Script := [.call i .unposted, .call i .done, .call i .done]

/-- The first projector reads a working task. Its lease ends, the task is completed, and a second
one projects that and finishes; then the first one marks the row. -/
def overtaken : Script :=
  [.tick (0, .working)] ++ reads 0 .working ++ [.tick (90, .completed)] ++ reads 1 .completed ++
    shows 1 ++ [.call 1 .done] ++ shows 0

/-- A superseded projector takes a completed task back to working. -/
theorem superseded_projector_marks :
    ∃ s, Pool.Reachable environment Job Outside {} s ∧ ∃ later e earlier,
      s.world.log = later ++ e :: earlier ∧ superseded e.actor earlier = true ∧
      e.after ≠ e.before ∧ lastOf e.before = some .completed ∧ lastOf e.after = some .working := by
  obtain ⟨s, -, hreach, hval⟩ := player.played (fun s => s.world.log.head?.map fun e =>
      (superseded e.actor s.world.log.tail, lastOf e.before, lastOf e.after))
    (show (player.play {} overtaken).map _ = some (some (true, some .completed, some .working)) by
      decide +kernel)
  obtain ⟨e, he, heq⟩ := Option.map_eq_some_iff.mp hval
  obtain ⟨earlier, hlog⟩ := List.head?_eq_some_iff.mp he
  simp only [Prod.mk.injEq, hlog, List.tail_cons] at heq
  obtain ⟨hstale, hbefore, hafter⟩ := heq
  refine ⟨s, hreach, [], e, earlier, hlog, hstale, fun hsame => ?_, hbefore, hafter⟩
  rw [hsame, hbefore] at hafter
  cases hafter

/-- The first projector's mark comes while the second one still streams: it has no effect. -/
def outrun : Script :=
  [.tick (0, .working)] ++ reads 0 .working ++ [.tick (90, .completed)] ++ reads 1 .completed ++
    shows 0

theorem superseded_projector_fenced_streaming :
    ∃ s, (player.checked fun w c _ w' => heldBack w c w').play {} outrun = some s ∧
      ∀ later e earlier, s.world.log = later ++ e :: earlier →
        superseded e.actor earlier = true → e.after = e.before := by
  obtain ⟨s, hs, hreach, -⟩ := (player.checked fun w c _ w' => heldBack w c w').played
    (fun _ => ())
    (show ((player.checked fun w c _ w' => heldBack w c w').play {} outrun).map _ = some () by
      decide +kernel)
  exact ⟨s, hs, (superseded_projector_fenced hreach).1⟩

end ManagedAgents.Slack
