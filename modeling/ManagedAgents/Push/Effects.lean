import ManagedAgents.Lib.Lease
import ManagedAgents.Push.Repository

/-!
What each method of the push repository does to a configuration, said once, and the delivery lease.
-/

namespace ManagedAgents.Push

open ManagedAgents.Lib
open ManagedAgents.Controller (ContextId TaskId ClaimId Time Text A2aState)

variable {db db' : Db} {q : Query} {fresh : ClaimId} {now : Time} {key : TaskId × ConfigId}

/-- What a method makes of one configuration. -/
inductive ConfigChange (q : Query) (fresh : ClaimId) (now : Time) (key : TaskId × ConfigId) :
    Option PushConfig → Option PushConfig → Prop
  | same {row} : ConfigChange q fresh now key row row
  | created {url} (hq : q = .create key.1 key.2 url) :
    ConfigChange q fresh now key none
      (some
        { taskId := key.1
          configId := key.2
          url })
  | deleted {r : PushConfig} (hq : q = .delete key.1 key.2) :
    ConfigChange q fresh now key (some r) (some { r with deletedAt := some now })
  | reset {r : PushConfig} (hq : q = .resetDelivery key.1 key.2) (hfree : r.unclaimed now = true) :
    ConfigChange q fresh now key (some r)
      (some
        { r with
          permanentFailureAt := none
          attemptCount := 0
          nextAttemptAt := none
          deliveryClaimId := none
          deliveryLeaseExpiresAt := none })
  | claimed {r : PushConfig} {seconds : ℕ} (hq : q = .claim key.1 key.2 seconds)
    (hfree : r.claimable now = true) :
    ConfigChange q fresh now key (some r)
      (some
        { r with
          deliveryClaimId := some fresh
          deliveryLeaseExpiresAt := some (now + seconds) })
  | finished {r : PushConfig} {claimId fingerprint retrySeconds permanent}
    (hq : q = .finish key.1 key.2 claimId fingerprint retrySeconds permanent)
    (hheld : r.claimedBy claimId now = true) :
    ConfigChange q fresh now key (some r) (some (r.finish now fingerprint retrySeconds permanent))
  | released {r : PushConfig} {claimId} (hq : q = .release key.1 key.2 claimId) :
    ConfigChange q fresh now key (some r)
      (some { r with deliveryClaimId := none, deliveryLeaseExpiresAt := none })

/-- A listing has each configuration once. -/
lemma listContext_nodup {contextId : ContextId} {rows : List (PushConfig × A2aState)}
    (h : listContext contextId db = .ok (rows, db')) : (rows.map fun r => r.1.key).Nodup := by
  obtain ⟨rfl, -⟩ := Prod.mk.inj (Except.ok.inj h)
  have hkeys : ((db.configs.rows.insertionSort PushConfig.before).map PushConfig.key).Nodup :=
    ((List.perm_insertionSort _ _).map _).nodup_iff.2 db.configs.nodup
  rw [List.map_map, Db.joined, List.Nodup, List.pairwise_map, List.pairwise_filterMap]
  refine (List.pairwise_map.1 hkeys).imp fun {r r'} hne x hx x' hx' => ?_
  obtain ⟨t, -, ht⟩ := Option.bind_eq_some_iff.1 hx
  obtain ⟨t', -, ht'⟩ := Option.bind_eq_some_iff.1 hx'
  split at ht <;> cases ht
  split at ht' <;> cases ht'
  exact hne

/-- What a method does to the configurations. -/
structure Effect (q : Query) (fresh : ClaimId) (db db' : Db) : Prop where
  config : ∀ key,
    ConfigChange q fresh db.controller.now key (db.configs.get? key) (db'.configs.get? key)
  controller : db'.controller = db.controller

namespace Effect

lemma same (h : db' = db) : Effect q fresh db db' := by
  subst h
  exact ⟨fun _ => .same, rfl⟩

/-- One row changed, when it met the condition. -/
lemma updated {taskId : TaskId} {configId : ConfigId} {p : PushConfig → Bool}
    {f : PushConfig → PushConfig} {hf : ∀ r, (f r).key = r.key} {b : Bool}
    (h : updateConfig taskId configId p f hf db = .ok (b, db'))
    (hchange : ∀ r, db.configs.get? (taskId, configId) = some r → p r = true →
      ConfigChange q fresh db.controller.now (taskId, configId) (some r) (some (f r))) :
    Effect q fresh db db' := by
  unfold updateConfig at h
  split at h
  · rename_i row hrow
    split at h
    · rename_i hp
      cases h
      refine ⟨fun key => ?_, rfl⟩
      dsimp only
      rw [Table.get?_modify]
      split
      · rename_i hkey
        subst hkey
        rw [hrow]
        exact hchange row hrow hp
      · exact .same
    · cases h
      exact same rfl
  · cases h
    exact same rfl

end Effect

lemma claim_cases {taskId : TaskId} {configId : ConfigId} {seconds : ℕ} {v : Option ClaimId}
    (h : claim taskId configId seconds fresh db = .ok (v, db')) :
    ∃ b, updateConfig taskId configId (·.claimable db.controller.now)
      (fun r =>
        { r with
          deliveryClaimId := some fresh
          deliveryLeaseExpiresAt := some (db.controller.now + seconds) }) (fun _ => rfl) db =
        .ok (b, db') ∧ v = if b then some fresh else none := by
  unfold claim at h
  split at h
  · rename_i b db₁ hupdate
    cases h
    exact ⟨b, hupdate, rfl⟩
  · cases h

/-- **Every method's effect.** -/
theorem Query.run_effect {v : q.Reply} (h : q.run fresh db = .ok (v, db')) :
    Effect q fresh db db' := by
  cases q with
  | get | listPermanentlyFailed | listConfigs | listContext | claimed | getTask =>
    cases h
    exact .same rfl
  | create taskId configId url =>
    simp only [Query.run, Push.create] at h
    split at h
    · cases h
    split at h
    · rename_i configs hinsert
      cases h
      refine ⟨fun key => ?_, rfl⟩
      dsimp only
      rw [Table.get?_insert hinsert]
      split
      · rename_i hkey
        subst hkey
        rw [Table.insert_fresh hinsert]
        exact .created rfl
      · exact .same
    · split at h
      · split at h
        · cases h
          exact .same rfl
        · cases h
      · cases h
  | resetDelivery taskId configId =>
    refine Effect.updated h fun r _ hp => .reset rfl ?_
    simp only [Bool.and_eq_true] at hp
    exact hp.2
  | delete taskId configId => exact Effect.updated h fun r _ _ => .deleted rfl
  | claim taskId configId seconds =>
    obtain ⟨b, hupdate, -⟩ := claim_cases h
    exact Effect.updated hupdate fun r _ hp => .claimed rfl hp
  | finish taskId configId claimId fingerprint retrySeconds permanent =>
    exact Effect.updated h fun r _ hp => .finished rfl hp
  | release taskId configId claimId =>
    simp only [Query.run, Push.release] at h
    split at h
    · rename_i b db₁ hupdate
      cases h
      exact Effect.updated hupdate fun r _ _ => .released rfl
    · cases h

/-! ### What the answers say -/

lemma run_get {taskId : TaskId} {configId : ConfigId} {row : PushConfig}
    (h : Query.run fresh (.get taskId configId) db = .ok (some row, db')) :
    db.configs.get? (taskId, configId) = some row ∧ row.live = true ∧ db' = db := by
  obtain ⟨hval, rfl⟩ := Prod.mk.inj (Except.ok.inj h)
  obtain ⟨hrow, hlive⟩ := Option.filter_eq_some_iff.mp hval
  exact ⟨hrow, hlive, rfl⟩

lemma run_claimed {taskId : TaskId} {configId : ConfigId} {claimId : ClaimId}
    (h : Query.run fresh (.claimed taskId configId claimId) db = .ok (true, db')) :
    (∃ row, db.configs.get? (taskId, configId) = some row ∧
      row.claimedBy claimId db.controller.now = true ∧ row.live = true) ∧ db' = db := by
  obtain ⟨hval, rfl⟩ := Prod.mk.inj (Except.ok.inj h)
  rw [Option.any_eq_true] at hval
  obtain ⟨row, hrow, hp⟩ := hval
  rw [Bool.and_eq_true] at hp
  exact ⟨⟨row, hrow, hp⟩, rfl⟩

lemma updateConfig_true {taskId : TaskId} {configId : ConfigId} {p : PushConfig → Bool}
    {f : PushConfig → PushConfig} {hf : ∀ r, (f r).key = r.key}
    (h : updateConfig taskId configId p f hf db = .ok (true, db')) :
    ∃ row, db.configs.get? (taskId, configId) = some row ∧ p row = true ∧
      db'.configs.get? (taskId, configId) = some (f row) := by
  unfold updateConfig at h
  split at h
  · rename_i row hrow
    split at h
    · rename_i hp
      cases h
      refine ⟨row, hrow, hp, ?_⟩
      dsimp only
      rw [Table.get?_modify, if_pos rfl, hrow]
      rfl
    · cases h
  · cases h

lemma run_claim {taskId : TaskId} {configId : ConfigId} {seconds : ℕ} {claimId : ClaimId}
    (h : Query.run fresh (.claim taskId configId seconds) db = .ok (some claimId, db')) :
    claimId = fresh ∧ ∃ row, db.configs.get? (taskId, configId) = some row ∧
      row.claimable db.controller.now = true ∧
      db'.configs.get? (taskId, configId) = some
        { row with
          deliveryClaimId := some fresh
          deliveryLeaseExpiresAt := some (db.controller.now + seconds) } := by
  obtain ⟨b, hupdate, hv⟩ := claim_cases h
  cases b with
  | false => cases hv
  | true => exact ⟨Option.some.inj hv, updateConfig_true hupdate⟩

/-! ### The delivery lease -/

/-- What a store knows, with the next fresh id. -/
structure Stores where
  db : Db := {}
  uuid : ℕ := 0

namespace PushConfig

/-- The row without its lease and the mark of its deletion. -/
def work (r : PushConfig) : PushConfig :=
  { r with
    deliveryClaimId := none
    deliveryLeaseExpiresAt := none
    deletedAt := none }

/-- A claim that has not expired had not expired before. -/
lemma claimedBy_earlier {r : PushConfig} {claimId : ClaimId} {now' : Time} (hle : now ≤ now')
    (h : r.claimedBy claimId now' = true) : r.claimedBy claimId now = true := by
  simp only [claimedBy, Bool.and_eq_true, Option.any_eq_true, decide_eq_true_eq] at h ⊢
  obtain ⟨hclaim, expiry, hexpiry, hlive⟩ := h
  exact ⟨hclaim, expiry, hexpiry, Nat.lt_of_le_of_lt hle hlive⟩

end PushConfig

/-- The lease on a configuration: what it guards is all a delivery reads and writes. -/
def lease (key : TaskId × ConfigId) : Lease Stores ClaimId (Option PushConfig) where
  Holds st claimId := ∃ row, st.db.configs.get? key = some row ∧
    row.claimedBy claimId st.db.controller.now = true
  guarded st := (st.db.configs.get? key).map PushConfig.work
  issued st claimId := claimId < st.uuid

variable {st : Stores} {claimId : ClaimId}

/-- Every method is a step of every configuration's lease. -/
lemma Effect.lease {uuid : ℕ} (h : Effect q st.uuid st.db db') (huuid : st.uuid ≤ uuid) :
    (lease key).Step st { db := db', uuid } := by
  refine ⟨?_, fun t ht => Nat.lt_of_lt_of_le ht huuid⟩
  have hchange := h.config key
  have hnow : db'.controller.now = st.db.controller.now := congrArg Controller.Db.now h.controller
  generalize hrow : st.db.configs.get? key = row at hchange
  generalize hrow' : db'.configs.get? key = row' at hchange
  have hguarded : (Push.lease key).guarded st = row.map PushConfig.work :=
    congrArg (Option.map PushConfig.work) hrow
  have hguarded' : (Push.lease key).guarded { db := db', uuid } = row'.map PushConfig.work :=
    congrArg (Option.map PushConfig.work) hrow'
  have hholds : ∀ {t}, (Push.lease key).Holds { db := db', uuid } t →
      ∃ r, row' = some r ∧ r.claimedBy t st.db.controller.now = true := by
    rintro t ⟨r, hr, hheld⟩
    exact ⟨r, hrow'.symm.trans hr, hnow ▸ hheld⟩
  cases hchange with
  | same =>
    refine .kept (fun t ht => ?_) (hguarded'.trans hguarded.symm)
    obtain ⟨r, hr, hheld⟩ := hholds ht
    exact ⟨r, hrow.trans hr, hheld⟩
  | @deleted r =>
    refine .kept (fun t ht => ?_) (hguarded'.trans hguarded.symm)
    obtain ⟨r', hr, hheld⟩ := hholds ht
    cases hr
    exact ⟨r, hrow, hheld⟩
  | created | reset | finished | released =>
    refine .ended fun t ht => ?_
    obtain ⟨r, hr, hheld⟩ := hholds ht
    cases hr
    simp [PushConfig.claimedBy, PushConfig.finish] at hheld
  | claimed =>
    refine .granted (Nat.lt_irrefl _) fun t ht => ?_
    obtain ⟨r, hr, hheld⟩ := hholds ht
    cases hr
    simp only [PushConfig.claimedBy, Bool.and_eq_true, beq_iff_eq, Option.some.injEq] at hheld
    exact hheld.1.symm

end ManagedAgents.Push
