import ManagedAgents.Lib.Replay
import ManagedAgents.Controller.Effects

/-!
Admission as its callers see it: `admit` runs its transaction, again after a conflict, and reads
what is there when a constraint was violated.

Any number of admissions run interleaved with the controller's other transactions. An attempt
commits or is rolled back, and its caller may lose the reply; the log of calls is a ghost.
-/

namespace ManagedAgents.Controller

open ManagedAgents.Lib

/-! ### Heads and turns -/

/-- What admission reads of a context: its first message and the next position. -/
def Db.head (db : Db) (contextId : ContextId) : Option (MessageId × ℕ) :=
  (db.context contextId).map fun c => (c.creationMessageId, c.nextSequence)

/-- What it reads of a task: its context, message and position. -/
def Db.turn (db : Db) (taskId : TaskId) : Option (ContextId × MessageId × ℕ) :=
  (db.task taskId).map fun t => (t.contextId, t.messageId, t.sequence)

variable {db db' : Db} {fresh : ℕ}

lemma head_update {contextId : ContextId} {c : ContextRow}
    (hc : db'.context = Function.update db.context contextId (some c)) :
    db'.head = Function.update db.head contextId (some (c.creationMessageId, c.nextSequence)) := by
  funext x
  unfold Db.head
  rw [hc, Function.update_apply, Function.update_apply]
  split <;> rfl

lemma turn_update {taskId : TaskId} {t : TaskRow}
    (ht : db'.task = Function.update db.task taskId (some t)) :
    db'.turn = Function.update db.turn taskId (some (t.contextId, t.messageId, t.sequence)) := by
  funext x
  unfold Db.turn
  rw [ht, Function.update_apply, Function.update_apply]
  split <;> rfl

lemma head_kept {contextId : ContextId} {c c' : ContextRow} (hctx : db.context contextId = some c)
    (hc : db'.context = Function.update db.context contextId (some c'))
    (hfirst : c'.creationMessageId = c.creationMessageId)
    (hnext : c'.nextSequence = c.nextSequence) : db'.head = db.head := by
  rw [head_update hc, hfirst, hnext, Function.update_eq_self_iff]
  simp [Db.head, hctx]

lemma turn_kept {taskId : TaskId} {t t' : TaskRow} (htask : db.task taskId = some t)
    (ht : db'.task = Function.update db.task taskId (some t'))
    (hof : t'.contextId = t.contextId) (hmessage : t'.messageId = t.messageId)
    (hsequence : t'.sequence = t.sequence) : db'.turn = db.turn := by
  rw [turn_update ht, hof, hmessage, hsequence, Function.update_eq_self_iff]
  simp [Db.turn, htask]

lemma head_congr (h : db'.context = db.context) : db'.head = db.head := by
  unfold Db.head
  rw [h]

lemma turn_congr (h : db'.task = db.task) : db'.turn = db.turn := by
  unfold Db.turn
  rw [h]

/-- Only admissions change what admission reads. -/
lemma CoreEffect.unadmitted {q : Query} (h : CoreEffect fresh db db' q)
    (hq : ∀ a, q ≠ .admitTurn a) : db'.head = db.head ∧ db'.turn = db.turn := by
  cases h with
  | same hc ht => exact ⟨head_congr hc, turn_congr ht⟩
  | opened | admitted => exact absurd rfl (hq _)
  | claimed hctx _ hc ht => exact ⟨head_kept hctx hc rfl rfl, turn_congr ht⟩
  | released hctx _ hc ht => exact ⟨head_kept hctx hc rfl rfl, turn_congr ht⟩
  | wroteContext hctx _ _ hc ht => exact ⟨head_kept hctx hc rfl rfl, turn_congr ht⟩
  | wroteTask _ _ htask hc ht => exact ⟨head_congr hc, turn_kept htask ht rfl rfl rfl⟩
  | retried htask hctx _ _ _ _ _ _ hc ht =>
    exact ⟨head_kept hctx hc rfl rfl, turn_kept htask ht rfl rfl rfl⟩
  | failed htask hctx _ _ _ hc ht =>
    exact ⟨head_kept hctx hc rfl rfl, turn_kept htask ht rfl rfl rfl⟩
  | activated hctx _ _ htask _ _ hc ht =>
    exact ⟨head_kept hctx hc rfl rfl, turn_kept htask ht rfl rfl rfl⟩
  | canceled htask _ hc ht => exact ⟨head_congr hc, turn_kept htask ht rfl rfl rfl⟩
  | cancelRequested htask _ _ hc ht => exact ⟨head_congr hc, turn_kept htask ht rfl rfl rfl⟩

/-- The context is the one an admission is for. -/
def Admission.Names (a : Admission) (contextId : ContextId) (first : MessageId) : Prop :=
  a.requestedContextId = some contextId ∨ a.requestedContextId = none ∧ first = a.messageId

/-- The contexts once the admission's own exists: as they were, or with a new one for a first
message no context has. -/
inductive Opens (db : Db) (a : Admission) : (ContextId → Option (MessageId × ℕ)) → Prop
  | already : Opens db a db.head
  | opened (hnew : db.head a.proposedContextId = none) (hfirst : a.requestedContextId = none)
    (hnone : ∀ x n, db.head x ≠ some (a.messageId, n)) :
    Opens db a (Function.update db.head a.proposedContextId (some (a.messageId, 1)))

/-- What a committed admission did. -/
inductive Admits (db db' : Db) (a : Admission) : ContextId → TaskId → Bool → Prop
  | existing {heads contextId first next taskId n} (hopens : Opens db a heads)
    (hhead : heads contextId = some (first, next)) (hnames : a.Names contextId first)
    (hturn : db.turn taskId = some (contextId, a.messageId, n))
    (hh : db'.head = heads) (ht : db'.turn = db.turn) : Admits db db' a contextId taskId false
  | created {heads contextId first next} (hopens : Opens db a heads)
    (hhead : heads contextId = some (first, next)) (hnames : a.Names contextId first)
    (hfresh : db.turn a.proposedTaskId = none)
    (hmessage : ∀ x n, db.turn x ≠ some (contextId, a.messageId, n))
    (hh : db'.head = Function.update heads contextId (some (first, next + 1)))
    (ht : db'.turn =
      Function.update db.turn a.proposedTaskId (some (contextId, a.messageId, next))) :
    Admits db db' a contextId a.proposedTaskId true

lemma head_some {contextId : ContextId} {c : ContextRow} (h : db.context contextId = some c) :
    db.head contextId = some (c.creationMessageId, c.nextSequence) := by
  simp [Db.head, h]

lemma turn_some {taskId : TaskId} {t : TaskRow} (h : db.task taskId = some t) :
    db.turn taskId = some (t.contextId, t.messageId, t.sequence) := by
  simp [Db.turn, h]

lemma head_eq_some {contextId : ContextId} {first : MessageId} {next : ℕ} :
    db.head contextId = some (first, next) ↔
      ∃ c, db.context contextId = some c ∧ c.creationMessageId = first ∧ c.nextSequence = next := by
  simp [Db.head]

lemma turn_eq_some {taskId : TaskId} {contextId : ContextId} {messageId : MessageId} {n : ℕ} :
    db.turn taskId = some (contextId, messageId, n) ↔
      ∃ t, db.task taskId = some t ∧ t.contextId = contextId ∧ t.messageId = messageId ∧
        t.sequence = n := by
  simp [Db.turn]

lemma admitContext_opens {a : Admission} {c : ContextRow}
    (h : admitContext a db = .ok (c, db')) :
    Opens db a db'.head ∧ a.Names c.contextId c.creationMessageId ∧ db'.turn = db.turn := by
  unfold admitContext at h
  split at h
  · rename_i hfirst
    split at h
    · rename_i c' hc'
      cases h
      obtain ⟨-, hm⟩ := Table.mem_select.mp (List.mem_of_mem_head? hc')
      exact ⟨.already, .inr ⟨hfirst, by simpa using hm⟩, rfl⟩
    · rename_i hnone
      dsimp only at h
      split at h
      · rename_i contexts hinsert
        cases h
        have hc : ({ db with contexts } : Db).context = Function.update db.context
            a.proposedContextId (some
              { contextId := a.proposedContextId, creationMessageId := a.messageId }) := by
          funext contextId
          exact (Table.get?_insert hinsert contextId).trans (Function.update_apply _ _ _ _).symm
        refine ⟨?_, .inr ⟨hfirst, rfl⟩, rfl⟩
        rw [head_update hc]
        refine .opened ?_ hfirst fun x n hx => ?_
        · have hfresh := Table.insert_fresh hinsert
          simpa [Db.head, Db.context] using hfresh
        · obtain ⟨c, hctx, hm, -⟩ := head_eq_some.mp hx
          rw [List.head?_eq_none_iff] at hnone
          have hmem : c ∈ db.contexts.select fun c => c.creationMessageId == a.messageId :=
            Table.mem_select.mpr ⟨by rw [Db.context_id hctx]; exact hctx, by simp [hm]⟩
          rw [hnone] at hmem
          cases hmem
      · cases h
  · rename_i contextId hrequested
    split at h
    · rename_i c' hc'
      cases h
      exact ⟨.already, .inl (by rw [hrequested, Table.get?_key hc']), rfl⟩
    · cases h

/-- What an admission answers is what it did. -/
lemma admitTurn_admits {a : Admission} {c : ContextRow} {t : TaskRow} {created : Bool}
    (h : admitTurn a db = .ok ((c, t, created), db')) :
    Admits db db' a c.contextId t.taskId created := by
  obtain ⟨c₁, db₁, hadmission, hctx, hcase⟩ := admitTurn_ok h
  obtain ⟨hopens, hnames, hturn⟩ := admitContext_opens hadmission
  rcases hcase with ⟨rfl, rfl, rfl, htask, hof, hmessage⟩ |
    ⟨rfl, rfl, hfresh, hmessage, rfl, hc, ht⟩
  · refine .existing (n := t.sequence) hopens (head_some hctx) hnames ?_ rfl hturn
    rw [← hturn, turn_some htask, hof, hmessage]
  · refine .created hopens (head_some hctx) hnames ?_ ?_ (head_update hc) ?_
    · rw [← hturn]
      simp [Db.turn, hfresh]
    · intro x n hx
      rw [← hturn] at hx
      obtain ⟨u, hu, hof, hm, -⟩ := turn_eq_some.mp hx
      exact hmessage u (by rw [Db.task_id hu]; exact hu) hof hm
    · rw [turn_update ht, hturn]
      rfl

/-! ### No gap and no repetition -/

/-- Positions of a context's turns run from one to the next one's; a message has one turn in a
context, and a first message one context. -/
structure Gapless (heads : ContextId → Option (MessageId × ℕ))
    (turns : TaskId → Option (ContextId × MessageId × ℕ)) : Prop where
  pos : ∀ {c first next}, heads c = some (first, next) → 1 ≤ next
  of : ∀ {x c m n}, turns x = some (c, m, n) →
    ∃ first next, heads c = some (first, next) ∧ 1 ≤ n ∧ n < next
  full : ∀ {c first next n}, heads c = some (first, next) → 1 ≤ n → n < next →
    ∃ x m, turns x = some (c, m, n)
  place : ∀ {x y c m m' n}, turns x = some (c, m, n) → turns y = some (c, m', n) → x = y
  message : ∀ {x y c m n n'}, turns x = some (c, m, n) → turns y = some (c, m, n') → x = y
  first : ∀ {c d m n n'}, heads c = some (m, n) → heads d = some (m, n') → c = d

namespace Gapless

variable {heads : ContextId → Option (MessageId × ℕ)}
  {turns : TaskId → Option (ContextId × MessageId × ℕ)}

/-- A new context has no turns. -/
lemma opens {a : Admission} (h : Gapless db.head turns) (hopens : Opens db a heads) :
    Gapless heads turns := by
  cases hopens with
  | already => exact h
  | opened hnew hfirst hnone =>
    have hold : ∀ {x c m n}, turns x = some (c, m, n) → c ≠ a.proposedContextId := by
      rintro x c m n hx rfl
      obtain ⟨first, next, hhead, -⟩ := h.of hx
      rw [hnew] at hhead
      cases hhead
    refine ⟨?_, ?_, ?_, h.place, h.message, ?_⟩
    · intro c first next hc
      rw [Function.update_apply] at hc
      split at hc
      · cases hc
        exact Nat.le_refl 1
      · exact h.pos hc
    · intro x c m n hx
      obtain ⟨first, next, hhead, hn⟩ := h.of hx
      exact ⟨first, next, by rw [Function.update_of_ne (hold hx), hhead], hn⟩
    · intro c first next n hc hpos hlt
      rw [Function.update_apply] at hc
      split at hc
      · cases hc
        omega
      · exact h.full hc hpos hlt
    · intro c d m n n' hc hd
      rw [Function.update_apply] at hc hd
      split at hc <;> split at hd
      · rename_i hcid hdid
        rw [hcid, hdid]
      · cases hc
        exact absurd hd (hnone d n')
      · cases hd
        exact absurd hc (hnone c n)
      · exact h.first hc hd

/-- A turn at the next position closes no gap and leaves none. -/
lemma push {x : TaskId} {c : ContextId} {first m : MessageId} {next : ℕ}
    (h : Gapless heads turns) (hhead : heads c = some (first, next)) (hfresh : turns x = none)
    (hmessage : ∀ y n, turns y ≠ some (c, m, n)) :
    Gapless (Function.update heads c (some (first, next + 1)))
      (Function.update turns x (some (c, m, next))) := by
  have hpos := h.pos hhead
  have hplace : ∀ {y m'}, turns y ≠ some (c, m', next) := by
    intro y m' hy
    obtain ⟨first', next', hhead', -, hlt⟩ := h.of hy
    rw [hhead] at hhead'
    cases hhead'
    omega
  refine ⟨?_, ?_, ?_, ?_, ?_, ?_⟩
  · intro d first' next' hd
    rw [Function.update_apply] at hd
    split at hd
    · cases hd
      omega
    · exact h.pos hd
  · intro y d m' n hy
    rw [Function.update_apply] at hy
    split at hy
    · cases hy
      exact ⟨first, next + 1, Function.update_self _ _ _, hpos, Nat.lt_succ_self _⟩
    · obtain ⟨first', next', hhead', hn, hlt⟩ := h.of hy
      by_cases hd : d = c
      · subst hd
        rw [hhead] at hhead'
        cases hhead'
        exact ⟨first, next + 1, Function.update_self _ _ _, hn, by omega⟩
      · exact ⟨first', next', by rw [Function.update_of_ne hd, hhead'], hn, hlt⟩
  · intro d first' next' n hd hn hlt
    have hkeep : ∀ y m', turns y = some (d, m', n) →
        ∃ y m', Function.update turns x (some (c, m, next)) y = some (d, m', n) := by
      intro y m' hy
      have hyx : y ≠ x := by
        rintro rfl
        rw [hfresh] at hy
        cases hy
      exact ⟨y, m', by rw [Function.update_of_ne hyx, hy]⟩
    rw [Function.update_apply] at hd
    split at hd
    · rename_i hdc
      cases hd
      subst hdc
      by_cases hlast : n = next
      · subst hlast
        exact ⟨x, m, Function.update_self _ _ _⟩
      · obtain ⟨y, m', hy⟩ := h.full hhead hn (by omega)
        exact hkeep y m' hy
    · obtain ⟨y, m', hy⟩ := h.full hd hn hlt
      exact hkeep y m' hy
  · intro y z d m₁ m₂ n hy hz
    rw [Function.update_apply] at hy hz
    split at hy <;> split at hz
    · rename_i hyx hzx
      rw [hyx, hzx]
    · cases hy
      exact absurd hz hplace
    · cases hz
      exact absurd hy hplace
    · exact h.place hy hz
  · intro y z d m' n n' hy hz
    rw [Function.update_apply] at hy hz
    split at hy <;> split at hz
    · rename_i hyx hzx
      rw [hyx, hzx]
    · cases hy
      exact absurd hz (hmessage z n')
    · cases hz
      exact absurd hy (hmessage y n)
    · exact h.message hy hz
  · intro d e m' n n' hd he
    have hback : ∀ {d m' n}, Function.update heads c (some (first, next + 1)) d = some (m', n) →
        ∃ n', heads d = some (m', n') := by
      intro d m' n hd
      rw [Function.update_apply] at hd
      split at hd
      · rename_i hdc
        cases hd
        exact ⟨next, hdc ▸ hhead⟩
      · exact ⟨n, hd⟩
    obtain ⟨k, hk⟩ := hback hd
    obtain ⟨l, hl⟩ := hback he
    exact h.first hk hl

/-- **An admission leaves no gap.** -/
lemma admits {a : Admission} {c : ContextId} {x : TaskId} {created : Bool}
    (h : Gapless db.head db.turn) (hadmits : Admits db db' a c x created) :
    Gapless db'.head db'.turn := by
  cases hadmits with
  | existing hopens _ _ _ hh ht =>
    rw [hh, ht]
    exact h.opens hopens
  | created hopens hhead _ hfresh hmessage hh ht =>
    rw [hh, ht]
    exact (h.opens hopens).push hhead hfresh hmessage

end Gapless

/-- The context and the task are those of the message, in the context asked for. -/
structure Db.Serves (db : Db) (requested : Option ContextId) (message : MessageId)
    (contextId : ContextId) (taskId : TaskId) : Prop where
  head : ∃ first next, db.head contextId = some (first, next) ∧
    (requested = some contextId ∨ requested = none ∧ first = message)
  turn : ∃ n, db.turn taskId = some (contextId, message, n)

/-- Two answers to the same question agree. -/
lemma Db.Serves.agree {requested : Option ContextId} {m : MessageId} {c d : ContextId}
    {x y : TaskId} (hg : Gapless db.head db.turn) (h : db.Serves requested m c x)
    (h' : db.Serves requested m d y) : c = d ∧ x = y := by
  obtain ⟨⟨first, next, hhead, hnames⟩, n, hturn⟩ := h
  obtain ⟨⟨first', next', hhead', hnames'⟩, n', hturn'⟩ := h'
  have hcd : c = d := by
    rcases hnames with hc | ⟨hnone, rfl⟩
    · rcases hnames' with hd | ⟨hnone', -⟩
      · rw [hc] at hd
        exact Option.some.inj hd
      · rw [hc] at hnone'
        cases hnone'
    · rcases hnames' with hd | ⟨-, rfl⟩
      · rw [hnone] at hd
        cases hd
      · exact hg.first hhead hhead'
  subst hcd
  exact ⟨rfl, hg.message hturn hturn'⟩

/-- Contexts keep their first message, and turns stay what they are. -/
structure Db.Keeps (db db' : Db) : Prop where
  head : ∀ {c first next}, db.head c = some (first, next) →
    ∃ next', db'.head c = some (first, next')
  turn : ∀ {x v}, db.turn x = some v → db'.turn x = some v

lemma Db.Keeps.of_eq (hh : db'.head = db.head) (ht : db'.turn = db.turn) : db.Keeps db' :=
  ⟨fun h => ⟨_, by rw [hh]; exact h⟩, fun h => by rw [ht]; exact h⟩

lemma Opens.keeps {a : Admission} {heads} (h : Opens db a heads) {c : ContextId}
    {first : MessageId} {next : ℕ} (hc : db.head c = some (first, next)) :
    heads c = some (first, next) := by
  cases h with
  | already => exact hc
  | opened hnew =>
    rw [Function.update_of_ne, hc]
    rintro rfl
    rw [hnew] at hc
    cases hc

lemma Admits.keeps {a : Admission} {c : ContextId} {x : TaskId} {created : Bool}
    (h : Admits db db' a c x created) : db.Keeps db' := by
  cases h with
  | existing hopens _ _ _ hh ht =>
    refine ⟨fun hc => ⟨_, by rw [hh]; exact hopens.keeps hc⟩, fun hx => by rw [ht]; exact hx⟩
  | created hopens hhead _ hfresh _ hh ht =>
    refine ⟨fun hd => ?_, fun hy => ?_⟩
    · rename_i d first' next'
      rw [hh, Function.update_apply]
      split
      · rename_i hdc
        have hd' := hopens.keeps hd
        rw [hdc, hhead] at hd'
        cases hd'
        exact ⟨_, rfl⟩
      · exact ⟨_, hopens.keeps hd⟩
    · rw [ht, Function.update_of_ne, hy]
      rintro rfl
      rw [hfresh] at hy
      cases hy

lemma Db.Serves.keeps {requested : Option ContextId} {m : MessageId} {c : ContextId} {x : TaskId}
    (h : db.Serves requested m c x) (hkeeps : db.Keeps db') : db'.Serves requested m c x := by
  obtain ⟨⟨first, next, hhead, hnames⟩, n, hturn⟩ := h
  obtain ⟨next', hhead'⟩ := hkeeps.head hhead
  exact ⟨⟨first, next', hhead', hnames⟩, n, hkeeps.turn hturn⟩

lemma Admits.serves {a : Admission} {c : ContextId} {x : TaskId} {created : Bool}
    (h : Admits db db' a c x created) : db'.Serves a.requestedContextId a.messageId c x := by
  cases h with
  | existing _ hhead hnames hturn hh ht =>
    exact ⟨⟨_, _, by rw [hh]; exact hhead, hnames⟩, _, by rw [ht]; exact hturn⟩
  | created _ hhead hnames _ _ hh ht =>
    exact ⟨⟨_, _, by rw [hh, Function.update_self], hnames⟩, _, by rw [ht, Function.update_self]⟩

/-- Every context there was before, but the one that was made for a first message. -/
lemma Opens.origin {a : Admission} {heads} (h : Opens db a heads) {d : ContextId} {m : MessageId}
    {n : ℕ} (hd : heads d = some (m, n)) : db.head d = some (m, n) ∨
      a.requestedContextId = none ∧ m = a.messageId ∧ d = a.proposedContextId ∧
        ∀ x k, db.head x ≠ some (a.messageId, k) := by
  cases h with
  | already => exact .inl hd
  | opened hnew hfirst hnone =>
    rw [Function.update_apply] at hd
    split at hd
    · cases hd
      exact .inr ⟨hfirst, rfl, ‹_›, hnone⟩
    · exact .inl hd

lemma Admits.origin {a : Admission} {c : ContextId} {x : TaskId} {created : Bool}
    (h : Admits db db' a c x created) {d : ContextId} {m : MessageId} {n : ℕ}
    (hd : db'.head d = some (m, n)) : (∃ n', db.head d = some (m, n')) ∨
      a.requestedContextId = none ∧ m = a.messageId ∧ d = c ∧
        ∀ x k, db.head x ≠ some (a.messageId, k) := by
  have horigin : ∀ {heads first next}, Opens db a heads → heads c = some (first, next) →
      a.Names c first → (∃ n', heads d = some (m, n')) → (∃ n', db.head d = some (m, n')) ∨
        a.requestedContextId = none ∧ m = a.messageId ∧ d = c ∧
          ∀ x k, db.head x ≠ some (a.messageId, k) := by
    rintro heads first next hopens hhead hnames ⟨n', hd⟩
    rcases hopens.origin hd with hold | ⟨hfirst, hm, hdp, hnone⟩
    · exact .inl ⟨n', hold⟩
    refine .inr ⟨hfirst, hm, ?_, hnone⟩
    rcases hopens.origin hhead with hold | ⟨-, -, hcp, -⟩
    · rcases hnames with hc | ⟨-, rfl⟩
      · rw [hfirst] at hc
        cases hc
      · exact absurd hold (hnone _ _)
    · exact hdp.trans hcp.symm
  cases h with
  | existing hopens hhead hnames _ hh _ =>
    rw [hh] at hd
    exact horigin hopens hhead hnames ⟨n, hd⟩
  | created hopens hhead hnames _ _ hh _ =>
    refine horigin hopens hhead hnames ?_
    rw [hh, Function.update_apply] at hd
    split at hd
    · rename_i hdc
      cases hd
      exact ⟨_, hdc ▸ hhead⟩
    · exact ⟨n, hd⟩

/-- Every task there was before, but the one that was made. -/
lemma Admits.turn_cases {a : Admission} {c : ContextId} {x : TaskId} {created : Bool}
    (h : Admits db db' a c x created) {y : TaskId} {v : ContextId × MessageId × ℕ}
    (hy : db'.turn y = some v) :
    db.turn y = some v ∨ y = x ∧ v.1 = c ∧ v.2.1 = a.messageId ∧ db.turn x = none := by
  cases h with
  | existing _ _ _ _ _ ht => exact .inl (ht ▸ hy)
  | created _ _ _ hfresh _ _ ht =>
    rw [ht, Function.update_apply] at hy
    split at hy
    · cases hy
      exact .inr ⟨‹_›, rfl, rfl, hfresh⟩
    · exact .inl hy

/-! ### The method -/

/-- What a transaction may raise: a conflict, which is retried, or anything else. -/
inductive DbError
  | serializationFailure
  | raised (e : Exn)
  deriving DecidableEq

/-- The arguments of `admit`, as they come; an empty one is none. -/
structure AdmitArguments where
  proposedContextId : Option ContextId
  requestedContextId : Option ContextId := none
  messageId : Option MessageId
  proposedTaskId : Option TaskId
  inputObjectKey : Option ObjectKey
  deriving DecidableEq

def AdmitArguments.admission? (args : AdmitArguments) : Option Admission :=
  match args.proposedContextId, args.messageId, args.proposedTaskId, args.inputObjectKey with
  | some proposedContextId, some messageId, some proposedTaskId, some inputObjectKey =>
    some { proposedContextId, requestedContextId := args.requestedContextId, messageId
           proposedTaskId, inputObjectKey }
  | _, _, _, _ => none

/-- The calls of an admission: an attempt, the reads after a violation, and its return. Other
queries are made around it. -/
inductive AdmitCall
  | attempt (a : Admission)
  | findContextByCreationMessageId (messageId : MessageId)
  | getContext (contextId : ContextId)
  | findTaskByMessageId (contextId : ContextId) (messageId : MessageId)
  | returned (args : AdmitArguments) (result : ContextRow × TaskRow × Bool)
  | other (q : Query)

@[reducible] def AdmitCall.Reply : AdmitCall → Type
  | attempt _ => ContextRow × TaskRow × Bool
  | findContextByCreationMessageId _ => Option ContextRow
  | getContext _ => Option ContextRow
  | findTaskByMessageId _ _ => Option TaskRow
  | returned _ _ => Unit
  | other _ => Unit

abbrev AdmitProgram (α : Type) := Prog AdmitCall AdmitCall.Reply DbError α

abbrev AdmitCall.perform (c : AdmitCall) : AdmitProgram c.Reply := Prog.perform c

/-- `with_dsql_retry`, with the attempts left after this one; the pauses are left out. -/
def withDsqlRetry {α : Type} (operation : AdmitProgram α) : ℕ → AdmitProgram α
  | 0 => operation
  | attempts + 1 => tryCatch operation fun
    | .serializationFailure => withDsqlRetry operation attempts
    | e => throw e

def findAdmissionContext (a : Admission) : AdmitProgram (Option ContextRow) :=
  match a.requestedContextId with
  | none => AdmitCall.perform (.findContextByCreationMessageId a.messageId)
  | some contextId => AdmitCall.perform (.getContext contextId)

/-- What is there after a constraint was violated. -/
def recoverAdmission (a : Admission) : AdmitProgram (ContextRow × TaskRow × Bool) := do
  match ← findAdmissionContext a with
  | none => throw (.raised .uniqueViolation)
  | some context =>
    match ← AdmitCall.perform (.findTaskByMessageId context.contextId a.messageId) with
    | none => throw (.raised .uniqueViolation)
    | some task => pure (context, task, false)

def admitOrRecover (args : AdmitArguments) : AdmitProgram (ContextRow × TaskRow × Bool) :=
  match args.admission? with
  | none => throw (.raised .valueError)
  | some a => tryCatch (withDsqlRetry (AdmitCall.perform (.attempt a)) 4) fun
    | .raised .uniqueViolation => recoverAdmission a
    | e => throw e

/-- A caller of `admit`, up to its return. -/
def AdmitJob (p : AdmitProgram Unit) : Prop :=
  ∃ args, p = do
    let result ← admitOrRecover args
    AdmitCall.perform (.returned args result)

/-! ### Its runs -/

/-- One call as it was answered, with the store before and after it. -/
structure AdmitEntry where
  actor : Actor
  call : AdmitCall
  reply : Except DbError call.Reply
  committed : Bool
  before : Db
  after : Db

structure AdmitWorld where
  db : Db := {}
  log : List AdmitEntry := []

def AdmitCall.isRead : AdmitCall → Bool
  | findContextByCreationMessageId _ | getContext _ | findTaskByMessageId _ _ => true
  | _ => false

/-- A call is answered, `true` when a transaction was committed, and leaves a store. An attempt
that is not committed raises anything: a conflict, a violated constraint, a lost connection. -/
inductive AdmitAnswers (db : Db) : (c : AdmitCall) → Except DbError c.Reply → Bool → Db → Prop
  | done {a v db'} (h : admitTurn a db = .ok (v, db')) :
    AdmitAnswers db (.attempt a) (.ok v) true db'
  | unacknowledged {a v db'} (e : DbError) (h : admitTurn a db = .ok (v, db')) :
    AdmitAnswers db (.attempt a) (.error e) true db'
  | rolledBack {a} (e : DbError) : AdmitAnswers db (.attempt a) (.error e) false db
  | foundContext {messageId} : AdmitAnswers db (.findContextByCreationMessageId messageId)
    (.ok (db.contexts.select (·.creationMessageId == messageId)).head?) false db
  | gotContext {contextId} : AdmitAnswers db (.getContext contextId)
    (.ok (db.contexts.get? contextId)) false db
  | foundTask {contextId messageId} : AdmitAnswers db (.findTaskByMessageId contextId messageId)
    (.ok (db.tasks.select fun t => t.contextId == contextId && t.messageId == messageId).head?)
    false db
  | unread {c e} (hread : c.isRead = true) : AdmitAnswers db c (.error e) false db
  | returned {args result} : AdmitAnswers db (.returned args result) (.ok ()) false db
  | other {q fresh v db'} (h : q.run fresh db = .ok (v, db')) :
    AdmitAnswers db (.other q) (.ok ()) true db'

def admitEnvironment : Environment AdmitCall AdmitCall.Reply DbError AdmitWorld where
  exec w a c r w' := ∃ committed db', AdmitAnswers w.db c r committed db' ∧
    w' = { db := db', log := ⟨a, c, r, committed, w.db, db'⟩ :: w.log }
  drift w w' := ∃ now, w.db.now ≤ now ∧ w' = { w with db := { w.db with now := now } }

/-- The controller's other transactions. -/
def NotAdmission (c : AdmitCall) : Prop := ∃ q, c = .other q ∧ ∀ a, q ≠ .admitTurn a

abbrev AdmitSystem := Pool AdmitCall AdmitCall.Reply DbError AdmitWorld

abbrev AdmitReachable : AdmitSystem → Prop :=
  Pool.Reachable admitEnvironment AdmitJob NotAdmission {}

/-- An attempt that made the task. -/
def AdmitEntry.creates (e : AdmitEntry) (taskId : TaskId) : Bool :=
  match e.call with
  | .attempt _ => e.committed && (e.before.task taskId).isNone && (e.after.task taskId).isSome
  | _ => false

/-- An attempt that was committed, to its caller's knowledge. -/
def AdmitEntry.acknowledged (e : AdmitEntry) : Option (Admission × ContextRow × TaskRow × Bool) :=
  match e with
  | ⟨_, .attempt a, .ok v, true, _, _⟩ => some (a, v)
  | _ => none

/-- What an admission returned, if it did. -/
def AdmitEntry.returns (e : AdmitEntry) : Option (AdmitArguments × ContextRow × TaskRow × Bool) :=
  match e.call with
  | .returned args result => some (args, result)
  | _ => none

/-- A return that reports the task as created. -/
def AdmitEntry.reports (e : AdmitEntry) (taskId : TaskId) : Bool :=
  e.returns.any fun (_, _, task, created) => created && task.taskId == taskId

/-! ### What a caller knows -/

/-- What an admission was told: what an attempt answered, what it found, and that it returned. -/
structure AdmitKnown where
  result : Option (Admission × ContextRow × TaskRow × Bool) := none
  first : Option (MessageId × ContextRow) := none
  named : Option ContextRow := none
  found : Option (ContextId × MessageId × TaskRow) := none
  told : Bool := false

namespace AdmitKnown

def learn (k : AdmitKnown) : (c : AdmitCall) → Except DbError c.Reply → AdmitKnown
  | .attempt a, .ok v => { k with result := some (a, v) }
  | .findContextByCreationMessageId messageId, .ok (some c) =>
    { k with first := some (messageId, c) }
  | .getContext _, .ok (some c) => { k with named := some c }
  | .findTaskByMessageId contextId messageId, .ok (some t) =>
    { k with found := some (contextId, messageId, t) }
  | .returned _ _, _ => { k with told := true }
  | _, _ => k

/-- The context a violated admission found is the one it is for. -/
def Recovered (k : AdmitKnown) (a : Admission) (c : ContextRow) : Prop :=
  match a.requestedContextId with
  | none => k.first = some (a.messageId, c)
  | some contextId => k.named = some c ∧ c.contextId = contextId

inductive MayReturn (k : AdmitKnown) (a : Admission) : ContextRow × TaskRow × Bool → Prop
  | admitted {v} (h : k.result = some (a, v)) : MayReturn k a v
  | recovered {c t} (hnone : k.result = none) (hcontext : k.Recovered a c)
    (htask : k.found = some (c.contextId, a.messageId, t)) : MayReturn k a (c, t, false)

def allowed (k : AdmitKnown) : AdmitCall → Prop
  | .attempt _ => k.result = none ∧ k.told = false
  | .returned args result => k.told = false ∧ ∃ a, args.admission? = some a ∧ k.MayReturn a result
  | .other _ => False
  | _ => k.result = none

/-- Reads of a context by its id find that one, and nothing keeps a method from returning. -/
def possible : (c : AdmitCall) → Except DbError c.Reply → Prop
  | .getContext contextId, .ok (some c) => c.contextId = contextId
  | .returned _ _, .error _ => False
  | _, _ => True

end AdmitKnown

def admitContract : Contract AdmitCall AdmitCall.Reply DbError AdmitKnown where
  possible _ c r := AdmitKnown.possible c r
  allowed := AdmitKnown.allowed
  learn := AdmitKnown.learn

/-- Nothing is known yet that a return could rest on. -/
def AdmitKnown.Trying (k : AdmitKnown) : Prop := k.result = none ∧ k.told = false

lemma conforms_attempts {a : Admission} {n : ℕ} {k : AdmitKnown} (h : k.Trying) :
    admitContract.Conforms (withDsqlRetry (AdmitCall.perform (.attempt a)) n)
      (fun v k' => k'.result = some (a, v) ∧ k'.told = false) AdmitKnown.Trying k := by
  induction n with
  | zero =>
    exact Contract.conforms_perform h (fun v _ => ⟨rfl, h.2⟩) fun e _ => h
  | succ n ih =>
    have hattempt : admitContract.Conforms (AdmitCall.perform (.attempt a))
        (fun v k' => k'.result = some (a, v) ∧ k'.told = false) (· = k) k :=
      Contract.conforms_perform h (fun v _ => ⟨rfl, h.2⟩) fun e _ => rfl
    refine hattempt.tryCatch fun e k' hk' => ?_
    subst hk'
    cases e with
    | serializationFailure => exact ih
    | raised e => exact Contract.conforms_throw h

lemma conforms_recover {a : Admission} {k : AdmitKnown} (h : k.Trying) :
    admitContract.Conforms (recoverAdmission a)
      (fun v k' => k'.MayReturn a v ∧ k'.told = false) AdmitKnown.Trying k := by
  have hcontext : admitContract.Conforms (findAdmissionContext a)
      (fun v k' => k'.Trying ∧ ∀ c, v = some c → k'.Recovered a c) AdmitKnown.Trying k := by
    unfold findAdmissionContext
    cases hrequested : a.requestedContextId with
    | none =>
      refine Contract.conforms_perform h.1 (fun v _ => ?_) fun e _ => h
      cases v with
      | none => exact ⟨h, nofun⟩
      | some c =>
        refine ⟨h, fun c' hc' => ?_⟩
        cases hc'
        simp only [AdmitKnown.Recovered, hrequested]
        rfl
    | some contextId =>
      refine Contract.conforms_perform h.1 (fun v hv => ?_) fun e _ => h
      cases v with
      | none => exact ⟨h, nofun⟩
      | some c =>
        refine ⟨h, fun c' hc' => ?_⟩
        cases hc'
        simp only [AdmitKnown.Recovered, hrequested]
        exact ⟨rfl, hv⟩
  refine hcontext.bind fun context k' hk' => ?_
  obtain ⟨htrying, hrecovered⟩ := hk'
  cases context with
  | none => exact Contract.conforms_throw htrying
  | some c =>
    have hread : admitContract.Conforms
        (AdmitCall.perform (.findTaskByMessageId c.contextId a.messageId))
        (fun v k'' => k''.Trying ∧ ∀ t, v = some t → k''.MayReturn a (c, t, false))
        AdmitKnown.Trying k' := by
      have hallow : admitContract.allowed k' (.findTaskByMessageId c.contextId a.messageId) :=
        htrying.1
      refine Contract.conforms_perform hallow (fun v _ => ?_) fun e _ => htrying
      cases v with
      | none => exact ⟨htrying, fun t ht => by cases ht⟩
      | some t =>
        refine ⟨htrying, fun t' ht' => ?_⟩
        cases ht'
        exact .recovered htrying.1 (hrecovered c rfl) rfl
    refine hread.bind fun task k'' hk'' => ?_
    cases task with
    | none => exact Contract.conforms_throw hk''.1
    | some t => exact Contract.conforms_pure ⟨hk''.2 t rfl, hk''.1.2⟩

/-- An admission returns what it may, once, and raises only when no attempt was acknowledged. -/
lemma conforms_admit {p : AdmitProgram Unit} (h : AdmitJob p) :
    admitContract.Conforms p (fun _ k => k.told = true) (fun k => k.result = none) {} := by
  obtain ⟨args, rfl⟩ := h
  have hadmission : admitContract.Conforms (admitOrRecover args)
      (fun v k => k.told = false ∧ ∃ a, args.admission? = some a ∧ k.MayReturn a v)
      AdmitKnown.Trying {} := by
    unfold admitOrRecover
    cases hargs : args.admission? with
    | none => exact Contract.conforms_throw ⟨rfl, rfl⟩
    | some a =>
      have hattempts := conforms_attempts (a := a) (n := 4) (k := {}) ⟨rfl, rfl⟩
      refine (hattempts.mono (fun v k hk => ⟨hk.2, a, rfl, .admitted hk.1⟩)
        fun k hk => hk).tryCatch fun e k hk => ?_
      split
      · exact (conforms_recover hk).mono (fun v k' hk' => ⟨hk'.2, a, rfl, hk'.1⟩) fun _ hk' => hk'
      · exact Contract.conforms_throw hk
  refine (hadmission.mono (fun _ _ h => h) fun k hk => hk.1).bind fun v k hk => ?_
  exact Contract.conforms_perform hk (fun _ _ => rfl) fun _ hr => hr.elim

/-! ### What the log shows -/

@[simp] lemma turn_isSome {x : TaskId} : (db.turn x).isSome = (db.task x).isSome := by
  simp [Db.turn]

/-- The admission made the task. -/
lemma Admits.made {a : Admission} {c : ContextId} {x : TaskId} {created : Bool}
    (h : Admits db db' a c x created) (y : TaskId) :
    (db'.task y).isSome = ((db.task y).isSome || (created && y == x)) ∧
      (created = true → y = x → db.task y = none) := by
  rw [← turn_isSome, ← turn_isSome]
  cases h with
  | existing _ _ _ _ _ ht => simp [ht]
  | created _ _ _ hfresh _ _ ht =>
    have hnone : db.task a.proposedTaskId = none := by
      have := congrArg Option.isSome hfresh
      rw [turn_isSome] at this
      exact Option.not_isSome_iff_eq_none.mp (by rw [this]; simp)
    refine ⟨?_, fun _ hy => hy ▸ hnone⟩
    rw [ht, Function.update_apply]
    split
    · rename_i hy
      simp [hy]
    · rename_i hy
      simp [hy]

namespace AdmitEntry

variable {e f : AdmitEntry} {taskId : TaskId}

lemma creates_of_uncommitted (h : e.committed = false) : e.creates taskId = false := by
  unfold creates
  split <;> simp [h]

end AdmitEntry

/-- What holds of the store and the log: positions without a gap, one creation for each task,
answers that serve what was asked, and at most one report, by the one who created. -/
structure Logged (w : AdmitWorld) : Prop where
  gapless : Gapless w.db.head w.db.turn
  made : ∀ x, w.log.countP (·.creates x) = if (w.db.task x).isSome then 1 else 0
  commits : ∀ e ∈ w.log, ∀ x, e.creates x = true → ∀ v, e.acknowledged = some v →
    v.2.2.2 = true ∧ v.2.2.1.taskId = x
  unchanged : ∀ e ∈ w.log, e.committed = false → e.after = e.before
  serves : ∀ e ∈ w.log, ∀ args c t created, e.returns = some (args, c, t, created) →
    ∃ m, args.messageId = some m ∧ w.db.Serves args.requestedContextId m c.contextId t.taskId
  reporter : ∀ e ∈ w.log, ∀ x, e.reports x = true → ∃ f ∈ w.log, f.creates x = true ∧
    f.actor = e.actor
  reported : ∀ x, w.log.countP (·.reports x) ≤ 1

/-- The one who made a task is one. -/
lemma Logged.maker {w : AdmitWorld} (h : Logged w) {e f : AdmitEntry} {x : TaskId}
    (he : e ∈ w.log) (hf : f ∈ w.log) (hex : e.creates x = true) (hfx : f.creates x = true) :
    e = f := by
  have hcount := h.made x
  have hle : w.log.countP (·.creates x) ≤ 1 := by
    rw [hcount]
    split <;> omega
  rw [List.countP_eq_length_filter] at hle
  have hmem : ∀ g ∈ w.log, g.creates x = true → g ∈ w.log.filter (·.creates x) :=
    fun g hg hgx => List.mem_filter.mpr ⟨hg, hgx⟩
  have h₁ := hmem e he hex
  have h₂ := hmem f hf hfx
  cases hl : w.log.filter (·.creates x) with
  | nil =>
    rw [hl] at h₁
    cases h₁
  | cons g rest =>
    rw [hl] at h₁ h₂ hle
    have hrest : rest = [] := by simpa using hle
    subst hrest
    rw [List.mem_singleton] at h₁ h₂
    rw [h₁, h₂]

/-- One more entry. -/
lemma Logged.cons {w : AdmitWorld} (h : Logged w) {e : AdmitEntry}
    (hgapless : Gapless db'.head db'.turn) (hkeeps : w.db.Keeps db')
    (hmade : ∀ x, (db'.task x).isSome = ((w.db.task x).isSome || e.creates x) ∧
      (e.creates x = true → w.db.task x = none))
    (hcommits : ∀ x, e.creates x = true → ∀ v, e.acknowledged = some v →
      v.2.2.2 = true ∧ v.2.2.1.taskId = x)
    (hunchanged : e.committed = false → e.after = e.before)
    (hserves : ∀ args c t created, e.returns = some (args, c, t, created) →
      ∃ m, args.messageId = some m ∧ w.db.Serves args.requestedContextId m c.contextId t.taskId)
    (hreporter : ∀ x, e.reports x = true → (∃ f ∈ w.log, f.creates x = true ∧
      f.actor = e.actor) ∧ ∀ f ∈ w.log, f.actor = e.actor → f.returns = none) :
    Logged { db := db', log := e :: w.log } := by
  refine ⟨hgapless, fun x => ?_, List.forall_mem_cons.mpr ⟨hcommits, h.commits⟩,
    List.forall_mem_cons.mpr ⟨hunchanged, h.unchanged⟩, ?_, ?_, fun x => ?_⟩
  · obtain ⟨hsome, hnew⟩ := hmade x
    rw [List.countP_cons, h.made x, hsome]
    cases hx : e.creates x with
    | false => simp
    | true => simp [hnew hx]
  · intro f hf args c t created hr
    rcases List.mem_cons.mp hf with rfl | hf'
    · obtain ⟨m, hm, hs⟩ := hserves args c t created hr
      exact ⟨m, hm, hs.keeps hkeeps⟩
    · obtain ⟨m, hm, hs⟩ := h.serves f hf' args c t created hr
      exact ⟨m, hm, hs.keeps hkeeps⟩
  · intro f hf x hx
    have hold : ∃ g ∈ w.log, g.creates x = true ∧ g.actor = f.actor := by
      rcases List.mem_cons.mp hf with rfl | hf'
      · exact (hreporter x hx).1
      · exact h.reporter f hf' x hx
    obtain ⟨g, hg, hgx⟩ := hold
    exact ⟨g, List.mem_cons_of_mem _ hg, hgx⟩
  · rw [List.countP_cons]
    by_cases hx : e.reports x = true
    · have hnone : w.log.countP (·.reports x) = 0 := by
        rw [List.countP_eq_zero]
        intro f hf hfx
        obtain ⟨⟨g, hg, hgx, hgactor⟩, hquiet⟩ := hreporter x hx
        obtain ⟨g', hg', hgx', hgactor'⟩ := h.reporter f hf x hfx
        -- the task has one maker, who reports here and has not before
        have hsame : g' = g := h.maker hg' hg hgx' hgx
        have hactor : f.actor = e.actor := by rw [← hgactor', hsame, hgactor]
        have hreturns := hquiet f hf hactor
        simp [AdmitEntry.reports, hreturns] at hfx
      rw [hnone, if_pos hx]
    · rw [if_neg hx]
      exact h.reported x

/-- What a caller was told is so, and the log has what it was told. -/
structure Told (w : AdmitWorld) (i : ℕ) (k : AdmitKnown) : Prop where
  result : ∀ {a c t created}, k.result = some (a, c, t, created) →
    w.db.Serves a.requestedContextId a.messageId c.contextId t.taskId
  first : ∀ {m c}, k.first = some (m, c) → ∃ next, w.db.head c.contextId = some (m, next)
  named : ∀ {c}, k.named = some c → ∃ first next, w.db.head c.contextId = some (first, next)
  found : ∀ {x m t}, k.found = some (x, m, t) → ∃ n, w.db.turn t.taskId = some (x, m, n)
  created : ∀ {a c t}, k.result = some (a, c, t, true) →
    ∃ e ∈ w.log, e.creates t.taskId = true ∧ e.actor = .worker i
  acknowledged : ∀ e ∈ w.log, e.actor = .worker i → ∀ v, e.acknowledged = some v →
    k.result = some v
  silent : k.told = false → ∀ e ∈ w.log, e.actor = .worker i → e.returns = none
  told : ∀ {a v}, k.told = true → k.result = some (a, v) →
    ∃ e ∈ w.log, ∃ args, e.returns = some (args, v)

namespace Told

variable {w : AdmitWorld} {i : ℕ} {k : AdmitKnown}

/-- What others do leaves it so. -/
lemma others (h : Told w i k) {e : AdmitEntry} (hkeeps : w.db.Keeps db')
    (hactor : e.actor ≠ .worker i) : Told { db := db', log := e :: w.log } i k where
  result hk := (h.result hk).keeps hkeeps
  first hk := (h.first hk).elim fun _ hn => hkeeps.head hn
  named hk := by
    obtain ⟨first, next, hhead⟩ := h.named hk
    exact ⟨first, hkeeps.head hhead⟩
  found hk := (h.found hk).imp fun _ hn => hkeeps.turn hn
  created hk := by
    obtain ⟨f, hf, hcreates⟩ := h.created hk
    exact ⟨f, List.mem_cons_of_mem _ hf, hcreates⟩
  acknowledged f hf hfactor := by
    rcases List.mem_cons.mp hf with rfl | hf'
    · exact absurd hfactor hactor
    · exact h.acknowledged f hf' hfactor
  silent hk f hf hfactor := by
    rcases List.mem_cons.mp hf with rfl | hf'
    · exact absurd hfactor hactor
    · exact h.silent hk f hf' hfactor
  told hk hv := by
    obtain ⟨f, hf, hreturns⟩ := h.told hk hv
    exact ⟨f, List.mem_cons_of_mem _ hf, hreturns⟩

/-- The store alone may change under it. -/
lemma drift (h : Told w i k) (hh : db'.head = w.db.head) (ht : db'.turn = w.db.turn) :
    Told { w with db := db' } i k :=
  have hkeeps : w.db.Keeps db' := .of_eq hh ht
  { result := fun hk => (h.result hk).keeps hkeeps
    first := fun hk => (h.first hk).elim fun _ hn => hkeeps.head hn
    named := fun hk => (h.named hk).elim fun first ⟨_, hn⟩ => ⟨first, hkeeps.head hn⟩
    found := fun hk => (h.found hk).imp fun _ hn => hkeeps.turn hn
    created := h.created
    acknowledged := h.acknowledged
    silent := h.silent
    told := h.told }

/-- What may be returned serves what was asked, and a created task was made by who returns it. -/
lemma mayReturn (h : Told w i k) {a : Admission} {c : ContextRow} {t : TaskRow} {created : Bool}
    (hmay : k.MayReturn a (c, t, created)) :
    w.db.Serves a.requestedContextId a.messageId c.contextId t.taskId ∧
      (created = true → ∃ e ∈ w.log, e.creates t.taskId = true ∧ e.actor = .worker i) := by
  cases hmay with
  | admitted hk =>
    refine ⟨h.result hk, fun hcreated => ?_⟩
    subst hcreated
    exact h.created hk
  | recovered hnone hcontext htask =>
    obtain ⟨n, hturn⟩ := h.found htask
    refine ⟨⟨?_, n, hturn⟩, nofun⟩
    unfold AdmitKnown.Recovered at hcontext
    split at hcontext
    · rename_i hrequested
      obtain ⟨next, hhead⟩ := h.first hcontext
      exact ⟨_, next, hhead, .inr ⟨hrequested, rfl⟩⟩
    · rename_i contextId hrequested
      obtain ⟨first, next, hhead⟩ := h.named hcontext.1
      exact ⟨first, next, hhead, .inl (by rw [hrequested, hcontext.2])⟩

end Told

/-- One's own call that was not acknowledged and returns nothing. -/
lemma Told.own {w : AdmitWorld} {i : ℕ} {k : AdmitKnown} (h : Told w i k) {e : AdmitEntry}
    (hkeeps : w.db.Keeps db') (hack : e.acknowledged = none) (hreturns : e.returns = none) :
    Told { db := db', log := e :: w.log } i k where
  result hk := (h.result hk).keeps hkeeps
  first hk := (h.first hk).elim fun _ hn => hkeeps.head hn
  named hk := (h.named hk).elim fun first ⟨_, hn⟩ => ⟨first, hkeeps.head hn⟩
  found hk := (h.found hk).imp fun _ hn => hkeeps.turn hn
  created hk := by
    obtain ⟨f, hf, hcreates⟩ := h.created hk
    exact ⟨f, List.mem_cons_of_mem _ hf, hcreates⟩
  acknowledged f hf hfactor v hv := by
    rcases List.mem_cons.mp hf with rfl | hf'
    · rw [hack] at hv
      cases hv
    · exact h.acknowledged f hf' hfactor v hv
  silent hk f hf hfactor := by
    rcases List.mem_cons.mp hf with rfl | hf'
    · exact hreturns
    · exact h.silent hk f hf' hfactor
  told hk hv := by
    obtain ⟨f, hf, hreturns⟩ := h.told hk hv
    exact ⟨f, List.mem_cons_of_mem _ hf, hreturns⟩

/-- An acknowledged attempt. -/
lemma Told.admitted {w : AdmitWorld} {i : ℕ} {k : AdmitKnown} (h : Told w i k) {a : Admission}
    {v : ContextRow × TaskRow × Bool} (hallow : admitContract.allowed k (.attempt a))
    (hrun : admitTurn a w.db = .ok (v, db')) :
    Told { db := db', log := ⟨.worker i, .attempt a, .ok v, true, w.db, db'⟩ :: w.log } i
      { k with result := some (a, v) } := by
  obtain ⟨c, t, created⟩ := v
  obtain ⟨hnone, hsilent⟩ := hallow
  have hadmits := admitTurn_admits hrun
  have hkeeps := hadmits.keeps
  refine ⟨?_, fun hk => (h.first hk).elim fun _ hn => hkeeps.head hn,
    fun hk => (h.named hk).elim fun first ⟨_, hn⟩ => ⟨first, hkeeps.head hn⟩,
    fun hk => (h.found hk).imp fun _ hn => hkeeps.turn hn, ?_, ?_, ?_, ?_⟩
  · rintro _ _ _ _ ⟨⟩
    exact hadmits.serves
  · rintro _ _ _ ⟨⟩
    have hmade := hadmits.made t.taskId
    refine ⟨_, List.mem_cons_self, ?_, rfl⟩
    simp [AdmitEntry.creates, hmade.1, hmade.2 rfl rfl]
  · intro f hf hfactor u hu
    rcases List.mem_cons.mp hf with rfl | hf'
    · exact hu
    · have hold := h.acknowledged f hf' hfactor u hu
      rw [hnone] at hold
      cases hold
  · intro hk f hf hfactor
    rcases List.mem_cons.mp hf with rfl | hf'
    · rfl
    · exact h.silent hk f hf' hfactor
  · intro _ _ hk _
    rw [hsilent] at hk
    cases hk

/-- The return. -/
lemma Told.returned {w : AdmitWorld} {i : ℕ} {k : AdmitKnown} (h : Told w i k)
    {args : AdmitArguments} {result : ContextRow × TaskRow × Bool}
    (hallow : admitContract.allowed k (.returned args result)) {r : Except DbError Unit} :
    Told { w with log := ⟨.worker i, .returned args result, r, false, w.db, w.db⟩ :: w.log } i
      { k with told := true } := by
  obtain ⟨-, a, -, hmay⟩ := hallow
  refine ⟨h.result, h.first, h.named, h.found, fun hk => ?_, ?_, nofun, fun _ hk => ?_⟩
  · obtain ⟨f, hf, hcreates⟩ := h.created hk
    exact ⟨f, List.mem_cons_of_mem _ hf, hcreates⟩
  · intro f hf hfactor u hu
    rcases List.mem_cons.mp hf with rfl | hf'
    · cases hu
    · exact h.acknowledged f hf' hfactor u hu
  · refine ⟨_, List.mem_cons_self, args, ?_⟩
    cases hmay with
    | admitted hresult =>
      rw [hresult] at hk
      cases hk
      rfl
    | recovered hnone =>
      rw [hnone] at hk
      cases hk

/-- The store's part of one call. -/
lemma Logged.call {w w' : AdmitWorld} (h : Logged w) {a : Actor} {c : AdmitCall}
    {r : Except DbError c.Reply} (hc : admitEnvironment.exec w a c r w')
    (hother : ∀ q, c = .other q → ∀ x, q ≠ .admitTurn x)
    (hreturn : ∀ args result, c = .returned args result →
      (∃ m, args.messageId = some m ∧ w.db.Serves args.requestedContextId m result.1.contextId
        result.2.1.taskId) ∧
      (result.2.2 = true → ∃ f ∈ w.log, f.creates result.2.1.taskId = true ∧ f.actor = a) ∧
      ∀ f ∈ w.log, f.actor = a → f.returns = none) :
    Logged w' ∧ w.db.Keeps w'.db := by
  obtain ⟨committed, db', hans, rfl⟩ := hc
  have hadmitted : ∀ {x v r}, admitTurn x w.db = .ok (v, db') →
      (∀ u, AdmitEntry.acknowledged ⟨a, .attempt x, r, true, w.db, db'⟩ = some u → u = (x, v)) →
      Logged { db := db', log := ⟨a, .attempt x, r, true, w.db, db'⟩ :: w.log } ∧
        w.db.Keeps db' := by
    rintro x ⟨c, t, created⟩ r hrun hack
    have hadmits := admitTurn_admits hrun
    have hcreates : ∀ y, AdmitEntry.creates ⟨a, .attempt x, r, true, w.db, db'⟩ y = true ↔
        w.db.task y = none ∧ created = true ∧ y = t.taskId := by
      intro y
      have hmade := (hadmits.made y).1
      cases hy : w.db.task y <;> simp [AdmitEntry.creates, hmade, hy]
    refine ⟨h.cons (h.gapless.admits hadmits) hadmits.keeps (fun y => ⟨?_, fun hy =>
      ((hcreates y).mp hy).1⟩) (fun y hy u hu => ?_) (fun hy => by cases hy)
      (fun _ _ _ _ hr => by cases hr) (fun _ hy => by cases hy), hadmits.keeps⟩
    · have hmade := (hadmits.made y).1
      rw [hmade]
      cases hy : w.db.task y <;> simp [AdmitEntry.creates, hmade, hy]
    · obtain ⟨-, hcreated, hid⟩ := (hcreates y).mp hy
      rw [hack u hu]
      exact ⟨hcreated, hid.symm⟩
  have hquiet : ∀ {c r}, (∀ x y, c = .returned x y → False) →
      Logged { db := w.db, log := ⟨a, c, r, false, w.db, w.db⟩ :: w.log } ∧
        w.db.Keeps w.db := by
    intro c r hc
    have hreturns : AdmitEntry.returns ⟨a, c, r, false, w.db, w.db⟩ = none := by
      unfold AdmitEntry.returns
      split
      · rename_i heq
        exact (hc _ _ heq).elim
      · rfl
    have hcreates : ∀ y, AdmitEntry.creates ⟨a, c, r, false, w.db, w.db⟩ y = false :=
      fun y => AdmitEntry.creates_of_uncommitted rfl
    refine ⟨h.cons h.gapless (.of_eq rfl rfl) (fun y => by simp [hcreates]) (fun y hy => ?_)
      (fun _ => rfl) (fun _ _ _ _ hr => ?_) (fun y hy => ?_), .of_eq rfl rfl⟩
    · rw [hcreates] at hy
      cases hy
    · rw [hreturns] at hr
      cases hr
    · rw [AdmitEntry.reports, hreturns] at hy
      cases hy
  cases hans with
  | done hrun =>
    refine hadmitted hrun fun u hu => ?_
    cases hu
    rfl
  | unacknowledged e hrun => exact hadmitted hrun fun u hu => by cases hu
  | rolledBack | foundContext | gotContext | foundTask => exact hquiet fun x y hc => by cases hc
  | unread hread =>
    refine hquiet fun x y hc => ?_
    rw [hc] at hread
    cases hread
  | @returned args result =>
    obtain ⟨c, t, created⟩ := result
    obtain ⟨hserves, hcreated, hsilent⟩ := hreturn _ _ rfl
    refine ⟨h.cons h.gapless (.of_eq rfl rfl) (fun y => by simp [AdmitEntry.creates])
      (fun _ hy => by cases hy) (fun _ => rfl) (fun _ _ _ _ hr => ?_) (fun y hy => ?_),
      .of_eq rfl rfl⟩
    · cases hr
      exact hserves
    · simp only [AdmitEntry.reports, AdmitEntry.returns, Option.any_some, Bool.and_eq_true,
        beq_iff_eq] at hy
      rw [← hy.2]
      exact ⟨hcreated hy.1, hsilent⟩
  | other hrun =>
    obtain ⟨hh, ht⟩ := (Query.run_effect hrun).unadmitted (hother _ rfl)
    have htask : ∀ y, (db'.task y).isSome = (w.db.task y).isSome := by
      intro y
      rw [← turn_isSome, ht, turn_isSome]
    refine ⟨h.cons (by rw [hh, ht]; exact h.gapless) (.of_eq hh ht)
      (fun y => by simp [AdmitEntry.creates, htask]) (fun _ hy => by cases hy)
      (fun hy => by cases hy) (fun _ _ _ _ hr => by cases hr) (fun _ hy => by cases hy),
      .of_eq hh ht⟩

/-- The invariant of every run. -/
structure Recorded (s : Parties AdmitKnown AdmitWorld) : Prop extends Logged s.world where
  callers : ∀ i k, s.knows i = some k → Told s.world i k
  joined : ∀ e ∈ s.world.log, ∀ i, e.actor = .worker i → i < s.joined

/-- A caller's part of its own call. -/
lemma Told.call {w w' : AdmitWorld} {i : ℕ} {k : AdmitKnown} {c : AdmitCall}
    {r : Except DbError c.Reply} (h : Told w i k) (hallow : admitContract.allowed k c)
    (hc : admitEnvironment.exec w (.worker i) c r w') (hkeeps : w.db.Keeps w'.db) :
    Told w' i (admitContract.learn k c r) := by
  obtain ⟨committed, db', hans, rfl⟩ := hc
  cases hans with
  | done hrun => exact h.admitted hallow hrun
  | unacknowledged e hrun => exact h.own hkeeps rfl rfl
  | rolledBack e => exact h.own hkeeps rfl rfl
  | @foundContext m =>
    have hown := h.own (e := ⟨.worker i, .findContextByCreationMessageId m,
      .ok (w.db.contexts.select (·.creationMessageId == m)).head?, false, w.db, w.db⟩)
      hkeeps rfl rfl
    cases hfound : (w.db.contexts.select (·.creationMessageId == m)).head? with
    | none =>
      rw [hfound] at hown
      exact hown
    | some c =>
      rw [hfound] at hown
      obtain ⟨hget, hm⟩ := Table.mem_select.mp (List.mem_of_mem_head? hfound)
      refine ⟨hown.result, ?_, hown.named, hown.found, hown.created, hown.acknowledged,
        hown.silent, hown.told⟩
      rintro _ _ ⟨⟩
      exact ⟨c.nextSequence, head_eq_some.mpr ⟨c, hget, by simpa using hm, rfl⟩⟩
  | @gotContext contextId =>
    have hown := h.own (e := ⟨.worker i, .getContext contextId,
      .ok (w.db.contexts.get? contextId), false, w.db, w.db⟩) hkeeps rfl rfl
    cases hfound : w.db.contexts.get? contextId with
    | none =>
      rw [hfound] at hown
      exact hown
    | some c =>
      rw [hfound] at hown
      refine ⟨hown.result, hown.first, ?_, hown.found, hown.created, hown.acknowledged,
        hown.silent, hown.told⟩
      rintro _ ⟨⟩
      exact ⟨_, _, head_some (by rw [Db.context_id hfound]; exact hfound)⟩
  | @foundTask x m =>
    have hown := h.own (e := ⟨.worker i, .findTaskByMessageId x m,
      .ok (w.db.tasks.select fun t => t.contextId == x && t.messageId == m).head?, false,
      w.db, w.db⟩) hkeeps rfl rfl
    cases hfound : (w.db.tasks.select fun t => t.contextId == x && t.messageId == m).head? with
    | none =>
      rw [hfound] at hown
      exact hown
    | some t =>
      rw [hfound] at hown
      obtain ⟨hget, hm⟩ := Table.mem_select.mp (List.mem_of_mem_head? hfound)
      simp only [Bool.and_eq_true, beq_iff_eq] at hm
      refine ⟨hown.result, hown.first, hown.named, ?_, hown.created, hown.acknowledged,
        hown.silent, hown.told⟩
      rintro _ _ _ ⟨⟩
      exact ⟨t.sequence, turn_eq_some.mpr ⟨t, hget, hm.1, hm.2, rfl⟩⟩
  | @unread c e hread =>
    cases c with
    | findContextByCreationMessageId | getContext | findTaskByMessageId =>
      exact h.own hkeeps rfl rfl
    | _ => cases hread
  | returned => exact h.returned hallow
  | other => exact hallow.elim

lemma exec_log {w w' : AdmitWorld} {a : Actor} {c : AdmitCall} {r : Except DbError c.Reply}
    (hc : admitEnvironment.exec w a c r w') : ∃ e, e.actor = a ∧ w'.log = e :: w.log := by
  obtain ⟨committed, db', -, rfl⟩ := hc
  exact ⟨_, rfl, rfl⟩

lemma Told.elsewhere {w w' : AdmitWorld} {a : Actor} {i : ℕ} {k : AdmitKnown} {c : AdmitCall}
    {r : Except DbError c.Reply} (h : Told w i k) (ha : a ≠ .worker i)
    (hc : admitEnvironment.exec w a c r w') (hkeeps : w.db.Keeps w'.db) : Told w' i k := by
  obtain ⟨committed, db', -, rfl⟩ := hc
  exact h.others hkeeps ha

@[simp] lemma head_empty (c : ContextId) : ({} : Db).head c = none := rfl

@[simp] lemma turn_empty (x : TaskId) : ({} : Db).turn x = none := rfl

lemma logged_empty : Logged {} where
  gapless := by constructor <;> simp
  made x := by simp [Db.task]
  commits := by simp
  unchanged := by simp
  serves := by simp
  reporter := by simp
  reported x := Nat.zero_le _

/-- **Every run keeps the record.** -/
theorem recorded {s : Parties AdmitKnown AdmitWorld}
    (hs : Parties.Reachable admitContract admitEnvironment {} NotAdmission {} s) :
    Recorded s := by
  induction hs with
  | init => exact ⟨logged_empty, fun i k hk => (by cases hk), fun e he => (by cases he)⟩
  | @step s _ hs h ih =>
    cases h with
    | join =>
      refine ⟨ih.toLogged, fun i k hk => ?_,
        fun e he i hi => Nat.lt_succ_of_lt (ih.joined e he i hi)⟩
      dsimp only at hk
      by_cases hi : i = s.joined
      · -- nothing in the log is a newcomer's
        have hold : ∀ e ∈ s.world.log, e.actor ≠ .worker i := fun e he hactor =>
          absurd (ih.joined e he i hactor) (by omega)
        rw [hi, Function.update_self] at hk
        cases hk
        exact ⟨nofun, nofun, nofun, nofun, nofun, fun e he hactor => absurd hactor (hold e he),
          fun _ e he hactor => absurd hactor (hold e he), nofun⟩
      · rw [Function.update_of_ne hi] at hk
        exact ih.callers i k hk
    | @call i k c r w' hk hallow hc =>
      have htold := ih.callers i k hk
      obtain ⟨hlogged, hkeeps⟩ := ih.toLogged.call hc
        (fun q hq => by
          subst hq
          exact hallow.elim)
        (fun args result hq => by
          subst hq
          obtain ⟨hsilent, a, hargs, hmay⟩ := hallow
          obtain ⟨c, t, created⟩ := result
          obtain ⟨hserves, hcreated⟩ := htold.mayReturn hmay
          have hmessage : args.messageId = some a.messageId ∧
              args.requestedContextId = a.requestedContextId := by
            unfold AdmitArguments.admission? at hargs
            split at hargs
            · cases hargs
              exact ⟨‹_›, rfl⟩
            · cases hargs
          refine ⟨⟨a.messageId, hmessage.1, ?_⟩, hcreated, htold.silent hsilent⟩
          rw [hmessage.2]
          exact hserves)
      obtain ⟨e, hactor, hlog⟩ := exec_log hc
      refine ⟨hlogged, fun j kj hj => ?_, fun f hf j hfactor => ?_⟩
      · dsimp only at hj
        by_cases hji : j = i
        · subst hji
          rw [Function.update_self] at hj
          cases hj
          exact htold.call hallow hc hkeeps
        · rw [Function.update_of_ne hji] at hj
          exact (ih.callers j kj hj).elsewhere
            (fun hw => hji (Actor.worker.inj hw).symm) hc hkeeps
      · change f ∈ w'.log at hf
        rw [hlog] at hf
        rcases List.mem_cons.mp hf with rfl | hf'
        · rw [hactor] at hfactor
          cases hfactor
          exact hs.joined hk
        · exact ih.joined f hf' j hfactor
    | leave i =>
      refine ⟨ih.toLogged, fun j k hk => ?_, ih.joined⟩
      dsimp only at hk
      by_cases hj : j = i
      · rw [hj, Function.update_self] at hk
        cases hk
      · rw [Function.update_of_ne hj] at hk
        exact ih.callers j k hk
    | @outside c r w' ho hc =>
      obtain ⟨q, rfl, hq⟩ := ho
      obtain ⟨hlogged, hkeeps⟩ := ih.toLogged.call hc (fun _ h => by cases h; exact hq)
        (fun _ _ h => by cases h)
      obtain ⟨e, hactor, hlog⟩ := exec_log hc
      refine ⟨hlogged, fun j k hj => (ih.callers j k hj).elsewhere (fun h => by cases h) hc hkeeps,
        fun f hf j hfactor => ?_⟩
      change f ∈ w'.log at hf
      rw [hlog] at hf
      rcases List.mem_cons.mp hf with rfl | hf'
      · rw [hactor] at hfactor
        cases hfactor
      · exact ih.joined f hf' j hfactor
    | drift hd =>
      obtain ⟨now, -, rfl⟩ := hd
      have h := ih.toLogged
      exact ⟨⟨h.gapless, h.made, h.commits, h.unchanged, fun e he args c t created hr =>
        (h.serves e he args c t created hr).imp fun m ⟨hm, hs⟩ => ⟨hm, hs.keeps (.of_eq rfl rfl)⟩,
        h.reporter, h.reported⟩, fun j k hj => (ih.callers j k hj).drift rfl rfl, ih.joined⟩

/-! ### Exactly once -/

/-- What admission promises of a state. -/
structure ExactlyOnce (s : AdmitSystem) : Prop where
  /-- A context's positions are exactly those before the next one. -/
  positions : ∀ contextId c, s.world.db.context contextId = some c →
    ((s.world.db.tasks.select (·.contextId == contextId)).map (·.sequence)).Perm
      (List.range' 1 (c.nextSequence - 1))
  one_task : ∀ t ∈ s.world.db.tasks.rows, ∀ u ∈ s.world.db.tasks.rows,
    t.contextId = u.contextId → t.messageId = u.messageId → t = u
  one_context : ∀ c ∈ s.world.db.contexts.rows, ∀ d ∈ s.world.db.contexts.rows,
    c.creationMessageId = d.creationMessageId → c = d
  /-- Admissions of one message, in one context or each as a first turn, return the same. -/
  agree : ∀ e ∈ s.world.log, ∀ f ∈ s.world.log, ∀ args c t created args' c' t' created',
    e.returns = some (args, c, t, created) → f.returns = some (args', c', t', created') →
    args.requestedContextId = args'.requestedContextId → args.messageId = args'.messageId →
    c.contextId = c'.contextId ∧ t.taskId = t'.taskId
  created_once : ∀ taskId, (s.world.db.task taskId).isSome = true →
    s.world.log.countP (·.creates taskId) = 1 ∧ s.world.log.countP (·.reports taskId) ≤ 1
  /-- Who made a task and knows it reports it, unless it is stopped before. -/
  reported : ∀ e ∈ s.world.log, ∀ i taskId, e.actor = .worker i → e.creates taskId = true →
    e.acknowledged.isSome = true → s.thread i = none ∨
      (∃ args c t next, s.thread i = some (.call (.returned args (c, t, true)) next) ∧
        t.taskId = taskId) ∨
      s.world.log.countP (·.reports taskId) = 1
  /-- Who raised knows of no commit, and what is not committed changes nothing. -/
  raised : ∀ i x, s.thread i = some (.raise x) → ∀ e ∈ s.world.log, e.actor = .worker i →
    e.acknowledged = none
  unchanged : ∀ e ∈ s.world.log, e.committed = false → e.after = e.before

lemma AdmitEntry.reports_of_returns {e : AdmitEntry} {args : AdmitArguments} {c : ContextRow}
    {t : TaskRow} (h : e.returns = some (args, c, t, true)) : e.reports t.taskId = true := by
  simp [AdmitEntry.reports, h]

lemma Gapless.positions (h : Gapless db.head db.turn) {contextId : ContextId} {c : ContextRow}
    (hctx : db.context contextId = some c) :
    ((db.tasks.select (·.contextId == contextId)).map (·.sequence)).Perm
      (List.range' 1 (c.nextSequence - 1)) := by
  have hpos := h.pos (head_some hctx)
  have hmem : ∀ t, t ∈ db.tasks.select (·.contextId == contextId) ↔
      db.task t.taskId = some t ∧ t.contextId = contextId := by
    intro t
    rw [Table.mem_select, beq_iff_eq]
    rfl
  refine (List.perm_ext_iff_of_nodup ?_ List.nodup_range').mpr fun n => ?_
  · refine List.Nodup.map_on (fun t ht u hu hseq => ?_) ?_
    · obtain ⟨ht, hof⟩ := (hmem t).mp ht
      obtain ⟨hu, hof'⟩ := (hmem u).mp hu
      have hturn := turn_some ht
      have hturn' := turn_some hu
      rw [hof] at hturn
      rw [hof', ← hseq] at hturn'
      have hid := h.place hturn hturn'
      rw [hid, hu] at ht
      exact (Option.some.inj ht).symm
    · exact (List.Nodup.of_map _ db.tasks.nodup).filter _
  · rw [List.mem_map, List.mem_range'_1]
    constructor
    · rintro ⟨t, ht, rfl⟩
      obtain ⟨ht, hof⟩ := (hmem t).mp ht
      have hturn := turn_some ht
      rw [hof] at hturn
      obtain ⟨first, next, hhead, hn, hlt⟩ := h.of hturn
      rw [head_some hctx] at hhead
      cases hhead
      omega
    · rintro ⟨hn, hlt⟩
      obtain ⟨x, m, hx⟩ := h.full (head_some hctx) hn (by omega)
      obtain ⟨t, ht, hof, -, hseq⟩ := turn_eq_some.mp hx
      exact ⟨t, (hmem t).mpr ⟨by rw [Db.task_id ht]; exact ht, hof⟩, hseq⟩

/-- A run of admissions is a run of parties that keep the contract. -/
lemma admit_simulates {s : AdmitSystem} (hs : AdmitReachable s) :
    ∃ knows : ℕ → Option AdmitKnown, Recorded ⟨s.world, knows, s.spawned⟩ ∧
      ∀ i p, s.thread i = some p → ∃ k, knows i = some k ∧
        admitContract.Conforms p (fun _ k => k.told = true) (fun k => k.result = none) k := by
  have hconforms : ∀ p, AdmitJob p → admitContract.Conforms p (fun _ k => k.told = true)
      (fun k => k.result = none) {} := fun _ => conforms_admit
  have hpossible : ∀ s, Parties.Reachable admitContract admitEnvironment {} NotAdmission {} s →
      ∀ i k c r w', s.knows i = some k → admitContract.allowed k c →
        admitEnvironment.exec s.world (.worker i) c r w' → admitContract.possible k c r := by
    rintro s - i k c r w' - - ⟨committed, db', hans, -⟩
    cases hans with
    | @gotContext contextId =>
      cases hfound : s.world.db.contexts.get? contextId with
      | none => trivial
      | some c => exact Table.get?_key hfound
    | @unread c e hread =>
      cases c with
      | findContextByCreationMessageId | getContext | findTaskByMessageId => trivial
      | _ => cases hread
    | _ => trivial
  obtain ⟨knows, hknows, hthreads⟩ := Parties.simulates hconforms hpossible hs
  exact ⟨knows, recorded hknows, hthreads⟩

/-- **Exactly-once gapless admission.** -/
theorem exactly_once_gapless {s : AdmitSystem} (hs : AdmitReachable s) : ExactlyOnce s := by
  obtain ⟨knows, hrec, hthreads⟩ := admit_simulates hs
  refine ⟨fun contextId c hctx => hrec.gapless.positions hctx, ?_, ?_, ?_, ?_, ?_, ?_,
    hrec.unchanged⟩
  · intro t ht u hu hof hmessage
    have hturn := turn_some (Table.get?_of_mem ht)
    have hturn' := turn_some (Table.get?_of_mem hu)
    rw [hof, hmessage] at hturn
    have hid := hrec.gapless.message hturn hturn'
    have hget := Table.get?_of_mem ht
    rw [hid, Table.get?_of_mem hu] at hget
    exact (Option.some.inj hget).symm
  · intro c hc d hd hfirst
    have hhead := head_some (Table.get?_of_mem hc)
    have hhead' := head_some (Table.get?_of_mem hd)
    rw [hfirst] at hhead
    have hid := hrec.gapless.first hhead hhead'
    have hget := Table.get?_of_mem hc
    rw [hid, Table.get?_of_mem hd] at hget
    exact (Option.some.inj hget).symm
  · intro e he f hf args c t created args' c' t' created' hr hr' hrequested hmessage
    obtain ⟨m, hm, hserves⟩ := hrec.serves e he _ _ _ _ hr
    obtain ⟨m', hm', hserves'⟩ := hrec.serves f hf _ _ _ _ hr'
    rw [hmessage, hm'] at hm
    cases hm
    rw [← hrequested] at hserves'
    exact hserves.agree hrec.gapless hserves'
  · intro x hx
    have hmade := hrec.made x
    rw [if_pos hx] at hmade
    exact ⟨hmade, hrec.reported x⟩
  · intro e he i x hactor hcreates hack
    obtain ⟨v, hv⟩ := Option.isSome_iff_exists.mp hack
    obtain ⟨a, c, t, created⟩ := v
    obtain ⟨hcreated, hid⟩ := hrec.commits e he x hcreates _ hv
    change created = true at hcreated
    change t.taskId = x at hid
    subst hcreated hid
    cases hp : s.thread i with
    | none => exact .inl rfl
    | some p =>
      obtain ⟨k, hk, hconf⟩ := hthreads i p hp
      have htold := hrec.callers i k hk
      have hresult := htold.acknowledged e he hactor _ hv
      cases htelling : k.told with
      | true =>
        obtain ⟨f, hf, args, hreturns⟩ := htold.told htelling hresult
        have hpos : 0 < s.world.log.countP (·.reports t.taskId) :=
          List.countP_pos_iff.mpr ⟨f, hf, AdmitEntry.reports_of_returns hreturns⟩
        have hle : s.world.log.countP (·.reports t.taskId) ≤ 1 := hrec.reported t.taskId
        exact .inr (.inr (by omega))
      | false =>
        cases p with
        | ret u =>
          have htrue : k.told = true := hconf
          rw [htelling] at htrue
          cases htrue
        | raise err =>
          have hnone : k.result = none := hconf
          rw [hresult] at hnone
          cases hnone
        | call c' next =>
          have hallow : k.allowed c' := hconf.1
          cases c' with
          | attempt a' =>
            have hnone := hallow.1
            rw [hresult] at hnone
            cases hnone
          | returned args result =>
            obtain ⟨-, a', -, hmay⟩ := hallow
            cases hmay with
            | admitted h =>
              rw [hresult] at h
              cases h
              exact .inr (.inl ⟨args, c, t, next, rfl, rfl⟩)
            | recovered hnone =>
              rw [hresult] at hnone
              cases hnone
          | other q => exact hallow.elim
          | findContextByCreationMessageId | getContext | findTaskByMessageId =>
            have hnone : k.result = none := hallow
            rw [hresult] at hnone
            cases hnone
  · intro i x hp e he hactor
    obtain ⟨k, hk, hconf⟩ := hthreads i _ hp
    have hnone : k.result = none := hconf
    cases hack : e.acknowledged with
    | none => rfl
    | some v =>
      have hresult := (hrec.callers i k hk).acknowledged e he hactor v hack
      rw [hnone] at hresult
      cases hresult

/-! ### A race -/

/-- What a script's line answers: the call done, or an attempt rolled back. -/
inductive AdmitSaid
  | done | rolledBack (e : DbError)

def AdmitWorld.note (w : AdmitWorld) (a : Actor) (c : AdmitCall) (r : Except DbError c.Reply)
    (committed : Bool) (db : Db) : AdmitWorld :=
  { db := db, log := ⟨a, c, r, committed, w.db, db⟩ :: w.log }

def AdmitWorld.answer (w : AdmitWorld) (actor : Actor) :
    (c : AdmitCall) → AdmitSaid → Option (Except DbError c.Reply × AdmitWorld)
  | .attempt a, .done =>
    match admitTurn a w.db with
    | .ok (v, db) => some (.ok v, w.note actor (.attempt a) (.ok v) true db)
    | .error _ => none
  | .attempt a, .rolledBack e =>
    some (.error e, w.note actor (.attempt a) (.error e) false w.db)
  | .findContextByCreationMessageId messageId, .done =>
    let v := (w.db.contexts.select (·.creationMessageId == messageId)).head?
    some (.ok v, w.note actor (.findContextByCreationMessageId messageId) (.ok v) false w.db)
  | .findTaskByMessageId contextId messageId, .done =>
    let v := (w.db.tasks.select fun t =>
      t.contextId == contextId && t.messageId == messageId).head?
    some (.ok v, w.note actor (.findTaskByMessageId contextId messageId) (.ok v) false w.db)
  | .returned args result, .done =>
    some (.ok (), w.note actor (.returned args result) (.ok ()) false w.db)
  | _, _ => none

lemma AdmitWorld.answer_exec {w w' : AdmitWorld} {actor : Actor} {c : AdmitCall}
    {said : AdmitSaid} {r : Except DbError c.Reply} (h : w.answer actor c said = some (r, w')) :
    admitEnvironment.exec w actor c r w' := by
  unfold answer at h
  split at h
  · split at h
    · rename_i hrun
      cases h
      exact ⟨_, _, .done hrun, rfl⟩
    · cases h
  · cases h
    exact ⟨_, _, .rolledBack _, rfl⟩
  · cases h
    exact ⟨_, _, .foundContext, rfl⟩
  · cases h
    exact ⟨_, _, .foundTask, rfl⟩
  · cases h
    exact ⟨_, _, .returned, rfl⟩
  · cases h

/-- Scripts start admissions. -/
def admitPlayer :
    Player admitEnvironment AdmitJob NotAdmission AdmitSaid AdmitArguments Empty where
  job args := do
    let result ← admitOrRecover args
    AdmitCall.perform (.returned args result)
  job_entry args := ⟨args, rfl⟩
  answer := AdmitWorld.answer
  answer_exec := AdmitWorld.answer_exec
  isOutside _ := false
  outside_of h := by cases h
  tick _ t := t.elim
  tick_drift {_ t} := t.elim

/-- A first turn's message, with the ids a caller proposes. -/
def firstMessage (n : ℕ) : AdmitArguments :=
  { proposedContextId := some n
    messageId := some 7
    proposedTaskId := some n
    inputObjectKey := some n }

/-- Two callers admit one first message. One of them is told of a conflict, tries again and is told
of a violation, because the other one has committed; it returns what is there. -/
def raced : List (Line AdmitCall AdmitSaid AdmitArguments Empty) :=
  [.start (firstMessage 1), .start (firstMessage 2),
    .call 0 (.rolledBack .serializationFailure), .call 1 .done,
    .call 0 (.rolledBack (.raised .uniqueViolation)), .call 0 .done, .call 0 .done,
    .call 1 .done, .call 0 .done]

theorem exactly_once_gapless_raced :
    ∃ s, admitPlayer.play {} raced = some s ∧ s.world.log.countP (·.reports 2) = 1 ∧
      s.world.log.countP (·.returns.isSome) = 2 ∧ ExactlyOnce s := by
  obtain ⟨s, hplay, hs, hval⟩ := admitPlayer.played
    (fun s => (s.world.log.countP (·.reports 2), s.world.log.countP (·.returns.isSome)))
    (show (admitPlayer.play {} raced).map _ = some (1, 2) by decide +kernel)
  simp only [Prod.mk.injEq] at hval
  exact ⟨s, hplay, hval.1, hval.2, exactly_once_gapless hs⟩

end ManagedAgents.Controller
