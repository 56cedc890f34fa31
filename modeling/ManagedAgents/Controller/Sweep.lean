import ManagedAgents.Controller.Entries
import ManagedAgents.Controller.Custody

/-!
What the sweep of the pending-input store deletes.

An object is swept when it is a day old and no row names it. The program that stored it is over by
then, and no other could have handed it to a row: nobody comes to need what was swept. A fetch may
fail at any time, so that the deletes need no step of their own.
-/

namespace ManagedAgents.Controller

open ManagedAgents.Lib

/-- What the sweep deletes of the keys that are old. -/
def sweepOrphans (referenced old : List ObjectKey) : List ObjectKey :=
  old.filter fun key => !referenced.contains key

namespace Db

/-- A row names the object, and a worker may still fetch it. -/
inductive Fetches (db : Db) (key : ObjectKey) : Prop
  | input {taskId t} (ht : db.task taskId = some t) (hkey : t.inputObjectKey = some key)
  | reason {row r} (hr : db.approval row = some r) (hopen : r.status ≠ .resolved)
    (hkey : r.decisionReasonObjectKey = some key)
  | answer {row r} (hr : db.clarification row = some r) (hopen : r.status ≠ .resolved)
    (hkey : r.answerObjectKey = some key)

/-- An open request of the task is described by the object. -/
def Describes (db : Db) (key : ObjectKey) (taskId : TaskId) : Prop :=
  ∃ event r, db.approval (taskId, event) = some r ∧ r.status ≠ .resolved ∧
    r.reviewObjectKey = some key

variable {db db' : Db} {key : ObjectKey} {taskId : TaskId} {q : Query} {fresh : ℕ}

/-- What a worker may fetch is referenced. -/
lemma Fetches.referenced (h : db.Fetches key) : key ∈ db.pendingInputKeys := by
  unfold pendingInputKeys
  simp only [List.mem_append, List.mem_filterMap]
  cases h with
  | @input taskId t ht hkey =>
    exact .inl (.inl (.inl ⟨t, (Table.get?_eq_some.mp ht).1, hkey⟩))
  | @reason row r hr hopen hkey =>
    obtain rfl := approval_key hr
    exact .inl (.inl (.inr ⟨r, Table.mem_select.mpr ⟨hr, by simpa using hopen⟩, hkey⟩))
  | @answer row r hr hopen hkey =>
    obtain rfl := clarification_key hr
    exact .inr ⟨r, Table.mem_select.mpr ⟨hr, by simpa using hopen⟩, hkey⟩

/-- So is the description of a request, until its task is over. -/
lemma Describes.referenced {t : TaskRow} (h : db.Describes key taskId)
    (ht : db.task taskId = some t) (hnot : t.internalState ≠ .terminal) :
    key ∈ db.pendingInputKeys := by
  obtain ⟨event, r, hr, hopen, hkey⟩ := h
  have hrow : r.key = (taskId, event) := approval_key hr
  have htask : db.tasks.get? r.taskId = some t := by
    rw [show r.taskId = taskId from congrArg Prod.fst hrow]
    exact ht
  unfold pendingInputKeys
  simp only [List.mem_append, List.mem_filterMap]
  refine .inl (.inr ⟨r, Table.mem_select.mpr ⟨hrow ▸ hr, ?_⟩, hkey⟩)
  simp [hopen, htask, hnot]

end Db

/-- The object a query gives to a row. -/
def Query.gives? : Query → Option ObjectKey
  | .admitTurn a => some a.inputObjectKey
  | .decideClarificationRequest _ _ answerKey => some answerKey
  | .recordHumanReview _ _ _ _ offer => offer.objectKey
  | _ => none

lemma Query.gives_of_hands {q : Query} {key : ObjectKey} {holder : Holder}
    (h : q.hands = some (key, holder)) : q.gives? = some key := by
  cases q with
  | admitTurn | decideClarificationRequest =>
    cases h
    rfl
  | _ => cases h

section

variable {db db' : Db} {key : ObjectKey} {taskId : TaskId} {q : Query} {fresh uuid : ℕ}

/-- An open row with an object had it before, unless it was given to it. -/
lemma ApprovalEffect.before {row : TaskId × EventId} {r' : ApprovalRow}
    (heff : ApprovalEffect fresh db db' q) (htidy : Tidy uuid db)
    (hr' : db'.approval row = some r') (hopen : r'.status ≠ .resolved) :
    (r'.decisionReasonObjectKey = some key → ∃ r, db.approval row = some r ∧
      r.status ≠ .resolved ∧ r.decisionReasonObjectKey = some key) ∧
    (r'.reviewObjectKey = some key → (∃ r, db.approval row = some r ∧
      r.status ≠ .resolved ∧ r.reviewObjectKey = some key) ∨ q.gives? = some key) := by
  cases hr : db.approval row with
  | none =>
    obtain ⟨_, _, _, -, rfl, -⟩ := heff.new hr hr'
    exact ⟨fun h => (by cases h), fun h => (by cases h)⟩
  | some r =>
    obtain ⟨r₁, hr₁, hchange⟩ := heff.row htidy hr
    rw [hr', Option.some.injEq] at hr₁
    subst hr₁
    cases hchange with
    | same => exact ⟨fun h => ⟨r', rfl, hopen, h⟩, fun h => .inl ⟨r', rfl, hopen, h⟩⟩
    | decided hguard =>
      obtain ⟨-, -, hpending, -⟩ := Db.undecided_row hguard
      have hopen : r.status ≠ .resolved := by rw [hpending]; decide
      exact ⟨fun h => ⟨r, rfl, hopen, h⟩, fun h => .inl ⟨r, rfl, hopen, h⟩⟩
    | rotated hguard =>
      obtain ⟨-, -, hpending, -⟩ := Db.undecided_row hguard
      have hopen : r.status ≠ .resolved := by rw [hpending]; decide
      exact ⟨fun h => ⟨r, rfl, hopen, h⟩, fun h => .inr h⟩
    | ruled | marked => exact ⟨fun h => ⟨r, rfl, hopen, h⟩, fun h => .inl ⟨r, rfl, hopen, h⟩⟩
    | denied hguard =>
      have hopen : r.status ≠ .resolved := by
        simp only [Db.deniable, Bool.and_eq_true, Bool.or_eq_true, beq_iff_eq] at hguard
        rcases hguard.1.1.1.2 with hstatus | hstatus <;> rw [hstatus] <;> decide
      exact ⟨fun h => ⟨r, rfl, hopen, h⟩, fun h => .inl ⟨r, rfl, hopen, h⟩⟩
    | resolved => exact absurd rfl hopen

/-- What a worker may fetch it could before, unless it was given to a row. -/
lemma Db.Fetches.before (h : db'.Fetches key) (hcore : CoreEffect fresh db db' q)
    (hclar : ClarificationEffect db db' q) (happ : ApprovalEffect fresh db db' q)
    (hwf : db.WellFormed) (htidy : Tidy uuid db) (hmove : db.Move q) :
    db.Fetches key ∨ q.gives? = some key := by
  cases h with
  | input ht hkey =>
    rcases hcore.task_before hwf hmove ht hkey with ⟨t, ht, hkey, -⟩ | hhands
    · exact .inl (.input ht hkey)
    · exact .inr (Query.gives_of_hands hhands)
  | reason hr hopen hkey =>
    obtain ⟨r, hr, hopen, hkey⟩ := (happ.before htidy hr hopen).1 hkey
    exact .inl (.reason hr hopen hkey)
  | answer hr hopen hkey =>
    rcases hclar.origin hr with ⟨r₀, hr₀, hchange⟩ | ⟨-, _, _, _, _, _, -, -, -, rfl⟩
    · cases hchange with
      | same => exact .inl (.answer hr₀ hopen hkey)
      | decided =>
        cases hkey
        exact .inr rfl
      | marked => exact .inl (.answer hr₀ hopen hkey)
      | resolved => exact absurd rfl hopen
    · cases hkey

lemma Db.Describes.before (h : db'.Describes key taskId) (happ : ApprovalEffect fresh db db' q)
    (htidy : Tidy uuid db) : db.Describes key taskId ∨ q.gives? = some key := by
  obtain ⟨event, r, hr, hopen, hkey⟩ := h
  exact ((happ.before htidy hr hopen).2 hkey).imp_left
    fun ⟨r, hr, hopen, hkey⟩ => ⟨event, r, hr, hopen, hkey⟩

end

/-! ### Who gives -/

variable {s s' : Staff} {key : ObjectKey}

/-- The program that drew the key is over. -/
def Abandoned (s : Staff) (key : ObjectKey) : Prop :=
  ∀ e ∈ s.world.log, ∀ i, draws? e.said = some key → e.actor = .worker i → s.thread i = none

/-- What was stored was drawn. -/
lemma Serves.drawn (hs : Serves s) (hobject : (s.world.objects key).isSome = true) :
    ∃ e ∈ s.world.log, draws? e.said = some key := by
  obtain ⟨text, htext⟩ := Option.isSome_iff_exists.mp hobject
  obtain ⟨put, hput, hcall⟩ := hs.stored.1 key text htext
  obtain ⟨later, earlier, hlog⟩ := List.append_of_mem hput
  obtain ⟨i, l, -, -, hallowed⟩ := hs.handover hlog
  rw [hcall] at hallowed
  obtain ⟨e, he, -, hsaid⟩ := heard_mem (List.mem_of_mem_head? hallowed)
  exact ⟨e, by simp [hlog, he], by rw [hsaid]; rfl⟩

/-- Who gives an object to a row drew its key. -/
lemma Serves.giver (hs : Serves s) {later earlier : List Entry} {e : Entry} {q : Query}
    (hlog : s.world.log = later ++ e :: earlier) (hcall : e.call = .query q)
    (hgives : q.gives? = some key) :
    ∃ e' ∈ earlier, draws? e'.said = some key ∧ e'.actor = e.actor := by
  obtain ⟨i, l, hactor, -, hallowed⟩ := hs.handover hlog
  rw [hcall] at hallowed
  have hheard :
      (⟨⟨Chronicle.of i (earlier.map Entry.deed)⟩, l⟩ : Handover.File).Heard .uuid4 key := by
    cases q with
    | admitTurn a =>
      cases hgives
      exact hallowed
    | decideClarificationRequest requestId taskId answerKey =>
      cases hgives
      exact hallowed.1
    | recordHumanReview contextId taskId claim requestId offer => exact hallowed key hgives
    | _ => cases hgives
  obtain ⟨e', he', hactor', hsaid⟩ := heard_mem hheard
  exact ⟨e', he', by rw [hsaid]; rfl, hactor'.trans hactor.symm⟩

namespace Serves

variable {e : Entry} {i : ℕ}

/-- In a step nobody comes to need what a program drew that is over. -/
lemma unneeded_step (hs : Serves s) (h : Crew.Step works environment s s') (he : e ∈ s.world.log)
    (hdraws : draws? e.said = some key) (hactor : e.actor = .worker i) (hover : s.thread i = none) :
    (s'.world.db.Fetches key → s.world.db.Fetches key) ∧
      ∀ taskId, s'.world.db.Describes key taskId → s.world.db.Describes key taskId := by
  have hs' : Serves s' := .step hs h
  have hsame : s'.world.db = s.world.db → (s'.world.db.Fetches key → s.world.db.Fetches key) ∧
      ∀ taskId, s'.world.db.Describes key taskId → s.world.db.Describes key taskId := by
    intro hdb
    rw [hdb]
    exact ⟨id, fun _ => id⟩
  have hcall : ∀ {j c next r}, s.thread j = some (.call c next) →
      environment.exec s.world (.worker j) c r s'.world →
      (s'.world.db.Fetches key → s.world.db.Fetches key) ∧
        ∀ taskId, s'.world.db.Describes key taskId → s.world.db.Describes key taskId := by
    intro j c next r hj hc
    rcases c.query_or with ⟨q, rfl⟩ | hother
    · rcases exec_query hc with ⟨v, hrun, -, -⟩ | ⟨_, -, hw⟩
      · have hgives : ¬q.gives? = some key := by
          intro hgives
          obtain ⟨⟨e₁, hnotes⟩, -⟩ := exec_notes hc
          have hlog : s'.world.log = [] ++ e₁ :: s.world.log := hnotes.log
          obtain ⟨e₀, he₀, hdraws₀, hactor₀⟩ := hs'.giver hlog
            (congrArg Sigma.fst hnotes.said) hgives
          have hone : e₀ = e := Chronicle.eq_of_once
            (p := fun e => draws? e.said == some key)
            ((hs.drawn_le key).trans (by split <;> omega)) he₀ (by simp [hdraws₀]) he
            (by simp [hdraws])
          rw [hone, hactor, hnotes.actor] at hactor₀
          cases hactor₀
          rw [hover] at hj
          cases hj
        have happ := Query.run_approvals hrun
        refine ⟨fun h => ?_, fun taskId h => (h.before happ hs.tidy).resolve_right hgives⟩
        exact (h.before (Query.run_effect hrun) (Query.run_clarifications hrun) happ
          hs.wellFormed hs.tidy (hs.move hj hrun)).resolve_right hgives
      · exact hsame (by rw [hw])
    · exact hsame (exec_other hc hother).1
  cases h with
  | start | deliver | settle | drop | post => exact hsame rfl
  | call hi hc hquiet => exact hcall hi hc
  | send hi hc => exact hcall hi hc
  | drift hd =>
    obtain ⟨now, history, -, rfl⟩ := hd
    refine ⟨fun h => ?_, fun _ => id⟩
    cases h with
    | input ht hkey => exact .input ht hkey
    | reason hr hopen hkey => exact .reason hr hopen hkey
    | answer hr hopen hkey => exact .answer hr hopen hkey

/-- Nor in a run. -/
lemma unneeded (hs : Serves s) (hpath : Relation.ReflTransGen (Crew.Step works environment) s s')
    (he : e ∈ s.world.log) (hdraws : draws? e.said = some key) (hactor : e.actor = .worker i)
    (hover : s.thread i = none) (hstarted : i < s.started) :
    (s'.world.db.Fetches key → s.world.db.Fetches key) ∧
      ∀ taskId, s'.world.db.Describes key taskId → s.world.db.Describes key taskId := by
  -- the program stays over, and the log keeps the draw
  have hrun : s.started ≤ s'.started ∧ e ∈ s'.world.log ∧ s'.thread i = none ∧
      (s'.world.db.Fetches key → s.world.db.Fetches key) ∧
      ∀ taskId, s'.world.db.Describes key taskId → s.world.db.Describes key taskId := by
    induction hpath with
    | refl => exact ⟨Nat.le_refl _, he, hover, id, fun _ => id⟩
    | @tail s₁ s₂ hpath hstep ih =>
      obtain ⟨hle, he₁, hover₁, hfetches, hdescribes⟩ := ih
      have hs₁ : Serves s₁ := hs.path hpath
      obtain ⟨hlog, hle', hstays⟩ := hstep.over World.log
        (fun hc => by
          obtain ⟨⟨e, hnotes⟩, -⟩ := exec_notes hc
          exact ⟨e, hnotes.log⟩)
        (fun hd => by
          obtain ⟨now, history, -, rfl⟩ := hd
          rfl)
      obtain ⟨hfetches', hdescribes'⟩ := hs₁.unneeded_step hstep he₁ hdraws hactor hover₁
      exact ⟨hle.trans hle', hlog.subset he₁, hstays i (hstarted.trans_le hle) hover₁,
        fun h => hfetches (hfetches' h), fun taskId h => hdescribes taskId (hdescribes' taskId h)⟩
  exact hrun.2.2.2

end Serves

/-- **Sweeping.** When every object that is old was stored by a program that is over, no row ever
comes to need what the sweep deletes: in no later state may a worker fetch it as an input, an
answer or a reason, and no open request is described by it whose task was not over already. -/
theorem swept_unneeded {s s' : Staff} (hs : Serves s) {old : List ObjectKey}
    (hold : ∀ key ∈ old, (s.world.objects key).isSome = true ∧ Abandoned s key)
    (hpath : Relation.ReflTransGen (Crew.Step works environment) s s') :
    ∀ key ∈ sweepOrphans s.world.db.pendingInputKeys old, ¬s'.world.db.Fetches key ∧
      ∀ taskId t, s'.world.db.Describes key taskId → s.world.db.task taskId = some t →
        t.internalState = .terminal := by
  intro key hswept
  obtain ⟨hmem, hunnamed⟩ := List.mem_filter.mp hswept
  have hunnamed : key ∉ s.world.db.pendingInputKeys := by simpa using hunnamed
  obtain ⟨hobject, habandoned⟩ := hold key hmem
  obtain ⟨e, he, hdraws⟩ := hs.drawn hobject
  obtain ⟨later, earlier, hlog⟩ := List.append_of_mem he
  obtain ⟨i, l, hactor, hjob, -⟩ := hs.handover hlog
  have hstarted : i < s.started := by
    by_contra hge
    rw [Crew.Reachable.unhired hs (Nat.le_of_not_lt hge)] at hjob
    cases hjob
  obtain ⟨hfetches, hdescribes⟩ :=
    hs.unneeded hpath he hdraws hactor (habandoned e he i hdraws hactor) hstarted
  refine ⟨fun h => hunnamed (hfetches h).referenced, fun taskId t h ht => ?_⟩
  by_contra hnot
  exact hunnamed ((hdescribes taskId h).referenced ht hnot)

/-- A request stored its input and was given up. -/
def inputLeft : Rota := .start (turn 100) :: turns 0 [.run, .run] ++ [.drop 0]

/-- Another turn is admitted. -/
def admittedAfter : Rota := .start (turn 101) :: turns 1 [.run, .run, .run, .run, .run, .done]

/-- The input that was left is swept, and the next turn does not need it. -/
theorem swept_unneeded_left : ∃ s s' : Staff, Serves s ∧
    Relation.ReflTransGen (Crew.Step works environment) s s' ∧ s.world.objects 0 = some "hello" ∧
    sweepOrphans s.world.db.pendingInputKeys [0] = [0] ∧ s'.world.db.pendingInputKeys = [1] ∧
    ¬s'.world.db.Fetches 0 := by
  have hplay : ((stage.play works {} inputLeft).bind fun s : Staff =>
      (admittedAfter.foldlM (stage.line works) s).map fun s' : Staff =>
        (s.world.objects 0, s.world.log.all (·.actor == .worker 0), (s.thread 0).isNone,
          sweepOrphans s.world.db.pendingInputKeys [0], s'.world.db.pendingInputKeys)) =
      some (some "hello", true, true, [0], [1]) := by
    decide +kernel
  obtain ⟨s, hs, hplay⟩ := Option.bind_eq_some_iff.mp hplay
  obtain ⟨s', hpath, hval⟩ := Option.map_eq_some_iff.mp hplay
  simp only [Prod.mk.injEq, Option.isNone_iff_eq_none] at hval
  obtain ⟨hobject, hlog, hover, hswept, hkeys⟩ := hval
  have hold : ∀ key ∈ [0], (s.world.objects key).isSome = true ∧ Abandoned s key := by
    intro key hkey
    obtain rfl := List.mem_singleton.mp hkey
    refine ⟨by rw [hobject]; rfl, fun e he i _ hactor => ?_⟩
    have hzero := List.all_eq_true.mp hlog e he
    rw [hactor, beq_iff_eq] at hzero
    cases hzero
    exact hover
  obtain ⟨hunneeded, -⟩ := swept_unneeded (stage.play_reachable hs) hold (stage.lines_path hpath) 0
    (by rw [hswept]; exact List.mem_singleton_self 0)
  exact ⟨s, s', stage.play_reachable hs, stage.lines_path hpath, hobject, hswept, hkeys, hunneeded⟩

end ManagedAgents.Controller
