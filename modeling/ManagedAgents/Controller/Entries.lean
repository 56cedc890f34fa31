import ManagedAgents.Controller.Handover
import ManagedAgents.Controller.Confirm
import ManagedAgents.Lib.Chronicle

/-!
What the log says of the store and of the objects.

A store only moves on: a row that has ceased to be pending keeps its answer, a mark stays, a
cancellation stays requested. Ids are drawn once, so an object is stored once. Every entry was
allowed to its program by what that had said and heard before.
-/

namespace ManagedAgents.Controller

open ManagedAgents.Lib

/-! ### Later rows -/

/-- The row changed at most into this one. -/
structure ClarificationRow.Becomes (r r' : ClarificationRow) : Prop where
  id : r'.requestId = r.requestId
  answer : r.status ≠ .pending → r'.status ≠ .pending ∧ r'.answerObjectKey = r.answerObjectKey
  attempted : r.responseAttemptedAt.isSome = true → r'.responseAttemptedAt.isSome = true

/-- What a later store has of an earlier one. -/
structure Db.Later (db db' : Db) : Prop where
  rows : ∀ {key r}, db.clarification key = some r →
    ∃ r', db'.clarification key = some r' ∧ r.Becomes r'
  cancelled : ∀ {taskId}, db.cancelRequested taskId = true → db'.cancelRequested taskId = true

variable {db db' db'' : Db} {q : Query} {key : TaskId × EventId} {r r' r'' : ClarificationRow}
  {fresh : ℕ}

lemma AnswerChange.becomes (h : AnswerChange db r q r') : r.Becomes r' := by
  cases h with
  | same => exact ⟨rfl, fun h => ⟨h, rfl⟩, fun h => h⟩
  | decided hguard =>
    simp only [Db.answerable, Bool.and_eq_true, beq_iff_eq] at hguard
    exact ⟨rfl, fun h => absurd hguard.1.2 h, fun h => h⟩
  | marked => exact ⟨rfl, fun h => ⟨h, rfl⟩, fun _ => rfl⟩
  | resolved => exact ⟨rfl, fun _ => ⟨by simp, rfl⟩, fun h => h⟩

namespace Db.Later

lemma refl (db : Db) : db.Later db :=
  ⟨fun h => ⟨_, h, rfl, fun h => ⟨h, rfl⟩, fun h => h⟩, fun h => h⟩

lemma trans (h : db.Later db') (h' : db'.Later db'') : db.Later db'' := by
  refine ⟨fun hr => ?_, fun hc => h'.cancelled (h.cancelled hc)⟩
  obtain ⟨r', hr', hid, hanswer, hattempted⟩ := h.rows hr
  obtain ⟨r'', hr'', hid', hanswer', hattempted'⟩ := h'.rows hr'
  refine ⟨r'', hr'', hid'.trans hid, fun hs => ?_, fun ha => hattempted' (hattempted ha)⟩
  obtain ⟨hs', hsame⟩ := hanswer hs
  exact ⟨(hanswer' hs').1, (hanswer' hs').2.trans hsame⟩

lemma step {v : q.Reply} (hrun : q.run fresh db = .ok (v, db')) : db.Later db' := by
  refine ⟨fun hr => ?_, (Query.run_effect hrun).cancelRequested_stays⟩
  obtain ⟨r', hr', hchange⟩ := (Query.run_clarifications hrun).row hr
  exact ⟨r', hr', hchange.becomes⟩

end Db.Later

/-! ### Entries -/

/-- The id that was drawn. -/
def draws? : Prog.Exchange Call.Reply Exn → Option ℕ
  | ⟨.uuid4, .ok n⟩ => some n
  | _ => none

/-- The key an object was stored under, or may have been. -/
def stores? : Prog.Exchange Call.Reply Exn → Option ObjectKey
  | ⟨.pendingPut key _, _⟩ => some key
  | _ => none

lemma draws_some {x : Prog.Exchange Call.Reply Exn} {n : ℕ} (h : draws? x = some n) :
    x = ⟨.uuid4, .ok n⟩ := by
  unfold draws? at h
  split at h <;> cases h
  rfl

/-! ### What the log says of the store -/

/-- What was answered was committed. -/
def Entry.Exact (e : Entry) : Prop :=
  ∀ q (v : q.Reply), e.said = ⟨.query q, .ok v⟩ →
    e.committed = true ∧ ∃ fresh, q.run fresh e.before = .ok (v, e.after)

/-- The entry notes this call. -/
structure Entry.Notes (e : Entry) (w : World) (a : Actor) (c : Call) (x : Except Exn c.Reply)
    (w' : World) : Prop where
  log : w'.log = e :: w.log
  said : e.said = ⟨c, x⟩
  actor : e.actor = a
  before : e.before = w.db
  after : e.after = w'.db
  exact : e.Exact

variable {w w' : World} {a : Actor} {c : Call} {x : Except Exn c.Reply} {s : Staff}

/-- A call is noted, and the store it leaves is a later one. -/
lemma exec_notes (h : environment.exec w a c x w') :
    (∃ e : Entry, e.Notes w a c x w') ∧ w.uuid ≤ w'.uuid ∧ w.db.Later w'.db := by
  rcases c.query_or with ⟨q, rfl⟩ | hother
  · rcases exec_query h with ⟨v, hrun, hx, hw⟩ | ⟨e, rfl, rfl⟩
    · refine ⟨⟨⟨a, .query q, x, true, w.db, w'.db⟩, by rw [hw], rfl, rfl, rfl, rfl, ?_⟩, ?_,
        .step hrun⟩
      · intro q' v' hsaid
        cases hsaid
        rcases hx with hx | hx <;> cases hx
        exact ⟨rfl, w.uuid, hrun⟩
      · rw [hw]
        exact Nat.le_succ _
    · refine ⟨⟨⟨a, .query q, .error e, false, w.db, w.db⟩, rfl, rfl, rfl, rfl, rfl, ?_⟩,
        Nat.le_refl _, .refl _⟩
      exact fun q' v' hsaid => by cases hsaid
  · obtain ⟨hdb, huuid, hlog⟩ := exec_other h hother
    refine ⟨⟨⟨a, c, x, false, w.db, w.db⟩, hlog, rfl, rfl, rfl, hdb.symm, ?_⟩, huuid, ?_⟩
    · exact fun q' v' hsaid => absurd (congrArg Sigma.fst hsaid) (hother q')
    · rw [hdb]
      exact .refl _

/-- What every call and the clock keep of a world holds in every state. -/
lemma Serves.invariant {P : World → Prop} (init : P {})
    (hexec : ∀ {w a c x w'} {e : Entry}, P w → environment.exec w a c x w' →
      e.Notes w a c x w' → P w')
    (hdrift : ∀ {w : World} {now history}, P w →
      P { w with db := { w.db with now := now }, history := history }) (hs : Serves s) :
    P s.world := by
  refine Crew.Reachable.world (P := P) init (fun hP he => ?_) (fun hP hd => ?_) hs
  · obtain ⟨⟨e, hnotes⟩, -⟩ := exec_notes he
    exact hexec hP he hnotes
  · obtain ⟨now, history, -, rfl⟩ := hd
    exact hdrift hP

namespace Serves

/-- The store is later than at any entry, and every entry is exact. -/
lemma past (hs : Serves s) : ∀ e ∈ s.world.log,
    e.before.Later s.world.db ∧ e.after.Later s.world.db ∧ e.Exact := by
  refine invariant (P := fun w => ∀ e ∈ w.log, e.before.Later w.db ∧ e.after.Later w.db ∧ e.Exact)
    (by simp) (fun h he hnotes => ?_) (fun h e he => ?_) hs
  · obtain ⟨-, -, hlater⟩ := exec_notes he
    rw [hnotes.log]
    refine List.forall_mem_cons.mpr ⟨⟨?_, ?_, hnotes.exact⟩, fun e' he' => ?_⟩
    · rw [hnotes.before]
      exact hlater
    · rw [hnotes.after]
      exact .refl _
    · obtain ⟨hbefore, hafter, hexact⟩ := h e' he'
      exact ⟨hbefore.trans hlater, hafter.trans hlater, hexact⟩
  · obtain ⟨hbefore, hafter, hexact⟩ := h e he
    exact ⟨⟨hbefore.rows, hbefore.cancelled⟩, ⟨hafter.rows, hafter.cancelled⟩, hexact⟩

/-- An id is drawn at most once. -/
lemma drawn_le (hs : Serves s) (n : ℕ) :
    occurrences (fun e => draws? e.said) n s.world.log ≤ if n < s.world.uuid then 1 else 0 := by
  refine invariant (P := fun w => occurrences (fun e => draws? e.said) n w.log ≤
    if n < w.uuid then 1 else 0) (Nat.zero_le _) ?_ (fun h => h) hs
  intro w a c x w' e h he hnotes
  obtain ⟨-, huuid, -⟩ := exec_notes he
  rw [hnotes.log, occurrences_cons, hnotes.said]
  by_cases hdraws : draws? ⟨c, x⟩ = some n
  · -- the next id, which was not drawn before
    cases draws_some hdraws
    obtain ⟨committed, w₁, hw, rfl⟩ := he
    cases hw with
    | external history hc => cases hc
    | uuid4 =>
      rw [if_neg (Nat.lt_irrefl _)] at h
      rw [if_pos hdraws, show (w.note a .uuid4 (.ok w.uuid) false
        { w with uuid := w.uuid + 1 }).uuid = w.uuid + 1 from rfl, if_pos (Nat.lt_succ_self _)]
      omega
  · rw [if_neg hdraws]
    refine h.trans ?_
    split
    · rw [if_pos (by omega)]
    · exact Nat.zero_le _

/-- What is stored under a key, or was fetched, somebody stored. -/
lemma stored (hs : Serves s) :
    (∀ key text, s.world.objects key = some text →
      ∃ e ∈ s.world.log, e.call = .pendingPut key text) ∧
    ∀ e ∈ s.world.log, ∀ key text, e.said = ⟨.pendingGet key, .ok text⟩ →
      ∃ e' ∈ s.world.log, e'.call = .pendingPut key text := by
  refine invariant (P := fun w => (∀ key text, w.objects key = some text →
      ∃ e ∈ w.log, e.call = .pendingPut key text) ∧
    ∀ e ∈ w.log, ∀ key text, e.said = ⟨.pendingGet key, .ok text⟩ →
      ∃ e' ∈ w.log, e'.call = .pendingPut key text) ⟨by simp, by simp⟩ ?_ (fun h => h) hs
  rintro w a c x w' e ⟨hobjects, hfetched⟩ he hnotes
  rw [hnotes.log]
  have hmore : ∀ {key text}, (∃ e' ∈ w.log, e'.call = .pendingPut key text) →
      ∃ e' ∈ e :: w.log, e'.call = .pendingPut key text :=
    fun ⟨e', he', hput⟩ => ⟨e', List.mem_cons_of_mem _ he', hput⟩
  have hcall : e.call = c := congrArg Sigma.fst hnotes.said
  refine ⟨fun key text hobject => ?_, List.forall_mem_cons.mpr ⟨fun key text hsaid => ?_,
    fun e' he' key text hsaid => hmore (hfetched e' he' key text hsaid)⟩⟩
  · obtain ⟨committed, w₁, hw, rfl⟩ := he
    have hput : ∀ {key' text'}, c = .pendingPut key' text' →
        Function.update w.objects key' (some text') key = some text →
        ∃ e' ∈ e :: w.log, e'.call = .pendingPut key text := by
      intro key' text' hc hupdate
      rw [Function.update_apply] at hupdate
      split at hupdate
      · rename_i hkey
        cases hupdate
        exact ⟨e, List.mem_cons_self, by rw [hcall, hc, hkey]⟩
      · exact hmore (hobjects key text hupdate)
    have hdelete : ∀ {key'}, Function.update w.objects key' none key = some text →
        ∃ e' ∈ e :: w.log, e'.call = .pendingPut key text := by
      intro key' hupdate
      rw [Function.update_apply] at hupdate
      split at hupdate
      · cases hupdate
      · exact hmore (hobjects key text hupdate)
    cases hw with
    | put | putUnacknowledged => exact hput rfl hobject
    | delete | deleteUnacknowledged => exact hdelete hobject
    | _ => exact hmore (hobjects key text hobject)
  · rw [hnotes.said] at hsaid
    cases hsaid
    obtain ⟨committed, w₁, hw, rfl⟩ := he
    cases hw with
    | external history hc => cases hc
    | get hget => exact hmore (hobjects key text hget)

end Serves

/-! ### What programs rest on -/

section

variable {i : ℕ} {l : Errand} {log : List Entry}

/-- What a program said and heard last, and the log before it. -/
lemma chronicle_cons {said : Prog.Exchange Call.Reply Exn}
    {before : List (Prog.Exchange Call.Reply Exn)}
    (h : Chronicle.of i (log.map Entry.deed) = said :: before) :
    ∃ mid e rest, log = mid ++ e :: rest ∧ e.actor = .worker i ∧ e.said = said ∧
      Chronicle.of i (rest.map Entry.deed) = before := by
  induction log with
  | nil => cases h
  | cons e log ih =>
    rw [List.map_cons] at h
    by_cases he : e.actor = .worker i
    · rw [Chronicle.of_cons_self he] at h
      obtain ⟨hsaid, hbefore⟩ := List.cons.inj h
      exact ⟨[], e, log, rfl, he, hsaid, hbefore⟩
    · rw [Chronicle.of_cons_ne he] at h
      obtain ⟨mid, e', rest, rfl, hactor, hsaid, hbefore⟩ := ih h
      exact ⟨e :: mid, e', rest, rfl, hactor, hsaid, hbefore⟩

lemma heard_mem {v : c.Reply}
    (h : (⟨⟨Chronicle.of i (log.map Entry.deed)⟩, l⟩ : Handover.File).Heard c v) :
    ∃ e ∈ log, e.actor = .worker i ∧ e.said = ⟨c, .ok v⟩ := by
  obtain ⟨deed, hdeed, hactor, hsaid⟩ := Chronicle.mem_of.mp h
  obtain ⟨e, he, rfl⟩ := List.mem_map.mp hdeed
  exact ⟨e, he, hactor, hsaid⟩

namespace Serves

/-- The state before an entry. -/
lemma moment (hs : Serves s) {later earlier : List Entry} {e : Entry}
    (hlog : s.world.log = later ++ e :: earlier) :
    (∃ i, e.actor = .worker i) ∧ ∃ s₀ : Staff, Serves s₀ ∧ s₀.world.log = earlier ∧
      e.before = s₀.world.db := by
  obtain ⟨s₀, i, c, x, w', hs₀, he, hearlier, hlog'⟩ := Crew.Reachable.moment World.log
    (fun he => by
      obtain ⟨⟨e, hnotes⟩, -⟩ := exec_notes he
      exact ⟨e, hnotes.log⟩)
    (fun hd => by
      obtain ⟨now, history, -, rfl⟩ := hd
      rfl) rfl hs hlog
  obtain ⟨⟨e', hnotes⟩, -⟩ := exec_notes he
  obtain ⟨rfl, -⟩ := List.cons.inj (hnotes.log.symm.trans hlog')
  exact ⟨⟨i, hnotes.actor⟩, s₀, hs₀, hearlier, hnotes.before⟩

/-- Every entry was allowed to its program by what that said and heard before. -/
lemma handover (hs : Serves s) {later earlier : List Entry} {e : Entry}
    (hlog : s.world.log = later ++ e :: earlier) :
    ∃ i l, e.actor = .worker i ∧ s.job i = some l ∧
      Handover.allowed ⟨⟨Chronicle.of i (earlier.map Entry.deed)⟩, l⟩ e.call := by
  have hprograms : ∀ l, Handover.contract.Conforms (works.program l) (fun _ _ => True)
      (fun _ => True) { said := [], job := l } :=
    fun l => Contract.Conforms.mono (Handover.abides_program l) (fun _ _ _ => trivial)
      fun _ _ => trivial
  obtain ⟨knows, htracked, -⟩ := Crew.tracks (Q := fun _ _ => True) hprograms
    (fun hs hc => Serves.possible hs hc) hs
  have hchronicled :
      Chronicled (fun w : World => w.log.map Entry.deed) Handover.allowed s knows := by
    refine Crew.Tracked.chronicled (fun {w i c x w'} he => ?_) (fun hd => ?_) rfl htracked
    · obtain ⟨⟨e, hnotes⟩, -⟩ := exec_notes he
      exact ⟨e.deed, by rw [hnotes.log]; rfl, hnotes.actor, hnotes.said⟩
    · obtain ⟨now, history, -, rfl⟩ := hd
      rfl
  obtain ⟨⟨i, hactor⟩, -⟩ := hs.moment hlog
  obtain ⟨l, hjob, hallowed⟩ := hchronicled.allowed (later.map Entry.deed) e.deed
    (earlier.map Entry.deed) i (by simp [hlog]) hactor
  exact ⟨i, l, hactor, hjob, hallowed⟩

/-- An object is stored at most once. -/
lemma stored_once (hs : Serves s) (key : ObjectKey) :
    occurrences (fun e => stores? e.said) key s.world.log ≤ 1 := by
  have hdrawn : occurrences (fun e => draws? e.said) key s.world.log ≤ 1 :=
    (hs.drawn_le key).trans (by split <;> omega)
  have honce := Chronicle.once (n := 0) (s.world.log.map Entry.deed)
    (A := fun x => stores? x == some key) (B := fun x => draws? x == some key) ?_ ?_
  · rw [List.countP_map] at honce
    exact honce
  · intro later deed earlier hlog hstores
    obtain ⟨later', rest, hlog', rfl, hrest⟩ := List.map_eq_append_iff.mp hlog
    obtain ⟨e, earlier', rfl, rfl, rfl⟩ := List.map_eq_cons_iff.mp hrest
    obtain ⟨i, l, hactor, -, hallowed⟩ := hs.handover hlog'
    refine ⟨i, ⟨.uuid4, .ok key⟩, hactor, ?_, by simp [draws?]⟩
    obtain ⟨actor, call, reply, committed, before, after⟩ := e
    cases call with
    | pendingPut key' text =>
      have hkey : key' = key := by simpa [Entry.deed, Entry.said, stores?] using hstores
      subst hkey
      rw [← List.head?_eq_getElem?]
      exact hallowed
    | _ => simp [Entry.deed, Entry.said, stores?] at hstores
  · rw [List.countP_map]
    exact hdrawn

/-- A task that was read with its cancellation has it requested. -/
lemma stops (hs : Serves s) {taskId : TaskId}
    (h : Handover.Stops ⟨⟨Chronicle.of i (s.world.log.map Entry.deed)⟩, l⟩ taskId) :
    s.world.db.cancelRequested taskId = true := by
  obtain ⟨task, hread, rfl, hcancel⟩ := h
  rcases hread with hheard | ⟨contextId, claim, predecessor, hheard⟩
  · obtain ⟨e, he, -, hsaid⟩ := heard_mem hheard
    obtain ⟨hbefore, -, hexact⟩ := hs.past e he
    obtain ⟨-, fresh, hrun⟩ := hexact _ _ hsaid
    have htask : e.before.task task.taskId = some task := congrArg Prod.fst (Except.ok.inj hrun)
    exact hbefore.cancelled ((Option.any_eq_true _ _).mpr ⟨task, htask, hcancel⟩)
  · obtain ⟨e, he, -, hsaid⟩ := heard_mem hheard
    obtain ⟨-, hafter, hexact⟩ := hs.past e he
    obtain ⟨-, fresh, hrun⟩ := hexact _ _ hsaid
    obtain ⟨c, t, -, -, -, -, -, -, -, -, htask⟩ := activateTask_ok hrun
    refine hafter.cancelled ((Option.any_eq_true _ _).mpr ⟨task, ?_, hcancel⟩)
    change e.after.task task.taskId = some task
    rw [htask, Function.update_self]

end Serves

end

end ManagedAgents.Controller
