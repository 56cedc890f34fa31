import ManagedAgents.Controller.Entries

/-!
A clarification is answered once, in the words that were recorded first.

A row takes the key of one answer and keeps it, and its mark is set once. What a worker fetches
after it has set the mark is therefore what somebody stored when they recorded the answer.
-/

namespace ManagedAgents.Controller

open ManagedAgents.Lib

/-- The request an answer is passed on for. -/
def Call.answers? : Call → Option (TaskId × EventId)
  | sendCustomToolResult task _ eventId _ _ => some (task, eventId)
  | _ => none

/-- How often an answer was passed on for a request. -/
def answersSent (key : TaskId × EventId) (log : List Entry) : ℕ :=
  occurrences (·.call.answers?) key log

namespace Entry

/-- The entry recorded the key of an answer in the row, while nothing was recorded there. -/
def Records (e : Entry) (requestId : RequestId) (key : TaskId × EventId) (answerKey : ObjectKey) :
    Prop :=
  e.transaction = some (.decideClarificationRequest requestId key.1 answerKey) ∧
    ∃ r, e.before.clarification key = some r ∧ e.before.answerable requestId key.1 r = true

/-- The entry set the row's mark, as the row stood in `r`, and its caller was told so. -/
def MarksAnswer (e : Entry) (actor : Actor) (r : ClarificationRow) : Prop :=
  ∃ contextId claim before after,
    e = ⟨actor, .query (.markClarificationAttempted r.requestId contextId claim), .ok true, true,
      before, after⟩ ∧
    before.clarification r.key = some r ∧
    before.respondable r.requestId contextId claim r = true

/-- An answer in the words of a client's response to the request, or of a cancellation that was
requested before. -/
inductive Words (e : Entry) (job : ℕ → Option Errand) (requestId : RequestId) (taskId : TaskId) :
    Text → Prop
  | response {i str message n options answer} (hactor : e.actor = .worker i)
    (hjob : job i = some (.send str message n options)) (htask : message.taskId = some taskId)
    (hresponse : message.envelope = .response (.clarification requestId answer)) :
    Words e job requestId taskId answer
  | cancelled (hcancel : e.before.cancelRequested taskId = true) :
    Words e job requestId taskId "Task cancelled by user."

end Entry

/-- The request whose mark was set. -/
def marks? : Prog.Exchange Call.Reply Exn → Option RequestId
  | ⟨.query (.markClarificationAttempted requestId _ _), .ok true⟩ => some requestId
  | _ => none

lemma marks_some {x : Prog.Exchange Call.Reply Exn} {requestId : RequestId}
    (h : marks? x = some requestId) : ∃ contextId claim,
      x = ⟨.query (.markClarificationAttempted requestId contextId claim), .ok true⟩ := by
  unfold marks? at h
  split at h <;> cases h
  exact ⟨_, _, rfl⟩

variable {s : Staff} {key : TaskId × EventId} {r : ClarificationRow} {i : ℕ} {l : Errand}
  {log : List Entry}

namespace Serves

/-- A row that names an answer took it while it was pending. -/
lemma recorded (hs : Serves s) {answerKey : ObjectKey} (hr : s.world.db.clarification key = some r)
    (hkey : r.answerObjectKey = some answerKey) :
    ∃ e ∈ s.world.log, e.Records r.requestId key answerKey := by
  refine invariant (P := fun w => ∀ key r answerKey, w.db.clarification key = some r →
    r.answerObjectKey = some answerKey → ∃ e ∈ w.log, e.Records r.requestId key answerKey)
    (fun key r _ hr => by cases hr) ?_ (fun h => h) hs key r answerKey hr hkey
  intro w a c x w' e h he hnotes key r answerKey hr hkey
  rw [hnotes.log]
  have hmore : (∃ e' ∈ w.log, e'.Records r.requestId key answerKey) →
      ∃ e' ∈ e :: w.log, e'.Records r.requestId key answerKey :=
    fun ⟨e', he', hrecords⟩ => ⟨e', List.mem_cons_of_mem _ he', hrecords⟩
  rcases c.query_or with ⟨q, rfl⟩ | hother
  · rcases exec_query he with ⟨v, hrun, -, hw⟩ | ⟨e', -, rfl⟩
    · rcases (Query.run_clarifications hrun).origin hr with ⟨r₀, hr₀, hchange⟩ |
        ⟨-, _, _, _, _, _, -, -, -, rfl⟩
      · cases hchange with
        | same => exact hmore (h key r answerKey hr₀ hkey)
        | marked | resolved => exact hmore (h key r₀ answerKey hr₀ hkey)
        | @decided requestId taskId newKey hguard =>
          -- this very entry recorded it
          cases hkey
          have hrow := hguard
          simp only [Db.answerable, Bool.and_eq_true, beq_iff_eq] at hrow
          have htask : taskId = key.1 := by
            rw [← hrow.1.1.2]
            exact congrArg Prod.fst (Db.clarification_key hr₀)
          have hid : requestId = r₀.requestId := hrow.1.1.1.symm
          subst htask hid
          have hentry : e = ⟨a, .query (.decideClarificationRequest r₀.requestId key.1 answerKey),
              x, true, w.db, w'.db⟩ :=
            (List.cons.inj (hnotes.log.symm.trans (by rw [hw]))).1
          refine ⟨e, List.mem_cons_self, ?_, r₀, ?_, ?_⟩
          · rw [hentry]
            rfl
          · rw [hnotes.before]
            exact hr₀
          · rw [hnotes.before]
            exact hguard
      · cases hkey
    · exact hmore (h key r answerKey hr hkey)
  · rw [(exec_other he hother).1] at hr
    exact hmore (h key r answerKey hr hkey)

end Serves

/-! ### Marks -/

/-- A row of the request was tried. -/
def Db.Tried (db : Db) (requestId : RequestId) : Prop :=
  ∃ key r, db.clarification key = some r ∧ r.requestId = requestId ∧
    r.responseAttemptedAt.isSome = true

section

variable {db db' : Db} {w w' : World} {a : Actor} {c : Call} {x : Except Exn c.Reply}
  {requestId : RequestId}

lemma Db.Later.tried (h : db.Later db') (ht : db.Tried requestId) : db'.Tried requestId := by
  obtain ⟨key, r, hr, hid, hattempted⟩ := ht
  obtain ⟨r', hr', hid', -, hattempted'⟩ := h.rows hr
  exact ⟨key, r', hr', hid'.trans hid, hattempted' hattempted⟩

lemma exec_orderly (he : environment.exec w a c x w') (h : Orderly w.db) : Orderly w'.db := by
  rcases c.query_or with ⟨q, rfl⟩ | hother
  · rcases exec_query he with ⟨v, hrun, -, -⟩ | ⟨e', -, rfl⟩
    · exact h.step (Query.run_clarifications hrun)
    · exact h
  · rw [(exec_other he hother).1]
    exact h

/-- Whoever is told that a mark was set, set the first of the request. -/
lemma exec_marks {contextId : ContextId} {claim : ClaimId} (horderly : Orderly w.db)
    (he : environment.exec w a (.query (.markClarificationAttempted requestId contextId claim))
      (.ok true) w') : ¬w.db.Tried requestId ∧ w'.db.Tried requestId := by
  obtain ⟨hmap, hfound⟩ := markClarificationAttempted_ok (exec_ok he)
  obtain ⟨r, hr, hguard⟩ := hfound rfl
  have hrow := hguard
  simp only [Db.respondable, Bool.and_eq_true, beq_iff_eq, Option.isNone_iff_eq_none] at hrow
  constructor
  · rintro ⟨key, r', hr', hid, hattempted⟩
    have hkey := horderly.unique hr hr' (hrow.1.1.1.trans hid.symm)
    rw [← hkey, hr, Option.some.injEq] at hr'
    rw [← hr', hrow.1.2] at hattempted
    cases hattempted
  · refine ⟨r.key, { r with responseAttemptedAt := some w.db.now }, ?_, hrow.1.1.1, rfl⟩
    rw [hmap]
    exact Db.mapClarifications_some.mpr ⟨r, hr, by rw [if_pos hguard]⟩

end

namespace Serves

/-- A mark is set at most once for a request. -/
lemma marked_le (hs : Serves s) (requestId : RequestId) :
    occurrences (fun e => marks? e.said) requestId s.world.log ≤ 1 := by
  have hinv : Orderly s.world.db ∧
      occurrences (fun e => marks? e.said) requestId s.world.log ≤ 1 ∧
      (¬s.world.db.Tried requestId →
        occurrences (fun e => marks? e.said) requestId s.world.log = 0) := by
    refine invariant (P := fun w => Orderly w.db ∧
      occurrences (fun e => marks? e.said) requestId w.log ≤ 1 ∧
      (¬w.db.Tried requestId → occurrences (fun e => marks? e.said) requestId w.log = 0))
      ⟨⟨fun h => (by cases h), fun h => (by cases h), fun h => (by cases h)⟩, Nat.zero_le _,
        fun _ => rfl⟩ ?_ ?_ hs
    · rintro w a c x w' e ⟨horderly, hle, hnone⟩ he hnotes
      obtain ⟨-, -, hlater⟩ := exec_notes he
      refine ⟨exec_orderly he horderly, ?_⟩
      rw [hnotes.log, occurrences_cons, hnotes.said]
      by_cases hmarks : marks? ⟨c, x⟩ = some requestId
      · obtain ⟨contextId, claim, hsaid⟩ := marks_some hmarks
        cases hsaid
        obtain ⟨hbefore, hafter⟩ := exec_marks horderly he
        rw [if_pos hmarks, hnone hbefore]
        exact ⟨Nat.le_refl _, fun h => absurd hafter h⟩
      · rw [if_neg hmarks]
        exact ⟨hle, fun h => hnone fun hbefore => h (hlater.tried hbefore)⟩
    · rintro w now history ⟨horderly, hle, hnone⟩
      exact ⟨⟨horderly.unique, horderly.answered, horderly.attempted⟩, hle, hnone⟩
  exact hinv.2.1

/-! ### One answer -/

/-- A row that was listed once it had an answer is there, and keeps it. -/
lemma listed (hs : Serves s) (hmem : ∀ e ∈ log, e ∈ s.world.log) {row : ClarificationRow}
    (h : Handover.Listed ⟨⟨Chronicle.of i (log.map Entry.deed)⟩, l⟩ row) :
    ∃ r, s.world.db.clarification row.key = some r ∧ row.Becomes r := by
  obtain ⟨requests, hheard, hrow⟩ := h
  obtain ⟨e, he, -, hsaid⟩ := heard_mem hheard
  obtain ⟨hbefore, -, hexact⟩ := hs.past e (hmem e he)
  obtain ⟨-, fresh, hrun⟩ := hexact _ _ hsaid
  obtain ⟨-, hrequests⟩ := listInputRequests_ok hrun
  exact hbefore.rows (Db.requestsOf_clarification (hrequests _ hrow)).1

/-- An answer is passed on at most once. -/
lemma answersSent_le (hs : Serves s) (key : TaskId × EventId) :
    answersSent key s.world.log ≤ 1 := by
  rcases Nat.eq_zero_or_pos (answersSent key s.world.log) with hnone | hsome
  · omega
  -- the row it was passed on for, as it is now
  obtain ⟨r, hr, hid⟩ : ∃ r, s.world.db.clarification key = some r ∧
      ∀ later e earlier, s.world.log = later ++ e :: earlier → e.call.answers? = some key →
        ∃ i x, e.actor = .worker i ∧ (Chronicle.of i (earlier.map Entry.deed))[1]? = some x ∧
          marks? x = some r.requestId := by
    have hrow : ∀ {later e earlier}, s.world.log = later ++ e :: earlier →
        e.call.answers? = some key → ∃ i x r, e.actor = .worker i ∧
          (Chronicle.of i (earlier.map Entry.deed))[1]? = some x ∧
          s.world.db.clarification key = some r ∧ marks? x = some r.requestId := by
      intro later e earlier hlog hanswers
      obtain ⟨i, l, hactor, -, hallowed⟩ := hs.handover hlog
      cases hcall : e.call with
      | sendCustomToolResult task session eventId answer isError =>
        rw [hcall] at hallowed hanswers
        cases hanswers
        obtain ⟨row, hlisted, hkey, -, ⟨answerKey, contextId, claim, rest, -, hsaid⟩, -⟩ := hallowed
        obtain ⟨r, hr, hbecomes⟩ := hs.listed (fun e' he' => by simp [hlog, he']) hlisted
        refine ⟨i, ⟨.query (.markClarificationAttempted row.requestId contextId claim), .ok true⟩,
          r, hactor, ?_, hkey ▸ hr, by rw [hbecomes.id]; rfl⟩
        exact congrArg (·[1]?) hsaid
      | _ =>
        rw [hcall] at hanswers
        cases hanswers
    obtain ⟨e, he, hanswers⟩ := exists_of_occurrences hsome
    obtain ⟨later, earlier, hlog⟩ := List.append_of_mem he
    obtain ⟨-, -, r, -, -, hr, -⟩ := hrow hlog hanswers
    refine ⟨r, hr, fun later e earlier hlog hanswers => ?_⟩
    obtain ⟨i, x, r', hactor, hx, hr', hmarks⟩ := hrow hlog hanswers
    rw [hr, Option.some.injEq] at hr'
    exact ⟨i, x, hactor, hx, hr' ▸ hmarks⟩
  have honce := Chronicle.once (n := 1) (s.world.log.map Entry.deed)
    (A := fun x => x.1.answers? == some key) (B := fun x => marks? x == some r.requestId) ?_ ?_
  · rw [List.countP_map] at honce
    exact (List.countP_congr fun e _ => by simp [Entry.deed, Entry.said]).le.trans honce
  · intro later deed earlier hlog hanswers
    obtain ⟨later', rest, hlog', rfl, hrest⟩ := List.map_eq_append_iff.mp hlog
    obtain ⟨e, earlier', rfl, rfl, rfl⟩ := List.map_eq_cons_iff.mp hrest
    obtain ⟨i, x, hactor, hx, hmarks⟩ := hid later' e earlier' hlog' (beq_iff_eq.mp hanswers)
    exact ⟨i, x, hactor, hx, beq_iff_eq.mpr hmarks⟩
  · rw [List.countP_map]
    exact hs.marked_le r.requestId

/-- Whose words a recorded answer has, and that they are what is fetched. -/
lemma words (hs : Serves s) {later earlier : List Entry} {e : Entry} {requestId : RequestId}
    {answerKey : ObjectKey} {text : Text} (hlog : s.world.log = later ++ e :: earlier)
    (hrecords : e.Records requestId key answerKey)
    (hfetched : ∃ e' ∈ s.world.log, e'.said = ⟨.pendingGet answerKey, .ok text⟩) :
    e.Words s.job requestId key.1 text := by
  obtain ⟨i, l, hactor, hjob, hallowed⟩ := hs.handover hlog
  have hcall : e.call = .query (.decideClarificationRequest requestId key.1 answerKey) := by
    have h := hrecords.1
    unfold Entry.transaction at h
    split at h
    · split at h
      · rename_i q hq _
        cases h
        exact hq
      · cases h
    · cases h
  rw [hcall] at hallowed
  obtain ⟨-, text', hlast, hintends⟩ := hallowed
  -- what was stored right before is what was fetched
  have htext : text' = text := by
    obtain ⟨put, hput, -, hsaid⟩ := heard_mem (List.mem_of_mem_head? hlast)
    obtain ⟨get, hget, hgot⟩ := hfetched
    obtain ⟨put', hput', hcall'⟩ := hs.stored.2 get hget answerKey text hgot
    have hcall : put.call = .pendingPut answerKey text' := congrArg Sigma.fst hsaid
    have hstores : ∀ {e : Entry} {text}, e.call = .pendingPut answerKey text →
        (stores? e.said == some answerKey) = true := by
      rintro ⟨actor, call, reply, committed, before, after⟩ text rfl
      simp [Entry.said, stores?]
    have hsame := Chronicle.eq_of_once (hs.stored_once answerKey)
      (show put ∈ s.world.log by simp [hlog, hput]) (hstores hcall) hput' (hstores hcall')
    rw [hsame, hcall'] at hcall
    cases hcall
    rfl
  subst htext
  cases hintends with
  | response hmessage htask hresponse =>
    exact .response hactor (hjob.trans (congrArg some hmessage)) htask hresponse
  | cancelled hstops =>
    obtain ⟨-, s₀, hs₀, rfl, hbefore⟩ := hs.moment hlog
    exact .cancelled (by rw [hbefore]; exact hs₀.stops hstops)

end Serves

/-- **One answer.** However requests, wakeups, cancellations and admins interleave and whichever
replies are lost, the answer of a clarification is passed on at most once. The worker that passes
it on set the row's mark before, and what it passes on is the answer the row had then and keeps:
the words of the response, or of the cancellation, by which the row ceased to be pending. -/
theorem answered_once {s : Staff} (hs : Serves s) :
    (∀ key, answersSent key s.world.log ≤ 1) ∧
    ∀ later e earlier task session eventId answer isError, s.world.log = later ++ e :: earlier →
      e.call = .sendCustomToolResult task session eventId answer isError →
      ∃ between mark mid record old r answerKey,
        earlier = between ++ mark :: mid ++ record :: old ∧
        mark.MarksAnswer e.actor r ∧ r.key = (task, eventId) ∧ r.answerObjectKey = some answerKey ∧
        record.Records r.requestId (task, eventId) answerKey ∧
        record.Words s.job r.requestId task answer ∧
        (∃ r', s.world.db.clarification (task, eventId) = some r' ∧
          r'.requestId = r.requestId ∧ r'.answerObjectKey = some answerKey) ∧
        (isError = true → e.before.cancelRequested task = true) := by
  refine ⟨hs.answersSent_le, ?_⟩
  intro later e earlier task session eventId answer isError hlog hcall
  obtain ⟨i, l, hactor, hjob, hallowed⟩ := hs.handover hlog
  rw [hcall] at hallowed
  obtain ⟨row, hlisted, hkey, hresolving, ⟨answerKey, contextId, claim, rest, hanswer, hsaid⟩,
    hstops⟩ := hallowed
  obtain ⟨r', hr', hbecomes⟩ := hs.listed (fun e' he' => by simp [hlog, he']) hlisted
  obtain ⟨hsettled, hsame⟩ := hbecomes.answer (by rw [hresolving]; decide)
  -- the mark, and the row as it stood then
  obtain ⟨mid₁, get, rest₁, hearlier, -, hgot, hrest₁⟩ := chronicle_cons hsaid
  obtain ⟨mid₂, mark, old, hold, hmarker, hmarked, -⟩ := chronicle_cons hrest₁
  have hsplit : s.world.log = (later ++ e :: mid₁ ++ get :: mid₂) ++ mark :: old := by
    rw [hlog, hearlier, hold]
    simp
  obtain ⟨hpast, -, hexact⟩ := hs.past mark (by simp [hsplit])
  obtain ⟨hcommitted, fresh, hrun⟩ := hexact _ _ hmarked
  obtain ⟨r, hr, hguard⟩ := (markClarificationAttempted_ok hrun).2 rfl
  have hrow := hguard
  simp only [Db.respondable, Bool.and_eq_true, beq_iff_eq] at hrow
  obtain ⟨r'', hr'', hbecomes'⟩ := hpast.rows hr
  have hsamekey : r.key = row.key := hs.orderly.unique hr'' hr'
    (hbecomes'.id.trans (hrow.1.1.1.trans hbecomes.id.symm))
  rw [hsamekey, hr', Option.some.injEq] at hr''
  subst hr''
  obtain ⟨-, hkept⟩ := hbecomes'.answer (by rw [hrow.1.1.2]; decide)
  have hranswer : r.answerObjectKey = some answerKey := by rw [← hkept, hsame, hanswer]
  -- the entry that recorded it
  obtain ⟨-, s₀, hs₀, rfl, hbefore⟩ := hs.moment hsplit
  rw [hbefore] at hr
  obtain ⟨record, hrecord, hrecords⟩ := hs₀.recorded hr hranswer
  obtain ⟨mid₃, oldest, hs₀log⟩ := List.append_of_mem hrecord
  rw [hsamekey, hkey] at hrecords
  refine ⟨mid₁ ++ get :: mid₂, mark, mid₃, record, oldest, r, answerKey, ?_, ?_,
    hsamekey.trans hkey, hranswer, hrecords, ?_, ?_, fun hcancel => ?_⟩
  · rw [hearlier, hold, hs₀log]
    simp
  · obtain ⟨actor, call, reply, committed, before, after⟩ := mark
    cases hmarked
    dsimp only at hcommitted hmarker hbefore
    refine ⟨contextId, claim, before, after, ?_, ?_, ?_⟩
    · rw [hcommitted, hmarker, hactor, hrow.1.1.1]
    · rw [hbefore]
      exact hr
    · rw [hrow.1.1.1]
      exact hguard
  · have hrecorded : s.world.log =
        (later ++ e :: mid₁ ++ get :: mid₂ ++ mark :: mid₃) ++ record :: oldest := by
      rw [hsplit, hs₀log]
      simp
    exact hs.words hrecorded hrecords ⟨get, by simp [hsplit], hgot⟩
  · exact ⟨r', hkey ▸ hr', by rw [hbecomes.id, hrow.1.1.1], by rw [hsame, hanswer]⟩
  · obtain ⟨-, s₁, hs₁, rfl, hbefore₁⟩ := hs.moment hlog
    rw [hbefore₁]
    exact hs₁.stops (hstops hcancel)

/-- Event 52 asks which of two things is meant. -/
def asksWhich : List Event :=
  [message 50,
    { type := .agentCustomToolUse
      id := some 52
      name := some (.literal "ask_user")
      input := .object [("prompt", .literal "Which one?")] },
    idle 53 .requiresAction [52]]

/-- A client answers the question of task 2. -/
def theSecond : Errand :=
  .send (fun _ => codes "None")
    { messageId := some 101
      contextId := some 1
      taskId := some 2
      extensions := [humanInputExtensionUri]
      envelope := .response (.clarification (approvalRequestId 2 52) "The second.") }
    none (some { humanInputEnabled := true })

/-- The question is asked, answered by a client, and the answer passed on. -/
def questionAnswered : Rota :=
  .start (turn 100) :: turns 0 [.run, .run, .run, .run, .run, .done] ++
  .deliver (.wakeup demo 1) :: turns 1
    [.run, .run, .run, .run, .run, .session none, .created 5, .run, .events [message 50], .run,
      .run, .run, .run, .events asksWhich, .run, .run, .run, .events asksWhich, .run, .run, .run,
      .run, .run, .run, .run, .run, .run, .run, .done, .run] ++
  .start theSecond :: turns 2 [.run, .run, .run, .run, .run, .done] ++
  .deliver (.wakeup demo 1) :: turns 3
    [.run, .run, .run, .events asksWhich, .run, .run, .run, .done]

/-- The answer an entry passes on. -/
def Entry.passes (e : Entry) : Option (TaskId × SessionId × EventId × Text × Bool) :=
  match e.call with
  | .sendCustomToolResult task session eventId answer isError =>
    some (task, session, eventId, answer, isError)
  | _ => none

/-- What the client answered is passed on, once. -/
theorem answered_once_second : ∃ s : Staff, Serves s ∧ answersSent (2, 52) s.world.log = 1 ∧
    answersSent (2, 52) s.world.log ≤ 1 ∧
    ∃ e earlier record, s.world.log = e :: earlier ∧
      e.passes = some (2, 5, 52, "The second.", false) ∧ record ∈ earlier ∧
      record.Words s.job (approvalRequestId 2 52) 2 "The second." := by
  have hplay : ((stage.play works {} questionAnswered).map fun s : Staff =>
      (answersSent (2, 52) s.world.log,
        s.world.log.head?.bind Entry.passes == some (2, 5, 52, "The second.", false),
        (s.world.db.clarification (2, 52)).map (·.requestId))) =
      some (1, true, some (approvalRequestId 2 52)) := by
    decide +kernel
  obtain ⟨s, -, hs, hval⟩ := stage.played _ hplay
  simp only [Prod.mk.injEq, beq_iff_eq] at hval
  obtain ⟨hsent, hpasses, hrow⟩ := hval
  obtain ⟨honce, hanswered⟩ := answered_once hs
  refine ⟨s, hs, hsent, honce _, ?_⟩
  cases hlog : s.world.log with
  | nil =>
    rw [hlog] at hpasses
    cases hpasses
  | cons e earlier =>
    rw [hlog] at hpasses
    have hpasses : e.passes = some (2, 5, 52, "The second.", false) := hpasses
    cases hcall : e.call with
    | sendCustomToolResult task session eventId answer isError =>
      have hsame := hpasses
      rw [Entry.passes, hcall] at hsame
      cases hsame
      obtain ⟨between, mark, mid, record, old, r, answerKey, hearlier, -, -, -, -, hwords,
        ⟨r', hr', hid, -⟩, -⟩ := hanswered [] e earlier _ _ _ _ _ hlog hcall
      rw [hr', Option.map_some, Option.some.injEq] at hrow
      refine ⟨e, earlier, record, rfl, hpasses, by simp [hearlier], ?_⟩
      rw [← hrow, hid]
      exact hwords
    | _ =>
      rw [Entry.passes, hcall] at hpasses
      cases hpasses

end ManagedAgents.Controller
