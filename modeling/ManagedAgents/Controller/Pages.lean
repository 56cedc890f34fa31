import Mathlib.Data.List.Sort
import ManagedAgents.Controller.Admission
import ManagedAgents.Controller.Service
import ManagedAgents.Lib.Decimal

/-!
Pages of a context's tasks, from `list_tasks` of the controller and the loops of its two clients.

A page's rows are read in one transaction, and the views of its tasks after it; which tasks a page
shows is settled by the rows. Between two pages tasks are admitted and change.
-/

namespace ManagedAgents.Controller

open ManagedAgents.Lib

/-! ### A page -/

/-- The repository's `list_tasks`. -/
def listTasks (db : Db) (contextId : ContextId) (afterSequence limit : ℕ) : List TaskRow :=
  ((db.tasks.select fun t =>
      t.contextId == contextId && decide (afterSequence < t.sequence)).insertionSort
    (·.sequence ≤ ·.sequence)).take limit

def countTasks (db : Db) (contextId : ContextId) : ℕ :=
  (db.tasks.select (·.contextId == contextId)).length

/-- `int(params.page_token or "0")`. -/
def pageToken (token : Text) : Option ℤ := if token.isEmpty then some 0 else int? token

/-- A page: the rows it shows, the next token and the number of tasks. -/
structure Page where
  tasks : List TaskRow
  nextPageToken : Text
  totalSize : ℕ

/-- The service's `list_tasks`. -/
def Service.listTasks (db : Db) (contextId : Option ContextId) (afterSequence : ℤ) (pageSize : ℕ) :
    Answer Page :=
  match contextId with
  | none => .error (.invalidParams "contextId is required in Phase 2")
  | some contextId =>
    if afterSequence < 0 ∨ ¬ (1 ≤ pageSize ∧ pageSize ≤ 100) then
      .error (.invalidParams "Invalid task page")
    else
      let rows := Controller.listTasks db contextId afterSequence.toNat (pageSize + 1)
      let selected := rows.take pageSize
      let nextPageToken :=
        match selected.getLast? with
        | some last => if pageSize < rows.length then toString last.sequence else ""
        | none => ""
      .ok ⟨selected, nextPageToken, countTasks db contextId⟩

/-- `on_list_tasks`. -/
def onListTasks (db : Db) (contextId : Option ContextId) (pageSize : ℕ) (token : Text) :
    Answer Page :=
  match pageToken token with
  | none => .error (.invalidParams "Invalid page token")
  | some after => Service.listTasks db contextId after (if pageSize = 0 then 50 else pageSize)

/-! ### A walk -/

/-- What a client's loop has got so far. -/
structure Walk where
  token : Text := ""
  tasks : List TaskRow := []
  pages : ℕ := 0
  ended : Bool := false

/-- One turn of the loop, of `ThreadAgentService.list_tasks` and `ControllerClient.list`. -/
def Walk.turn (w : Walk) (db : Db) (contextId : ContextId) (pageSize : ℕ) : Answer Walk :=
  (onListTasks db (some contextId) pageSize w.token).map fun page =>
    { token := page.nextPageToken
      tasks := w.tasks ++ page.tasks
      pages := w.pages + 1
      ended := page.nextPageToken.isEmpty }

/-- A walk that began in a state, while admissions and other transactions go on. -/
inductive Walks (contextId : ContextId) (pageSize : ℕ) (s₀ : AdmitSystem) :
    AdmitSystem → Walk → Prop
  | begin : Walks contextId pageSize s₀ s₀ {}
  | other {s s' w} (h : Walks contextId pageSize s₀ s w)
    (hstep : Pool.Step admitEnvironment AdmitJob NotAdmission s s') :
    Walks contextId pageSize s₀ s' w
  | page {s w w'} (h : Walks contextId pageSize s₀ s w) (hopen : w.ended = false)
    (hpage : w.turn s.world.db contextId pageSize = .ok w') : Walks contextId pageSize s₀ s w'

/-! ### What the store keeps -/

lemma gapless {s : AdmitSystem} (hs : AdmitReachable s) :
    Gapless s.world.db.head s.world.db.turn := by
  obtain ⟨knows, hrec, -⟩ := admit_simulates hs
  exact hrec.gapless

/-- Turns stay what they are, whoever calls. -/
lemma turn_stays {w w' : AdmitWorld} {a : Actor} {c : AdmitCall} {r : Except DbError c.Reply}
    (hc : admitEnvironment.exec w a c r w') {x : TaskId} {v : ContextId × MessageId × ℕ}
    (hx : w.db.turn x = some v) : w'.db.turn x = some v := by
  obtain ⟨committed, db', hans, rfl⟩ := hc
  have hadmit : ∀ {a v' db'}, admitTurn a w.db = .ok (v', db') → db'.turn x = some v := by
    rintro a ⟨c, t, created⟩ db' h
    exact (admitTurn_admits h).keeps.turn hx
  cases hans with
  | done h | unacknowledged _ h => exact hadmit h
  | rolledBack | foundContext | gotContext | foundTask | unread | returned => exact hx
  | @other q fresh v' _ h =>
    cases q with
    | admitTurn a => exact hadmit h
    | _ =>
      rw [((Query.run_effect h).unadmitted nofun).2]
      exact hx

lemma turn_step {s s' : AdmitSystem} (h : Pool.Step admitEnvironment AdmitJob NotAdmission s s')
    {x : TaskId} {v : ContextId × MessageId × ℕ} (hx : s.world.db.turn x = some v) :
    s'.world.db.turn x = some v := by
  cases h with
  | spawn | crash => exact hx
  | call _ hc | outside _ hc => exact turn_stays hc hx
  | drift hd =>
    obtain ⟨now, -, rfl⟩ := hd
    exact hx

/-! ### What a page shows -/

section

variable {db : Db} {contextId : ContextId} {after limit n : ℕ}

/-- The positions of a context's tasks are those up to their number. -/
lemma Gapless.counted (h : Gapless db.head db.turn) (contextId : ContextId) :
    ((db.tasks.select (·.contextId == contextId)).map (·.sequence)).Perm
      (List.range' 1 (countTasks db contextId)) := by
  cases hctx : db.context contextId with
  | some c =>
    have hperm := h.positions hctx
    have hlen := hperm.length_eq
    rw [List.length_map, List.length_range'] at hlen
    rw [countTasks, hlen]
    exact hperm
  | none =>
    have hnone : db.tasks.select (·.contextId == contextId) = [] := by
      refine List.eq_nil_iff_forall_not_mem.mpr fun t ht => ?_
      obtain ⟨ht, hof⟩ := Table.mem_select.mp ht
      obtain ⟨first, next, hhead, -⟩ := h.of (turn_some ht)
      rw [beq_iff_eq.mp hof, Db.head, hctx] at hhead
      cases hhead
    rw [countTasks, hnone]
    rfl

lemma Gapless.le_count (h : Gapless db.head db.turn) {x : TaskId} {m : MessageId}
    (hx : db.turn x = some (contextId, m, n)) : n ≤ countTasks db contextId := by
  obtain ⟨t, ht, hof, -, hseq⟩ := turn_eq_some.mp hx
  have hcounted : n ∈ (db.tasks.select (·.contextId == contextId)).map (·.sequence) := by
    refine List.mem_map.mpr ⟨t, ?_, hseq⟩
    rw [Table.mem_select, beq_iff_eq]
    exact ⟨by rw [Db.task_id ht]; exact ht, hof⟩
  rw [(h.counted contextId).mem_iff, List.mem_range'_1] at hcounted
  omega

lemma take_range' {start k : ℕ} :
    (List.range' start n).take k = List.range' start (min k n) := by
  rcases Nat.le_total k n with hk | hk
  · rw [List.take_range'_of_length_ge hk, Nat.min_eq_left hk]
  · rw [List.take_range'_of_length_le hk, Nat.min_eq_right hk]

/-- The rows of a page stand at the positions after its cursor. -/
lemma listTasks_sequences (h : Gapless db.head db.turn) (contextId : ContextId)
    (after limit : ℕ) :
    (listTasks db contextId after limit).map (·.sequence) =
      (List.range' (after + 1) (countTasks db contextId - after)).take limit := by
  have hselect :
      (db.tasks.select fun t => t.contextId == contextId && decide (after < t.sequence)) =
      (db.tasks.select (·.contextId == contextId)).filter fun t => decide (after < t.sequence) := by
    simp only [Table.select, List.filter_filter, Bool.and_comm]
  have hrest : ((List.range' 1 (countTasks db contextId)).filter (decide <| after < ·)).Perm
      (List.range' (after + 1) (countTasks db contextId - after)) := by
    refine (List.perm_ext_iff_of_nodup (List.Nodup.filter _ List.nodup_range')
      List.nodup_range').mpr fun k => ?_
    simp only [List.mem_filter, List.mem_range'_1, decide_eq_true_eq]
    omega
  have hperm := ((h.counted contextId).filter (decide <| after < ·)).trans hrest
  rw [List.filter_map] at hperm
  rw [listTasks, hselect, List.map_take]
  refine congrArg (List.take limit) ?_
  refine List.Perm.eq_of_pairwise' (r := (· ≤ ·)) ?_ ?_
    (((List.perm_insertionSort _ _).map _).trans hperm)
  · rw [List.pairwise_map]
    exact List.pairwise_insertionSort _ _
  · exact List.pairwise_le_range'

lemma mem_listTasks {t : TaskRow} (ht : t ∈ listTasks db contextId after limit) :
    db.turn t.taskId = some (contextId, t.messageId, t.sequence) := by
  have hmem := (List.mem_insertionSort _).mp (List.mem_of_mem_take ht)
  obtain ⟨htask, hof⟩ := Table.mem_select.mp hmem
  simp only [Bool.and_eq_true, beq_iff_eq] at hof
  rw [turn_some htask, hof.1]

/-- A position comes back from its token. -/
lemma pageToken_toString (n : ℕ) : pageToken (toString n) = some (n : ℤ) := by
  unfold pageToken
  rw [if_neg (by simp), int?_toString]

/-- **A page** shows the next positions, and its token leads on when there are more. -/
lemma page_spec (h : Gapless db.head db.turn) (contextId : ContextId) {pageSize : ℕ} {token : Text}
    (hsize : 1 ≤ pageSize ∧ pageSize ≤ 100) (htoken : pageToken token = some (n : ℤ)) :
    ∃ page, onListTasks db (some contextId) pageSize token = .ok page ∧
      page.tasks.map (·.sequence) =
        (List.range' (n + 1) (countTasks db contextId - n)).take pageSize ∧
      (∀ t ∈ page.tasks, db.turn t.taskId = some (contextId, t.messageId, t.sequence)) ∧
      page.nextPageToken =
        if pageSize < countTasks db contextId - n then toString (n + pageSize) else "" := by
  have hrows := listTasks_sequences h contextId n (pageSize + 1)
  have hlen : (listTasks db contextId n (pageSize + 1)).length =
      min (pageSize + 1) (countTasks db contextId - n) := by
    have := congrArg List.length hrows
    simpa using this
  have hseqs : ((listTasks db contextId n (pageSize + 1)).take pageSize).map (·.sequence) =
      (List.range' (n + 1) (countTasks db contextId - n)).take pageSize := by
    rw [List.map_take, hrows, List.take_take, Nat.min_eq_left (Nat.le_succ _)]
  have hvalid : ¬ ((n : ℤ) < 0 ∨ ¬ (1 ≤ pageSize ∧ pageSize ≤ 100)) := by omega
  have hnonzero : pageSize ≠ 0 := by omega
  unfold onListTasks Service.listTasks
  simp only [htoken, if_neg hvalid, if_neg hnonzero, Int.toNat_natCast]
  refine ⟨_, rfl, hseqs, fun t ht => mem_listTasks (List.mem_of_mem_take ht), ?_⟩
  have hlast := congrArg List.getLast? hseqs
  rw [List.getLast?_map] at hlast
  dsimp only
  rw [hlen]
  by_cases hmore : pageSize < countTasks db contextId - n
  · rw [List.take_range'_of_length_ge (Nat.le_of_lt hmore)] at hlast
    obtain ⟨k, rfl⟩ : ∃ k, pageSize = k + 1 := ⟨pageSize - 1, by omega⟩
    rw [List.range'_concat, List.getLast?_concat] at hlast
    obtain ⟨last, hfound, hsequence⟩ := Option.map_eq_some_iff.mp hlast
    rw [hfound]
    dsimp only
    rw [if_pos (by omega), if_pos hmore, hsequence]
    congr 1
    omega
  · rw [if_neg hmore]
    split
    · rw [if_neg (by omega)]
    · rfl

end

/-! ### The whole walk -/

/-- What is known of a walk: it shows the first positions, in order; while it goes on, its token
says how many. -/
structure Walk.Good (contextId : ContextId) (pageSize : ℕ) (s₀ s : AdmitSystem) (w : Walk) :
    Prop where
  positions : w.tasks.map (·.sequence) = List.range' 1 w.tasks.length
  rows : ∀ t ∈ w.tasks, s.world.db.turn t.taskId = some (contextId, t.messageId, t.sequence)
  cursor : w.ended = false → pageToken w.token = some (w.tasks.length : ℤ) ∧
    w.tasks.length = w.pages * pageSize
  full : w.pages * pageSize ≤ w.tasks.length + pageSize
  old : ∀ {x v}, s₀.world.db.turn x = some v → s.world.db.turn x = some v
  complete : w.ended = true → ∀ x m n, s₀.world.db.turn x = some (contextId, m, n) →
    n ≤ w.tasks.length

section

variable {contextId : ContextId} {pageSize : ℕ} {s₀ s s' : AdmitSystem} {w w' : Walk}

/-- A walk is no longer than the context has tasks. -/
lemma Walk.Good.length_le (h : w.Good contextId pageSize s₀ s)
    (hg : Gapless s.world.db.head s.world.db.turn) :
    w.tasks.length ≤ countTasks s.world.db contextId := by
  by_contra hlong
  have hmem : w.tasks.length ∈ w.tasks.map (·.sequence) := by
    rw [h.positions, List.mem_range'_1]
    omega
  obtain ⟨t, ht, hseq⟩ := List.mem_map.mp hmem
  have hcount := hg.le_count (h.rows t ht)
  omega

lemma Walk.Good.step (h : w.Good contextId pageSize s₀ s)
    (hstep : Pool.Step admitEnvironment AdmitJob NotAdmission s s') :
    w.Good contextId pageSize s₀ s' :=
  ⟨h.positions, fun t ht => turn_step hstep (h.rows t ht), h.cursor, h.full,
    fun hx => turn_step hstep (h.old hx), h.complete⟩

/-- A page can be asked for while the walk goes on, and keeps it good. -/
lemma Walk.Good.page (h : w.Good contextId pageSize s₀ s)
    (hg : Gapless s.world.db.head s.world.db.turn) (hsize : 1 ≤ pageSize ∧ pageSize ≤ 100)
    (hopen : w.ended = false) :
    ∃ w', w.turn s.world.db contextId pageSize = .ok w' ∧ w'.Good contextId pageSize s₀ s := by
  obtain ⟨htoken, hpages⟩ := h.cursor hopen
  obtain ⟨page, hpage, hseqs, hrows, hnext⟩ := page_spec hg contextId hsize htoken
  have hle := h.length_le hg
  have hnew : page.tasks.length =
      min pageSize (countTasks s.world.db contextId - w.tasks.length) := by
    have := congrArg List.length hseqs
    simpa using this
  have hempty : page.nextPageToken.isEmpty = true ↔
      ¬ pageSize < countTasks s.world.db contextId - w.tasks.length := by
    rw [hnext]
    split
    · rename_i hlong
      exact iff_of_false (by simp) fun hshort => hshort hlong
    · rename_i hshort
      exact iff_of_true rfl hshort
  refine ⟨_, by rw [Walk.turn, hpage]; rfl, ?_, fun t ht => ?_, fun hmore => ?_, ?_, h.old,
    fun hend x m n hx => ?_⟩
  · dsimp only
    rw [List.map_append, h.positions, hseqs, List.length_append, hnew, take_range',
      Nat.add_comm _ 1, List.range'_append_1]
  · exact (List.mem_append.mp ht).elim (h.rows t) (hrows t)
  · dsimp only at hmore ⊢
    have hlong : pageSize < countTasks s.world.db contextId - w.tasks.length := by
      by_contra hshort
      rw [hempty.mpr hshort] at hmore
      cases hmore
    have hlen : (w.tasks ++ page.tasks).length = w.tasks.length + pageSize := by
      rw [List.length_append, hnew]
      omega
    rw [hnext, if_pos hlong, hlen, pageToken_toString, Nat.succ_mul, hpages]
    exact ⟨rfl, rfl⟩
  · dsimp only
    rw [List.length_append, Nat.succ_mul, ← hpages]
    omega
  · have hlong := hempty.mp hend
    have hcount : n ≤ countTasks s.world.db contextId := hg.le_count (h.old hx)
    dsimp only
    rw [List.length_append, hnew]
    omega

lemma good_begin : ({} : Walk).Good contextId pageSize s₀ s₀ :=
  ⟨rfl, fun t ht => (by cases ht), fun _ => ⟨rfl, by simp⟩, by simp, fun hx => hx, nofun⟩

lemma Walks.reachable (h : Walks contextId pageSize s₀ s w) (hs₀ : AdmitReachable s₀) :
    AdmitReachable s := by
  induction h with
  | begin => exact hs₀
  | other _ hstep ih => exact .step ih hstep
  | page _ _ _ ih => exact ih

lemma Walks.good (h : Walks contextId pageSize s₀ s w) (hs₀ : AdmitReachable s₀)
    (hsize : 1 ≤ pageSize ∧ pageSize ≤ 100) : w.Good contextId pageSize s₀ s := by
  induction h with
  | begin => exact good_begin
  | other _ hstep ih => exact ih.step hstep
  | page h hopen hpage ih =>
    obtain ⟨w'', hpage', hgood⟩ := ih.page (gapless (h.reachable hs₀)) hsize hopen
    rw [hpage'] at hpage
    cases hpage
    exact hgood

/-- **Pagination loses and repeats nothing.** A walk shows tasks of its context in increasing order
and none twice. A next page is answered as long as it goes on, and it goes on for no more pages than
the context has tasks for. When it has ended, every task that was there when it began is shown
once. -/
theorem pages_complete (hs₀ : AdmitReachable s₀) (hsize : 1 ≤ pageSize ∧ pageSize ≤ 100)
    (h : Walks contextId pageSize s₀ s w) :
    (w.tasks.map (·.sequence)).Pairwise (· < ·) ∧ (w.tasks.map (·.taskId)).Nodup ∧
    (∀ t ∈ w.tasks, ∃ t', s.world.db.task t.taskId = some t' ∧ t'.contextId = contextId ∧
      t'.sequence = t.sequence) ∧
    (w.ended = false → (∃ w', w.turn s.world.db contextId pageSize = .ok w') ∧
      w.pages * pageSize ≤ countTasks s.world.db contextId) ∧
    (w.ended = true → ∀ t, s₀.world.db.task t.taskId = some t → t.contextId = contextId →
      (w.tasks.map (·.taskId)).count t.taskId = 1) := by
  have hg := gapless (h.reachable hs₀)
  have hgood := h.good hs₀ hsize
  have hincreasing : (w.tasks.map (·.sequence)).Pairwise (· < ·) := by
    rw [hgood.positions]
    exact List.pairwise_lt_range'
  have hnodup : (w.tasks.map (·.taskId)).Nodup := by
    rw [List.Nodup, List.pairwise_map]
    rw [List.pairwise_map] at hincreasing
    refine hincreasing.imp_of_mem fun {t u} ht hu hlt hid => ?_
    have hturn := hgood.rows t ht
    rw [hid, hgood.rows u hu] at hturn
    simp only [Option.some.injEq, Prod.mk.injEq, true_and] at hturn
    omega
  refine ⟨hincreasing, hnodup, fun t ht => ?_, fun hopen => ⟨?_, ?_⟩, fun hend t ht hof => ?_⟩
  · obtain ⟨t', ht', hof, -, hseq⟩ := turn_eq_some.mp (hgood.rows t ht)
    exact ⟨t', ht', hof, hseq⟩
  · obtain ⟨w', hw', -⟩ := hgood.page hg hsize hopen
    exact ⟨w', hw'⟩
  · rw [← (hgood.cursor hopen).2]
    exact hgood.length_le hg
  · have hturn := turn_some ht
    rw [hof] at hturn
    have hlast := hgood.complete hend _ _ _ hturn
    obtain ⟨-, -, -, hfirst, -⟩ := hg.of (hgood.old hturn)
    have hshown : t.sequence ∈ w.tasks.map (·.sequence) := by
      rw [hgood.positions, List.mem_range'_1]
      omega
    obtain ⟨row, hrow, hseq⟩ := List.mem_map.mp hshown
    have hid : row.taskId = t.taskId := by
      have hrowturn := hgood.rows row hrow
      rw [hseq] at hrowturn
      exact hg.place hrowturn (hgood.old hturn)
    rw [← hid]
    exact List.count_eq_one_of_mem hnodup (List.mem_map_of_mem hrow)

end

/-! ### A task that is admitted meanwhile -/

/-- A later turn of the first context. -/
def laterMessage (n : ℕ) : AdmitArguments :=
  { proposedContextId := some n
    requestedContextId := some 1
    messageId := some (10 + n)
    proposedTaskId := some n
    inputObjectKey := some n }

/-- The next page of a walk that goes on. -/
def Walk.next (w : Walk) (s : AdmitSystem) : Option Walk :=
  if w.ended then none else (w.turn s.world.db 1 1).toOption

/-- A walk by pages of one task, begun with two tasks; a third one is admitted after its first
page. -/
def tour : Option (AdmitSystem × AdmitSystem × Walk) := do
  let s₀ ← admitPlayer.play {}
    [.start (firstMessage 1), .call 0 .done, .start (laterMessage 2), .call 1 .done]
  let w₁ ← ({} : Walk).next s₀
  let s ← [.start (laterMessage 3), .call 2 .done].foldlM admitPlayer.line s₀
  let w₂ ← w₁.next s
  let w₃ ← w₂.next s
  pure (s₀, s, w₃)

lemma Walks.next {s₀ s : AdmitSystem} {w w' : Walk} (h : Walks 1 1 s₀ s w)
    (hnext : w.next s = some w') : Walks 1 1 s₀ s w' := by
  unfold Walk.next at hnext
  split at hnext
  · cases hnext
  · rename_i hopen
    cases hturn : w.turn s.world.db 1 1 with
    | error e =>
      rw [hturn] at hnext
      cases hnext
    | ok w₁ =>
      rw [hturn] at hnext
      cases hnext
      exact h.page (by simpa using hopen) hturn

lemma Walks.lines {s₀ s s' : AdmitSystem} {w : Walk}
    {script : List (Line AdmitCall AdmitSaid AdmitArguments Empty)} (h : Walks 1 1 s₀ s w)
    (hlines : script.foldlM admitPlayer.line s = some s') : Walks 1 1 s₀ s' w := by
  induction script generalizing s with
  | nil =>
    cases hlines
    exact h
  | cons line rest ih =>
    rw [List.foldlM_cons] at hlines
    obtain ⟨s₁, hline, hrest⟩ := Option.bind_eq_some_iff.mp hlines
    exact ih (h.other (admitPlayer.line_step hline)) hrest

theorem pages_complete_tour : ∃ s₀ s w, tour = some (s₀, s, w) ∧ w.ended = true ∧
    w.tasks.map (·.taskId) = [1, 2, 3] ∧ Walks 1 1 s₀ s w ∧
    ∀ t, s₀.world.db.task t.taskId = some t → t.contextId = 1 →
      (w.tasks.map (·.taskId)).count t.taskId = 1 := by
  have htour : tour.map (fun (_, _, w) => (w.ended, w.tasks.map (·.taskId))) =
      some (true, [1, 2, 3]) := by decide +kernel
  obtain ⟨⟨s₀, s, w⟩, hrun, hval⟩ := Option.map_eq_some_iff.mp htour
  simp only [Prod.mk.injEq] at hval
  refine ⟨s₀, s, w, hrun, hval.1, hval.2, ?_⟩
  simp only [tour, Option.bind_eq_bind, Option.bind_eq_some_iff, Option.pure_def,
    Option.some.injEq, Prod.mk.injEq] at hrun
  obtain ⟨s₀, hplay, w₁, hw₁, s, hlines, w₂, hw₂, w₃, hw₃, rfl, rfl, rfl⟩ := hrun
  have hwalk := (((Walks.begin.next hw₁).lines hlines).next hw₂).next hw₃
  exact ⟨hwalk,
    (pages_complete (admitPlayer.play_reachable hplay) (by decide) hwalk).2.2.2.2 hval.1⟩

end ManagedAgents.Controller
