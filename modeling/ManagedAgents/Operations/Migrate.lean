import Mathlib.Data.Int.Notation
import ManagedAgents.Controller.Rows
import ManagedAgents.Lib.Restart

/-!
Migration 011, from `011_stateless_openappa.sql`, and how `migrate` runs it: one statement after the
other, each committed on its own, then the file's marker.

The rows have the columns the file refers to; the other ones of a row go with it unread. A column
that is dropped takes its values with it.
-/

namespace ManagedAgents.Operations

open ManagedAgents.Lib
open ManagedAgents.Controller (TaskId ContextId RequestId RequestStatus Ruling Time Text)

/-- A row of `cma_input_requests`. -/
structure InputRequest (ρ : Type) where
  requestId : RequestId
  taskId : TaskId
  kind : Text
  status : RequestStatus
  decision : Option Ruling
  confirmationAttemptedAt : Option Time
  policySnapshotRevision : Option ℤ
  updatedAt : Time
  others : ρ

/-- A row of `cma_tasks`. -/
structure Task (ρ : Type) where
  taskId : TaskId
  contextId : ContextId
  cancelRequestedAt : Option Time
  others : ρ

/-- A row of `cma_contexts`. -/
structure Context (ρ : Type) where
  contextId : ContextId
  policySnapshotKey : Option Text
  policySnapshotRevision : Option ℤ
  others : ρ

inductive Column
  | requestRevision | contextKey | contextRevision
  deriving DecidableEq

/-- The controller's tables, and which of the columns are there. -/
structure Tables (ρ : Type) where
  requests : List (InputRequest ρ)
  tasks : List (Task ρ)
  contexts : List (Context ρ)
  has : Column → Bool

/-- The statements of the file. -/
inductive Statement
  | normalize
  | drop (column : Column)

def statements : List Statement :=
  [.normalize, .drop .requestRevision, .drop .contextKey, .drop .contextRevision]

variable {ρ : Type}

/-- The decision was made under a snapshot that the context published, or denies a cancelled call. A
comparison with NULL is not true. -/
def InputRequest.committed (r : InputRequest ρ) (t : Task ρ) (c : Context ρ) : Bool :=
  (r.decision.isSome && r.policySnapshotRevision.any (0 < ·)
      && r.policySnapshotRevision.any
        (fun n => c.policySnapshotRevision.any fun m => decide (n ≤ m))
      && c.policySnapshotKey.any (· ≠ ""))
    || (r.decision == some .deny && t.cancelRequestedAt.isSome)

/-- The `WHERE` of the `UPDATE`. -/
def InputRequest.reopens (r : InputRequest ρ) (tasks : List (Task ρ))
    (contexts : List (Context ρ)) :
    Bool :=
  r.kind == "tool_approval" && r.status == .resolving && r.confirmationAttemptedAt.isNone &&
    !tasks.any fun t => t.taskId == r.taskId &&
      contexts.any fun c => c.contextId == t.contextId && r.committed t c

/-- The row, evaluated again. -/
def InputRequest.reopen (r : InputRequest ρ) (now : Time) : InputRequest ρ :=
  { r with status := .pending, decision := none, updatedAt := now }

inductive Failure
  | undefinedColumn

/-- The columns that the `UPDATE` names are there. -/
def Tables.whole (db : Tables ρ) : Bool :=
  db.has .requestRevision && db.has .contextKey && db.has .contextRevision

/-- The `UPDATE`. -/
def normalize (now : Time) (db : Tables ρ) : Except Failure (Tables ρ) :=
  if db.whole then
    .ok
      { db with
        requests := db.requests.map fun r =>
          if r.reopens db.tasks db.contexts then r.reopen now else r }
  else .error .undefinedColumn

/-- `DROP COLUMN IF EXISTS`. -/
def dropColumn (column : Column) (db : Tables ρ) : Tables ρ :=
  let db := { db with has := fun c => db.has c && c != column }
  match column with
  | .requestRevision =>
    { db with requests := db.requests.map fun r => { r with policySnapshotRevision := none } }
  | .contextKey =>
    { db with contexts := db.contexts.map fun c => { c with policySnapshotKey := none } }
  | .contextRevision =>
    { db with contexts := db.contexts.map fun c => { c with policySnapshotRevision := none } }

/-- `_execute_migration_statement`: once the request's column is gone, the rows are not normalized
again. -/
def executeMigrationStatement (now : Time) (statement : Statement) (db : Tables ρ) :
    Except Failure (Tables ρ) :=
  match statement with
  | .normalize => if db.has .requestRevision then normalize now db else .ok db
  | .drop column => .ok (dropColumn column db)

/-- A statement is run at some time. -/
inductive Executes : Statement → Tables ρ → Option (Tables ρ) → Prop
  | ok {statement db db'} (now : Time) (h : executeMigrationStatement now statement db = .ok db') :
    Executes statement db (some db')
  | error {statement db e} (now : Time)
      (h : executeMigrationStatement now statement db = .error e) :
    Executes statement db none

/-- The file's runs, until its marker is written. -/
abbrev Migrates (db₀ db : Tables ρ) (phase : Phase) : Prop :=
  Restarts Executes statements db₀ db phase

/-- A run that nothing interrupts. -/
def uninterrupted (now : Time) (db : Tables ρ) : Except Failure (Tables ρ) :=
  statements.foldlM (fun db statement => executeMigrationStatement now statement db) db

/-! ### Up to the time of an update -/

def InputRequest.undated (r : InputRequest ρ) : InputRequest ρ := { r with updatedAt := 0 }

def Tables.undated (db : Tables ρ) : Tables ρ :=
  { db with requests := db.requests.map InputRequest.undated }

lemma row_undated (r : InputRequest ρ) (now : Time) (tasks : List (Task ρ))
    (contexts : List (Context ρ)) :
    (if r.reopens tasks contexts then r.reopen now else r).undated
      = if r.undated.reopens tasks contexts then r.undated.reopen 0 else r.undated := by
  by_cases hr : r.reopens tasks contexts = true
  · have hr' : r.undated.reopens tasks contexts = true := hr
    rw [if_pos hr, if_pos hr']
    rfl
  · have hr' : ¬ r.undated.reopens tasks contexts = true := hr
    rw [if_neg hr, if_neg hr']

lemma normalize_undated (now : Time) (db : Tables ρ) :
    (normalize now db).map Tables.undated = normalize 0 db.undated := by
  unfold normalize
  by_cases hall : db.whole = true
  · have hall' : db.undated.whole = true := hall
    rw [if_pos hall, if_pos hall']
    simp only [Except.map, Tables.undated, List.map_map, Except.ok.injEq, Tables.mk.injEq,
      and_true]
    exact List.map_congr_left fun r _ => row_undated r now db.tasks db.contexts
  · have hall' : ¬ db.undated.whole = true := hall
    rw [if_neg hall, if_neg hall', Except.map]

lemma dropColumn_undated (column : Column) (db : Tables ρ) :
    (dropColumn column db).undated = dropColumn column db.undated := by
  cases column with
  | requestRevision =>
    simp only [dropColumn, Tables.undated, List.map_map, Tables.mk.injEq, and_self, and_true]
    exact List.map_congr_left fun r _ => rfl
  | contextKey => rfl
  | contextRevision => rfl

/-- What a statement does depends on no update's time, and neither does what it leaves. -/
lemma execute_undated (now : Time) (statement : Statement) (db : Tables ρ) :
    (executeMigrationStatement now statement db).map Tables.undated
      = executeMigrationStatement 0 statement db.undated := by
  cases statement with
  | normalize =>
    unfold executeMigrationStatement
    by_cases hthere : db.has .requestRevision = true
    · have hthere' : db.undated.has .requestRevision = true := hthere
      simp only [hthere, hthere', if_true]
      exact normalize_undated now db
    · have hthere' : ¬ db.undated.has .requestRevision = true := hthere
      simp only [if_neg hthere, if_neg hthere', Except.map]
  | drop column =>
    have hdrop := dropColumn_undated column db
    simp only [executeMigrationStatement, Except.map, hdrop]

lemma run_undated (now : Time) (script : List Statement) (db : Tables ρ) :
    (script.foldlM (fun db statement => executeMigrationStatement now statement db) db).map
        Tables.undated
      = script.foldlM (fun db statement => executeMigrationStatement 0 statement db)
        db.undated := by
  induction script generalizing db with
  | nil => rfl
  | cons statement script ih =>
    have hfirst := execute_undated now statement db
    rw [List.foldlM_cons, List.foldlM_cons, ← hfirst]
    cases executeMigrationStatement now statement db with
    | error e => rfl
    | ok db' => exact ih db'

/-! ### What a statement keeps -/

/-- A request that was resolved, or whose confirmation was attempted, is decided as it was. -/
structure Kept (r r' : InputRequest ρ) : Prop where
  requestId : r'.requestId = r.requestId
  attempted : r'.confirmationAttemptedAt = r.confirmationAttemptedAt
  decided : r.status = .resolved ∨ r.confirmationAttemptedAt.isSome →
    r'.status = r.status ∧ r'.decision = r.decision

lemma Kept.refl (r : InputRequest ρ) : Kept r r := ⟨rfl, rfl, fun _ => ⟨rfl, rfl⟩⟩

lemma Kept.trans {r r' r'' : InputRequest ρ} (h : Kept r r') (h' : Kept r' r'') : Kept r r'' := by
  refine ⟨h'.requestId.trans h.requestId, h'.attempted.trans h.attempted, fun hr => ?_⟩
  obtain ⟨hstatus, hdecision⟩ := h.decided hr
  obtain ⟨hstatus', hdecision'⟩ := h'.decided (by rwa [hstatus, h.attempted])
  exact ⟨hstatus'.trans hstatus, hdecision'.trans hdecision⟩

lemma InputRequest.kept_of_reopens {r : InputRequest ρ} {tasks : List (Task ρ)}
    {contexts : List (Context ρ)} (h : r.reopens tasks contexts = true) (now : Time) :
    Kept r (r.reopen now) := by
  simp only [InputRequest.reopens, Bool.and_eq_true, beq_iff_eq, Option.isNone_iff_eq_none] at h
  obtain ⟨⟨⟨-, hresolving⟩, hunattempted⟩, -⟩ := h
  refine ⟨rfl, rfl, fun hr => ?_⟩
  simp [hresolving, hunattempted] at hr

/-- A statement changes the requests one by one. -/
lemma execute_kept {now : Time} {statement : Statement} {db db' : Tables ρ}
    (h : executeMigrationStatement now statement db = .ok db') :
    ∃ f, db'.requests = db.requests.map f ∧ ∀ r, Kept r (f r) := by
  cases statement with
  | normalize =>
    simp only [executeMigrationStatement, normalize] at h
    split at h
    · split at h
      · cases h
        refine ⟨_, rfl, fun r => ?_⟩
        by_cases hr : r.reopens db.tasks db.contexts = true
        · rw [if_pos hr]
          exact InputRequest.kept_of_reopens hr now
        · rw [if_neg hr]
          exact Kept.refl r
      · cases h
    · cases h
      exact ⟨id, (List.map_id _).symm, Kept.refl⟩
  | drop column =>
    cases h
    cases column with
    | requestRevision => exact ⟨_, rfl, fun r => ⟨rfl, rfl, fun _ => ⟨rfl, rfl⟩⟩⟩
    | contextKey => exact ⟨id, (List.map_id _).symm, Kept.refl⟩
    | contextRevision => exact ⟨id, (List.map_id _).symm, Kept.refl⟩

/-! ### The stages -/

/-- The place of the statement that drops the column. -/
def Column.place : Column → ℕ
  | requestRevision => 1
  | contextKey => 2
  | contextRevision => 3

lemma place_pos (column : Column) : 0 < column.place := by
  cases column <;> decide

lemma place_injective {c c' : Column} (h : c.place = c'.place) : c = c' := by
  cases c <;> cases c' <;> first | rfl | exact absurd h (by decide)

lemma statements_cases {i : ℕ} {statement : Statement} (h : statements[i]? = some statement) :
    i = 0 ∧ statement = .normalize ∨ ∃ column, i = column.place ∧ statement = .drop column := by
  match i, h with
  | 0, h => exact .inl ⟨rfl, (Option.some.inj h).symm⟩
  | 1, h => exact .inr ⟨.requestRevision, rfl, (Option.some.inj h).symm⟩
  | 2, h => exact .inr ⟨.contextKey, rfl, (Option.some.inj h).symm⟩
  | 3, h => exact .inr ⟨.contextRevision, rfl, (Option.some.inj h).symm⟩

/-- The column's values are gone. -/
def Emptied (db : Tables ρ) : Column → Prop
  | .requestRevision => ∀ r ∈ db.requests, r.policySnapshotRevision = none
  | .contextKey => ∀ c ∈ db.contexts, c.policySnapshotKey = none
  | .contextRevision => ∀ c ∈ db.contexts, c.policySnapshotRevision = none

lemma dropColumn_has (column c : Column) (db : Tables ρ) :
    (dropColumn column db).has c = (db.has c && c != column) := by
  cases column <;> rfl

lemma dropColumn_empties (column : Column) (db : Tables ρ) :
    Emptied (dropColumn column db) column := by
  cases column <;> simp [Emptied, dropColumn]

lemma dropColumn_keeps (column : Column) {c : Column} {db : Tables ρ} (h : Emptied db c) :
    Emptied (dropColumn column db) c := by
  cases column <;> cases c <;> simp_all [Emptied, dropColumn]

lemma normalize_has {now : Time} {db db' : Tables ρ} (h : normalize now db = .ok db') :
    db'.has = db.has := by
  unfold normalize at h
  split at h <;> cases h
  rfl

/-- The tables once the first statements were committed, however often. -/
structure Stage (db₀ : Tables ρ) (k : ℕ) (db : Tables ρ) : Prop where
  reached : (statements.take k).foldlM
    (fun db statement => executeMigrationStatement 0 statement db) db₀.undated = .ok db.undated
  columns : ∀ column, db.has column = true ↔ k ≤ column.place
  emptied : ∀ column, column.place < k → Emptied db column
  settled : k = 1 → ∀ r ∈ db.requests, r.reopens db.tasks db.contexts = false
  kept : List.Forall₂ Kept db₀.requests db.requests

lemma Stage.init {db₀ : Tables ρ} (hall : ∀ column, db₀.has column = true) : Stage db₀ 0 db₀ := by
  refine ⟨rfl, fun column => ?_, fun column h => absurd h (Nat.not_lt_zero _),
    fun h => absurd h (by omega), List.forall₂_same.mpr fun r _ => Kept.refl r⟩
  simp [hall column]

variable {db₀ db db' : Tables ρ} {k i : ℕ} {statement : Statement}

/-- The rows are normalized only while every column that is compared is there. -/
lemma Stage.sound (hs : Stage db₀ k db) (h : statements[i]? = some statement) :
    ¬ Executes statement db none := by
  intro h'
  obtain ⟨now, herror⟩ : ∃ now e, executeMigrationStatement now statement db = .error e := by
    cases h' with
    | error now he => exact ⟨now, _, he⟩
  rcases statements_cases h with ⟨-, rfl⟩ | ⟨column, -, rfl⟩
  · have hplace : db.has .requestRevision = true →
        db.has .contextKey = true ∧ db.has .contextRevision = true := by
      simp only [hs.columns, Column.place]
      omega
    simp only [executeMigrationStatement, normalize] at herror
    by_cases hthere : db.has .requestRevision = true
    · obtain ⟨hkey, hrevision⟩ := hplace hthere
      simp [Tables.whole, hthere, hkey, hrevision] at herror
    · simp [hthere] at herror
  · simp [executeMigrationStatement] at herror

lemma dropColumn_emptied {column : Column} (hgone : db.has column = false)
    (hemptied : Emptied db column) : dropColumn column db = db := by
  have hhas : (fun c => db.has c && c != column) = db.has := by
    funext c
    by_cases hc : c = column
    · simp [hc, hgone]
    · simp [hc]
  cases column with
  | requestRevision =>
    have hrows : db.requests.map (fun r => { r with policySnapshotRevision := none })
        = db.requests :=
      (List.map_congr_left fun r hr => by rw [← hemptied r hr]; rfl).trans (List.map_id _)
    simp only [dropColumn, hhas, hrows]
  | contextKey =>
    have hrows : db.contexts.map (fun c => { c with policySnapshotKey := none }) = db.contexts :=
      (List.map_congr_left fun c hc => by rw [← hemptied c hc]; rfl).trans (List.map_id _)
    simp only [dropColumn, hhas, hrows]
  | contextRevision =>
    have hrows :
        db.contexts.map (fun c => { c with policySnapshotRevision := none }) = db.contexts :=
      (List.map_congr_left fun c hc => by rw [← hemptied c hc]; rfl).trans (List.map_id _)
    simp only [dropColumn, hhas, hrows]

/-- A reopened row is pending, so it is not reopened once more. -/
lemma settled_of_normalize {now : Time} (h : normalize now db = .ok db') :
    ∀ r ∈ db'.requests, r.reopens db'.tasks db'.contexts = false := by
  unfold normalize at h
  split at h
  · cases h
    intro r hr
    obtain ⟨r, -, rfl⟩ := List.mem_map.mp hr
    by_cases hreopens : r.reopens db.tasks db.contexts = true
    · rw [if_pos hreopens]
      simp [InputRequest.reopens, InputRequest.reopen]
    · rw [if_neg hreopens]
      exact Bool.eq_false_iff.mpr hreopens
  · cases h

lemma normalize_settled {now : Time} (h : normalize now db = .ok db')
    (hsettled : ∀ r ∈ db.requests, r.reopens db.tasks db.contexts = false) : db' = db := by
  unfold normalize at h
  split at h
  · cases h
    have hrows : (db.requests.map fun r =>
        if r.reopens db.tasks db.contexts then r.reopen now else r) = db.requests := by
      refine (List.map_congr_left fun r hr => ?_).trans (List.map_id _)
      rw [hsettled r hr]
      rfl
    rw [hrows]
  · cases h

/-- A statement that was passed before changes nothing. -/
lemma Stage.again {now : Time} (hs : Stage db₀ k db) (h : statements[i]? = some statement)
    (hi : i < k) (hexec : executeMigrationStatement now statement db = .ok db') : db' = db := by
  rcases statements_cases h with ⟨rfl, rfl⟩ | ⟨column, rfl, rfl⟩
  · simp only [executeMigrationStatement] at hexec
    split at hexec
    · rename_i hthere
      have hk : k ≤ 1 := (hs.columns .requestRevision).mp hthere
      exact normalize_settled hexec (hs.settled (by omega))
    · cases hexec
      rfl
  · have hgone : db.has column = false := by
      have hcolumn := hs.columns column
      rw [← Bool.not_eq_true, hcolumn]
      omega
    cases hexec
    exact dropColumn_emptied hgone (hs.emptied column hi)

lemma Stage.hasAll (hs : Stage db₀ 0 db) (column : Column) : db.has column = true :=
  (hs.columns column).mpr (Nat.zero_le _)

/-- The statement that is next moves one stage on. -/
lemma Stage.next {now : Time} (hs : Stage db₀ k db) (h : statements[k]? = some statement)
    (hexec : executeMigrationStatement now statement db = .ok db') : Stage db₀ (k + 1) db' := by
  have hreached : (statements.take (k + 1)).foldlM
      (fun db statement => executeMigrationStatement 0 statement db) db₀.undated
        = .ok db'.undated := by
    have hlast := execute_undated now statement db
    rw [hexec] at hlast
    rw [List.take_add_one, h, List.foldlM_append, hs.reached]
    simp only [Option.toList_some, List.foldlM_cons, List.foldlM_nil]
    show executeMigrationStatement 0 statement db.undated >>= pure = .ok db'.undated
    rw [← hlast]
    rfl
  have hkept : List.Forall₂ Kept db₀.requests db'.requests := by
    obtain ⟨f, hf, hrow⟩ := execute_kept hexec
    rw [hf, List.forall₂_map_right_iff]
    exact hs.kept.imp fun r r' hr => hr.trans (hrow r')
  rcases statements_cases h with ⟨rfl, rfl⟩ | ⟨column, rfl, rfl⟩
  · have hthere : db.has .requestRevision = true := hs.hasAll _
    simp only [executeMigrationStatement, hthere, if_true] at hexec
    refine ⟨hreached, ?_, ?_, fun _ => settled_of_normalize hexec, hkept⟩
    · intro column
      have hcolumn := place_pos column
      rw [normalize_has hexec, hs.hasAll column]
      simp only [true_iff]
      omega
    · intro column hcolumn
      have := place_pos column
      omega
  · cases hexec
    refine ⟨hreached, fun c => ?_, fun c hc => ?_, fun hk => ?_, hkept⟩
    · have hcolumn := hs.columns c
      rw [dropColumn_has, Bool.and_eq_true, hcolumn, bne_iff_ne]
      constructor
      · rintro ⟨hle, hne⟩
        have hplace : column.place ≠ c.place := fun h => hne (place_injective h.symm)
        omega
      · intro hlt
        exact ⟨by omega, by rintro rfl; omega⟩
    · rcases Nat.lt_or_eq_of_le (Nat.le_of_lt_succ hc) with hlt | heq
      · exact dropColumn_keeps column (hs.emptied c hlt)
      · rw [place_injective heq]
        exact dropColumn_empties column db
    · have := place_pos column
      omega

/-- **Restarting migration 011.** However often the file's run is interrupted and begun again, no
statement names a column that is gone; the requests that were resolved or attempted stay as they
were; and a run that comes to the marker leaves what a run without an interruption does. -/
theorem migration_restartable {db₀ db : Tables ρ} {phase : Phase}
    (hall : ∀ column, db₀.has column = true) (h : Migrates db₀ db phase) (now : Time) :
    phase ≠ .failed ∧ List.Forall₂ Kept db₀.requests db.requests ∧
      (phase = .finished →
        ∃ done, uninterrupted now db₀ = .ok done ∧ done.undated = db.undated) := by
  obtain ⟨k, hk, hs, hphase⟩ := Restarts.staged (Stage db₀) (Stage.init hall)
    (fun hs hi _ => hs.sound hi)
    (fun hs hi hexec => by
      cases hexec with
      | ok now hexec => exact hs.next hi hexec)
    (fun hs hi hlt hexec => by
      cases hexec with
      | ok now hexec => exact (hs.again hi hlt hexec).symm ▸ hs)
    h
  refine ⟨?_, hs.kept, ?_⟩
  · rintro rfl
    exact hphase
  · rintro rfl
    have hreached := hs.reached
    rw [show k = statements.length from hphase, List.take_length] at hreached
    have hrun := run_undated now statements db₀
    rw [hreached] at hrun
    obtain ⟨done, hdone, hsame⟩ : ∃ done, uninterrupted now db₀ = .ok done ∧
        done.undated = db.undated := by
      unfold uninterrupted
      cases hend : statements.foldlM
          (fun db statement => executeMigrationStatement now statement db) db₀ with
      | error e => rw [hend] at hrun; cases hrun
      | ok done =>
        rw [hend] at hrun
        exact ⟨done, rfl, Except.ok.inj hrun⟩
    exact ⟨done, hdone, hsame⟩

/-- A resolved request, an attempted one and one that is evaluated again. -/
def legacy : Tables Unit where
  requests :=
    [⟨.random 1, 7, "tool_approval", .resolved, some .allow, none, none, 0, ()⟩,
      ⟨.random 2, 7, "tool_approval", .resolving, some .allow, some 3, none, 0, ()⟩,
      ⟨.random 3, 7, "tool_approval", .resolving, some .allow, none, some 3, 0, ()⟩]
  tasks := [⟨7, 5, none, ()⟩]
  contexts := [⟨5, some "key", some 2, ()⟩]
  has := fun _ => true

lemma commits (now : Time) (h : Migrates db₀ db (.running i)) (hi : statements[i]? = some statement)
    (hexec : executeMigrationStatement now statement db = .ok db') :
    Migrates db₀ db' (.running (i + 1)) :=
  h.commit hi (.ok now hexec)

/-- Interrupted after the rows were normalized, and again after the first column was dropped. -/
theorem migration_restartable_legacy :
    ∃ db : Tables Unit, db.requests.map (·.status) = [.resolved, .resolving, .pending] ∧
      ∃ done, uninterrupted 5 legacy = .ok done ∧ done.undated = db.undated := by
  have h₁ : Migrates legacy _ (.running 1) := commits 10 (.start .init) rfl rfl
  have h₂ : Migrates legacy _ (.running 1) := commits 20 (.start (.interrupt h₁)) rfl rfl
  have h₃ : Migrates legacy _ (.running 2) := commits 20 h₂ rfl rfl
  have h₄ : Migrates legacy _ (.running 1) := commits 30 (.start (.interrupt h₃)) rfl rfl
  have h₅ : Migrates legacy _ (.running 2) := commits 30 h₄ rfl rfl
  have h₆ : Migrates legacy _ (.running 3) := commits 30 h₅ rfl rfl
  have h₇ : Migrates legacy _ (.running 4) := commits 30 h₆ rfl rfl
  exact ⟨_, rfl, (migration_restartable (fun _ => rfl) (.finish h₇) 5).2.2 rfl⟩

end ManagedAgents.Operations
