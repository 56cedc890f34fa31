import Mathlib.Tactic.Lemma
import ManagedAgents.Web.Stream

/-!
What the parts of a streamed run do, case by case.
-/

namespace ManagedAgents.Web

open ManagedAgents.Preview

/-- The state of a task ends its run. -/
def isOver : Option TaskState → Bool
  | some .completed | some .canceled | some .failed | some .rejected | some .inputRequired => true
  | _ => false

namespace Stream

variable {o : StreamOptions} {s : Stream} {task : Task} {m : A2AMessage}

lemma finish_over {threadId runId : String} {terminal : Option (List BaseEvent)}
    (h : finish task threadId runId = some terminal) : terminal.isSome = isOver task.state? := by
  unfold finish at h
  cases hstate : task.state? with
  | none =>
    rw [hstate] at h
    cases h
    rfl
  | some state =>
    rw [hstate] at h
    cases state with
    | inputRequired =>
      simp only [Option.bind_eq_bind, Option.bind_eq_some_iff] at h
      obtain ⟨pending, -, h⟩ := h
      split at h <;> cases h <;> rfl
    | _ =>
      cases h
      rfl

/-- A frame writes text events of its preview. -/
lemma preview_cases {p : Frame} : ∃ s₁ events, s.preview p = writeAll s₁ events ∧
    s₁.log = s.log ++ [.took p] ∧ s₁.seen = s.seen ∧ s₁.canonicalKey = s.canonicalKey ∧
    s₁.accumulator = (s.accumulator.accept p).1 ∧
    ((s.accumulator.accept p).2 = none ∧ events = [] ∨
      ∃ update, (s.accumulator.accept p).2 = some update ∧ events = drawn p update) := by
  have hsame : (s.note (.took p)).accumulator = s.accumulator := rfl
  unfold preview
  dsimp only
  rw [hsame]
  cases haccept : s.accumulator.accept p with
  | mk accumulator update =>
    cases update with
    | none => exact ⟨_, [], rfl, rfl, rfl, rfl, rfl, .inl ⟨rfl, rfl⟩⟩
    | some update => exact ⟨_, _, rfl, rfl, rfl, rfl, rfl, .inr ⟨update, rfl, rfl⟩⟩

/-- What a pass does after its read is the frames, and a heartbeat. -/
lemma pass_cases {i : Iteration} : s.pass i = s ∨ s.pass i = i.frames.foldl preview s ∨
    s.pass i = (i.frames.foldl preview s).write .heartbeat := by
  unfold pass
  split
  · exact .inl rfl
  · dsimp only
    split
    · exact .inr (.inr rfl)
    · exact .inr (.inl rfl)

/-- A message is sent as a whole, or not at all. -/
lemma emit_cases : s.emit m = s ∨ m.role = .agent ∧ .canonical m.messageId ∉ s.seen ∧ text m ≠ [] ∧
    s.emit m = s.writeAll
      [.textMessageStart (.canonical m.messageId),
        .textMessageContent (.canonical m.messageId) (text m),
        .textMessageEnd (.canonical m.messageId)] := by
  unfold emit
  split
  · rename_i hnew
    simp only [Bool.and_eq_true, beq_iff_eq, Bool.not_eq_true', List.contains_eq_mem,
      decide_eq_false_iff_not, bne_iff_ne, ne_eq] at hnew
    exact .inr ⟨hnew.1.1, hnew.1.2, hnew.2, rfl⟩
  · exact .inl rfl

/-- The history that was to be read was not. -/
def Unread (read : Except Failure (List Task)) : Prop :=
  ∀ tasks, read = .ok tasks → history tasks = none

lemma replace_cases (o : StreamOptions) (s : Stream) (waiting : Bool)
    (read : Except Failure (List Task)) :
    (∃ tasks messages, read = .ok tasks ∧ history tasks = some messages ∧
      replace o s waiting read =
        ((s.note (.listed tasks)).snapshot (replacement o waiting messages), .completed)) ∨
    (Unread read ∧ ∃ s' e, replace o s waiting read = (s', .threw e) ∧
      (s' = s ∨ ∃ tasks, s' = s.note (.listed tasks))) := by
  cases read with
  | error e => exact .inr ⟨fun tasks h => by simp at h, s, e, rfl, .inl rfl⟩
  | ok tasks =>
    unfold replace
    dsimp only
    cases hhistory : history tasks with
    | none =>
      refine .inr ⟨fun tasks' h => ?_, _, _, rfl, .inr ⟨tasks, rfl⟩⟩
      cases h
      exact hhistory
    | some messages => exact .inl ⟨tasks, messages, rfl, hhistory, rfl⟩

lemma present_goes_on {key : CanonicalKey} {waiting ended : Bool}
    {read : Except Failure (List Task)} :
    (s.present o task key waiting ended read).2 ≠ .returned := by
  unfold present
  split
  · dsimp only
    split
    · rcases replace_cases o { s with canonicalKey := some key, provisional := false } waiting read
        with ⟨tasks, messages, -, -, heq⟩ | ⟨-, s', e, heq, -⟩ <;> simp [heq]
    · simp
  · simp

/-- How the try block goes on once the task was read. -/
lemma follow_cases (o : StreamOptions) (s : Stream) (task : Task) (r : Reads) :
    (∃ s₁ : Stream, s₁.log = s.log ∧ s₁.seen = s.seen ∧ s₁.canonicalKey = s.canonicalKey ∧
      s₁.accumulator = s.accumulator ∧ follow o s task r = (s₁, .threw .transient)) ∨
    ∃ pending terminal, ∃ s₁ : Stream, interrupts task = some pending ∧
      (o.resumedIds = [] → terminal.isSome = isOver task.state?) ∧
      (terminal.isSome = true → isOver task.state? = true) ∧
      (∀ events, terminal = some events →
        finish task o.threadId o.runId = some (some events)) ∧
      s₁.log = s.log ∧ s₁.seen = s.seen ∧ s₁.canonicalKey = s.canonicalKey ∧
      s₁.provisional = s.provisional ∧ s₁.accumulator = s.accumulator ∧
      ∃ waiting, (o.resumedIds = [] → waiting = false) ∧
        (terminal.isSome = true → waiting = false) ∧
        follow o s task r = conclude terminal (waiting && r.late)
          (s₁.present o task (Web.canonicalKey task (pending.map (·.id))) waiting terminal.isSome
            r.history) := by
  unfold follow
  cases hpending : interrupts task with
  | none => exact .inl ⟨s, rfl, rfl, rfl, rfl, rfl⟩
  | some pending =>
    dsimp only
    cases hwaiting : s.waitsForResume o task (pending.map (·.id)) with
    | true =>
      have hresume : o.resumedIds ≠ [] := by
        rintro h
        simp [waitsForResume, h] at hwaiting
      refine .inr ⟨pending, none, s, rfl, fun h => absurd h hresume, fun h => (by cases h),
        fun _ h => (by cases h), rfl, rfl, rfl, rfl, rfl, true, fun h => absurd h hresume,
        fun h => (by cases h), ?_⟩
      simp
    | false =>
      cases hfinish : finish task o.threadId o.runId with
      | none => exact .inl ⟨{ s with acceptedResume := true }, rfl, rfl, rfl, rfl, by simp⟩
      | some terminal =>
        have hover := finish_over hfinish
        refine .inr ⟨pending, terminal, { s with acceptedResume := true }, rfl, fun _ => hover,
          fun h => hover ▸ h, ?_, rfl, rfl, rfl, rfl, rfl, false, fun _ => rfl, fun _ => rfl, ?_⟩
        · exact fun events h => congrArg some h
        · simp only [Bool.false_eq_true, if_false, Bool.false_and]

/-- The pass makes this canonical read. -/
def Reading (s : Stream) (i : Iteration) (r : Reads) : Prop :=
  s.returned = false ∧ i.aborted = none ∧ i.deadline = false ∧ i.reads = some r

lemma Reading.iterate_eq {i : Iteration} {r : Reads} (h : s.Reading i r) :
    iterate o s i = (s.readStep o r).pass i := by
  obtain ⟨hreturned, haborted, hdeadline, hreads⟩ := h
  simp [iterate, hreturned, haborted, hdeadline, hreads]

lemma run_snoc {initial : Except Failure (List Task)} {its : List Iteration} {i : Iteration} :
    run o initial (its ++ [i]) = iterate o (run o initial its) i := by
  simp [run]

end Stream

end ManagedAgents.Web
