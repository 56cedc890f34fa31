import Mathlib.Data.List.Induction
import ManagedAgents.Lib.Brackets
import ManagedAgents.Preview.Shown
import ManagedAgents.Web.Steps

/-!
The text events of a streamed run as brackets.

Every text stands between the start and the end of its message, and no message is started twice in
between. A preview whose end frame is not accepted stays open, so a run is well bracketed exactly
when none is open among the frames that were taken before the pass that ends the run.
-/

namespace ManagedAgents.Web

open ManagedAgents.Lib ManagedAgents.Preview

/-- A message is opened by its start and closed by its end; a run that finishes, or ends with an
error, leaves none open. -/
def Entry.mark : Entry → Mark MessageId
  | .wrote (.textMessageStart id) => .opens id
  | .wrote (.textMessageContent id _) => .inside id
  | .wrote (.textMessageEnd id) => .closes id
  | .wrote (.runFinished _ _ _) | .wrote (.runError _ _) => .settles
  | _ => .other

def marks (log : List Entry) : List (Mark MessageId) := log.map Entry.mark

/-- Follow a frame: an accepted start opens its preview, an accepted end closes it. -/
def openStep (before : PreviewAccumulator × List MessageId) (p : Frame) :
    PreviewAccumulator × List MessageId :=
  match before.1.accept p with
  | (a, none) => (a, before.2)
  | (a, some update) =>
    let held := if update.start then .preview update.id :: before.2 else before.2
    (a, if update.end then held.erase (.preview update.id) else held)

def accumulate (frames : List Frame) : PreviewAccumulator × List MessageId :=
  frames.foldl openStep ({}, [])

/-- The messages that are open after some frames. -/
def leftOpen (frames : List Frame) : List MessageId := (accumulate frames).2

/-- Of the frames, an accepted one starts the preview, and no accepted one ends it. -/
def StaysOpen (frames : List Frame) (id : Units) : Prop :=
  (∃ p ∈ PreviewAccumulator.acceptedOf id frames, p.type = .start) ∧
    ∀ p ∈ PreviewAccumulator.acceptedOf id frames, p.type ≠ .end

/-! ### Open previews -/

/-- Open messages are previews the accumulator has taken frames of, and all those it goes on
with are open. -/
structure Tracks (a : PreviewAccumulator) (held : List MessageId) : Prop where
  preview : ∀ x ∈ held, ∃ id, x = .preview id
  known : ∀ id, .preview id ∈ held → ∃ state, a.states.get? id = some state ∧ 0 < state.next
  alive : ∀ id state, a.states.get? id = some state → state.ended = false →
    .preview id ∈ held ∧ 0 < state.next

variable {a b : PreviewAccumulator} {held : List MessageId} {p : Frame} {ps : List Frame}

/-- The accumulator waits for the frame: it is a new preview's first, or that of one which is
alive. -/
def Waits (a : PreviewAccumulator) (p : Frame) : Prop :=
  a.states.get? p.previewId = none ∧ p.type = .start ∨
    ∃ old, a.states.get? p.previewId = some old ∧ old.ended = false ∧
      (p.type = .start → old.next = 0)

/-- What goes on is open. -/
lemma Tracks.content (h : Tracks a held) (hwaits : Waits a p) (hne : p.type ≠ .start) :
    .preview p.previewId ∈ held := by
  rcases hwaits with ⟨-, hstart⟩ | ⟨old, hold, hended, -⟩
  · exact absurd hstart hne
  · exact (h.alive _ old hold hended).1

/-- What starts is not open yet. -/
lemma Tracks.fresh (h : Tracks a held) (hwaits : Waits a p) (hstart : p.type = .start) :
    .preview p.previewId ∉ held := by
  intro hheld
  obtain ⟨old, hold, hnext⟩ := h.known _ hheld
  rcases hwaits with ⟨hnone, -⟩ | ⟨old', hold', -, hzero⟩
  · simp [hnone] at hold
  · rw [hold, Option.some.injEq] at hold'
    subst hold'
    have := hzero hstart
    omega

lemma tracks_empty : Tracks {} [] where
  preview x hx := by simp at hx
  known id hid := by simp at hid
  alive id state h := by simp at h

/-- A refused frame opens and closes nothing; the events of an accepted one fit. -/
lemma Tracks.step (h : Tracks a held) :
    Tracks (openStep (a, held) p).1 (openStep (a, held) p).2 ∧
    ((a.accept p).2 = none ∧ (openStep (a, held) p).2 = held ∨
      ∃ update, (a.accept p).2 = some update ∧
        Mark.scan held (marks ((Stream.drawn p update).map .wrote)) =
          some (openStep (a, held) p).2) := by
  have haccepts := PreviewAccumulator.accept_accepts (a := a) (p := p)
  unfold openStep
  dsimp only
  cases haccept : a.accept p with
  | mk b update =>
    rw [haccept] at haccepts
    cases haccepts with
    | refused kept alive =>
      refine ⟨⟨h.preview, fun id hid => ?_, fun id state hstate halive => ?_⟩, .inl ⟨rfl, rfl⟩⟩
      · obtain ⟨state, hstate, hnext⟩ := h.known id hid
        obtain ⟨state', hstate', hle⟩ := kept id state hstate
        exact ⟨state', hstate', by omega⟩
      · exact h.alive id state (alive id state hstate halive) halive
    | accepted update state waiting id_eq start_eq end_eq next_pos ended_eq states_eq =>
      have hcontent := h.content waiting
      have hnew := h.fresh waiting
      have hstates : b.states.get? p.previewId = some state := by simp [states_eq]
      have hothers : ∀ id, id ≠ p.previewId → b.states.get? id = a.states.get? id :=
        fun id hne => by simp [states_eq, hne]
      cases htype : p.type with
      | start =>
        have hheld := hnew htype
        simp only [htype, beq_self_eq_true] at start_eq
        have hend : update.end = false := by simp [end_eq, htype]
        simp only [start_eq, hend, if_true, Bool.false_eq_true, if_false, id_eq]
        refine ⟨⟨fun x hx => ?_, fun id hid => ?_, fun id new hget halive => ?_⟩,
          .inr ⟨update, rfl, ?_⟩⟩
        · rcases List.mem_cons.mp hx with rfl | hx
          · exact ⟨_, rfl⟩
          · exact h.preview x hx
        · by_cases hne : id = p.previewId
          · exact ⟨state, hne ▸ hstates, next_pos⟩
          · have hid : .preview id ∈ held := by simpa [hne] using hid
            exact hothers id hne ▸ h.known id hid
        · by_cases hne : id = p.previewId
          · subst hne
            rw [hstates, Option.some.injEq] at hget
            exact ⟨by simp, hget ▸ next_pos⟩
          · rw [hothers id hne] at hget
            obtain ⟨hmem, hpos⟩ := h.alive id new hget halive
            exact ⟨by simp [hmem], hpos⟩
        · simp [Stream.drawn, start_eq, hend, htype, id_eq, marks, Entry.mark, Mark.step, hheld]
      | delta =>
        have hheld := hcontent (by simp [htype])
        have hstart : update.start = false := by simp [start_eq, htype]
        have hend : update.end = false := by simp [end_eq, htype]
        simp only [hstart, hend, Bool.false_eq_true, if_false]
        refine ⟨⟨h.preview, fun id hid => ?_, fun id new hget halive => ?_⟩,
          .inr ⟨update, rfl, ?_⟩⟩
        · by_cases hne : id = p.previewId
          · exact ⟨state, hne ▸ hstates, next_pos⟩
          · exact hothers id hne ▸ h.known id hid
        · by_cases hne : id = p.previewId
          · subst hne
            rw [hstates, Option.some.injEq] at hget
            exact ⟨hheld, hget ▸ next_pos⟩
          · rw [hothers id hne] at hget
            exact h.alive id new hget halive
        · simp [Stream.drawn, hstart, hend, htype, id_eq, marks, Entry.mark, Mark.step, hheld]
      | «end» =>
        have hheld := hcontent (by simp [htype])
        have hstart : update.start = false := by simp [start_eq, htype]
        have hend : update.end = true := by simp [end_eq, htype]
        simp only [hstart, hend, Bool.false_eq_true, if_false, if_true, id_eq]
        refine ⟨⟨fun x hx => h.preview x (List.mem_of_mem_erase hx), fun id hid => ?_,
          fun id new hget halive => ?_⟩, .inr ⟨update, rfl, ?_⟩⟩
        · by_cases hne : id = p.previewId
          · exact ⟨state, hne ▸ hstates, next_pos⟩
          · exact hothers id hne ▸ h.known id (List.mem_of_mem_erase hid)
        · by_cases hne : id = p.previewId
          · subst hne
            rw [hstates, Option.some.injEq] at hget
            subst hget
            simp [ended_eq, htype] at halive
          · rw [hothers id hne] at hget
            obtain ⟨hmem, hpos⟩ := h.alive id new hget halive
            have hother : MessageId.preview id ≠ .preview p.previewId := by simp [hne]
            exact ⟨(List.mem_erase_of_ne hother).mpr hmem, hpos⟩
        · simp [Stream.drawn, hstart, hend, htype, id_eq, marks, Entry.mark, Mark.step, hheld]

lemma accumulate_snoc : accumulate (ps ++ [p]) = openStep (accumulate ps) p := by
  simp [accumulate]

lemma accumulate_tracks (ps : List Frame) : Tracks (accumulate ps).1 (accumulate ps).2 := by
  induction ps using List.reverseRecOn with
  | nil => exact tracks_empty
  | append_singleton ps p ih =>
    rw [accumulate_snoc]
    exact ih.step.1

lemma accumulate_after : (accumulate ps).1 = PreviewAccumulator.after ps := by
  induction ps using List.reverseRecOn with
  | nil => rfl
  | append_singleton ps p ih =>
    rw [accumulate_snoc, PreviewAccumulator.after_snoc, ← ih]
    unfold openStep
    cases (accumulate ps).1.accept p with
    | mk a update => cases update <;> rfl

/-- A frame that is refused changes nothing of what is open; one that is accepted is the next of its
preview, and opens or closes it. -/
lemma leftOpen_snoc (ps : List Frame) (p : Frame) :
    ((PreviewAccumulator.after ps).accept p).2 = none ∧
      leftOpen (ps ++ [p]) = leftOpen ps ∨
    ((PreviewAccumulator.after ps).accept p).2.isSome = true ∧ Waits (accumulate ps).1 p ∧
      leftOpen (ps ++ [p]) = match p.type with
        | .start => .preview p.previewId :: leftOpen ps
        | .delta => leftOpen ps
        | .end => (leftOpen ps).erase (.preview p.previewId) := by
  have haccepts := PreviewAccumulator.accept_accepts (a := (accumulate ps).1) (p := p)
  rw [leftOpen, accumulate_snoc, ← accumulate_after]
  unfold openStep
  cases haccept : (accumulate ps).1.accept p with
  | mk b update =>
    rw [haccept] at haccepts
    cases haccepts with
    | refused => exact .inl ⟨rfl, rfl⟩
    | accepted update state waiting id_eq start_eq end_eq =>
      refine .inr ⟨rfl, waiting, ?_⟩
      simp only [id_eq, start_eq, end_eq]
      cases p.type <;> rfl

lemma staysOpen_refused (hnone : ((PreviewAccumulator.after ps).accept p).2 = none) (id : Units) :
    StaysOpen (ps ++ [p]) id ↔ StaysOpen ps id := by
  simp [StaysOpen, PreviewAccumulator.acceptedOf_snoc, hnone]

lemma staysOpen_other {id : Units} (hne : id ≠ p.previewId) :
    StaysOpen (ps ++ [p]) id ↔ StaysOpen ps id := by
  simp [StaysOpen, PreviewAccumulator.acceptedOf_snoc, Ne.symm hne]

lemma staysOpen_accepted (hsome : ((PreviewAccumulator.after ps).accept p).2.isSome = true) :
    StaysOpen (ps ++ [p]) p.previewId ↔
      ((∃ q ∈ PreviewAccumulator.acceptedOf p.previewId ps, q.type = .start) ∨ p.type = .start) ∧
      (∀ q ∈ PreviewAccumulator.acceptedOf p.previewId ps, q.type ≠ .end) ∧ p.type ≠ .end := by
  have hown : PreviewAccumulator.acceptedOf p.previewId (ps ++ [p]) =
      PreviewAccumulator.acceptedOf p.previewId ps ++ [p] := by
    simp [PreviewAccumulator.acceptedOf_snoc, hsome]
  simp [StaysOpen, hown, or_and_right, exists_or, forall_and, or_imp]

/-- A start is the first frame of its preview. -/
lemma nothing_before_start (hwaits : Waits (accumulate ps).1 p) (hstart : p.type = .start) :
    PreviewAccumulator.acceptedOf p.previewId ps = [] := by
  have hfollows := PreviewAccumulator.follows ps
  rw [accumulate_after] at hwaits
  rcases hwaits with ⟨hunknown, -⟩ | ⟨old, hold, halive, hzero⟩
  · exact hfollows.unknown _ hunknown
  · have hbegun := hfollows.begun _ old hold halive
    have hnext := hzero hstart
    omega

/-- What is open is what the accepted frames leave open, each once. -/
lemma mem_leftOpen (ps : List Frame) :
    (leftOpen ps).Nodup ∧ ∀ id, .preview id ∈ leftOpen ps ↔ StaysOpen ps id := by
  induction ps using List.reverseRecOn with
  | nil => exact ⟨List.nodup_nil, fun id => by simp [leftOpen, accumulate, StaysOpen,
      PreviewAccumulator.acceptedOf, PreviewAccumulator.accepted, PreviewAccumulator.accepts]⟩
  | append_singleton ps p ih =>
    obtain ⟨hnodup, hmem⟩ := ih
    have htracks := accumulate_tracks ps
    rcases leftOpen_snoc ps p with ⟨hnone, heq⟩ | ⟨hsome, hwaits, heq⟩
    · rw [heq]
      exact ⟨hnodup, fun id => by rw [hmem, staysOpen_refused hnone]⟩
    · have hopen := staysOpen_accepted hsome
      cases htype : p.type with
      | start =>
        simp only [htype] at heq
        rw [heq]
        refine ⟨List.nodup_cons.mpr ⟨htracks.fresh hwaits htype, hnodup⟩, fun id => ?_⟩
        by_cases hid : id = p.previewId
        · subst hid
          simp [hopen, nothing_before_start hwaits htype, htype]
        · rw [staysOpen_other hid, ← hmem id]
          simp [hid]
      | delta =>
        simp only [htype] at heq
        have hheld := (hmem _).mp (htracks.content hwaits (by simp [htype]))
        rw [heq]
        refine ⟨hnodup, fun id => ?_⟩
        by_cases hid : id = p.previewId
        · subst hid
          rw [hmem, hopen]
          exact iff_of_true hheld ⟨.inl hheld.1, hheld.2, by simp [htype]⟩
        · rw [staysOpen_other hid, hmem]
      | «end» =>
        simp only [htype] at heq
        rw [heq]
        refine ⟨hnodup.erase _, fun id => ?_⟩
        by_cases hid : id = p.previewId
        · subst hid
          rw [hopen]
          exact iff_of_false hnodup.not_mem_erase fun h => h.2.2 htype
        · have hother : MessageId.preview id ≠ .preview p.previewId := by simp [hid]
          rw [staysOpen_other hid, ← hmem id, List.mem_erase_of_ne hother]

lemma leftOpen_eq_nil : leftOpen ps = [] ↔ ∀ id, ¬ StaysOpen ps id := by
  constructor
  · intro h id hopen
    have hmem := ((mem_leftOpen ps).2 id).mpr hopen
    rw [h] at hmem
    cases hmem
  · intro h
    refine List.eq_nil_iff_forall_not_mem.mpr fun x hx => ?_
    obtain ⟨id, rfl⟩ := (accumulate_tracks ps).preview x hx
    exact h id (((mem_leftOpen ps).2 id).mp hx)

/-! ### A run before it ends -/

@[simp] lemma marks_append (log more : List Entry) :
    marks (log ++ more) = marks log ++ marks more := by
  simp [marks]

namespace Stream

variable {o : StreamOptions} {s s' : Stream} {task : Task} {m : A2AMessage} {r : Reads}
  {i : Iteration}

/-- The run goes on after these frames: its text events fit, and the open messages are the previews
the frames left open. -/
structure Nested (s : Stream) (ps : List Frame) : Prop where
  accumulator : s.accumulator = (accumulate ps).1
  scan : Mark.scan [] (marks s.log) = some (leftOpen ps)
  going : .settles ∉ marks s.log

lemma Nested.same (h : s.Nested ps) (hlog : s'.log = s.log) (ha : s'.accumulator = s.accumulator) :
    s'.Nested ps := ⟨by rw [ha, h.accumulator], by rw [hlog, h.scan], by rw [hlog]; exact h.going⟩

lemma Nested.note {e : Entry} (h : s.Nested ps) (he : e.mark = .other) : (s.note e).Nested ps := by
  have hmarks : marks [e] = [.other] := by simp [marks, he]
  refine ⟨h.accumulator, ?_, ?_⟩
  · simp [Stream.note, hmarks, Mark.scan_append, h.scan, Mark.step]
  · simpa [Stream.note, hmarks] using h.going

lemma Nested.emit (h : s.Nested ps) : (s.emit m).Nested ps := by
  rcases emit_cases (s := s) (m := m) with heq | ⟨-, -, -, heq⟩ <;> rw [heq]
  · exact h
  · have hclosed : .canonical m.messageId ∉ leftOpen ps := by
      intro hmem
      obtain ⟨id, hid⟩ := (accumulate_tracks _).preview _ hmem
      cases hid
    have hmarks : marks (s.writeAll [.textMessageStart (.canonical m.messageId),
        .textMessageContent (.canonical m.messageId) (text m),
        .textMessageEnd (.canonical m.messageId)]).log = marks s.log ++
        [.opens (.canonical m.messageId), .inside (.canonical m.messageId),
          .closes (.canonical m.messageId)] := by
      simp [writeAll, write, Stream.note, marks, Entry.mark]
    refine ⟨h.accumulator, ?_, ?_⟩
    · rw [hmarks, Mark.scan_append, h.scan]
      exact Mark.scan_whole hclosed
    · rw [hmarks]
      simpa using h.going

lemma Nested.emits {ms : List A2AMessage} (h : s.Nested ps) :
    (ms.foldl Stream.emit s).Nested ps := by
  induction ms generalizing s with
  | nil => exact h
  | cons m rest ih => exact ih h.emit

lemma writeAll_log {events : List BaseEvent} :
    (s.writeAll events).log = s.log ++ events.map .wrote := by
  induction events generalizing s with
  | nil => simp [writeAll]
  | cons e rest ih =>
    have hrest := ih (s := s.write e)
    simpa [writeAll, write, Stream.note] using hrest

lemma writeAll_accumulator {events : List BaseEvent} :
    (s.writeAll events).accumulator = s.accumulator := by
  induction events generalizing s with
  | nil => rfl
  | cons e rest ih => exact ih (s := s.write e)

lemma mem_drawn_going {update : Update} : .settles ∉ marks ((drawn p update).map .wrote) := by
  intro hmem
  simp only [marks, List.map_map, List.mem_map, drawn, List.mem_append, List.mem_ite_nil_right,
    List.mem_singleton] at hmem
  obtain ⟨e, (⟨-, rfl⟩ | ⟨-, rfl⟩) | ⟨-, rfl⟩, hmark⟩ := hmem <;> cases hmark

/-- A frame opens and closes what the accumulator says it does. -/
lemma Nested.preview (h : s.Nested ps) : (s.preview p).Nested (ps ++ [p]) := by
  obtain ⟨s₁, events, heq, hlog, -, -, haccumulator, hevents⟩ := preview_cases (s := s) (p := p)
  have hstep := (accumulate_tracks ps).step (p := p)
  have hmarks : marks (s₁.writeAll events).log =
      marks s.log ++ .other :: marks (events.map .wrote) := by
    simp [writeAll_log, hlog, marks, Entry.mark]
  rw [h.accumulator] at haccumulator hevents
  have hscan := h.scan
  rw [heq]
  refine ⟨?_, ?_, ?_⟩
  · rw [writeAll_accumulator, haccumulator, accumulate_snoc]
    unfold openStep
    cases (accumulate ps).1.accept p with
    | mk a update => cases update <;> rfl
  · rw [hmarks, Mark.scan_append, hscan]
    simp only [Option.bind_some, Mark.scan_cons, Mark.step, leftOpen, accumulate_snoc]
    rcases hevents with ⟨hnone, rfl⟩ | ⟨update, hsome, rfl⟩
    · rcases hstep.2 with ⟨-, hheld⟩ | ⟨update, hsome, -⟩
      · simp [marks, hheld]
      · rw [hnone] at hsome
        cases hsome
    · rcases hstep.2 with ⟨hnone, -⟩ | ⟨update', hsome', hdrawn⟩
      · rw [hnone] at hsome
        cases hsome
      · rw [hsome, Option.some.injEq] at hsome'
        exact hsome' ▸ hdrawn
  · rw [hmarks]
    simp only [List.mem_append, List.mem_cons, reduceCtorEq, false_or, not_or]
    refine ⟨h.going, ?_⟩
    rcases hevents with ⟨-, rfl⟩ | ⟨update, -, rfl⟩
    · simp [marks]
    · exact mem_drawn_going

lemma Nested.previews {frames : List Frame} (h : s.Nested ps) :
    (frames.foldl Stream.preview s).Nested (ps ++ frames) := by
  induction frames generalizing s ps with
  | nil => simpa using h
  | cons p rest ih => simpa using ih h.preview

/-- A pass takes its frames. -/
lemma Nested.pass (h : s.Nested ps) (hgoing : s.returned = false) :
    (s.pass i).Nested (ps ++ i.frames) := by
  unfold Stream.pass
  rw [if_neg (by simp [hgoing])]
  dsimp only
  split
  · exact h.previews.note rfl
  · exact h.previews

lemma Nested.snapshot {messages : List Message} (h : s.Nested ps) :
    (s.snapshot messages).Nested ps := by
  have hsame : Nested { s with lastCanonical := messages } ps := h.same rfl rfl
  exact hsame.note rfl

lemma Nested.replace {waiting : Bool} {read : Except Failure (List Task)} (h : s.Nested ps) :
    (replace o s waiting read).1.Nested ps := by
  rcases replace_cases o s waiting read with
    ⟨tasks, messages, -, -, heq⟩ | ⟨-, s', e, heq, rfl | ⟨tasks, rfl⟩⟩ <;> rw [heq]
  · exact (h.note rfl).snapshot
  · exact h
  · exact h.note rfl

lemma Nested.present (h : s.Nested ps) (o : StreamOptions) (task : Task) (key : CanonicalKey)
    (waiting ended : Bool) (read : Except Failure (List Task)) :
    (s.present o task key waiting ended read).1.Nested ps := by
  unfold Stream.present
  split
  · dsimp only
    split
    · have hreplace : (Stream.replace o { s with canonicalKey := some key, provisional := false }
          waiting read).1.Nested ps := Nested.replace (h.same rfl rfl)
      cases hresult : Stream.replace o { s with canonicalKey := some key, provisional := false }
          waiting read with
      | mk s' outcome =>
        rw [hresult] at hreplace
        cases outcome with
        | completed => exact hreplace.same rfl rfl
        | _ => exact hreplace
    · have hsame : Nested { s with canonicalKey := some key } ps := h.same rfl rfl
      exact hsame.emits.same rfl rfl
  · exact h

/-! ### What ends a run -/

/-- A history that can be shown. -/
def Readable (read : Except Failure (List Task)) : Prop :=
  ∃ tasks, read = .ok tasks ∧ (history tasks).isSome = true

/-- The events a task that was read finishes the run with, unless a resumed run waits for it. -/
def terminal (o : StreamOptions) (s : Stream) (task : Task) (pending : List Interrupt) :
    Option (Option (List BaseEvent)) :=
  if s.waitsForResume o task (pending.map (·.id)) then some none
  else finish task o.threadId o.runId

/-- What was sent is replaced by the history of the thread. -/
def Rereads (s : Stream) (task : Task) (pending : List Interrupt) (ended : Bool) : Prop :=
  ended = true ∨ s.provisional = true ∧
    s.canonicalKey ≠ some (Web.canonicalKey task (pending.map (·.id)))

/-- A task that was read ends the run: as the run expires with the history unread, or once the
history was read where it has to be, because the task is over or a resumed run waited too long. -/
def TaskEnds (o : StreamOptions) (s : Stream) (task : Task) (r : Reads) : Prop :=
  ∃ pending terminal, interrupts task = some pending ∧
    s.terminal o task pending = some terminal ∧
    (s.Rereads task pending terminal.isSome ∧ r.history = .error (.aborted true) ∨
      (s.Rereads task pending terminal.isSome → Readable r.history) ∧
        (terminal.isSome = true ∨
          s.waitsForResume o task (pending.map (·.id)) = true ∧ r.late = true))

/-- A failure ends the run by expiry, or as the fifth in a row. -/
def Fatal (s : Stream) : Failure → Prop
  | .aborted expired => expired = true
  | .transient => 5 ≤ s.failures + 1

def ReadEnds (o : StreamOptions) (s : Stream) (r : Reads) : Prop :=
  match r.task with
  | .error e => s.Fatal e
  | .ok task => s.TaskEnds o task r

/-- The pass finishes the run, or ends it with an error: the run expired, its deadline has passed,
or its canonical read ends it. -/
def Ends (o : StreamOptions) (s : Stream) (i : Iteration) : Prop :=
  s.returned = false ∧ (i.aborted = some true ∨ i.aborted = none ∧
    (i.deadline = true ∨ i.deadline = false ∧ ∃ r, i.reads = some r ∧ s.ReadEnds o r))

/-- How a read task is presented: in whole, unless the history has to be read and is not. -/
lemma present_outcome (o : StreamOptions) (s : Stream) (task : Task) (key : CanonicalKey)
    (waiting ended : Bool) (read : Except Failure (List Task)) {rereads : Prop}
    (hrereads : rereads ↔ ended = true ∨ s.provisional = true ∧ s.canonicalKey ≠ some key) :
    (rereads → Readable read) ∧ (s.present o task key waiting ended read).2 = .completed ∨
    rereads ∧ ¬ Readable read ∧ ∃ e, (s.present o task key waiting ended read).2 = .threw e ∧
      (s.present o task key waiting ended read).1.failures = s.failures ∧
      (e = .transient ∧ (∃ tasks, read = .ok tasks) ∨ read = .error e) := by
  unfold Stream.present
  split
  · rename_i hchanged
    dsimp only
    split
    · rename_i hnow
      have hyes : rereads := by
        rw [hrereads]
        cases ended with
        | true => exact .inl rfl
        | false => exact .inr (by simpa [and_comm] using And.intro hchanged hnow)
      rcases replace_cases o { s with canonicalKey := some key, provisional := false } waiting read
        with ⟨tasks, messages, rfl, hhistory, heq⟩ | ⟨hunread, s', e, heq, hs'⟩
      · rw [heq]
        exact .inl ⟨fun _ => ⟨tasks, rfl, by rw [hhistory]; rfl⟩, rfl⟩
      · have hnot : ¬ Readable read := by
          rintro ⟨tasks, hread, hsome⟩
          rw [hunread tasks hread] at hsome
          cases hsome
        refine .inr ⟨hyes, hnot, e, by rw [heq], ?_, ?_⟩
        · rw [heq]
          rcases hs' with rfl | ⟨tasks, rfl⟩ <;> rfl
        · cases read with
          | error e' =>
            cases heq
            exact .inr rfl
          | ok tasks =>
            simp only [Stream.replace, hunread tasks rfl] at heq
            cases heq
            exact .inl ⟨rfl, tasks, rfl⟩
    · rename_i hnow
      refine .inl ⟨fun h => ?_, rfl⟩
      simp only [Bool.or_eq_true, not_or, Bool.not_eq_true] at hnow
      rcases hrereads.mp h with hended | ⟨hprovisional, -⟩
      · rw [hnow.2] at hended
        cases hended
      · rw [hnow.1] at hprovisional
        cases hprovisional
  · rename_i hsame
    refine .inl ⟨fun h => ?_, rfl⟩
    simp only [Bool.or_eq_true, bne_iff_ne, ne_eq, not_or, not_not, Bool.not_eq_true] at hsame
    rcases hrereads.mp h with hended | ⟨-, hchanged⟩
    · rw [hsame.2] at hended
      cases hended
    · exact absurd hsame.1 hchanged

/-! ### The end of a run -/

/-- The run has ended, after these frames, with an event at which all messages have to be closed. -/
def Ended (s : Stream) (ps : List Frame) : Prop :=
  s.returned = true ∧ ∃ before, Mark.scan [] before = some (leftOpen ps) ∧
    marks s.log = before ++ [.settles]

lemma Nested.reconnect (h : s.Nested ps) : s.reconnect.Ended ps := by
  have hmarks : marks s.reconnect.log = marks (s.snapshot s.lastCanonical).log ++ [.settles] := by
    simp [Stream.reconnect, write, done, Stream.note, marks, Entry.mark]
  exact ⟨rfl, _, h.snapshot.scan, hmarks⟩

lemma finish_ends {threadId runId : String} {events : List BaseEvent}
    (h : finish task threadId runId = some (some events)) : ∃ calls last, events = calls ++ [last] ∧
      (∀ e ∈ calls, (Entry.wrote e).mark = .other) ∧ (Entry.wrote last).mark = .settles := by
  unfold finish at h
  cases hstate : task.state? with
  | none =>
    rw [hstate] at h
    cases h
  | some state =>
    rw [hstate] at h
    cases state with
    | inputRequired =>
      simp only [Option.bind_eq_bind, Option.bind_eq_some_iff] at h
      obtain ⟨pending, -, h⟩ := h
      split at h
      · cases h
        exact ⟨[], _, rfl, by simp, rfl⟩
      · cases h
        refine ⟨_, _, rfl, fun e he => ?_, rfl⟩
        obtain ⟨call, -, he⟩ := List.mem_flatMap.mp he
        simp only [ToolCall.events, List.mem_cons, List.not_mem_nil, or_false] at he
        rcases he with rfl | rfl | rfl <;> rfl
    | completed | canceled | failed | rejected =>
      cases h
      exact ⟨[], _, rfl, by simp, rfl⟩
    | _ => cases h

lemma Nested.finish {threadId runId : String} {events : List BaseEvent} (h : s.Nested ps)
    (hfinish : finish task threadId runId = some (some events)) :
    (s.writeAll events).done.Ended ps := by
  obtain ⟨calls, last, rfl, hcalls, hlast⟩ := finish_ends hfinish
  have hothers : Mark.scan (leftOpen ps) (marks (calls.map .wrote)) = some (leftOpen ps) := by
    refine Mark.scan_others fun mark hmark => ?_
    simp only [marks, List.map_map, List.mem_map] at hmark
    obtain ⟨e, he, rfl⟩ := hmark
    exact hcalls e he
  refine ⟨rfl, marks s.log ++ marks (calls.map .wrote), ?_, ?_⟩
  · rw [Mark.scan_append, h.scan]
    exact hothers
  · change marks (s.writeAll (calls ++ [last])).log = _
    simp [writeAll_log, marks, hlast]

lemma terminal_finish {pending : List Interrupt} {events : List BaseEvent}
    (h : s.terminal o task pending = some (some events)) :
    finish task o.threadId o.runId = some (some events) := by
  unfold terminal at h
  split at h
  · cases h
  · exact h

/-- What a canonical read comes to. -/
inductive Comes (ps : List Frame) (ends : Prop) : Stream × Outcome → Prop
  | completed {s : Stream} (nested : s.Nested ps) (goes : ¬ ends) : Comes ps ends (s, .completed)
  | returned {s : Stream} (ended : s.Ended ps) (settled : ends) : Comes ps ends (s, .returned)
  | threw {s : Stream} {e : Failure} (nested : s.Nested ps) (fatal : ends ↔ s.Fatal e) :
    Comes ps ends (s, .threw e)

lemma not_taskEnds (hpending : interrupts task = none) : ¬ s.TaskEnds o task r := by
  rintro ⟨pending, terminal, hsome, -⟩
  rw [hpending] at hsome
  cases hsome

/-- What a task that was read makes of the run, from what it waits for. -/
lemma taskEnds_iff {pending : List Interrupt} (hpending : interrupts task = some pending) :
    s.TaskEnds o task r ↔ ∃ terminal, s.terminal o task pending = some terminal ∧
      (s.Rereads task pending terminal.isSome ∧ r.history = .error (.aborted true) ∨
        (s.Rereads task pending terminal.isSome → Readable r.history) ∧
          (terminal.isSome = true ∨
            s.waitsForResume o task (pending.map (·.id)) = true ∧ r.late = true)) := by
  constructor
  · rintro ⟨pending', terminal, hsome, h⟩
    rw [hpending, Option.some.injEq] at hsome
    subst hsome
    exact ⟨terminal, h⟩
  · exact fun ⟨terminal, h⟩ => ⟨pending, terminal, hpending, h⟩

/-- What a task that was presented comes to. -/
lemma Nested.conclude {terminal : Option (List BaseEvent)} {late : Bool} {ends : Prop}
    (h : s.Nested ps)
    (hevents : ∀ events, terminal = some events →
      Web.finish task o.threadId o.runId = some (some events))
    (hends : ends ↔ terminal.isSome = true ∨ late = true) :
    Comes ps ends (Stream.conclude terminal late (s, .completed)) := by
  unfold Stream.conclude
  dsimp only
  cases terminal with
  | some events =>
    exact .returned (h.finish (hevents events rfl)) (hends.mpr (.inl rfl))
  | none =>
    dsimp only
    split
    · rename_i hlate
      exact .returned h.reconnect (hends.mpr (.inr hlate))
    · rename_i hlate
      refine .completed h fun hyes => ?_
      rcases hends.mp hyes with hsome | hyes
      · cases hsome
      · exact hlate hyes

lemma Nested.follow (h : s.Nested ps) (hzero : s.failures = 0) :
    Comes ps (s.TaskEnds o task r) (follow o s task r) := by
  have hcalm : ∀ {s' : Stream}, s'.failures = 0 → ¬ s'.Fatal .transient := by
    intro s' hs'
    simp [Fatal, hs']
  have hnever : ∀ {s' : Stream}, s'.failures = 0 → ¬ s.TaskEnds o task r →
      (s.TaskEnds o task r ↔ s'.Fatal .transient) := fun hs' hnot => iff_of_false hnot (hcalm hs')
  unfold Stream.follow
  cases hpending : interrupts task with
  | none => exact .threw h (hnever hzero (not_taskEnds hpending))
  | some pending =>
    dsimp only
    generalize hs₁ : (if s.waitsForResume o task (pending.map (·.id)) = true then s
      else { s with acceptedResume := true }) = s₁
    have hsame : s₁.log = s.log ∧ s₁.accumulator = s.accumulator ∧ s₁.failures = s.failures ∧
        s₁.provisional = s.provisional ∧ s₁.canonicalKey = s.canonicalKey := by
      subst hs₁
      split <;> exact ⟨rfl, rfl, rfl, rfl, rfl⟩
    obtain ⟨hlog, haccumulator, hfailures, hprovisional, hkey⟩ := hsame
    have hnested : s₁.Nested ps := h.same hlog haccumulator
    have hfold : (if s.waitsForResume o task (pending.map (·.id)) = true then some none
        else Web.finish task o.threadId o.runId) = s.terminal o task pending := rfl
    rw [hfold]
    cases hterminal : s.terminal o task pending with
    | none =>
      refine .threw hnested (hnever (hfailures.trans hzero) ?_)
      rw [taskEnds_iff hpending, hterminal]
      rintro ⟨terminal, hsome, -⟩
      cases hsome
    | some terminal =>
      have hends : s.TaskEnds o task r ↔
          s.Rereads task pending terminal.isSome ∧ r.history = .error (.aborted true) ∨
          (s.Rereads task pending terminal.isSome → Readable r.history) ∧
            (terminal.isSome = true ∨
              s.waitsForResume o task (pending.map (·.id)) = true ∧ r.late = true) := by
        rw [taskEnds_iff hpending]
        simp only [hterminal, Option.some.injEq, exists_eq_left']
      have hrereads : s.Rereads task pending terminal.isSome ↔ terminal.isSome = true ∨
          s₁.provisional = true ∧
            s₁.canonicalKey ≠ some (Web.canonicalKey task (pending.map (·.id))) := by
        rw [hprovisional, hkey]
        rfl
      have hpresented := hnested.present o task (Web.canonicalKey task (pending.map (·.id)))
        (s.waitsForResume o task (pending.map (·.id))) terminal.isSome r.history
      have houtcome := present_outcome o s₁ task _ (s.waitsForResume o task (pending.map (·.id))) _
        r.history hrereads
      dsimp only
      cases hresult : s₁.present o task (Web.canonicalKey task (pending.map (·.id)))
          (s.waitsForResume o task (pending.map (·.id))) terminal.isSome r.history with
      | mk s₂ outcome =>
        rw [hresult] at hpresented houtcome
        rcases houtcome with ⟨hread, rfl⟩ | ⟨hyes, hnot, e, rfl, hfails, he⟩
        · refine hpresented.conclude
            (fun events heq => terminal_finish (hterminal.trans (congrArg some heq))) ?_
          -- the history did not expire unread
          have hexpires : ¬ (s.Rereads task pending terminal.isSome ∧
              r.history = .error (.aborted true)) := by
            rintro ⟨hyes, herror⟩
            obtain ⟨tasks, htasks, -⟩ := hread hyes
            rw [herror] at htasks
            cases htasks
          rw [hends, or_iff_right hexpires, and_iff_right hread, Bool.and_eq_true]
        · have hiff : s.TaskEnds o task r ↔ r.history = .error (.aborted true) := by
            rw [hends]
            constructor
            · rintro (⟨-, h⟩ | ⟨h, -⟩)
              · exact h
              · exact absurd (h hyes) hnot
            · exact fun h => .inl ⟨hyes, h⟩
          have hcount : s₂.failures = 0 := hfails.trans (hfailures.trans hzero)
          refine .threw hpresented ?_
          rw [hiff]
          rcases he with ⟨rfl, tasks, htasks⟩ | he
          · exact iff_of_false (by simp [htasks]) (hcalm hcount)
          · rw [he]
            cases e with
            | transient => exact iff_of_false (by simp) (hcalm hcount)
            | aborted expired => simp [Fatal]

lemma Nested.canonicalRead (h : s.Nested ps) :
    Comes ps (s.ReadEnds o r) (canonicalRead o s r) := by
  unfold Stream.canonicalRead ReadEnds
  cases r.task with
  | error e => exact .threw h Iff.rfl
  | ok task =>
    have hsame : Nested { s with failures := 0 } ps := h.same rfl rfl
    have hgot := hsame.note (e := .got task) rfl
    exact hgot.follow rfl

lemma Nested.leave (h : s.Nested ps) (expired : Bool) :
    expired = false ∧ (s.leave expired).Nested ps ∧ (s.leave expired).returned = true ∨
      expired = true ∧ (s.leave expired).Ended ps := by
  cases expired with
  | true => exact .inr ⟨rfl, h.reconnect⟩
  | false => exact .inl ⟨rfl, h.same rfl rfl, rfl⟩

lemma Nested.failed {e : Failure} (h : s.Nested ps) :
    (s.failed e).Nested ps ∧ ¬ s.Fatal e ∨ (s.failed e).Ended ps ∧ s.Fatal e := by
  cases e with
  | aborted expired =>
    rcases h.leave expired with ⟨hno, hnested, -⟩ | ⟨hyes, hended⟩
    · exact .inl ⟨hnested, by simp [Fatal, hno]⟩
    · exact .inr ⟨hended, hyes⟩
  | transient =>
    have hsame : Nested { s with failures := s.failures + 1 } ps := h.same rfl rfl
    unfold Stream.failed Fatal
    dsimp only
    split
    · rename_i hfifth
      exact .inr ⟨hsame.reconnect, hfifth⟩
    · rename_i hfifth
      exact .inl ⟨hsame, hfifth⟩

lemma Nested.readStep (h : s.Nested ps) :
    (s.readStep o r).Nested ps ∧ ¬ s.ReadEnds o r ∨ (s.readStep o r).Ended ps ∧ s.ReadEnds o r := by
  have hcomes := h.canonicalRead (o := o) (r := r)
  unfold Stream.readStep
  cases hresult : Stream.canonicalRead o s r with
  | mk s' outcome =>
    rw [hresult] at hcomes
    cases hcomes with
    | completed hnested hgoes => exact .inl ⟨hnested, hgoes⟩
    | returned hended hsettled => exact .inr ⟨hended, hsettled⟩
    | threw hnested hfatal =>
      rw [hfatal]
      exact hnested.failed

/-- A pass ends the run exactly when it is said to; otherwise the run goes on after its frames, or
is left without an event. -/
lemma Nested.iterate (h : s.Nested ps) (hgoing : s.returned = false) :
    ¬ s.Ends o i ∧ (∃ qs, (iterate o s i).Nested qs ∧
        ((iterate o s i).returned = false → qs = ps ++ i.frames)) ∨
      s.Ends o i ∧ (iterate o s i).Ended ps := by
  unfold Stream.iterate Ends
  rw [if_neg (by simp [hgoing])]
  cases i.aborted with
  | some expired =>
    rcases h.leave expired with ⟨rfl, hnested, hleft⟩ | ⟨rfl, hended⟩
    · exact .inl ⟨by simp, ps, hnested, fun hon => by simp [hleft] at hon⟩
    · exact .inr ⟨⟨hgoing, .inl rfl⟩, hended⟩
  | none =>
    dsimp only
    cases hdeadline : i.deadline with
    | true => exact .inr ⟨⟨hgoing, .inr ⟨rfl, .inl rfl⟩⟩, h.reconnect⟩
    | false =>
      rw [if_neg Bool.false_ne_true]
      cases hreads : i.reads with
      | none => exact .inl ⟨by simp, _, h.pass hgoing, fun _ => rfl⟩
      | some r =>
        dsimp only
        rcases h.readStep (o := o) (r := r) with ⟨hnested, hgoes⟩ | ⟨hended, hsettled⟩
        · refine .inl ⟨?_, ?_⟩
          · rintro ⟨-, h | ⟨-, h | ⟨-, r', hr', h⟩⟩⟩
            · cases h
            · cases h
            · cases hr'
              exact hgoes h
          · cases hleft : (s.readStep o r).returned with
            | true =>
              have hover : (s.readStep o r).pass i = s.readStep o r := by simp [Stream.pass, hleft]
              rw [hover]
              exact ⟨ps, hnested, fun hon => by simp [hleft] at hon⟩
            | false => exact ⟨_, hnested.pass hleft, fun _ => rfl⟩
        · refine .inr ⟨⟨hgoing, .inr ⟨rfl, .inr ⟨rfl, r, rfl, hsettled⟩⟩⟩, ?_⟩
          have hover : (s.readStep o r).pass i = s.readStep o r := by simp [Stream.pass, hended.1]
          rw [hover]
          exact hended

lemma begin_nested {initial : Except Failure (List Task)} : (begin o initial).Nested [] := by
  have hempty : Nested {} [] := ⟨rfl, rfl, by simp [marks]⟩
  have hstarted : (Stream.write {} (.runStarted o.threadId o.runId)).Nested [] := hempty.note rfl
  unfold begin
  cases initial with
  | error e => exact hstarted.same rfl rfl
  | ok tasks =>
    have hlisted := hstarted.note (e := .listed tasks) rfl
    dsimp only
    cases history tasks with
    | none => exact hlisted.same rfl rfl
    | some messages => exact hlisted.snapshot.same rfl rfl

lemma split_snoc {α : Type} {before after xs : List α} {x y : α}
    (h : xs ++ [x] = before ++ y :: after) :
    (before = xs ∧ y = x) ∨ ∃ rest, xs = before ++ y :: rest := by
  rcases List.eq_nil_or_concat after with rfl | ⟨rest, z, rfl⟩
  · obtain ⟨hxs, hx⟩ := List.append_inj' h rfl
    exact .inl ⟨hxs.symm, (List.singleton_inj.mp hx).symm⟩
  · refine .inr ⟨rest, ?_⟩
    rw [List.concat_eq_append, ← List.cons_append, ← List.append_assoc] at h
    exact (List.append_inj' h rfl).1

/-- A run whose passes have not ended it goes on; one that a pass ended did so after the frames of
the passes before. -/
lemma run_cases (o : StreamOptions) (initial : Except Failure (List Task))
    (its : List Iteration) :
    ((∀ before i after, its = before ++ i :: after → ¬ (run o initial before).Ends o i) ∧
      ∃ ps, (run o initial its).Nested ps ∧
        ((run o initial its).returned = false → ps = its.flatMap (·.frames))) ∨
    (∃ before i after, its = before ++ i :: after ∧ (run o initial before).Ends o i) ∧
      ∃ ps, (run o initial its).Ended ps ∧ ∀ before i after, its = before ++ i :: after →
        (run o initial before).Ends o i → ps = before.flatMap (·.frames) := by
  induction its using List.reverseRecOn with
  | nil => exact .inl ⟨by simp, [], begin_nested, fun _ => rfl⟩
  | append_singleton its i ih =>
    have hstay : (run o initial its).returned = true →
        iterate o (run o initial its) i = run o initial its := by
      intro h
      simp [iterate, h]
    rw [run_snoc]
    rcases ih with ⟨hnone, ps, hnested, hps⟩ | ⟨⟨before, j, after, heq, hends⟩, ps, hended, hps⟩
    · cases hreturned : (run o initial its).returned with
      | true =>
        rw [hstay hreturned]
        refine .inl ⟨fun before j after heq hends => ?_, ps, hnested, fun hon => ?_⟩
        · rcases split_snoc heq with ⟨rfl, rfl⟩ | ⟨rest, hrest⟩
          · rw [hends.1] at hreturned
            cases hreturned
          · exact hnone _ _ _ hrest hends
        · rw [hreturned] at hon
          cases hon
      | false =>
        obtain rfl := hps hreturned
        rcases hnested.iterate (o := o) (i := i) hreturned with
          ⟨hgoes, qs, hqs, hframes⟩ | ⟨hends, hended⟩
        · refine .inl ⟨fun before j after heq hends => ?_, qs, hqs, fun hon => ?_⟩
          · rcases split_snoc heq with ⟨rfl, rfl⟩ | ⟨rest, hrest⟩
            · exact hgoes hends
            · exact hnone _ _ _ hrest hends
          · rw [hframes hon]
            simp
        · refine .inr ⟨⟨its, i, [], rfl, hends⟩, _, hended, fun before j after heq hends' => ?_⟩
          rcases split_snoc heq with ⟨rfl, rfl⟩ | ⟨rest, hrest⟩
          · rfl
          · exact absurd hends' (hnone _ _ _ hrest)
    · rw [hstay hended.1]
      refine .inr ⟨⟨before, j, after ++ [i], by rw [heq]; simp, hends⟩, ps, hended,
        fun before' j' after' heq' hends' => ?_⟩
      rcases split_snoc heq' with ⟨rfl, rfl⟩ | ⟨rest, hrest⟩
      · have hgoing := hends'.1
        rw [hended.1] at hgoing
        cases hgoing
      · exact hps _ _ _ hrest hends'

/-- **Brackets.** The events of a run are well bracketed exactly when no preview is open among the
frames taken before the pass that finishes the run or ends it with an error. -/
theorem well_bracketed_iff (o : StreamOptions) (initial : Except Failure (List Task))
    (its : List Iteration) :
    Mark.WellBracketed (marks (run o initial its).log) ↔
      ∀ before i after, its = before ++ i :: after → (run o initial before).Ends o i →
        ∀ id, ¬ StaysOpen (before.flatMap (·.frames)) id := by
  rcases run_cases o initial its with
    ⟨hnone, ps, hnested, -⟩ | ⟨⟨before, i, after, heq, hends⟩, ps, ⟨-, log, hscan, hlog⟩, hps⟩
  · have hwell : Mark.WellBracketed (marks (run o initial its).log) := by
      simp [Mark.WellBracketed, hnested.scan]
    exact iff_of_true hwell fun before i after heq hends => absurd hends (hnone before i after heq)
  · rw [hlog, Mark.settles_iff hscan, leftOpen_eq_nil]
    constructor
    · intro h before' i' after' heq' hends'
      rw [← hps before' i' after' heq' hends']
      exact h
    · intro h
      rw [hps before i after heq hends]
      exact h before i after heq hends

/-! ### A preview that is left open -/

def inState (state : TaskState) : Task := { id := "task", status := some { state } }

/-- A preview starts, and the task completes before the preview ends. -/
def cutShort : List Iteration :=
  [{ frames := [{ previewId := ascii "p", offset := 0, type := .start }] },
    { reads := some
        { task := .ok (inState .completed)
          history := .ok [inState .completed] } }]

theorem open_preview_finishes : ¬ Mark.WellBracketed (marks
    (run { threadId := "thread", taskId := "task", runId := "run" } (.ok [inState .working])
      cutShort).log) := by
  decide

end Stream

end ManagedAgents.Web
